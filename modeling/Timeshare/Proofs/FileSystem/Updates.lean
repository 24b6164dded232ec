import Mathlib.Data.List.Perm.Basic
import Timeshare.Proofs.FileSystem.Catalogue
import Timeshare.Proofs.Text

/-!
# What the operations on files do to the catalogue

For each operation: when it is carried out, the files it leaves, and the error it gives otherwise,
in which case the file system is as it was.
-/

namespace Timeshare

namespace FileSystem.Catalogues

open Chain

variable {files : FileSystem} {stored rest : List StoredFile} {file : StoredFile} {name : String}

/-! ## Opening a file -/

theorem perform_openFile (catalogue : files.Catalogues (file :: rest))
    (named : file.name = Text.utf8Bytes name) :
    perform (inspect (FileSystem.openFile name)) files =
      (.ok (file.entry, file.chain), files) := by
  rw [perform_inspect, catalogue.openFile named]

/-! ## Creating a file -/

theorem checkNewName (catalogue : files.Catalogues stored) (name : String) :
    files.checkNewName name =
      if name = "" then .error (.invalidName name)
      else if contentSize < (Text.utf8Bytes name).length then .error (.nameTooLong name)
      else if ∃ file ∈ stored, file.name = Text.utf8Bytes name then
        .error (.fileAlreadyExists name)
      else .ok () := by
  simp only [FileSystem.checkNewName, requireFormatted, catalogue.accounts.formatted, if_true,
    String.isEmpty_iff]
  change (if name = "" then _ else _) = _
  split
  · rfl
  · split
    · rfl
    · split
      · rename_i present
        rcases present with ⟨file, member, named⟩
        rw [catalogue.findEntry member named]
        rfl
      · rename_i absent
        rw [catalogue.findEntry_none fun file member named => absent ⟨file, member, named⟩]
        rfl

theorem checkNewName_eq_ok (catalogue : files.Catalogues stored) :
    files.checkNewName name = .ok () ↔ name ≠ "" ∧
      (Text.utf8Bytes name).length ≤ contentSize ∧
        ∀ file ∈ stored, file.name ≠ Text.utf8Bytes name := by
  rw [catalogue.checkNewName]
  by_cases empty : name = ""
  · simp [empty]
  by_cases long : contentSize < (Text.utf8Bytes name).length
  · simp [empty, long, Nat.not_le.mpr long]
  by_cases present : ∃ file ∈ stored, file.name = Text.utf8Bytes name
  · simp [empty, long, present]
  · rw [if_neg empty, if_neg long, if_neg present]
    exact ⟨fun _ => ⟨empty, Nat.le_of_not_lt long, fun file member named =>
      present ⟨file, member, named⟩⟩, fun _ => rfl⟩

theorem createFile_refused {error : FileSystemError}
    (refused : files.checkNewName name = .error error) :
    perform (createFile name) files = (.error error, files) :=
  perform_inspect_error _ refused

theorem createFile_full (checked : files.checkNewName name = .ok ())
    (full : files.freeDirectory.elements = []) :
    perform (createFile name) files = (.error .noAvailableSpace, files) := by
  have looked : perform (inspect (FileSystem.checkNewName name)) files = (.ok (), files) := by
    rw [perform_inspect, checked]
  rw [FileSystem.createFile, perform_bind_ok _ looked]
  refine perform_bind_error _ ?_
  rw [claimDirectoryBlock, perform_bind_ok _ (perform_modifyGet _)]
  simp [OrderedSet.popFirst?_eq_none full]

/-- A new file is catalogued without contents. -/
theorem createFile (catalogue : files.Catalogues stored)
    (nonempty : name ≠ "") (short : (Text.utf8Bytes name).length ≤ contentSize)
    (absent : ∀ file ∈ stored, file.name ≠ Text.utf8Bytes name)
    (available : files.freeDirectory.elements ≠ []) :
    ∃ location created next, perform (createFile name) files = (.ok location, next) ∧
      next.Catalogues (created :: stored) ∧ created.name = Text.utf8Bytes name ∧
      created.content = [] ∧ files.Keeps next ∧ next.freeContent = files.freeContent := by
  have looked : perform (inspect (FileSystem.checkNewName name)) files = (.ok (), files) := by
    rw [perform_inspect, catalogue.checkNewName_eq_ok.mpr ⟨nonempty, short, absent⟩]
  rcases catalogue.accounts.claimDirectoryBlock available with
    ⟨location, claimed, claim, accounted, keeps, site, untouched⟩
  rcases accounted.writeBlock ((Block.occupied location).fill (Text.utf8Bytes name)) rfl with
    ⟨next, write, accountedNext, keepsNext, _, content⟩
  rcases ⟨_, rfl⟩ with
    ⟨entry, made⟩ : ∃ entry, entry = (Block.occupied location).fill (Text.utf8Bytes name)
  have payload : entry.payload = Text.utf8Bytes name := by
    rw [made, Block.fill_payload, Block.occupied_payload, List.nil_append,
      List.take_of_length_le (by exact short)]
  rw [← made] at write accountedNext
  refine ⟨location, ⟨entry, []⟩, next, ?_, ⟨accountedNext, ?_, ?_⟩, payload, rfl,
    keeps.trans keepsNext, content.trans untouched⟩
  · rw [FileSystem.createFile, perform_bind_ok _ looked, perform_bind_ok _ claim, ← made,
      perform_bind_ok _ write, perform_pure]
  · intro other member
    rcases List.mem_cons.mp member with rfl | inRest
    · exact {
        entry_site := by simp only [made, Block.fill_location, Block.occupied_location, site]
        entry_occupied := by simp only [made, Block.fill_state, Block.occupied_state]
        named := by
          rw [StoredFile.name, payload, ne_eq, Text.utf8Bytes_eq_nil_iff]
          exact nonempty
        chain_sites := by simp
        chain_occupied := by simp
        linked := by simp only [StoredFile.blocks, Linked, made, Block.fill_pointer,
          Block.fill_location, Block.occupied_pointer, Block.occupied_location]
        packed := trivial }
    · exact catalogue.sound other inRest
  · rw [List.map_cons, List.nodup_cons]
    refine ⟨?_, catalogue.names_distinct⟩
    intro member
    rcases List.mem_map.mp member with ⟨other, inStored, same⟩
    exact absent other inStored (same.trans payload)

/-! ## Appending to a file -/

theorem appendToFile_refused (catalogue : files.Catalogues (file :: rest))
    (named : file.name = Text.utf8Bytes name) {data : List UInt8}
    (full : files.freeContent.size < blocksNeeded file.chain data) :
    perform (appendToFile name data) files = (.error .noAvailableSpace, files) := by
  rw [FileSystem.appendToFile, perform_bind_ok _ (catalogue.perform_openFile named), perform_bind_ok _ perform_get,
    if_pos full, perform_throw]

theorem blocksNeeded_nil (chain : List Block) : blocksNeeded chain [] = 0 := by
  rw [blocksNeeded]
  split <;> simp [blocksFor]

/-- The block to append to ends a chain, in which it may be replaced by a longer chain. -/
theorem tailBlock (catalogue : files.Catalogues (file :: rest)) {data : List UInt8}
    (given : data ≠ []) (available : blocksNeeded file.chain data ≤ files.freeContent.size) :
    ∃ entry front tail old next,
      perform (FileSystem.tailBlock file.entry file.chain) files = (.ok tail, next) ∧
      next.Accounts (old :: (entry :: front ++ rest.flatMap StoredFile.blocks)) ∧
      files.Keeps next ∧ tail.location = old.location ∧ tail.pointer = tail.location ∧
      tail.state = .occupied ∧ tail.location.inDirectoryTrack = false ∧
      blocksFor (data.length - tail.room) ≤ next.freeContent.size ∧
      next.freeContent.elements.drop (blocksFor (data.length - tail.room)) =
        files.freeContent.elements.drop (blocksNeeded file.chain data) ∧
      entry.payload = file.name ∧ front.flatMap Block.payload ++ tail.payload = file.content ∧
      ∀ head more, head.location = tail.location → Linked (head :: more) →
        Packed ((head :: more).map Block.payload) →
        (∀ block ∈ head :: more,
          block.state = .occupied ∧ block.location.inDirectoryTrack = false) →
        StoredFile.Sound ⟨entry, front ++ head :: more⟩ := by
  have sound := catalogue.sound file List.mem_cons_self
  rcases file with ⟨entry, chain⟩
  rcases List.eq_nil_or_concat chain with rfl | ⟨front, tail, rfl⟩
  · have needed : blocksFor data.length ≤ files.freeContent.size := available
    rw [blocksFor_pos (List.length_pos_iff.mpr given)] at needed
    rcases catalogue.accounts.claimContentBlock (Nat.lt_of_lt_of_le (Nat.succ_pos _) needed) with
      ⟨location, claimed, claim, accounted, keeps, site, taken⟩
    rcases (accounted.perm (List.Perm.swap ..)).writeBlock { entry with pointer := location }
        rfl with
      ⟨next, write, accountedNext, keepsNext, _, content⟩
    refine ⟨{ entry with pointer := location }, [], Block.occupied location,
      Block.available location, next, ?_, accountedNext.perm (List.Perm.swap ..),
      keeps.trans keepsNext, rfl, rfl, rfl, site, ?_, ?_, rfl, rfl, ?_⟩
    · rw [FileSystem.tailBlock]
      simp only [List.getLast?_nil]
      rw [perform_bind_ok _ claim, Block.occupied_location, perform_bind_ok _ write, perform_pure]
    · rw [content, Block.room, Block.occupied_length, Nat.sub_zero]
      rw [OrderedSet.size_eq_length, taken, List.length_cons] at needed
      exact Nat.le_of_succ_le_succ needed
    · have whole : blocksNeeded [] data = blocksFor data.length := rfl
      rw [content, Block.room, Block.occupied_length, Nat.sub_zero, taken, whole,
        blocksFor_pos (List.length_pos_iff.mpr given), List.drop_succ_cons]
    · intro head more start linked packed states
      exact {
        entry_site := sound.entry_site
        entry_occupied := sound.entry_occupied
        named := sound.named
        chain_sites := fun block member => (states block member).2
        chain_occupied := fun block member => (states block member).1
        linked := ⟨start.symm, linked⟩
        packed := packed }
  · rw [List.concat_eq_append] at available sound catalogue ⊢
    refine ⟨entry, front, tail, tail, files, ?_, catalogue.accounts.perm ?_, Keeps.refl files, rfl,
      ?_, ?_, ?_, ?_, ?_, rfl, ?_, ?_⟩
    · simp only [FileSystem.tailBlock, List.getLast?_concat, perform_pure]
    · simp only [List.flatMap_cons, StoredFile.blocks, List.append_assoc, List.cons_append,
        List.nil_append]
      exact (List.perm_middle.cons entry).trans (List.Perm.swap ..)
    · exact @Linked.last (entry :: front) tail sound.linked
    · exact sound.chain_occupied tail (by simp)
    · exact sound.chain_sites tail (by simp)
    · simpa [blocksNeeded] using available
    · simp [blocksNeeded]
    · simp [StoredFile.content]
    · intro head more start linked packed states
      have old := sound.packed
      rw [List.map_append, List.map_singleton] at old
      exact {
        entry_site := sound.entry_site
        entry_occupied := sound.entry_occupied
        named := sound.named
        chain_sites := by
          intro block member
          rcases List.mem_append.mp member with inFront | inMore
          · exact sound.chain_sites block (List.mem_append_left _ inFront)
          · exact (states block inMore).2
        chain_occupied := by
          intro block member
          rcases List.mem_append.mp member with inFront | inMore
          · exact sound.chain_occupied block (List.mem_append_left _ inFront)
          · exact (states block inMore).1
        linked := @Linked.replaceLast (entry :: front) more tail head sound.linked linked start
        packed := by
          rw [List.map_append, List.map_cons]
          exact old.replaceLast packed }

/-- An appended file is catalogued with the data behind its contents. -/
theorem appendToFile (catalogue : files.Catalogues (file :: rest))
    (named : file.name = Text.utf8Bytes name) {data : List UInt8}
    (available : blocksNeeded file.chain data ≤ files.freeContent.size) :
    ∃ appended next, perform (appendToFile name data) files = (.ok ⟨⟩, next) ∧
      next.Catalogues (appended :: rest) ∧ appended.name = file.name ∧
      appended.content = file.content ++ data ∧ files.Keeps next ∧
      next.freeContent.elements =
        files.freeContent.elements.drop (blocksNeeded file.chain data) := by
  rw [FileSystem.appendToFile, perform_bind_ok _ (catalogue.perform_openFile named), perform_bind_ok _ perform_get,
    if_neg (Nat.not_lt.mpr available)]
  by_cases nothing : data = []
  · refine ⟨file, files, by simp [nothing], catalogue, rfl, by simp [nothing], Keeps.refl files, ?_⟩
    rw [nothing, blocksNeeded_nil, List.drop_zero]
  rw [if_neg (by simpa using nothing)]
  rcases catalogue.tailBlock nothing available with
    ⟨entry, front, tail, old, between, found, accounted, keeps, place, terminus, occupied, site,
      enough, claims, sameName, before, sound⟩
  rcases accounted.extendTail tail place terminus occupied site nothing enough with
    ⟨head, more, next, extended, accountedNext, keepsNext, start, linked, packed, contents, states,
      left⟩
  refine ⟨⟨entry, front ++ head :: more⟩, next, ?_, ⟨accountedNext.perm ?_, ?_, ?_⟩, sameName, ?_,
    keeps.trans keepsNext, left.trans claims⟩
  · rw [perform_bind_ok _ found, extended]
  · rw [List.flatMap_cons, StoredFile.blocks, ← List.append_assoc]
    refine List.Perm.append_right _ ?_
    rw [← List.cons_append]
    exact List.perm_append_comm
  · intro other member
    rcases List.mem_cons.mp member with rfl | inRest
    · exact sound head more start linked packed states
    · exact catalogue.sound other (List.mem_cons_of_mem _ inRest)
  · rw [List.map_cons, StoredFile.name, sameName]
    exact catalogue.names_distinct
  · rw [StoredFile.content, List.flatMap_append, contents, ← before, List.append_assoc]

theorem appendToFile_absent (catalogue : files.Catalogues stored)
    (absent : ∀ file ∈ stored, file.name ≠ Text.utf8Bytes name) (data : List UInt8) :
    perform (FileSystem.appendToFile name data) files = (.error (.fileNotFound name), files) :=
  perform_inspect_error _ (catalogue.openFile_absent absent)

/-! ## Replacing the contents of a file -/

theorem writeFile_absent (catalogue : files.Catalogues stored)
    (absent : ∀ file ∈ stored, file.name ≠ Text.utf8Bytes name) (data : List UInt8) :
    perform (FileSystem.writeFile name data) files = (.error (.fileNotFound name), files) :=
  perform_inspect_error _ (catalogue.openFile_absent absent)

theorem writeFile_refused (catalogue : files.Catalogues (file :: rest))
    (named : file.name = Text.utf8Bytes name) {data : List UInt8}
    (full : files.freeContent.size + file.chain.length < blocksFor data.length) :
    perform (FileSystem.writeFile name data) files = (.error .noAvailableSpace, files) := by
  rw [FileSystem.writeFile, perform_bind_ok _ (catalogue.perform_openFile named), perform_bind_ok _ perform_get,
    if_pos full, perform_throw]

/-- The blocks that a file gives back count towards those that its new contents take. -/
theorem writeFile (catalogue : files.Catalogues (file :: rest))
    (named : file.name = Text.utf8Bytes name) {data : List UInt8}
    (available : blocksFor data.length ≤ files.freeContent.size + file.chain.length) :
    ∃ written next, perform (FileSystem.writeFile name data) files = (.ok ⟨⟩, next) ∧
      next.Catalogues (written :: rest) ∧ written.name = file.name ∧
      written.content = data ∧ files.Keeps next := by
  have sound := catalogue.sound file List.mem_cons_self
  have order : ((file :: rest).flatMap StoredFile.blocks).Perm
      (file.chain ++ file.entry :: rest.flatMap StoredFile.blocks) := List.perm_middle.symm
  rcases (catalogue.accounts.perm order).releaseBlocks sound.chain_sites with
    ⟨released, release, accounted, keeps, size⟩
  rcases accounted.writeBlock { file.entry with pointer := file.entry.location } rfl with
    ⟨truncated, truncate, accountedTruncated, keepsTruncated, _, content⟩
  have emptied : truncated.Catalogues
      (⟨{ file.entry with pointer := file.entry.location }, []⟩ :: rest) := by
    refine ⟨accountedTruncated, ?_, catalogue.names_distinct⟩
    intro other member
    rcases List.mem_cons.mp member with rfl | inRest
    · exact {
        entry_site := sound.entry_site
        entry_occupied := sound.entry_occupied
        named := sound.named
        chain_sites := by simp
        chain_occupied := by simp
        linked := rfl
        packed := trivial }
    · exact catalogue.sound other (List.mem_cons_of_mem _ inRest)
  obtain ⟨written, next, append, catalogued, sameName, contents, keepsNext, _⟩ :=
    emptied.appendToFile named (by
      rw [content, size]
      exact available)
  refine ⟨written, next, ?_, catalogued, sameName, contents,
    (keeps.trans keepsTruncated).trans keepsNext⟩
  rw [FileSystem.writeFile, perform_bind_ok _ (catalogue.perform_openFile named), perform_bind_ok _ perform_get,
    if_neg (Nat.not_lt.mpr available), perform_bind_ok _ release, perform_bind_ok _ truncate, append]

/-! ## Deleting a file -/

theorem deleteFile_absent (catalogue : files.Catalogues stored)
    (absent : ∀ file ∈ stored, file.name ≠ Text.utf8Bytes name) :
    perform (FileSystem.deleteFile name) files = (.error (.fileNotFound name), files) :=
  perform_inspect_error _ (catalogue.openFile_absent absent)

theorem deleteFile (catalogue : files.Catalogues (file :: rest))
    (named : file.name = Text.utf8Bytes name) :
    ∃ next, perform (FileSystem.deleteFile name) files = (.ok file.chain.length, next) ∧
      next.Catalogues rest ∧ files.Keeps next := by
  have sound := catalogue.sound file List.mem_cons_self
  have order : ((file :: rest).flatMap StoredFile.blocks).Perm
      (file.chain ++ file.entry :: rest.flatMap StoredFile.blocks) := List.perm_middle.symm
  rcases (catalogue.accounts.perm order).releaseBlocks sound.chain_sites with
    ⟨released, release, accounted, keeps, _⟩
  rcases accounted.releaseDirectory sound.entry_site with
    ⟨written, write, accountedWritten, keepsWritten⟩
  refine ⟨{ written with freeDirectory := written.freeDirectory.insert file.entry.location }, ?_,
    ⟨accountedWritten, ?_, (List.nodup_cons.mp catalogue.names_distinct).2⟩, ?_⟩
  · rw [FileSystem.deleteFile, perform_bind_ok _ (catalogue.perform_openFile named), perform_bind_ok _ release,
      perform_bind_ok _ write, perform_bind_ok _ (perform_modify _), perform_pure]
  · exact fun other member => catalogue.sound other (List.mem_cons_of_mem _ member)
  · have kept := keeps.trans keepsWritten
    exact ⟨kept.geometry, kept.status, kept.swaps⟩

/-! ## Formatting -/

/-- Whatever was on the disk, after formatting it stores no file. -/
theorem format (hasBlocks : files.disk.geometry.HasBlocks) :
    ∃ next, perform FileSystem.format files =
        (.ok ⟨files.disk.geometry.fileCapacity, files.disk.geometry.contentCapacity⟩, next) ∧
      next.Catalogues [] ∧ next.disk.geometry = files.disk.geometry ∧
      next.status = files.status ∧ next.swaps = .empty := by
  rcases format_accounts hasBlocks with ⟨next, formatted, accounts, geometry, status, swaps⟩
  exact ⟨next, formatted, ⟨accounts, by simp, List.nodup_nil⟩, geometry, status, swaps⟩

/-! ## Capacity -/

/-- The disk has the boot record, directory entries and content blocks, free or not. -/
theorem sites_perm (catalogue : files.Catalogues stored) :
    (bootRecordLocation ::
      ((files.freeDirectory.elements ++ stored.map fun file => file.entry.location) ++
        (files.freeContent.elements ++
          stored.flatMap fun file => file.chain.map Block.location))).Perm
      files.disk.geometry.locations := by
  have place : bootRecord.location = bootRecordLocation := by
    rw [bootRecord, Block.fill_location, Block.occupied_location]
  refine List.Perm.trans ?_ catalogue.accounts.laidOut.locations
  have free (sites : List Location) : sites.map (Block.location ∘ Block.available) = sites :=
    List.map_id _
  simp only [freeBlocks, List.map_cons, place, List.map_append, List.map_map, List.map_flatMap,
    StoredFile.blocks, List.append_assoc, free]
  refine List.Perm.cons _ (List.Perm.append_left _ ?_)
  refine (List.perm_append_comm_assoc ..).trans (List.Perm.append_left _ ?_)
  exact List.map_append_flatMap_perm stored _ _

theorem directory_sites (catalogue : files.Catalogues stored) :
    ∀ location ∈ files.freeDirectory.elements ++ stored.map fun file => file.entry.location,
      location.isDirectoryEntry = true := by
  intro location member
  rcases List.mem_append.mp member with free | used
  · exact catalogue.accounts.directory_sites location free
  · rcases List.mem_map.mp used with ⟨file, inStored, rfl⟩
    exact (catalogue.sound file inStored).entry_site

theorem content_sites (catalogue : files.Catalogues stored) :
    ∀ location ∈ files.freeContent.elements ++
        stored.flatMap fun file => file.chain.map Block.location,
      location.inDirectoryTrack = false := by
  intro location member
  rcases List.mem_append.mp member with free | used
  · exact catalogue.accounts.content_sites location free
  · rcases List.mem_flatMap.mp used with ⟨file, inStored, inChain⟩
    rcases List.mem_map.mp inChain with ⟨block, inBlocks, rfl⟩
    exact (catalogue.sound file inStored).chain_sites block inBlocks

theorem directory_sites_perm (catalogue : files.Catalogues stored) :
    (files.freeDirectory.elements ++ stored.map fun file => file.entry.location).Perm
      (files.disk.geometry.locations.filter Location.isDirectoryEntry) := by
  have order := catalogue.sites_perm.filter Location.isDirectoryEntry
  rw [List.filter_cons_of_neg (by decide), List.filter_append,
    List.filter_eq_self.mpr catalogue.directory_sites, List.filter_eq_nil_iff.mpr,
    List.append_nil] at order
  · exact order
  · intro location member
    simp [Location.isDirectoryEntry, catalogue.content_sites location member]

theorem content_sites_perm (catalogue : files.Catalogues stored) :
    (files.freeContent.elements ++
      stored.flatMap fun file => file.chain.map Block.location).Perm
        (files.disk.geometry.locations.filter fun location => !location.inDirectoryTrack) := by
  have order := catalogue.sites_perm.filter fun location => !location.inDirectoryTrack
  rw [List.filter_cons_of_neg (by decide), List.filter_append, List.filter_eq_nil_iff.mpr,
    List.filter_eq_self.mpr, List.nil_append] at order
  · exact order
  · intro location member
    simp [catalogue.content_sites location member]
  · intro location member
    have site := catalogue.directory_sites location member
    rw [Location.isDirectoryEntry, Bool.and_eq_true] at site
    simp [site.1]

/-- Files and free directory entries together are as many as the directory has room for. -/
theorem length_add_freeDirectory (catalogue : files.Catalogues stored)
    (hasBlocks : files.disk.geometry.HasBlocks) :
    files.freeDirectory.size + stored.length = files.disk.geometry.fileCapacity := by
  have counted := catalogue.directory_sites_perm.length_eq
  rwa [List.length_append, List.length_map, length_directorySites hasBlocks] at counted

/-- The blocks of all files and the free content blocks together are all content blocks. -/
theorem blocks_add_freeContent (catalogue : files.Catalogues stored)
    (hasBlocks : files.disk.geometry.HasBlocks) :
    files.freeContent.size + (stored.flatMap StoredFile.chain).length =
      files.disk.geometry.contentCapacity := by
  have counted := catalogue.content_sites_perm.length_eq
  rwa [List.length_append, ← List.map_flatMap, List.length_map, ← OrderedSet.size_eq_length,
    Geometry.length_contentSites hasBlocks.tracks] at counted

end FileSystem.Catalogues

end Timeshare
