import Timeshare.Proofs.FileSystem.Chain

/-!
# The catalogue of a file system

`FileSystem.Catalogues` relates a file system to the list of the files that it stores.  The
directory and the chains of the files, the boot record and the free blocks then make up the whole
disk, each block once.  From a catalogue follows what the directory lists and what opening a file
finds.
-/

namespace Timeshare

/-- A file as it lies on disk: its directory entry and its content blocks. -/
structure StoredFile where
  entry : Block
  chain : List Block

namespace StoredFile

/-- The bytes of the file's name. -/
def name (file : StoredFile) : List UInt8 :=
  file.entry.payload

/-- The bytes in the file. -/
def content (file : StoredFile) : List UInt8 :=
  file.chain.flatMap Block.payload

/-- All blocks of the file, the directory entry first. -/
def blocks (file : StoredFile) : List Block :=
  file.entry :: file.chain

/-- The file lies on disk as the format wants it. -/
structure Sound (file : StoredFile) : Prop where
  entry_site : file.entry.location.isDirectoryEntry = true
  entry_occupied : file.entry.state = .occupied
  named : file.name ≠ []
  chain_sites : ∀ block ∈ file.chain, block.location.inDirectoryTrack = false
  chain_occupied : ∀ block ∈ file.chain, block.state = .occupied
  linked : Chain.Linked file.blocks
  packed : Chain.Packed (file.chain.map Block.payload)

/-- A file has as many content blocks as its bytes need. -/
theorem Sound.length_chain {file : StoredFile} (sound : file.Sound) :
    file.chain.length = blocksFor file.content.length := by
  have fits : ∀ piece ∈ file.chain.map Block.payload, piece.length ≤ contentSize := by
    intro piece member
    rcases List.mem_map.mp member with ⟨block, _, rfl⟩
    rw [Block.length_payload]
    exact block.length_le
  have counted := sound.packed.length_eq fits
  rwa [List.length_map, ← List.flatMap_def] at counted

theorem entries_sublist (stored : List StoredFile) :
    (stored.map entry).Sublist (stored.flatMap blocks) := by
  induction stored with
  | nil => exact List.Sublist.slnil
  | cons file rest hypothesis =>
      refine List.Sublist.cons_cons _ ?_
      exact hypothesis.trans (List.sublist_append_right file.chain _)

end StoredFile

namespace FileSystem

/-- The file system stores exactly these files. -/
structure Catalogues (files : FileSystem) (stored : List StoredFile) : Prop where
  accounts : files.Accounts (stored.flatMap StoredFile.blocks)
  sound : ∀ file ∈ stored, file.Sound
  names_distinct : (stored.map StoredFile.name).Nodup

/-- Reading blocks that are known one by one gives those of them that lie at the locations. -/
theorem readBlocks_eq_ok {files : FileSystem} {known : List Block} (sites : List Location)
    (read : ∀ block ∈ known, files.readBlock block.location = .ok block)
    (covered : ∀ location ∈ sites, ∃ block ∈ known, block.location = location) :
    ∃ blocks, sites.mapM files.readBlock = .ok blocks ∧ blocks.map Block.location = sites ∧
      ∀ block ∈ blocks, block ∈ known := by
  induction sites with
  | nil => exact ⟨[], rfl, rfl, by simp⟩
  | cons location sites hypothesis =>
      rcases hypothesis fun other member => covered other (List.mem_cons_of_mem _ member) with
        ⟨blocks, readRest, locations, knownRest⟩
      rcases covered location List.mem_cons_self with ⟨block, member, rfl⟩
      refine ⟨block :: blocks, ?_, by rw [List.map_cons, locations], ?_⟩
      · rw [List.mapM_cons, read block member, readRest]
        rfl
      · intro other inBlocks
        rcases List.mem_cons.mp inBlocks with rfl | inRest
        · exact member
        · exact knownRest other inRest

namespace Catalogues

variable {files : FileSystem} {stored rest : List StoredFile} {file : StoredFile} {name : String}

theorem perm (catalogue : files.Catalogues stored) {reordered : List StoredFile}
    (order : stored.Perm reordered) : files.Catalogues reordered where
  accounts := catalogue.accounts.perm (order.flatMap_right _)
  sound other member := catalogue.sound other (order.mem_iff.mpr member)
  names_distinct := (order.map StoredFile.name).nodup_iff.mp catalogue.names_distinct

/-- The driver and the processes with swap files have no part in the catalogue. -/
theorem withStatusAndSwaps (catalogue : files.Catalogues stored) (status : DriverStatus)
    (swaps : OrderedSet Nat) :
    Catalogues { files with status := status, swaps := swaps } stored where
  accounts :=
    { formatted := catalogue.accounts.formatted
      laidOut := catalogue.accounts.laidOut
      directory_sites := catalogue.accounts.directory_sites
      content_sites := catalogue.accounts.content_sites }
  sound := catalogue.sound
  names_distinct := catalogue.names_distinct

/-- The occupied blocks on the directory's track, the boot record apart, are the entries of the
files. -/
theorem mem_entries_iff (catalogue : files.Catalogues stored) {block : Block} :
    block ∈ stored.map StoredFile.entry ↔ files.disk.Holds block ∧
      block.location.isDirectoryEntry = true ∧ block.state = .occupied := by
  have laidOut := catalogue.accounts.laidOut
  constructor
  · intro member
    rcases List.mem_map.mp member with ⟨file, inStored, rfl⟩
    have sound := catalogue.sound file inStored
    refine ⟨laidOut.holds _ ?_, sound.entry_site, sound.entry_occupied⟩
    exact List.mem_cons_of_mem _ (List.mem_append_right _
      (List.mem_flatMap.mpr ⟨file, inStored, List.mem_cons_self⟩))
  · rintro ⟨held, site, occupied⟩
    rcases List.mem_cons.mp (laidOut.mem_of_holds held) with rfl | inRest
    · simp [bootRecord, Location.isDirectoryEntry] at site
    · rcases List.mem_append.mp inRest with free | used
      · rcases List.mem_map.mp free with ⟨location, _, rfl⟩
        simp at occupied
      · rcases List.mem_flatMap.mp used with ⟨file, inStored, inFile⟩
        rcases List.mem_cons.mp inFile with rfl | inChain
        · exact List.mem_map_of_mem inStored
        · have content := (catalogue.sound file inStored).chain_sites block inChain
          simp [Location.isDirectoryEntry, content] at site

theorem entries_locations_nodup (catalogue : files.Catalogues stored) :
    ((stored.map StoredFile.entry).map Block.location).Nodup := by
  refine catalogue.accounts.laidOut.nodup.sublist (List.Sublist.map _ ?_)
  exact ((StoredFile.entries_sublist stored).trans (List.sublist_append_right _ _)).cons _

/-- The directory lists the entries of the files. -/
theorem directoryBlocks (catalogue : files.Catalogues stored) :
    ∃ entries, files.directoryBlocks = .ok entries ∧
      entries.Perm (stored.map StoredFile.entry) := by
  have laidOut := catalogue.accounts.laidOut
  obtain ⟨blocks, read, locations, known⟩ := readBlocks_eq_ok
    (files.disk.geometry.locations.filter Location.isDirectoryEntry)
    (fun block member => readBlock_of_holds (laidOut.holds block member)) (by
      intro location member
      have valid := laidOut.locations.mem_iff.mpr (List.mem_of_mem_filter member)
      obtain ⟨block, inDisk, same⟩ := List.mem_map.mp valid
      exact ⟨block, inDisk, same⟩)
  refine ⟨blocks.filter fun entry => entry.state = .occupied, ?_, ?_⟩
  · rw [FileSystem.directoryBlocks, read]
    rfl
  have distinct : blocks.Nodup := by
    refine List.Nodup.of_map Block.location ?_
    rw [locations]
    exact (Geometry.locations_nodup _).filter _
  refine (List.perm_ext_iff_of_nodup (distinct.filter _)
    (List.Nodup.of_map _ catalogue.entries_locations_nodup)).mpr fun block => ?_
  rw [List.mem_filter, decide_eq_true_eq, catalogue.mem_entries_iff]
  constructor
  · rintro ⟨member, occupied⟩
    have inSites := locations ▸ List.mem_map_of_mem (f := Block.location) member
    exact ⟨laidOut.holds block (known block member), (List.mem_filter.mp inSites).2, occupied⟩
  · rintro ⟨held, site, occupied⟩
    have inDisk := laidOut.mem_of_holds held
    have inSites : block.location ∈ blocks.map Block.location := by
      rw [locations, List.mem_filter]
      exact ⟨laidOut.locations.mem_iff.mp (List.mem_map_of_mem inDisk), site⟩
    rcases List.mem_map.mp inSites with ⟨found, member, same⟩
    rcases List.inj_on_of_nodup_map laidOut.nodup (known found member) inDisk same with rfl
    exact ⟨member, occupied⟩

/-- The file of a name is found by its entry. -/
theorem findEntry (catalogue : files.Catalogues stored) (member : file ∈ stored)
    (named : file.name = Text.utf8Bytes name) : files.findEntry name = .ok (some file.entry) := by
  rcases catalogue.directoryBlocks with ⟨entries, listed, order⟩
  rw [FileSystem.findEntry, listed]
  change Except.ok (entries.find? _) = _
  rcases found : entries.find? fun entry => entry.payload = Text.utf8Bytes name with _ | entry
  · have absent := List.find?_eq_none.mp found file.entry
      (order.mem_iff.mpr (List.mem_map_of_mem member))
    exact absurd (decide_eq_true named) absent
  · rcases List.mem_map.mp (order.mem_iff.mp (List.mem_of_find?_eq_some found)) with
      ⟨other, inStored, rfl⟩
    have matching := List.find?_some found
    have otherNamed : other.name = Text.utf8Bytes name := of_decide_eq_true matching
    have same : other = file := List.inj_on_of_nodup_map catalogue.names_distinct inStored member
      (otherNamed.trans named.symm)
    rw [found, same]

theorem findEntry_none (catalogue : files.Catalogues stored)
    (absent : ∀ file ∈ stored, file.name ≠ Text.utf8Bytes name) :
    files.findEntry name = .ok none := by
  rcases catalogue.directoryBlocks with ⟨entries, listed, order⟩
  rw [FileSystem.findEntry, listed]
  change Except.ok (entries.find? _) = _
  rw [List.find?_eq_none.mpr]
  intro entry member
  rcases List.mem_map.mp (order.mem_iff.mp member) with ⟨file, inStored, rfl⟩
  exact fun named => absent file inStored (of_decide_eq_true named)

end Catalogues

/-- Following the pointers of a linked chain gives the chain. -/
theorem chainFrom_eq_ok {files : FileSystem} {directory : Location} {current : Block}
    {chain : List Block} {hops : Nat} (linked : Chain.Linked (current :: chain))
    (distinct : ((current :: chain).map Block.location).Nodup)
    (read : ∀ block ∈ chain, files.readBlock block.location = .ok block)
    (enough : chain.length ≤ hops) : files.chainFrom directory hops current = .ok chain := by
  induction chain generalizing current hops with
  | nil =>
      have terminus : current.isTerminus = true := decide_eq_true linked
      cases hops <;> simp [chainFrom, terminus]
  | cons next rest hypothesis =>
      have inner : current.isTerminus = false := by
        refine decide_eq_false ?_
        intro same
        rw [List.map_cons, List.nodup_cons] at distinct
        exact distinct.1 (by rw [← same, linked.1]; simp)
      cases hops with
      | zero => simp at enough
      | succ hops =>
          have following := hypothesis linked.2 (List.nodup_cons.mp distinct).2
            (fun block member => read block (List.mem_cons_of_mem _ member))
            (Nat.le_of_succ_le_succ enough)
          rw [chainFrom, linked.1, read next List.mem_cons_self]
          simp only [inner, Bool.false_eq_true, if_false]
          change (files.chainFrom directory hops next >>= fun rest => pure (next :: rest)) = _
          rw [following]
          rfl

namespace Catalogues

variable {files : FileSystem} {stored rest : List StoredFile} {file : StoredFile} {name : String}

theorem length_chain_le (catalogue : files.Catalogues (file :: rest)) :
    file.chain.length ≤ files.disk.geometry.capacity := by
  have counted := catalogue.accounts.laidOut.locations.length_eq
  rw [Geometry.length_locations] at counted
  rw [← counted]
  simp only [List.length_map, List.length_cons, List.length_append, List.flatMap_cons,
    StoredFile.blocks]
  omega

theorem walkChain (catalogue : files.Catalogues (file :: rest)) :
    files.walkChain file.entry = .ok file.chain := by
  have laidOut := catalogue.accounts.laidOut
  have blocks : file.blocks.Sublist
      (bootRecord :: (files.freeBlocks ++ (file :: rest).flatMap StoredFile.blocks)) :=
    ((List.sublist_append_left _ _).trans (List.sublist_append_right _ _)).cons _
  refine chainFrom_eq_ok (catalogue.sound file List.mem_cons_self).linked
    (laidOut.nodup.sublist (blocks.map _)) ?_ catalogue.length_chain_le
  intro block member
  exact readBlock_of_holds (laidOut.holds block
    (blocks.subset (List.mem_cons_of_mem _ member)))

/-- Opening a file gives its entry and its chain. -/
theorem openFile (catalogue : files.Catalogues (file :: rest))
    (named : file.name = Text.utf8Bytes name) :
    files.openFile name = .ok (file.entry, file.chain) := by
  simp only [FileSystem.openFile, requireFormatted, catalogue.accounts.formatted, requireEntry,
    catalogue.findEntry List.mem_cons_self named]
  change (files.walkChain file.entry >>= fun chain => pure (file.entry, chain)) = _
  rw [catalogue.walkChain]
  rfl

theorem openFile_absent (catalogue : files.Catalogues stored)
    (absent : ∀ file ∈ stored, file.name ≠ Text.utf8Bytes name) :
    files.openFile name = .error (.fileNotFound name) := by
  simp only [FileSystem.openFile, requireFormatted, catalogue.accounts.formatted, requireEntry,
    catalogue.findEntry_none absent]
  rfl

theorem readBytes (catalogue : files.Catalogues (file :: rest))
    (named : file.name = Text.utf8Bytes name) : files.readBytes name = .ok file.content := by
  rw [FileSystem.readBytes, catalogue.openFile named]
  rfl

theorem readBytes_absent (catalogue : files.Catalogues stored)
    (absent : ∀ file ∈ stored, file.name ≠ Text.utf8Bytes name) :
    files.readBytes name = .error (.fileNotFound name) := by
  rw [FileSystem.readBytes, catalogue.openFile_absent absent]
  rfl

/-- Reading looks a name up among the files. -/
theorem readBytes_eq (catalogue : files.Catalogues stored) (name : String) :
    files.readBytes name =
      match stored.find? fun file => file.name = Text.utf8Bytes name with
      | some file => .ok file.content
      | none => .error (.fileNotFound name) := by
  split
  · rename_i file found
    have matching := List.find?_some found
    rcases List.append_of_mem (List.mem_of_find?_eq_some found) with ⟨before, after, rfl⟩
    exact (catalogue.perm List.perm_middle).readBytes (of_decide_eq_true matching)
  · rename_i missing
    apply catalogue.readBytes_absent
    intro file member named
    exact List.find?_eq_none.mp missing file member (decide_eq_true named)

end Catalogues

end FileSystem

end Timeshare
