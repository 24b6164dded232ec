import Mathlib.Data.List.Pairwise
import Timeshare.Proofs.FileSystem.SwapFiles

/-!
# The representation invariant

`FileSystem.WellFormed` says how the disk and the sets of free blocks must agree, in terms of the
blocks on disk and of the pointers between them only.  A file system with a catalogue is well
formed, and each operation leaves a catalogue, whether it is carried out or refused.  From
formatting on, the file system therefore stays well formed.
-/

namespace Timeshare

namespace FileSystem

/-! ## The invariant -/

/-- The block is the directory entry of a file. -/
def IsEntry (files : FileSystem) (entry : Block) : Prop :=
  files.disk.Holds entry ∧ entry.location.isDirectoryEntry = true ∧ entry.state = .occupied

/-- The pointers lead from a block over these blocks to one that points to itself. -/
inductive Leads (disk : Disk) : Block → List Block → Prop
  | terminus {block : Block} (end_reached : block.pointer = block.location) : Leads disk block []
  | hop {block next : Block} {rest : List Block} (inner : block.pointer ≠ block.location)
      (linked : block.pointer = next.location) (held : disk.Holds next)
      (following : Leads disk next rest) : Leads disk block (next :: rest)

/-- The sets of free blocks and the blocks on disk agree. -/
structure WellFormed (files : FileSystem) : Prop where
  /-- The boot record is occupied. -/
  boot_occupied : ∃ boot, files.disk.Holds boot ∧ boot.location = bootRecordLocation ∧
    boot.state = .occupied
  /-- The boot record is not free. -/
  boot_reserved : bootRecordLocation ∉ files.freeDirectory.elements ∧
    bootRecordLocation ∉ files.freeContent.elements
  /-- Of the directory's locations exactly those are free that hold no entry. -/
  directory_exact : ∀ location, location ∈ files.freeDirectory.elements ↔
    location ∈ files.disk.geometry.locations ∧ location.isDirectoryEntry = true ∧
      ¬ ∃ entry, files.IsEntry entry ∧ entry.location = location
  /-- Every file has a name that fits into its entry. -/
  named : ∀ entry, files.IsEntry entry →
    entry.payload ≠ [] ∧ entry.payload.length ≤ contentSize
  /-- No two files have the same name. -/
  names_distinct : ∀ first second, files.IsEntry first → files.IsEntry second →
    first.payload = second.payload → first = second
  /-- The pointers of every file lead along a chain of occupied content blocks. -/
  chained : ∀ entry, files.IsEntry entry → ∃ chain, Leads files.disk entry chain ∧
    ∀ block ∈ chain, block.state = .occupied ∧ block.location.inDirectoryTrack = false
  /-- No chain comes to the same block twice. -/
  chain_nodup : ∀ entry chain, files.IsEntry entry → Leads files.disk entry chain →
    (chain.map Block.location).Nodup
  /-- Every block of a chain but the last is full, and the last is not empty. -/
  chain_packed : ∀ entry front last, files.IsEntry entry →
    Leads files.disk entry (front ++ [last]) →
      (∀ block ∈ front, block.length = contentSize) ∧ 0 < last.length
  /-- The chains of two files have no block in common. -/
  chains_disjoint : ∀ first second chain other, files.IsEntry first → files.IsEntry second →
    first ≠ second → Leads files.disk first chain → Leads files.disk second other →
      (chain.map Block.location).Disjoint (other.map Block.location)
  /-- Of the content locations exactly those are free that lie on no chain. -/
  content_exact : ∀ location, location ∈ files.freeContent.elements ↔
    location ∈ files.disk.geometry.locations ∧ location.inDirectoryTrack = false ∧
      ∀ entry chain, files.IsEntry entry → Leads files.disk entry chain →
        location ∉ chain.map Block.location
  /-- A free block is on disk as formatting left it. -/
  free_cleared : ∀ location,
    location ∈ files.freeDirectory.elements ∨ location ∈ files.freeContent.elements →
      files.disk.Holds (Block.available location)

/-! ## From a catalogue to the invariant -/

namespace Leads

theorem unique {disk : Disk} {block : Block} {first second : List Block}
    (leadsFirst : Leads disk block first) (leadsSecond : Leads disk block second) :
    first = second := by
  induction leadsFirst generalizing second with
  | terminus end_reached =>
      cases leadsSecond with
      | terminus _ => rfl
      | hop inner _ _ _ => exact absurd end_reached inner
  | hop inner linked held _ hypothesis =>
      cases leadsSecond with
      | terminus end_reached => exact absurd end_reached inner
      | hop _ linkedSecond heldSecond following =>
          rcases held.unique heldSecond (linked.symm.trans linkedSecond) with rfl
          rw [hypothesis following]

/-- The pointers of a linked chain on disk lead along it. -/
theorem of_linked {disk : Disk} {block : Block} {chain : List Block}
    (linked : Chain.Linked (block :: chain))
    (distinct : ((block :: chain).map Block.location).Nodup)
    (held : ∀ other ∈ chain, disk.Holds other) : Leads disk block chain := by
  induction chain generalizing block with
  | nil => exact .terminus linked
  | cons next rest hypothesis =>
      refine .hop ?_ linked.1 (held next List.mem_cons_self) (hypothesis linked.2
        (List.nodup_cons.mp distinct).2 fun other member =>
          held other (List.mem_cons_of_mem _ member))
      intro same
      rw [List.map_cons, List.nodup_cons, ← same, linked.1] at distinct
      exact distinct.1 List.mem_cons_self

end Leads

namespace Catalogues

variable {files : FileSystem} {stored : List StoredFile} {file : StoredFile}

theorem isEntry_iff (catalogue : files.Catalogues stored) {entry : Block} :
    files.IsEntry entry ↔ ∃ file ∈ stored, file.entry = entry := by
  rw [← List.mem_map]
  exact catalogue.mem_entries_iff.symm

theorem leads (catalogue : files.Catalogues stored) (member : file ∈ stored) :
    Leads files.disk file.entry file.chain := by
  have laidOut := catalogue.accounts.laidOut
  have blocks : file.blocks.Sublist
      (bootRecord :: (files.freeBlocks ++ stored.flatMap StoredFile.blocks)) := by
    refine List.Sublist.cons _ (List.Sublist.trans ?_ (List.sublist_append_right _ _))
    rw [List.flatMap_def]
    exact List.sublist_flatten_of_mem (List.mem_map_of_mem member)
  refine .of_linked (catalogue.sound file member).linked
    (laidOut.nodup.sublist (blocks.map _)) ?_
  intro other inChain
  exact laidOut.holds other (blocks.subset (List.mem_cons_of_mem _ inChain))

/-- The chain that the pointers of an entry lead along is that of the file. -/
theorem of_leads (catalogue : files.Catalogues stored) {entry : Block} {chain : List Block}
    (isEntry : files.IsEntry entry) (leads : Leads files.disk entry chain) :
    ∃ file ∈ stored, file.entry = entry ∧ file.chain = chain := by
  rcases catalogue.isEntry_iff.mp isEntry with ⟨file, member, rfl⟩
  exact ⟨file, member, rfl, (catalogue.leads member).unique leads⟩

theorem content_nodup (catalogue : files.Catalogues stored) :
    (files.freeContent.elements ++
      stored.flatMap fun file => file.chain.map Block.location).Nodup :=
  catalogue.content_sites_perm.nodup_iff.mpr ((Geometry.locations_nodup _).filter _)

theorem mem_freeDirectory_iff (catalogue : files.Catalogues stored) {location : Location} :
    location ∈ files.freeDirectory.elements ↔
      location ∈ files.disk.geometry.locations ∧ location.isDirectoryEntry = true ∧
        ¬ ∃ entry, files.IsEntry entry ∧ entry.location = location := by
  have sites := catalogue.directory_sites_perm
  have distinct := List.nodup_append.mp
    (sites.nodup_iff.mpr ((Geometry.locations_nodup _).filter _))
  have divided := sites.mem_iff (a := location)
  rw [List.mem_append, List.mem_filter] at divided
  constructor
  · intro free
    have site := divided.mp (Or.inl free)
    refine ⟨site.1, site.2, ?_⟩
    rintro ⟨entry, isEntry, rfl⟩
    rcases catalogue.isEntry_iff.mp isEntry with ⟨file, member, rfl⟩
    exact distinct.2.2 _ free _ (List.mem_map_of_mem member) rfl
  · rintro ⟨valid, site, noEntry⟩
    refine (divided.mpr ⟨valid, site⟩).resolve_right ?_
    intro used
    rcases List.mem_map.mp used with ⟨file, member, same⟩
    exact noEntry ⟨file.entry, catalogue.isEntry_iff.mpr ⟨file, member, rfl⟩, same⟩

theorem mem_freeContent_iff (catalogue : files.Catalogues stored) {location : Location} :
    location ∈ files.freeContent.elements ↔
      location ∈ files.disk.geometry.locations ∧ location.inDirectoryTrack = false ∧
        ∀ entry chain, files.IsEntry entry → Leads files.disk entry chain →
          location ∉ chain.map Block.location := by
  have divided := catalogue.content_sites_perm.mem_iff (a := location)
  rw [List.mem_append, List.mem_filter, Bool.not_eq_true'] at divided
  constructor
  · intro free
    have site := divided.mp (Or.inl free)
    refine ⟨site.1, site.2, ?_⟩
    intro entry chain isEntry leads inChain
    rcases catalogue.of_leads isEntry leads with ⟨file, member, rfl, rfl⟩
    exact (List.nodup_append.mp catalogue.content_nodup).2.2 _ free _
      (List.mem_flatMap.mpr ⟨file, member, inChain⟩) rfl
  · rintro ⟨valid, site, unused⟩
    refine (divided.mpr ⟨valid, site⟩).resolve_right ?_
    intro used
    rcases List.mem_flatMap.mp used with ⟨file, member, inChain⟩
    exact unused file.entry file.chain (catalogue.isEntry_iff.mpr ⟨file, member, rfl⟩)
      (catalogue.leads member) inChain

theorem boot_not_free (catalogue : files.Catalogues stored) :
    bootRecordLocation ∉ files.freeDirectory.elements ∧
      bootRecordLocation ∉ files.freeContent.elements := by
  have apart := (List.nodup_cons.mp
    (catalogue.sites_perm.nodup_iff.mpr (Geometry.locations_nodup _))).1
  simp only [List.mem_append, not_or] at apart
  exact ⟨apart.1.1, apart.2.1⟩

/-- A file system whose files are known is well formed. -/
theorem wellFormed (catalogue : files.Catalogues stored) : files.WellFormed := by
  have laidOut := catalogue.accounts.laidOut
  have chains := List.nodup_flatMap.mp (List.nodup_append.mp catalogue.content_nodup).2.1
  constructor
  case boot_occupied =>
    refine ⟨bootRecord, laidOut.holds _ List.mem_cons_self, ?_, ?_⟩
    · rw [bootRecord, Block.fill_location, Block.occupied_location]
    · rw [bootRecord, Block.fill_state, Block.occupied_state]
  case boot_reserved => exact catalogue.boot_not_free
  case directory_exact => exact fun location => catalogue.mem_freeDirectory_iff
  case named =>
    intro entry isEntry
    rcases catalogue.isEntry_iff.mp isEntry with ⟨file, member, rfl⟩
    refine ⟨(catalogue.sound file member).named, ?_⟩
    rw [Block.length_payload]
    exact file.entry.length_le
  case names_distinct =>
    intro first second isFirst isSecond same
    rcases catalogue.isEntry_iff.mp isFirst with ⟨file, member, rfl⟩
    rcases catalogue.isEntry_iff.mp isSecond with ⟨other, memberOther, rfl⟩
    rw [List.inj_on_of_nodup_map catalogue.names_distinct member memberOther same]
  case chained =>
    intro entry isEntry
    rcases catalogue.isEntry_iff.mp isEntry with ⟨file, member, rfl⟩
    have sound := catalogue.sound file member
    exact ⟨file.chain, catalogue.leads member, fun block inChain =>
      ⟨sound.chain_occupied block inChain, sound.chain_sites block inChain⟩⟩
  case chain_nodup =>
    intro entry chain isEntry leads
    rcases catalogue.of_leads isEntry leads with ⟨file, member, rfl, rfl⟩
    exact chains.1 file member
  case chain_packed =>
    intro entry front last isEntry leads
    rcases catalogue.of_leads isEntry leads with ⟨file, member, rfl, split⟩
    have packed := (catalogue.sound file member).packed
    rw [split, List.map_append, List.map_singleton] at packed
    refine ⟨?_, ?_⟩
    · intro block inFront
      rw [← Block.length_payload]
      exact packed.full _ (List.mem_map_of_mem inFront)
    · rw [← Block.length_payload]
      exact List.length_pos_iff.mpr packed.last
  case chains_disjoint =>
    intro first second chain other isFirst isSecond different leadsFirst leadsSecond
    rcases catalogue.of_leads isFirst leadsFirst with ⟨file, member, rfl, rfl⟩
    rcases catalogue.of_leads isSecond leadsSecond with ⟨another, memberSecond, rfl, rfl⟩
    have apart : file ≠ another := fun same => different (congrArg StoredFile.entry same)
    have symmetric : Std.Symm (Function.onFun List.Disjoint fun file : StoredFile =>
        file.chain.map Block.location) :=
      ⟨fun _ _ disjoint _ inFirst inSecond => disjoint inSecond inFirst⟩
    exact chains.2.forall member memberSecond apart
  case content_exact => exact fun location => catalogue.mem_freeContent_iff
  case free_cleared =>
    intro location free
    refine laidOut.holds _ (List.mem_cons_of_mem _ (List.mem_append_left _ ?_))
    exact List.mem_map_of_mem (List.mem_append.mpr free)

end Catalogues

/-! ## Operations -/

/-- An operation on files. -/
inductive Operation
  | format
  | createFile (name : String)
  | appendToFile (name : String) (data : List UInt8)
  | writeFile (name : String) (data : List UInt8)
  | deleteFile (name : String)
  | storeSwap (pid : Nat) (image : List UInt8)
  | deleteSwap (pid : Nat)

/-- The file system that an operation leaves, whether it is carried out or refused. -/
def apply (files : FileSystem) : Operation → FileSystem
  | .format => (perform format files).2
  | .createFile name => (perform (createFile name) files).2
  | .appendToFile name data => (perform (appendToFile name data) files).2
  | .writeFile name data => (perform (writeFile name data) files).2
  | .deleteFile name => (perform (deleteFile name) files).2
  | .storeSwap pid image => (perform (storeSwap pid image) files).2
  | .deleteSwap pid => (perform (deleteSwap pid) files).2

/-- Whether an action is carried out, and the file system that it leaves. -/
def settle {α : Type} (action : Action α) (files : FileSystem) :
    Except FileSystemError Unit × FileSystem :=
  ((perform action files).1.map fun _ => (), (perform action files).2)

/-- Whether an operation is carried out, and the file system that it leaves. -/
def attempt (files : FileSystem) : Operation → Except FileSystemError Unit × FileSystem
  | .format => settle format files
  | .createFile name => settle (createFile name) files
  | .appendToFile name data => settle (appendToFile name data) files
  | .writeFile name data => settle (writeFile name data) files
  | .deleteFile name => settle (deleteFile name) files
  | .storeSwap pid image => settle (storeSwap pid image) files
  | .deleteSwap pid => settle (deleteSwap pid) files

theorem snd_attempt (files : FileSystem) (operation : Operation) :
    (files.attempt operation).2 = files.apply operation := by
  cases operation <;> rfl

section Settle

variable {α : Type} {action : Action α} {files next : FileSystem}

theorem settle_ok {value : α} (carried : perform action files = (.ok value, next)) :
    settle action files = (.ok (), next) := by
  rw [settle, carried]
  rfl

theorem settle_error {error : FileSystemError}
    (refused : perform action files = (.error error, next)) :
    settle action files = (.error error, next) := by
  rw [settle, refused]
  rfl

end Settle

/-- The operation gives a file of this name further or other contents. -/
def Operation.Fills (name : String) (operation : Operation) : Prop :=
  ∃ data, operation = .appendToFile name data ∨ operation = .writeFile name data

/-- What an operation makes of a file system and the files on it. -/
inductive Alters (files : FileSystem) (stored : List StoredFile) :
    Operation → Except FileSystemError Unit × FileSystem → Prop
  | refuses {operation : Operation} (error : FileSystemError) :
      Alters files stored operation (.error error, files)
  | formats {next : FileSystem} (catalogue : next.Catalogues [])
      (geometry : next.disk.geometry = files.disk.geometry) (swaps : next.swaps = .empty) :
      Alters files stored .format (.ok (), next)
  | creates {name : String} {next : FileSystem} (created : StoredFile)
      (catalogue : next.Catalogues (created :: stored))
      (named : created.name = Text.utf8Bytes name) (keeps : files.Keeps next) :
      Alters files stored (.createFile name) (.ok (), next)
  | fills {name : String} {operation : Operation} {next : FileSystem} (file filled : StoredFile)
      (rest : List StoredFile) (fills : operation.Fills name) (order : stored.Perm (file :: rest))
      (catalogue : next.Catalogues (filled :: rest)) (same : filled.name = file.name)
      (keeps : files.Keeps next) : Alters files stored operation (.ok (), next)
  | deletes {name : String} {next : FileSystem} (file : StoredFile) (rest : List StoredFile)
      (order : stored.Perm (file :: rest)) (named : file.name = Text.utf8Bytes name)
      (catalogue : next.Catalogues rest) (keeps : files.Keeps next) :
      Alters files stored (.deleteFile name) (.ok (), next)
  | stores {pid : Nat} {image : List UInt8} {next : FileSystem} (swap : StoredFile)
      (catalogue : next.Catalogues (swap :: stored))
      (named : swap.name = Text.utf8Bytes (swapName pid)) (content : swap.content = image)
      (absent : ∀ file ∈ stored, file.name ≠ Text.utf8Bytes (swapName pid))
      (geometry : next.disk.geometry = files.disk.geometry) (status : next.status = files.status)
      (swaps : next.swaps = files.swaps.insert pid) :
      Alters files stored (.storeSwap pid image) (.ok (), next)
  | fetches {pid : Nat} {next : FileSystem} (swap : StoredFile) (rest : List StoredFile)
      (order : stored.Perm (swap :: rest)) (named : swap.name = Text.utf8Bytes (swapName pid))
      (catalogue : next.Catalogues rest) (geometry : next.disk.geometry = files.disk.geometry)
      (swaps : next.swaps = files.swaps.erase pid) :
      Alters files stored (.deleteSwap pid) (.ok (), next)

namespace Alters

variable {files : FileSystem} {stored : List StoredFile} {operation : Operation}
  {outcome : Except FileSystemError Unit × FileSystem}

/-- An operation that fails changes nothing. -/
theorem unchanged (alters : Alters files stored operation outcome) {error : FileSystemError}
    (failed : outcome.1 = .error error) : outcome.2 = files := by
  cases alters with
  | refuses => rfl
  | formats => cases failed
  | creates => cases failed
  | fills => cases failed
  | deletes => cases failed
  | stores => cases failed
  | fetches => cases failed

theorem geometry (alters : Alters files stored operation outcome) :
    outcome.2.disk.geometry = files.disk.geometry := by
  cases alters with
  | refuses => rfl
  | formats _ geometry => exact geometry
  | creates _ _ _ keeps => exact keeps.geometry
  | fills _ _ _ _ _ _ _ keeps => exact keeps.geometry
  | deletes _ _ _ _ _ keeps => exact keeps.geometry
  | stores _ _ _ _ _ geometry => exact geometry
  | fetches _ _ _ _ _ geometry => exact geometry

/-- The files that the file system stores are known again. -/
theorem exists_catalogue (alters : Alters files stored operation outcome)
    (catalogue : files.Catalogues stored) : ∃ left, outcome.2.Catalogues left := by
  cases alters with
  | refuses => exact ⟨stored, catalogue⟩
  | formats catalogue => exact ⟨[], catalogue⟩
  | creates created catalogue => exact ⟨created :: stored, catalogue⟩
  | fills _ filled rest _ _ catalogue => exact ⟨filled :: rest, catalogue⟩
  | deletes _ rest _ _ catalogue => exact ⟨rest, catalogue⟩
  | stores swap catalogue => exact ⟨swap :: stored, catalogue⟩
  | fetches _ rest _ _ catalogue => exact ⟨rest, catalogue⟩

end Alters

namespace Catalogues

variable {files : FileSystem} {stored rest : List StoredFile} {file : StoredFile}
  {operation : Operation}

/-- A name is that of no file or that of one file beside others. -/
theorem absent_or_extract (catalogue : files.Catalogues stored) (name : String) :
    (∀ file ∈ stored, file.name ≠ Text.utf8Bytes name) ∨
      ∃ file rest, stored.Perm (file :: rest) ∧ files.Catalogues (file :: rest) ∧
        file.name = Text.utf8Bytes name := by
  by_cases present : ∃ file ∈ stored, file.name = Text.utf8Bytes name
  · rcases present with ⟨file, member, named⟩
    rcases List.append_of_mem member with ⟨before, after, split⟩
    have order : stored.Perm (file :: (before ++ after)) := split ▸ List.perm_middle
    exact Or.inr ⟨file, before ++ after, order, catalogue.perm order, named⟩
  · exact Or.inl fun file member named => present ⟨file, member, named⟩

/-- A file is given its new contents, or nothing changes. -/
theorem fill (catalogue : files.Catalogues (file :: rest)) {name : String}
    (named : file.name = Text.utf8Bytes name) (fills : operation.Fills name) :
    (∃ error, files.attempt operation = (.error error, files)) ∨
      ∃ filled next, files.attempt operation = (.ok (), next) ∧
        next.Catalogues (filled :: rest) ∧ filled.name = file.name ∧ files.Keeps next := by
  rcases fills with ⟨data, rfl | rfl⟩
  · by_cases full : files.freeContent.size < blocksNeeded file.chain data
    · exact Or.inl ⟨_, settle_error (appendToFile_refused catalogue named full)⟩
    · rcases catalogue.appendToFile named (Nat.le_of_not_lt full) with
        ⟨appended, next, succeeded, catalogued, same, _, keeps, _⟩
      exact Or.inr ⟨appended, next, settle_ok succeeded, catalogued, same, keeps⟩
  · by_cases full : files.freeContent.size + file.chain.length < blocksFor data.length
    · exact Or.inl ⟨_, settle_error (writeFile_refused catalogue named full)⟩
    · rcases catalogue.writeFile named (Nat.le_of_not_lt full) with
        ⟨written, next, succeeded, catalogued, same, _, keeps⟩
      exact Or.inr ⟨written, next, settle_ok succeeded, catalogued, same, keeps⟩

theorem alters_fill (catalogue : files.Catalogues stored) {name : String}
    (fills : operation.Fills name) :
    Alters files stored operation (files.attempt operation) := by
  rcases catalogue.absent_or_extract name with absent | ⟨file, rest, order, extracted, named⟩
  · have missing : files.attempt operation = (.error (.fileNotFound name), files) := by
      rcases fills with ⟨data, rfl | rfl⟩
      · exact settle_error (catalogue.appendToFile_absent absent data)
      · exact settle_error (catalogue.writeFile_absent absent data)
    rw [missing]
    exact .refuses _
  · rcases extracted.fill named fills with
      ⟨error, refused⟩ | ⟨filled, next, succeeded, catalogued, same, keeps⟩
    · rw [refused]
      exact .refuses error
    · rw [succeeded]
      exact .fills file filled rest fills order catalogued same keeps

/-- Each operation does one of the things that it may do. -/
theorem alters (catalogue : files.Catalogues stored) (hasBlocks : files.disk.geometry.HasBlocks)
    (operation : Operation) : Alters files stored operation (files.attempt operation) := by
  cases operation with
  | format =>
      rcases format hasBlocks with ⟨next, formatted, catalogued, geometry, _, swaps⟩
      rw [attempt, settle_ok formatted]
      exact .formats catalogued geometry swaps
  | createFile name =>
      cases refused : files.checkNewName name with
      | error error =>
          rw [attempt, settle_error (createFile_refused refused)]
          exact .refuses error
      | ok checked =>
          by_cases full : files.freeDirectory.elements = []
          · rw [attempt, settle_error (createFile_full refused full)]
            exact .refuses _
          · rcases catalogue.checkNewName_eq_ok.mp refused with ⟨nonempty, short, absent⟩
            rcases catalogue.createFile nonempty short absent full with
              ⟨_, created, next, succeeded, catalogued, named, _, keeps, _⟩
            rw [attempt, settle_ok succeeded]
            exact .creates created catalogued named keeps
  | appendToFile name data => exact catalogue.alters_fill ⟨data, Or.inl rfl⟩
  | writeFile name data => exact catalogue.alters_fill ⟨data, Or.inr rfl⟩
  | deleteFile name =>
      rcases catalogue.absent_or_extract name with absent | ⟨file, rest, order, extracted, named⟩
      · rw [attempt, settle_error (catalogue.deleteFile_absent absent)]
        exact .refuses _
      · rcases extracted.deleteFile named with ⟨next, succeeded, catalogued, keeps⟩
        rw [attempt, settle_ok succeeded]
        exact .deletes file rest order named catalogued keeps
  | storeSwap pid image =>
      by_cases full : files.freeDirectory.size = 0 ∨
          files.freeContent.size < blocksFor image.length
      · rw [attempt, settle_error (catalogue.storeSwap_full full)]
        exact .refuses _
      · cases refused : files.checkNewName (swapName pid) with
        | error error =>
            rw [attempt, settle_error (catalogue.storeSwap_refused full refused)]
            exact .refuses error
        | ok checked =>
            rcases catalogue.checkNewName_eq_ok.mp refused with ⟨_, short, absent⟩
            rcases not_or.mp full with ⟨entry, room⟩
            rcases catalogue.storeSwap short absent (Nat.pos_of_ne_zero entry) (Nat.le_of_not_lt
                room) with
              ⟨swap, _, next, succeeded, catalogued, named, content, geometry, status, swaps⟩
            rw [attempt, settle_ok succeeded]
            exact .stores swap catalogued named content absent geometry status swaps
  | deleteSwap pid =>
      cases active : files.hasSwap pid with
      | false =>
          rw [attempt, settle_error (deleteSwap_inactive active)]
          exact .refuses _
      | true =>
          rcases catalogue.absent_or_extract (swapName pid) with
            absent | ⟨file, rest, order, extracted, named⟩
          · rw [attempt, settle_error (catalogue.deleteSwap_absent absent active)]
            exact .refuses _
          · rcases extracted.deleteSwap named active with
              ⟨next, succeeded, catalogued, geometry, _, swaps⟩
            rw [attempt, settle_ok succeeded]
            exact .fetches file rest order named catalogued geometry swaps

/-- After each operation the files that the file system stores are known again. -/
theorem apply (catalogue : files.Catalogues stored)
    (hasBlocks : files.disk.geometry.HasBlocks) (operation : Operation) :
    (∃ left, (files.apply operation).Catalogues left) ∧
      (files.apply operation).disk.geometry = files.disk.geometry := by
  have alters := catalogue.alters hasBlocks operation
  rw [← snd_attempt]
  exact ⟨alters.exists_catalogue catalogue, alters.geometry⟩

theorem applyAll (catalogue : files.Catalogues stored)
    (hasBlocks : files.disk.geometry.HasBlocks) (operations : List Operation) :
    ∃ left, (operations.foldl FileSystem.apply files).Catalogues left := by
  induction operations generalizing files stored with
  | nil => exact ⟨stored, catalogue⟩
  | cons operation rest hypothesis =>
      rcases catalogue.apply hasBlocks operation with ⟨⟨left, catalogued⟩, geometry⟩
      exact hypothesis catalogued (geometry ▸ hasBlocks)

end Catalogues

/-- A file system stays well formed from formatting on. -/
theorem wellFormed_after_format {files : FileSystem} (hasBlocks : files.disk.geometry.HasBlocks)
    (operations : List Operation) :
    (operations.foldl apply (files.apply .format)).WellFormed := by
  rcases Catalogues.format hasBlocks with ⟨next, formatted, catalogue, geometry, _⟩
  have start : files.apply .format = next := by rw [apply, formatted]
  rw [start]
  rcases catalogue.applyAll (geometry ▸ hasBlocks) operations with ⟨left, catalogued⟩
  exact catalogued.wellFormed

/-- A disk with room for one file of two blocks at most. -/
theorem wellFormed_after_format_small :
    Geometry.HasBlocks ⟨2, 1, 2⟩ ∧ ([.createFile "notes", .appendToFile "notes" [1, 2, 3],
      .storeSwap 0 [4], .writeFile "notes" [5], .deleteFile "notes"].foldl FileSystem.apply
        ((blank ⟨2, 1, 2⟩).apply .format)).WellFormed := by
  have hasBlocks : Geometry.HasBlocks ⟨2, 1, 2⟩ := ⟨by decide, by decide, by decide⟩
  exact ⟨hasBlocks, @wellFormed_after_format (blank ⟨2, 1, 2⟩) hasBlocks _⟩

end FileSystem

end Timeshare
