import Timeshare.Proofs.FileSystem.Representation
import Timeshare.Proofs.FileSystem.SwapArea

/-!
# The swap index and the directory

A file system remembers beside the directory which processes have a swap file.  The two agree in
every state that requests and the kernel can bring a new file system to, on disks of every size and
whether an operation is carried out or refused, and no other file has a name of the kernel's.
-/

namespace Timeshare

namespace FileSystem

/-- The directory has this block, and it is in use. -/
structure Lists (files : FileSystem) (entry : Block) : Prop where
  read : files.readBlock entry.location = .ok entry
  site : entry.location.isDirectoryEntry = true
  occupied : entry.state = .occupied

/-- A process is remembered exactly if the disk is formatted and one entry of the directory has the
name of its swap file, and the entries with names of the kernel's are those of such processes. -/
structure IndexesSwaps (files : FileSystem) : Prop where
  indexed : ∀ pid, files.hasSwap pid = true ↔ files.formatted = true ∧
    ∃! entry, files.Lists entry ∧ entry.payload = Text.utf8Bytes (swapName pid)
  reserved : ∀ entry, files.Lists entry → isReserved (Text.decodeLossy entry.payload) = true →
    ∃ pid, files.hasSwap pid = true ∧ entry.payload = Text.utf8Bytes (swapName pid)

/-- The file system that operations leave, each of them carried out or refused. -/
def after (files : FileSystem) (operations : List FileOperation) : FileSystem :=
  operations.foldl (fun files operation => (files.carryOut operation).2) files

/-! ## The names of the kernel's in the map -/

/-- The names of the kernel's are those of swap files. -/
def OnlySwaps (contents : Contents) : Prop :=
  ∀ name ∈ contents, isReserved name = true → ∃ pid, name = swapName pid

namespace OnlySwaps

variable {capacity : Capacity} {contents after : Contents}

theorem empty : OnlySwaps ∅ :=
  fun _ member => absurd member Finmap.notMem_empty

theorem step (onlySwaps : OnlySwaps contents) {operation : FileOperation} {answer : FileAnswer}
    (stepped : Contents.step capacity contents operation = .ok (answer, after)) :
    OnlySwaps after := by
  intro name member named
  cases operation with
  | serve request =>
      by_cases format : request = .format
      · subst format
        cases stepped
        exact absurd member Finmap.notMem_empty
      · rcases exists_name_of_step format stepped with ⟨touched, free, others⟩
        have apart : name ≠ touched := by
          rintro rfl
          exact Bool.false_ne_true (free.symm.trans named)
        apply onlySwaps name _ named
        rwa [← Finmap.lookup_isSome, others name apart, Finmap.lookup_isSome] at member
  | storeSwap pid image =>
      rw [storeSwap_eq_ok stepped, Finmap.mem_insert] at member
      rcases member with same | before
      · exact ⟨pid.toNat, same⟩
      · exact onlySwaps name before named
  | deleteSwap pid =>
      simp only [Contents.step, Contents.deleteSwap] at stepped
      split at stepped
      · cases stepped
        exact onlySwaps name (Finmap.mem_erase.mp member).2 named
      · cases stepped

end OnlySwaps

/-! ## What the directory lists -/

/-- Every file is under its name in the map. -/
theorem Mirrors.present {stored : List StoredFile} {contents : Contents} {file : StoredFile}
    (mirrors : Mirrors stored contents) (member : file ∈ stored) :
    ∃ name ∈ contents, file.name = Text.utf8Bytes name := by
  have bound : file.binding ∈ contents.bindings := by
    rw [← mirrors, Multiset.mem_coe]
    exact List.mem_map_of_mem member
  rcases Multiset.mem_map.mp bound with ⟨entry, inMap, same⟩
  refine ⟨entry.1, ?_, (congrArg Prod.fst same).symm⟩
  rw [Finmap.mem_def]
  exact Multiset.mem_map_of_mem _ inMap

theorem Catalogues.lists_iff {files : FileSystem} {stored : List StoredFile}
    (catalogue : files.Catalogues stored) {entry : Block} :
    files.Lists entry ↔ ∃ file ∈ stored, file.entry = entry := by
  rw [← catalogue.isEntry_iff]
  constructor
  · intro lists
    have laidOut := catalogue.accounts.laidOut
    have inside : entry.location ∈ files.disk.geometry.locations := by
      rw [Geometry.mem_locations]
      by_contra outside
      have unread := Disk.read?_eq_none (Bool.not_eq_true _ ▸ outside)
      have read := lists.read
      rw [readBlock, unread] at read
      cases read
    rcases List.mem_map.mp (laidOut.locations.mem_iff.mpr inside) with ⟨known, member, same⟩
    have held := laidOut.holds known member
    have read := readBlock_of_holds held
    rw [same, lists.read, Except.ok.injEq] at read
    subst read
    exact ⟨held, lists.site, lists.occupied⟩
  · rintro ⟨held, site, occupied⟩
    exact ⟨readBlock_of_holds held, site, occupied⟩

theorem Represents.indexesSwaps {files : FileSystem} {contents : Contents}
    (represents : files.Represents contents) (onlySwaps : OnlySwaps contents) :
    files.IndexesSwaps := by
  rcases represents.mirrored with ⟨stored, catalogue, mirrors⟩
  constructor
  case indexed =>
    intro pid
    rw [represents.hasSwap_iff]
    constructor
    · intro present
      rcases Finmap.mem_iff.mp present with ⟨image, found⟩
      rcases mirrors.extract found with ⟨file, rest, order, named, _⟩
      have member : file ∈ stored := order.mem_iff.mpr List.mem_cons_self
      refine ⟨catalogue.accounts.formatted, file.entry,
        ⟨catalogue.lists_iff.mpr ⟨file, member, rfl⟩, named⟩, ?_⟩
      rintro other ⟨lists, sameName⟩
      rcases catalogue.lists_iff.mp lists with ⟨another, inStored, rfl⟩
      have same : another.name = file.name := sameName.trans named.symm
      rw [List.inj_on_of_nodup_map catalogue.names_distinct inStored member same]
    · rintro ⟨_, entry, ⟨lists, named⟩, _⟩
      rcases catalogue.lists_iff.mp lists with ⟨file, member, rfl⟩
      by_contra absent
      exact mirrors.absent absent file member named
  case reserved =>
    intro entry lists named
    rcases catalogue.lists_iff.mp lists with ⟨file, member, rfl⟩
    rcases mirrors.present member with ⟨name, present, spelled⟩
    change file.entry.payload = _ at spelled
    rw [spelled, Text.decodeLossy_utf8Bytes] at named
    rcases onlySwaps name present named with ⟨pid, rfl⟩
    exact ⟨pid, (represents.hasSwap_iff pid).mpr present, spelled⟩

/-! ## Before the disk is formatted -/

/-- Nothing was stored yet, and nothing was written to the disk. -/
structure Untouched (files : FileSystem) : Prop where
  unformatted : files.formatted = false
  swaps : files.swaps.elements = []
  unread : ∀ location, files.disk.read? location = none

namespace Untouched

variable {files : FileSystem}

theorem blank (geometry : Geometry) : (blank geometry).Untouched where
  unformatted := rfl
  swaps := rfl
  unread location := by
    by_cases inside : geometry.contains location = true
    · rw [Disk.read?_eq_blocks inside (Geometry.position_lt_capacity inside)]
      exact Vector.getElem_replicate _
    · exact Disk.read?_eq_none (Bool.not_eq_true _ ▸ inside)

theorem hasSwap (untouched : files.Untouched) (pid : Nat) : files.hasSwap pid = false :=
  hasSwap_eq_false untouched.swaps pid

theorem not_lists (untouched : files.Untouched) (entry : Block) : ¬ files.Lists entry := by
  intro lists
  have read := lists.read
  rw [readBlock, untouched.unread] at read
  cases read

theorem indexesSwaps (untouched : files.Untouched) : files.IndexesSwaps where
  indexed pid := by
    rw [untouched.hasSwap, untouched.unformatted]
    exact ⟨fun active => absurd active Bool.false_ne_true,
      fun ⟨formatted, _⟩ => absurd formatted Bool.false_ne_true⟩
  reserved entry lists := absurd lists (untouched.not_lists entry)

end Untouched

/-- A disk without blocks has no place for the boot record. -/
theorem format_refused {files : FileSystem} (noBlocks : ¬ files.disk.geometry.HasBlocks) :
    perform format files = (.error (.invalidLocation bootRecordLocation), files) := by
  have outside (location : Location) : files.disk.geometry.contains location = false := by
    rw [← Bool.not_eq_true]
    intro inside
    simp only [Geometry.contains, Bool.and_eq_true, decide_eq_true_eq] at inside
    have nonzero {number bound : UInt8} (small : number < bound) : bound ≠ 0 := by
      rintro rfl
      exact UInt8.not_lt_zero small
    exact noBlocks ⟨nonzero inside.1.1, nonzero inside.1.2, nonzero inside.2⟩
  have empty : files.disk.geometry.locations = [] := by
    apply List.eq_nil_iff_forall_not_mem.mpr
    intro location member
    rw [Geometry.mem_locations, outside] at member
    exact Bool.false_ne_true member
  have cleared : perform (files.disk.geometry.locations.forM fun location =>
      writeBlock (Block.available location)) files = (.ok ⟨⟩, files) := by
    rw [empty]
    rfl
  have place : bootRecord.location = bootRecordLocation := by
    rw [bootRecord, Block.fill_location, Block.occupied_location]
  have unwritten : files.disk.write? bootRecordLocation bootRecord.encode = none := by
    rw [Disk.write?, Disk.indexOf?_eq_none (outside _)]
  have refused : perform (writeBlock bootRecord) files =
      (.error (.invalidLocation bootRecordLocation), files) := by
    rw [writeBlock, perform_bind_ok _ (perform_modifyGet _)]
    simp only [place, unwritten, Bool.false_eq_true, if_false, perform_throw]
  rw [format, perform_bind_ok _ perform_get, perform_bind_ok _ cleared]
  exact perform_bind_error _ refused

theorem carryOut_format (files : FileSystem) :
    (files.carryOut (.serve .format)).2 = (perform format files).2 := by
  change (perform (format >>= fun report => pure (FileReply.formatted report)) files).2 = _
  rw [perform_bind]
  rcases perform format files with ⟨_ | _, _⟩ <;> rfl

/-! ## Every state -/

/-- Either nothing was done to the disk yet, or its files are known and those with names of the
kernel's are swap files. -/
def Tracked (files : FileSystem) : Prop :=
  files.Untouched ∨ ∃ contents, files.Represents contents ∧ OnlySwaps contents

namespace Tracked

variable {files : FileSystem}

theorem indexesSwaps (tracked : files.Tracked) : files.IndexesSwaps := by
  rcases tracked with untouched | ⟨contents, represents, onlySwaps⟩
  · exact untouched.indexesSwaps
  · exact represents.indexesSwaps onlySwaps

/-- Only formatting has an effect on a disk that nothing was done to. -/
theorem of_untouched (untouched : files.Untouched) (operation : FileOperation) :
    (files.carryOut operation).2.Tracked := by
  have kept {outcome : Except FileSystemError FileAnswer × FileSystem}
      (unchanged : outcome.2 = files) : outcome.2.Tracked := unchanged ▸ Or.inl untouched
  cases operation with
  | storeSwap pid image =>
      exact kept (congrArg Prod.snd (Serviceable.storeSwap_unformatted untouched.unformatted))
  | deleteSwap pid =>
      exact kept (congrArg Prod.snd (Catalogues.deleteSwap_inactive (untouched.hasSwap pid.toNat)))
  | serve request =>
      by_cases format : request = .format
      · subst format
        by_cases hasBlocks : files.disk.geometry.HasBlocks
        · rcases Represents.format hasBlocks with ⟨report, next, formatted, _, represents, _⟩
          rw [carryOut_format, formatted]
          exact Or.inr ⟨∅, represents, OnlySwaps.empty⟩
        · rw [carryOut_format, format_refused hasBlocks]
          exact Or.inl untouched
      · rcases Serviceable.serve_unformatted untouched.unformatted format with ⟨error, refused⟩
        exact kept (congrArg Prod.snd refused)

theorem carryOut (tracked : files.Tracked) (operation : FileOperation) :
    (files.carryOut operation).2.Tracked := by
  rcases tracked with untouched | ⟨contents, represents, onlySwaps⟩
  · exact of_untouched untouched operation
  · have answers := represents.carryOut operation
    cases expected : Contents.step (room files.disk.geometry) contents operation with
    | error error =>
        rw [expected] at answers
        exact (congrArg Prod.snd answers) ▸ Or.inr ⟨contents, represents, onlySwaps⟩
    | ok outcome =>
        rw [expected] at answers
        exact Or.inr ⟨outcome.2, answers.2.1, onlySwaps.step expected⟩

theorem after (tracked : files.Tracked) (operations : List FileOperation) :
    (files.after operations).Tracked := by
  induction operations generalizing files with
  | nil => exact tracked
  | cons operation rest hypothesis => exact hypothesis (tracked.carryOut operation)

end Tracked

/-- Whatever is asked of a new file system, the swap index and the directory agree. -/
theorem swaps_indexed_in_directory (geometry : Geometry) (operations : List FileOperation) :
    ((blank geometry).after operations).IndexesSwaps :=
  (Tracked.after (Or.inl (Untouched.blank geometry)) operations).indexesSwaps

end FileSystem

end Timeshare
