import Mathlib.Logic.Basic
import Timeshare.Proofs.Kernel.Run

/-!
# Storage ownership

Where the image of a process lies is told in four places: by the process, by the tenants of the
segments, by the set of active swap files, and by the directory on disk.  In every state of a run
they tell the same, and nothing is kept for processes that have ended.
-/

namespace Timeshare

namespace System

/-- A process has the segment at `index`, and all records say so. -/
structure HasSegment (system : System) (process : Process) (index : Nat) : Prop where
  residence : process.residence = some .memory
  segment : ∃ segment, process.segment = some segment ∧ system.memory.segments[index]? = some segment
  held : system.memory.holding? process.pid = some index
  occupied : system.memory.isOccupied index = true
  unswapped : system.files.hasSwap process.pid = false

/-- A process has a swap file, and all records say so. -/
structure HasSwapFile (system : System) (process : Process) : Prop where
  residence : process.residence = some .disk
  segment : process.segment = none
  homeless : system.memory.holding? process.pid = none
  active : system.files.hasSwap process.pid = true
  stored : ∃ entry, system.files.findEntry (FileSystem.swapName process.pid) = .ok (some entry)

/-- A process has neither, and no record says that it has. -/
structure HasNothing (system : System) (process : Process) : Prop where
  residence : process.residence = none
  segment : process.segment = none
  homeless : system.memory.holding? process.pid = none
  inactive : system.files.hasSwap process.pid = false
  unstored : ∀ bytes, system.files.readBytes (FileSystem.swapName process.pid) ≠ .ok bytes

variable {system : System} {process : Process}

theorem hasSwap_iff (sound : system.Sound) {pid : Nat} :
    system.files.hasSwap pid = true ↔ ∃ image, system.files.swapImage pid = some image := by
  rw [sound.owns.serviceable.hasSwap_eq, Option.isSome_iff_exists]

theorem hasSwap_eq_false_iff (sound : system.Sound) {pid : Nat} :
    system.files.hasSwap pid = false ↔ system.files.swapImage pid = none := by
  rw [sound.owns.serviceable.hasSwap_eq, Option.isSome_eq_false_iff, Option.isNone_iff_eq_none]

namespace Sound

/-- The storage and a process agree in all records. -/
theorem hasSegment_or_hasSwapFile (sound : system.Sound) (member : process ∈ system.processes) :
    (∃ index, system.HasSegment process index) ∨ system.HasSwapFile process := by
  cases sound.owns.keeps process member with
  | inMemory index segment residence segment_eq held located unswapped =>
      refine Or.inl ⟨index, residence, ⟨segment, segment_eq, located⟩, held, ?_,
        (hasSwap_eq_false_iff sound).mpr unswapped⟩
      exact sound.owns.tidy.isOccupied_of_held held
  | onDisk image residence segment_eq homeless swapped =>
      have active := (hasSwap_iff sound).mpr ⟨image, swapped⟩
      exact Or.inr ⟨residence, segment_eq, homeless, active,
        sound.owns.serviceable.findEntry_swap active⟩

theorem hasSegment_xor_hasSwapFile (sound : system.Sound) (member : process ∈ system.processes) :
    Xor (∃ index, system.HasSegment process index) (system.HasSwapFile process) := by
  have exclusive (index : Nat) (inMemory : system.HasSegment process index)
      (onDisk : system.HasSwapFile process) : False := by
    have both := inMemory.residence.symm.trans onDisk.residence
    simp at both
  rcases sound.hasSegment_or_hasSwapFile member with ⟨index, inMemory⟩ | onDisk
  · exact Or.inl ⟨⟨index, inMemory⟩, exclusive index inMemory⟩
  · exact Or.inr ⟨onDisk, fun ⟨index, inMemory⟩ => exclusive index inMemory onDisk⟩

/-- Processes that have not ended are told apart by their numbers. -/
theorem eq_of_pid (sound : system.Sound) {other : Process} (member : process ∈ system.processes)
    (memberOther : other ∈ system.processes) (same : other.pid = process.pid) : other = process :=
  List.inj_on_of_nodup_map sound.owns.distinct memberOther member same

theorem existsUnique_hasSegment (sound : system.Sound) {index : Nat}
    (occupied : system.memory.isOccupied index = true) :
    ∃! process, process ∈ system.processes ∧ system.HasSegment process index := by
  rcases (sound.owns.tidy.occupied index).mp occupied with ⟨pid, held⟩
  rcases List.mem_map.mp (sound.owns.held pid index held) with ⟨process, member, rfl⟩
  have inMemory : system.HasSegment process index := by
    rcases sound.hasSegment_or_hasSwapFile member with ⟨other, inMemory⟩ | onDisk
    · have same : other = index := Option.some.inj (inMemory.held.symm.trans held)
      exact same ▸ inMemory
    · simp [onDisk.homeless] at held
  refine ⟨process, ⟨member, inMemory⟩, ?_⟩
  rintro other ⟨memberOther, inMemoryOther⟩
  -- The segment has one tenant, so the two processes have one number.
  have same := sound.owns.tidy.single _ _ index inMemoryOther.held inMemory.held
  exact sound.eq_of_pid member memberOther same

theorem existsUnique_hasSwapFile (sound : system.Sound) {pid : Nat}
    (active : system.files.hasSwap pid = true) :
    ∃! process, process ∈ system.processes ∧ process.pid = pid ∧ system.HasSwapFile process := by
  rcases (hasSwap_iff sound).mp active with ⟨image, swapped⟩
  rcases List.mem_map.mp (sound.owns.swapped pid image swapped) with ⟨process, member, rfl⟩
  have onDisk : system.HasSwapFile process := by
    rcases sound.hasSegment_or_hasSwapFile member with ⟨index, inMemory⟩ | onDisk
    · simp [inMemory.unswapped] at active
    · exact onDisk
  refine ⟨process, ⟨member, rfl, onDisk⟩, ?_⟩
  rintro other ⟨memberOther, same, _⟩
  exact sound.eq_of_pid member memberOther same

theorem hasNothing (sound : system.Sound) (member : process ∈ system.terminated) :
    system.HasNothing process := by
  have gone : process.pid ∉ system.processes.map Process.pid := by
    have distinct := sound.distinct
    rw [everyone, List.map_append] at distinct
    intro living
    exact List.disjoint_of_nodup_append distinct living (List.mem_map_of_mem member)
  have unswapped : system.files.swapImage process.pid = none := sound.owns.unswapped gone
  rcases sound.ended process member with ⟨residence, segment⟩
  refine ⟨residence, segment, sound.owns.homeless gone,
    (hasSwap_eq_false_iff sound).mpr unswapped, ?_⟩
  intro bytes stored
  have read := @FileSystem.Serviceable.readBytes_swap _ process.pid sound.owns.serviceable
  rw [stored, unswapped] at read
  cases read

end Sound

end System

/-- All that is kept is kept for one process that has not ended, and something is kept for each. -/
structure System.StorageOwned (system : System) : Prop where
  distinct : (system.everyone.map Process.pid).Nodup
  living : ∀ process ∈ system.processes,
    Xor (∃ index, system.HasSegment process index) (system.HasSwapFile process)
  executing : ∀ process, system.executing = some process →
    ∃ index, system.HasSegment process index
  occupied : ∀ index, system.memory.isOccupied index = true →
    ∃! process, process ∈ system.processes ∧ system.HasSegment process index
  active : ∀ pid, system.files.hasSwap pid = true →
    ∃! process, process ∈ system.processes ∧ process.pid = pid ∧ system.HasSwapFile process
  terminated : ∀ process ∈ system.terminated, system.HasNothing process

namespace Kernel

/-- In every state of a run each process that has not ended has either a segment or a swap file, the
executing one has a segment, each segment and each swap file in use is that of one such process, and
the processes that have ended have nothing. -/
theorem storageOwned_in_run {config : Config} (valid : config.validate = .ok ()) {kernel : Kernel}
    {admitted : List (Nat × List UInt8)} {printed : List (Nat × String)}
    (run : Run config kernel admitted printed) : kernel.system.StorageOwned := by
  have sound := (run.inOrder valid).sound
  refine ⟨sound.distinct, ?_, ?_, ?_, ?_, ?_⟩
  · intro process member
    exact sound.hasSegment_xor_hasSwapFile member
  · intro process executing
    have member : process ∈ kernel.system.processes := by simp [System.processes, executing]
    rcases sound.hasSegment_or_hasSwapFile member with inMemory | onDisk
    · exact inMemory
    · have resident := sound.running process executing
      simp [Process.isInMemory, onDisk.residence] at resident
  · intro index occupied
    exact sound.existsUnique_hasSegment occupied
  · intro pid active
    exact sound.existsUnique_hasSwapFile active
  · intro process member
    exact sound.hasNothing member

/-- Two processes that take turns in the one segment. -/
theorem storageOwned_in_run_small :
    ∃ kernel admitted printed,
      Run { memorySize := 6, segmentCount := 1, disk := ⟨2, 1, 3⟩, quantum := 1 } kernel admitted
        printed ∧
      kernel.system.processes.map (fun process => (process.pid, process.isOnDisk)) =
        [(1, false), (0, true)] ∧
      kernel.system.StorageOwned := by
  let config : Config := { memorySize := 6, segmentCount := 1, disk := ⟨2, 1, 3⟩, quantum := 1 }
  have followed : (follow ([.enqueue (.loadProgram "A2 01 A0 05 FF 00" none),
      .enqueue (.loadProgram "EA" none), .enqueue .runAllPrograms] ++ List.replicate 6 .pulse)
      (booted config true) [] []).map (fun reached => reached.1.system.processes.map
        fun process => (process.pid, process.isOnDisk)) = some [(1, false), (0, true)] := by
    decide +kernel
  rcases Option.map_eq_some_iff.mp followed with ⟨⟨kernel, admitted, printed⟩, reached, turns⟩
  have run := (@Run.boot config true).follow reached
  exact ⟨kernel, admitted, printed, run, turns, storageOwned_in_run (by decide) run⟩

end Kernel

end Timeshare
