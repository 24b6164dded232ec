import Timeshare.Proofs.Memory.Divided
import Timeshare.Proofs.Memory.Partitions

/-!
# Who lives in memory

A process is in memory or on disk, and it says which.  `Memory.Houses` says that memory agrees with
a process about that, `Memory.Lodges` that it agrees with all of them and that nobody else holds a
segment.  A process moves in or out alone: `Memory.Rehouses` leaves everyone else where they are, so
that `Lodges` has to be looked at for one process only.
-/

namespace Timeshare

/-- What a process knows about its place, and under which number. -/
def Process.place (process : Process) : Nat × Option Residence × Option Segment :=
  (process.pid, process.residence, process.segment)

namespace Memory

/-- Memory and a process agree about whether the process has a segment, and which. -/
inductive Houses (memory : Memory) (process : Process) : Prop
  | inside (index : Nat) (segment : Segment) (residence : process.residence = some .memory)
      (segment_eq : process.segment = some segment)
      (held : memory.holding? process.pid = some index)
      (located : memory.segments[index]? = some segment)
  | outside (residence : process.residence = some .disk) (segment_eq : process.segment = none)
      (homeless : memory.holding? process.pid = none)

/-- Memory has a segment for each of the processes that is not on disk, and none for anyone else. -/
structure Lodges (memory : Memory) (processes : List Process) : Prop where
  tidy : memory.Tidy
  distinct : (processes.map Process.pid).Nodup
  houses : ∀ process ∈ processes, memory.Houses process
  held : ∀ pid index, memory.holding? pid = some index → pid ∈ processes.map Process.pid

/-- Nobody but the process `pid` has moved in or out. -/
structure Rehouses (memory next : Memory) (pid : Nat) : Prop where
  tidy : next.Tidy
  segments : next.segments = memory.segments
  others : ∀ other, other ≠ pid → next.holding? other = memory.holding? other

variable {memory next last : Memory} {process moved : Process} {others : List Process} {pid : Nat}

namespace Houses

theorem isInMemory (houses : memory.Houses process) : process.isInMemory = !process.isOnDisk := by
  cases houses with
  | inside _ _ residence segment_eq =>
      simp [Process.isInMemory, Process.isOnDisk, residence, segment_eq]
  | outside residence => simp [Process.isInMemory, Process.isOnDisk, residence]

/-- What a process has besides its place does not matter. -/
theorem of_place (houses : memory.Houses process) (same : moved.place = process.place) :
    memory.Houses moved := by
  simp only [Process.place, Prod.mk.injEq] at same
  rcases same with ⟨pid, residence, segment⟩
  cases houses with
  | inside index there resident segment_eq held located =>
      exact .inside index there (residence.trans resident) (segment.trans segment_eq) (pid ▸ held)
        located
  | outside resident segment_eq homeless =>
      exact .outside (residence.trans resident) (segment.trans segment_eq) (pid ▸ homeless)

/-- A process in memory is the tenant of its segment. -/
theorem partition (houses : memory.Houses process) (tidy : memory.Tidy)
    (inMemory : process.isInMemory = true) :
    ∃ (index : Nat) (segment : Segment), process.segment = some segment ∧
      memory.partitions[index]? = some ⟨segment, .heldBy process.pid⟩ := by
  cases houses with
  | outside residence => simp [Process.isInMemory, residence] at inMemory
  | inside index segment residence segment_eq held located =>
      exact ⟨index, segment, segment_eq, tidy.partition_of_held held located⟩

end Houses

namespace Rehouses

theorem refl (tidy : memory.Tidy) (pid : Nat) : memory.Rehouses memory pid :=
  ⟨tidy, rfl, fun _ _ => rfl⟩

theorem trans (first : memory.Rehouses next pid) (second : next.Rehouses last pid) :
    memory.Rehouses last pid where
  tidy := second.tidy
  segments := second.segments.trans first.segments
  others other different := (second.others other different).trans (first.others other different)

/-- A segment has passed to the process or from it. -/
theorem of_changes {index : Nat} {segment : Segment} {old new : Tenancy}
    (changes : memory.Changes next index segment old new) (tidy : memory.Tidy)
    (tidyNext : next.Tidy) (left : ∀ other, other ≠ pid → old ≠ .heldBy other)
    (entered : ∀ other, other ≠ pid → new ≠ .heldBy other) : memory.Rehouses next pid where
  tidy := tidyNext
  segments := changes.segments
  others other different :=
    changes.holding?_of_ne tidy (left other different) (entered other different)

theorem houses (rehouses : memory.Rehouses next pid) (different : process.pid ≠ pid)
    (houses : memory.Houses process) : next.Houses process := by
  have same := rehouses.others process.pid different
  cases houses with
  | inside index segment residence segment_eq held located =>
      exact .inside index segment residence segment_eq (same.trans held)
        (by rw [rehouses.segments, located])
  | outside residence segment_eq homeless =>
      exact .outside residence segment_eq (same.trans homeless)

end Rehouses

namespace Lodges

/-- Neither the order of the processes matters nor what they have besides their places. -/
theorem congr {processes : List Process} (lodges : memory.Lodges others)
    (same : (others.map Process.place).Perm (processes.map Process.place)) :
    memory.Lodges processes := by
  have pids : (others.map Process.pid).Perm (processes.map Process.pid) := by
    simpa [List.map_map, Function.comp_def, Process.place] using same.map Prod.fst
  refine ⟨lodges.tidy, pids.nodup_iff.mp lodges.distinct, ?_, ?_⟩
  · intro process member
    rcases List.mem_map.mp (same.mem_iff.mpr (List.mem_map_of_mem member)) with
      ⟨other, among, equal⟩
    exact (lodges.houses other among).of_place equal.symm
  · intro pid index held
    exact pids.mem_iff.mp (lodges.held pid index held)

theorem perm {processes : List Process} (lodges : memory.Lodges others)
    (order : others.Perm processes) : memory.Lodges processes :=
  lodges.congr (order.map Process.place)

theorem homeless (lodges : memory.Lodges others) (absent : pid ∉ others.map Process.pid) :
    memory.holding? pid = none := by
  cases held : memory.holding? pid with
  | none => rfl
  | some index => exact absurd (lodges.held pid index held) absent

theorem ne_of_mem (lodges : memory.Lodges (process :: others)) {other : Process}
    (member : other ∈ others) : other.pid ≠ process.pid := by
  intro same
  apply (List.nodup_cons.mp lodges.distinct).1
  exact same ▸ List.mem_map_of_mem member

/-- A process has moved. -/
theorem replace (lodges : memory.Lodges (process :: others))
    (rehouses : memory.Rehouses next process.pid) (pid : moved.pid = process.pid)
    (houses : next.Houses moved) : next.Lodges (moved :: others) where
  tidy := rehouses.tidy
  distinct := by simpa [pid] using lodges.distinct
  houses := by
    intro other member
    rcases List.mem_cons.mp member with rfl | among
    · exact houses
    · apply rehouses.houses (lodges.ne_of_mem among)
      exact lodges.houses other (List.mem_cons_of_mem _ among)
  held := by
    intro other index held
    by_cases same : other = process.pid
    · simp [same, pid]
    · simpa [pid] using lodges.held other index (rehouses.others other same ▸ held)

/-- A process is gone. -/
theorem evict (lodges : memory.Lodges others) (rehouses : memory.Rehouses next pid)
    (homeless : next.holding? pid = none) :
    next.Lodges (others.filter fun process => process.pid ≠ pid) where
  tidy := rehouses.tidy
  distinct := lodges.distinct.sublist (List.filter_sublist.map Process.pid)
  houses := by
    intro process member
    rcases List.mem_filter.mp member with ⟨among, different⟩
    exact rehouses.houses (of_decide_eq_true different) (lodges.houses process among)
  held := by
    intro other index held
    have different : other ≠ pid := by
      rintro rfl
      simp [homeless] at held
    rcases List.mem_map.mp (lodges.held other index (rehouses.others other different ▸ held)) with
      ⟨process, among, rfl⟩
    exact List.mem_map_of_mem (List.mem_filter.mpr ⟨among, decide_eq_true different⟩)

/-- A process has moved out for good. -/
theorem remove (lodges : memory.Lodges (process :: others))
    (rehouses : memory.Rehouses next process.pid) (homeless : next.holding? process.pid = none) :
    next.Lodges others := by
  have rest : (process :: others).filter (fun other => other.pid ≠ process.pid) = others := by
    rw [List.filter_cons_of_neg (by simp), List.filter_eq_self]
    intro other member
    exact decide_eq_true (lodges.ne_of_mem member)
  exact rest ▸ lodges.evict rehouses homeless

/-- A further process has moved in. -/
theorem add (lodges : memory.Lodges others) (new : process.pid ∉ others.map Process.pid)
    (rehouses : memory.Rehouses next process.pid) (houses : next.Houses process) :
    next.Lodges (process :: others) where
  tidy := rehouses.tidy
  distinct := List.nodup_cons.mpr ⟨new, lodges.distinct⟩
  houses := by
    intro other member
    rcases List.mem_cons.mp member with rfl | among
    · exact houses
    · apply rehouses.houses _ (lodges.houses other among)
      intro same
      exact new (same ▸ List.mem_map_of_mem among)
  held := by
    intro other index held
    by_cases same : other = process.pid
    · simp [same]
    · exact List.mem_cons_of_mem _ (lodges.held other index (rehouses.others other same ▸ held))

/-- What a process writes into its own segment moves nobody. -/
theorem within {index : Nat} {segment : Segment} (lodges : memory.Lodges others)
    (within : memory.WithinSegment next segment)
    (found : memory.partitions[index]? = some ⟨segment, .heldBy pid⟩) : next.Lodges others where
  tidy := within.tidy lodges.tidy found
  distinct := lodges.distinct
  houses := by
    intro process member
    cases lodges.houses process member with
    | inside place there residence segment_eq held located =>
        exact .inside place there residence segment_eq (within.held.trans held)
          (by rw [within.segments, located])
    | outside residence segment_eq homeless =>
        exact .outside residence segment_eq (within.held.trans homeless)
  held other place held := lodges.held other place (within.held.symm.trans held)

/-- When memory is cleared only the processes on disk are left. -/
theorem evacuateAll (lodges : memory.Lodges others) :
    memory.evacuateAll.Lodges (others.filter fun process => !process.isInMemory) := by
  rcases lodges.tidy.evacuateAll with ⟨tidy, _, nobody⟩
  refine ⟨tidy, lodges.distinct.sublist (List.filter_sublist.map Process.pid), ?_, ?_⟩
  · intro process member
    rcases List.mem_filter.mp member with ⟨among, outside⟩
    cases lodges.houses process among with
    | inside _ _ residence segment_eq =>
        simp [Process.isInMemory, residence, segment_eq] at outside
    | outside residence segment_eq _ => exact .outside residence segment_eq (nobody process.pid)
  · intro pid index held
    simp [nobody] at held

end Lodges

end Memory

/-! ## Moving in and out -/

namespace Memory.Tidy

variable {memory : Memory} {process : Process}

/-- The segment of a process is vacated. -/
theorem moveOut (tidy : memory.Tidy) {index pid : Nat} {segment : Segment}
    (found : memory.partitions[index]? = some ⟨segment, .heldBy pid⟩) :
    memory.Rehouses (memory.vacate pid index) pid ∧
      (memory.vacate pid index).holding? pid = none ∧
      (memory.vacate pid index).isFull = false := by
  rcases tidy.vacate found with ⟨leaves, tidyLeft⟩
  refine ⟨.of_changes leaves tidy tidyLeft ?_ (by simp), leaves.holding?_of_left tidy rfl,
    leaves.isFull_eq_false tidy⟩
  intro other different
  simpa using Ne.symm different

/-- A process without a segment gets one. -/
theorem moveIn (tidy : memory.Tidy) (vacant : memory.isFull = false)
    (homeless : memory.holding? process.pid = none) (image : List UInt8) :
    ∃ placement, memory.place process image = .ok placement ∧
      placement.process.pid = process.pid ∧ placement.process.isInMemory = true ∧
      memory.Rehouses placement.memory process.pid ∧
      placement.memory.Houses placement.process := by
  rcases tidy.place vacant homeless image with
    ⟨placement, placed, process_eq, enters, tidyNext, _⟩
  rcases enters.held with ⟨held, located⟩
  refine ⟨placement, placed, by rw [process_eq], by simp [process_eq, Process.isInMemory],
    .of_changes enters tidy tidyNext (by simp) ?_, ?_⟩
  · intro other different
    simpa using Ne.symm different
  · rw [process_eq]
    exact .inside _ _ rfl rfl held located

end Memory.Tidy

end Timeshare
