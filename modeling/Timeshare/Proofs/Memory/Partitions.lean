import Timeshare.Proofs.Memory.Tables

/-!
# Partitioned memory in order

Placing an image, withdrawing it and clearing segments keep memory tidy, and each of them changes one
segment only.  An image goes to the first segment that is vacant.
-/

namespace Timeshare

namespace Memory

/-! ## The first vacant segment -/

/-- The segment at an index is vacant, and all segments before it are in use. -/
structure FirstVacant (memory : Memory) (index : Nat) (segment : Segment) : Prop where
  located : memory.segments[index]? = some segment
  vacant : memory.isOccupied index = false
  before : ∀ earlier, earlier < index → memory.isOccupied earlier = true

theorem firstVacant_of_findIdx? {memory : Memory} {index : Nat} {segment : Segment}
    (first : (memory.occupied.findIdx? fun occupied => !occupied) = some index)
    (located : memory.segments[index]? = some segment) : memory.FirstVacant index segment := by
  rcases List.findIdx?_eq_some_iff_getElem.mp first with ⟨small, unused, used⟩
  refine ⟨located, ?_, ?_⟩
  · rw [isOccupied_eq_getElem small]
    simpa using unused
  · intro earlier below
    rw [isOccupied_eq_getElem (Nat.lt_trans below small)]
    simpa using used earlier below

/-- Whatever is placed goes into the first vacant segment. -/
theorem place_eq_ok {memory : Memory} {process : Process} {image : List UInt8}
    {placement : Placement} (placed : memory.place process image = .ok placement) :
    ∃ index segment store, memory.FirstVacant index segment ∧
      memory.store.writeRange segment.base (image.take segment.length) = .ok store ∧
      placement =
        { process := { process with segment := some segment, residence := some .memory }
          memory :=
            { memory with
              store
              occupied := memory.occupied.set index true
              tenants := memory.tenants.insert process.pid index }
          index
          segment } := by
  unfold place at placed
  split at placed
  · cases placed
  · rename_i index first
    split at placed
    · cases placed
    · rename_i segment located
      cases written : memory.store.writeRange segment.base (image.take segment.length) with
      | error error =>
          rw [written] at placed
          cases placed
      | ok store =>
          rw [written] at placed
          cases placed
          exact ⟨index, segment, store, firstVacant_of_findIdx? first located, written, rfl⟩

/-! ## Placing and withdrawing images -/

namespace Tidy

variable {memory : Memory} {process : Process} {pid index : Nat} {segment : Segment}
  {store : ByteStore}

/-- A vacant segment is given to a process that has none. -/
theorem changes_of_given (tidy : memory.Tidy)
    (vacant : memory.partitions[index]? = some ⟨segment, .vacant⟩)
    (homeless : memory.holding? pid = none) (size : store.size = memory.store.size)
    (outside : ∀ place, place < segment.base ∨ segment.limit < place →
      store.cells[place]? = memory.store.cells[place]?) :
    memory.Changes
      { memory with
        store
        occupied := memory.occupied.set index true
        tenants := memory.tenants.insert pid index }
      index segment .vacant (.heldBy pid) where
  before := vacant
  segments := rfl
  occupied := rfl
  tenants := by
    intro tenant other
    rw [holding?, OrderedMap.lookup?_insert]
    change (if tenant = pid then some index else memory.holding? tenant) = some other ↔ _
    by_cases given : tenant = pid
    · simp [given, homeless, eq_comm]
    · by_cases here : other = index
      · -- Nobody was given the segment before.
        have unheld : memory.holding? tenant ≠ some index := by
          intro held
          have used := tidy.isOccupied_of_held held
          simp [(vacant_iff.mp vacant).2] at used
        have notNew : Tenancy.heldBy pid ≠ .heldBy tenant := by simpa using Ne.symm given
        simp [given, here, unheld, notNew]
      · simp [given, here]
  size := size
  outside := outside

/-- A segment is taken from the process that has it. -/
theorem changes_of_taken (tidy : memory.Tidy)
    (found : memory.partitions[index]? = some ⟨segment, .heldBy pid⟩)
    (size : store.size = memory.store.size)
    (outside : ∀ place, place < segment.base ∨ segment.limit < place →
      store.cells[place]? = memory.store.cells[place]?) :
    memory.Changes
      { memory with
        store
        occupied := memory.occupied.set index false
        tenants := memory.tenants.erase pid }
      index segment (.heldBy pid) .vacant where
  before := found
  segments := rfl
  occupied := rfl
  tenants := by
    have held := tidy.held_of_partition found
    intro tenant other
    rw [holding?, OrderedMap.lookup?_erase]
    change (if tenant = pid then none else memory.holding? tenant) = some other ↔ _
    by_cases taken : tenant = pid
    · simp [taken, held, eq_comm]
    · by_cases here : other = index
      · have unheld : memory.holding? tenant ≠ some index := fun both =>
          taken (tidy.single tenant pid index both held)
        simpa [taken, here] using unheld
      · simp [taken, here]
  size := size
  outside := outside

/-- Writing an image over a vacant segment leaves the padded image in it. -/
theorem bytes_of_written (tidy : memory.Tidy)
    (vacant : memory.partitions[index]? = some ⟨segment, .vacant⟩) {next : Memory}
    {image : List UInt8} (size : next.store.size = memory.store.size)
    (cells : ∀ place, next.store.cells[place]? =
      if segment.base ≤ place ∧ place < segment.base + (image.take segment.length).length then
        (image.take segment.length)[place - segment.base]?
      else memory.store.cells[place]?) :
    next.bytes segment = padded segment.length image := by
  have inside := tidy.inside_of_getElem? vacant
  have insideNext : segment.Inside next.store := ⟨inside.ordered, size ▸ inside.bounded⟩
  have clear := tidy.clear vacant
  apply List.ext_getElem?
  intro offset
  rw [getElem?_bytes insideNext, cells, getElem?_padded, List.length_take]
  by_cases within : offset < segment.length
  · have zero : memory.store.cells[segment.base + offset]? = some 0 := by
      have byte := congrArg (fun bytes => bytes[offset]?) clear
      simpa [getElem?_bytes inside, within] using byte
    rw [if_pos within, if_pos within, zero]
    by_cases given : offset < image.length
    · have written : segment.base ≤ segment.base + offset ∧
          segment.base + offset < segment.base + min segment.length image.length := by omega
      rw [if_pos written, Nat.add_sub_cancel_left, List.getElem?_take, if_pos within,
        List.getElem?_eq_getElem given]
      rfl
    · have beyond : ¬ (segment.base ≤ segment.base + offset ∧
          segment.base + offset < segment.base + min segment.length image.length) := by omega
      rw [if_neg beyond, List.getElem?_eq_none (Nat.le_of_not_lt given)]
      rfl
  · rw [if_neg within, if_neg within]

/-- While a segment is vacant an image can be placed.  It is cut to the segment or filled up with
zeros. -/
theorem place (tidy : memory.Tidy) (vacant : memory.isFull = false)
    (homeless : memory.holding? process.pid = none) (image : List UInt8) :
    ∃ placement, memory.place process image = .ok placement ∧
      placement.process =
        { process with segment := some placement.segment, residence := some .memory } ∧
      memory.Changes placement.memory placement.index placement.segment .vacant
        (.heldBy process.pid) ∧
      placement.memory.Tidy ∧
      placement.memory.bytes placement.segment = padded placement.segment.length image := by
  have unused : ∃ occupied ∈ memory.occupied, (!occupied) = true := by simpa [isFull] using vacant
  cases first : memory.occupied.findIdx? fun occupied => !occupied with
  | none =>
      rcases unused with ⟨occupied, member, free⟩
      rw [List.findIdx?_eq_none_iff.mp first occupied member] at free
      cases free
  | some index =>
      have small : index < memory.segments.length := by
        rw [← tidy.counted]
        exact (List.findIdx?_eq_some_iff_getElem.mp first).1
      have located := List.getElem?_eq_getElem small
      generalize memory.segments[index] = segment at located
      have unoccupied := (firstVacant_of_findIdx? first located).vacant
      have found := vacant_iff.mpr ⟨located, unoccupied⟩
      have inside := tidy.inside_of_getElem? found
      have ordered := inside.ordered
      have bounded := inside.bounded
      have fits : segment.base + (image.take segment.length).length ≤ memory.store.size := by
        simp only [List.length_take, Segment.length]
        omega
      rcases ByteStore.writeRange_eq_ok fits with ⟨store, written, size, cells⟩
      have changes := @changes_of_given memory process.pid index segment store tidy found homeless
        size fun place outside => by
          rw [cells, if_neg]
          simp only [List.length_take, Segment.length]
          omega
      refine ⟨⟨{ process with segment := some segment, residence := some .memory }, _, index,
        segment⟩, ?_, rfl, changes, changes.tidy tidy (by simp) (by simp),
        tidy.bytes_of_written found size cells⟩
      simp only [Memory.place, first, located]
      rw [written]
      rfl

/-! ## Clearing segments -/

theorem vacate (tidy : memory.Tidy)
    (found : memory.partitions[index]? = some ⟨segment, .heldBy pid⟩) :
    memory.Changes (memory.vacate pid index) index segment (.heldBy pid) .vacant ∧
      (memory.vacate pid index).Tidy := by
  have inside := tidy.inside_of_getElem? found
  rcases ByteStore.zeroFill_eq_ok inside.ordered inside.bounded with ⟨store, filled, size, cells⟩
  have vacated : memory.vacate pid index =
      { memory with
        store
        occupied := memory.occupied.set index false
        tenants := memory.tenants.erase pid } := by
    simp only [Memory.vacate, release, located_of_partition found, filled]
  have changes := @changes_of_taken memory pid index segment store tidy found size
    fun place outside => by
      rw [cells, if_neg]
      omega
  rw [vacated]
  refine ⟨changes, changes.tidy tidy (by simp) ?_⟩
  intro _
  have insideNext : segment.Inside store := ⟨inside.ordered, size ▸ inside.bounded⟩
  have ordered := inside.ordered
  apply List.ext_getElem?
  intro offset
  rw [getElem?_bytes (by exact insideNext), List.getElem?_replicate, cells]
  by_cases within : offset < segment.length
  · rw [if_pos within, if_pos within, if_pos]
    simp only [Segment.length] at within
    omega
  · rw [if_neg within, if_neg within]

/-- The image that is withdrawn is what was in the segment. -/
theorem withdraw (tidy : memory.Tidy)
    (found : memory.partitions[index]? = some ⟨segment, .heldBy process.pid⟩) :
    memory.withdraw process = .ok {
      image := memory.bytes segment
      process := { process with segment := none, residence := none }
      memory := memory.vacate process.pid index } := by
  simp only [Memory.withdraw, tidy.held_of_partition found, located_of_partition found,
    readRange_eq_ok (tidy.inside_of_getElem? found)]
  rfl

theorem evacuate (tidy : memory.Tidy)
    (found : memory.partitions[index]? = some ⟨segment, .heldBy pid⟩) :
    memory.evacuate pid = memory.vacate pid index := by
  simp only [Memory.evacuate, tidy.held_of_partition found]

/-- Where only one segment was cleared, its image can only go back to where it was, and memory is
again what it was before. -/
theorem place_vacate (tidy : memory.Tidy) (full : memory.isFull = true)
    (found : memory.partitions[index]? = some ⟨segment, .heldBy process.pid⟩) :
    ∃ placement,
      (memory.vacate process.pid index).place process (memory.bytes segment) = .ok placement ∧
      placement.process = { process with segment := some segment, residence := some .memory } ∧
      placement.memory = memory := by
  rcases tidy.vacate found with ⟨leaves, tidyLeft⟩
  rcases tidyLeft.place (leaves.isFull_eq_false tidy) (leaves.holding?_of_left tidy rfl)
    (memory.bytes segment) with ⟨placement, placed, process_eq, enters, _, bytes⟩
  obtain ⟨only, rfl⟩ := leaves.eq_of_vacant tidy full enters.before
  rw [only] at enters
  refine ⟨placement, placed, process_eq, (leaves.trans enters).eq_of_bytes tidy ?_⟩
  -- The image is as long as the segment.
  rw [bytes, padded_of_length (length_bytes (tidy.inside_of_getElem? found))]

/-- Clearing the segments of several processes leaves those of the others. -/
theorem evacuate_foldl {memory : Memory} (tidy : memory.Tidy) (pids : List Nat) :
    (pids.foldl Memory.evacuate memory).Tidy ∧
      (pids.foldl Memory.evacuate memory).segments = memory.segments ∧
      ∀ pid, (pids.foldl Memory.evacuate memory).holding? pid =
        if pid ∈ pids then none else memory.holding? pid := by
  induction pids generalizing memory with
  | nil => exact ⟨tidy, rfl, fun pid => by simp⟩
  | cons first rest hypothesis =>
      rw [List.foldl_cons]
      cases held : memory.holding? first with
      | none =>
          have unchanged : memory.evacuate first = memory := by
            simp only [Memory.evacuate, held]
          rw [unchanged]
          rcases hypothesis tidy with ⟨tidyNext, segments, holding⟩
          refine ⟨tidyNext, segments, ?_⟩
          intro pid
          rw [holding]
          by_cases same : pid = first
          · simp [same, held]
          · simp [same]
      | some index =>
          rcases tidy.holding?_eq_some_iff.mp held with ⟨segment, found⟩
          rcases tidy.vacate found with ⟨changes, tidyVacated⟩
          rw [tidy.evacuate found]
          rcases hypothesis tidyVacated with ⟨tidyNext, segments, holding⟩
          refine ⟨tidyNext, segments.trans changes.segments, ?_⟩
          intro pid
          rw [holding]
          by_cases same : pid = first
          · simp [same, changes.holding?_of_left tidy rfl]
          · have other : Tenancy.heldBy first ≠ .heldBy pid := by simpa using Ne.symm same
            rw [changes.holding?_of_ne tidy other (by simp)]
            simp [same]

/-- Clearing all segments leaves no process in memory. -/
theorem evacuateAll (tidy : memory.Tidy) :
    memory.evacuateAll.Tidy ∧ memory.evacuateAll.segments = memory.segments ∧
      ∀ pid, memory.evacuateAll.holding? pid = none := by
  rcases tidy.evacuate_foldl memory.residentPids with ⟨tidyNext, segments, holding⟩
  refine ⟨tidyNext, segments, ?_⟩
  intro pid
  rw [Memory.evacuateAll, holding]
  split
  · rfl
  · rename_i absent
    cases held : memory.holding? pid with
    | none => rfl
    | some index => exact absurd (mem_residentPids.mpr ⟨index, held⟩) absent

end Tidy

/-! ## What was placed and what was withdrawn -/

section Outcomes

variable {memory : Memory} {process : Process}

theorem firstVacant_of_place {image : List UInt8} {placement : Placement}
    (placed : memory.place process image = .ok placement) :
    memory.FirstVacant placement.index placement.segment := by
  rcases place_eq_ok placed with ⟨index, segment, store, first, _, rfl⟩
  exact first

/-- Whatever is withdrawn leaves its segment vacant. -/
theorem withdraw_eq_ok {withdrawal : Withdrawal}
    (withdrawn : memory.withdraw process = .ok withdrawal) :
    ∃ index image, withdrawal =
      { image
        process := { process with segment := none, residence := none }
        memory := memory.vacate process.pid index } := by
  unfold withdraw at withdrawn
  split at withdrawn
  · cases withdrawn
  · rename_i index _
    split at withdrawn
    · cases withdrawn
    · rename_i segment located
      cases read : memory.store.readRange segment.base segment.limit with
      | error error =>
          rw [read] at withdrawn
          cases withdrawn
      | ok image =>
          rw [read] at withdrawn
          cases withdrawn
          exact ⟨index, image, rfl⟩

theorem place_eq_error_of_isFull (full : memory.isFull = true) (process : Process)
    (image : List UInt8) : memory.place process image = .error .outOfMemory := by
  have none_vacant : (memory.occupied.findIdx? fun occupied => !occupied) = none := by
    simpa [isFull, List.findIdx?_eq_none_iff] using full
  simp only [place, none_vacant]

/-! Whatever is placed or cleared, the store keeps its size. -/

theorem size_of_place {image : List UInt8} {placement : Placement}
    (placed : memory.place process image = .ok placement) :
    placement.memory.store.size = memory.store.size := by
  rcases place_eq_ok placed with ⟨index, segment, store, _, written, rfl⟩
  exact ByteStore.size_of_writeRange written

@[simp]
theorem size_vacate (memory : Memory) (pid index : Nat) :
    (memory.vacate pid index).store.size = memory.store.size := by
  unfold vacate release
  split
  · rfl
  · dsimp only
    split
    · rename_i filled
      exact ByteStore.size_of_zeroFill filled
    · rfl

@[simp]
theorem size_evacuate (memory : Memory) (pid : Nat) :
    (memory.evacuate pid).store.size = memory.store.size := by
  unfold evacuate
  split
  · exact size_vacate memory pid _
  · rfl

@[simp]
theorem size_evacuateAll (memory : Memory) :
    memory.evacuateAll.store.size = memory.store.size := by
  have each (pids : List Nat) (memory : Memory) :
      (pids.foldl evacuate memory).store.size = memory.store.size := by
    induction pids generalizing memory with
    | nil => rfl
    | cons pid rest hypothesis => exact (hypothesis _).trans (size_evacuate memory pid)
  exact each memory.residentPids memory

end Outcomes

end Memory

end Timeshare
