import Timeshare.Proofs.Memory.Service

/-!
# Evacuation undoes loading

A process that was given a segment can read and write there as it likes.  When its segment is
cleared again, memory is as it was before the process was loaded, byte for byte: what it accesses
lies in its segment, and a vacant segment was clear when the process got it.
-/

namespace Timeshare

namespace Memory

/-- What a process does with a logical address of its own. -/
inductive Access
  | read (address : Nat)
  | write (address : Nat) (byte : UInt8)

/-- Memory after a process has accessed it.  An access that is refused changes nothing, nor does one
that only reads. -/
def access (process : Process) (memory : Memory) : Access → Memory
  | .read _ => memory
  | .write address byte =>
    match memory.write process address byte with
    | .ok next => next
    | .error _ => memory

/-- The image of a process after an access.  There is nothing to write past its end. -/
def Access.onto (image : List UInt8) : Access → List UInt8
  | .read _ => image
  | .write address byte => image.set address byte

/-- A process can be removed, which leaves memory as it was at some time before.  Whoever takes its
image out gets `image`. -/
structure Removes (memory : Memory) (process : Process) (image : List UInt8) (before : Memory) :
    Prop where
  evacuation : memory.evacuation (some process.pid) = ([process.pid], before)
  withdraw : memory.withdraw process = .ok {
    image
    process := { process with segment := none, residence := none }
    memory := before }

variable {memory next : Memory} {process : Process} {segment : Segment} {index pid : Nat}

/-! ## What accesses change -/

theorem access_within (located : process.segment = some segment)
    (inside : segment.Inside memory.store) (request : Access) :
    memory.WithinSegment (access process memory request) segment ∧
      (access process memory request).bytes segment = request.onto (memory.bytes segment) := by
  cases request with
  | read address => exact ⟨.refl memory segment, rfl⟩
  | write address byte =>
      by_cases within : address < segment.length
      · rcases write_eq_ok located inside within byte with ⟨next, written, change, bytes⟩
        simp only [access, written]
        exact ⟨change, bytes⟩
      · have beyond : (memory.bytes segment).length ≤ address := by
          rw [length_bytes inside]
          exact Nat.le_of_not_lt within
        simp only [access, write_eq_error located within, Access.onto,
          List.set_eq_of_length_le beyond]
        exact ⟨.refl memory segment, trivial⟩

/-- However often a process accesses memory, it changes its own segment only. -/
theorem accesses_within (located : process.segment = some segment)
    (inside : segment.Inside memory.store) (requests : List Access) :
    memory.WithinSegment (requests.foldl (access process) memory) segment ∧
      (requests.foldl (access process) memory).bytes segment =
        requests.foldl Access.onto (memory.bytes segment) := by
  induction requests generalizing memory with
  | nil => exact ⟨.refl memory segment, rfl⟩
  | cons request rest hypothesis =>
      rcases access_within located inside request with ⟨first, bytes⟩
      rcases hypothesis ⟨inside.ordered, first.size ▸ inside.bounded⟩ with ⟨others, bytesLast⟩
      rw [bytes] at bytesLast
      exact ⟨first.trans others, bytesLast⟩

/-- A segment that got another use since, and was written to. -/
theorem Changes.of_within {last : Memory} {old new : Tenancy}
    (changes : memory.Changes next index segment old new)
    (within : next.WithinSegment last segment) : memory.Changes last index segment old new where
  before := changes.before
  segments := within.segments.trans changes.segments
  occupied := within.occupied.trans changes.occupied
  tenants := by
    simp only [within.held]
    exact changes.tenants
  size := within.size.trans changes.size
  outside place beyond := (within.outside place beyond).trans (changes.outside place beyond)

/-! ## Removing what was placed -/

namespace Tidy

/-- Clearing a segment that was vacant before brings back what there was before. -/
theorem vacate_of_entered (tidy : memory.Tidy) (tidyNext : next.Tidy)
    (enters : memory.Changes next index segment .vacant (.heldBy pid)) :
    next.vacate pid index = memory := by
  rcases tidyNext.vacate (enters.here tidy tidyNext) with ⟨leaves, tidyLeft⟩
  have round := enters.trans leaves
  apply round.eq_of_bytes tidy
  rw [tidyLeft.clear (round.here tidy tidyLeft), tidy.clear round.before]

theorem evacuation (tidy : memory.Tidy)
    (found : memory.partitions[index]? = some ⟨segment, .heldBy pid⟩) :
    memory.evacuation (some pid) = ([pid], memory.vacate pid index) := by
  have resident : memory.isResident pid = true := by
    rw [isResident_eq, tidy.held_of_partition found, Option.isSome_some]
  simp only [Memory.evacuation, resident, if_true, List.foldl_cons, List.foldl_nil,
    tidy.evacuate found]

/-- A process that has entered and kept to its segment can be removed as if it had never been
there. -/
theorem removes (tidy : memory.Tidy) (tidyNext : next.Tidy)
    (enters : memory.Changes next index segment .vacant (.heldBy process.pid)) :
    next.Removes process (next.bytes segment) memory where
  evacuation := by
    rw [tidyNext.evacuation (enters.here tidy tidyNext), tidy.vacate_of_entered tidyNext enters]
  withdraw := by
    rw [tidyNext.withdraw (enters.here tidy tidyNext), tidy.vacate_of_entered tidyNext enters]

end Tidy

namespace Occupancy

variable {size count : Nat} {occupancy : Occupancy}

/-- While a segment is vacant a program is loaded into one.  Whatever its process reads and writes
then, it can be removed again, and memory is what it was before the program was loaded.  The image
that is taken out is the program, cut to the segment or filled up with zeros, with what was written
onto it.  In full memory nothing is loaded. -/
theorem Reached.evacuation_undoes_load (reached : Reached size count occupancy)
    (program : List UInt8) (pid priority : Nat) :
    (occupancy.memory.isFull = false → occupancy.memory.isResident pid = false →
      ∃ placement, occupancy.memory.load program pid priority = .ok placement ∧
        placement.process.pid = pid ∧
        ∀ requests : List Access,
          let last := requests.foldl (access placement.process) placement.memory
          last.Removes placement.process (last.bytes placement.segment) occupancy.memory ∧
          last.bytes placement.segment =
            requests.foldl Access.onto (padded placement.segment.length program)) ∧
    (occupancy.memory.isFull = true →
      occupancy.memory.load program pid priority = .error .outOfMemory ∧
        occupancy.after (.load program pid priority) = occupancy) := by
  have tidy := reached.kept.lodges.tidy
  constructor
  · intro vacant absent
    have homeless : occupancy.memory.holding? pid = none := by
      simpa [isResident_eq] using absent
    rcases @Tidy.place occupancy.memory (.create pid priority) tidy vacant homeless program with
      ⟨placement, placed, process_eq, enters, tidyNext, bytes⟩
    have number : placement.process.pid = pid := by rw [process_eq]; rfl
    have located : placement.process.segment = some placement.segment := by rw [process_eq]
    refine ⟨placement, placed, number, fun requests => ?_⟩
    have here := enters.here tidy tidyNext
    rcases accesses_within located (tidyNext.inside_of_getElem? here) requests with
      ⟨within, written⟩
    have entered := enters.of_within within
    have tidyLast := within.tidy tidyNext here
    exact ⟨tidy.removes tidyLast (number ▸ entered), bytes ▸ written⟩
  · intro full
    have refuses := serve_of_refuses (Refuses.load full program pid priority)
    refine ⟨place_eq_error_of_isFull full (.create pid priority) program, ?_⟩
    rw [after, refuses]

/-- A process in the first of two segments. -/
def halfFull : Occupancy :=
  after ⟨divided 7 2, []⟩ (.load [1, 2, 3, 4] 7 1)

/-- The process in the other segment, which is the longer one, writes to its end and past it. -/
def trespassing : List Access :=
  [.write 3 0xFF, .read 9, .write 4 1]

theorem Reached.evacuation_undoes_load_small :
    Reached 7 2 halfFull ∧
      (∃ placement, halfFull.memory.load [5, 6, 7, 8, 9] 8 1 = .ok placement ∧
        (trespassing.foldl (access placement.process) placement.memory).store.cells =
          #[1, 2, 3, 5, 6, 7, 0xFF] ∧
        (trespassing.foldl (access placement.process) placement.memory).Removes placement.process
          [5, 6, 7, 0xFF] halfFull.memory) ∧
      (halfFull.after (.load [5, 6, 7, 8, 9] 8 1)).memory.load [10] 9 1 = .error .outOfMemory := by
  have reached : Reached 7 2 halfFull := .step .start (by decide)
  have full : Reached 7 2 (halfFull.after (.load [5, 6, 7, 8, 9] 8 1)) := reached.step (by decide)
  have states : (halfFull.memory.isFull, halfFull.memory.isResident 8,
      (halfFull.memory.load [5, 6, 7, 8, 9] 8 1).toOption.map fun placement =>
        (placement.segment,
          (trespassing.foldl (access placement.process) placement.memory).store.cells)) =
      (false, false, some (⟨3, 6⟩, #[1, 2, 3, 5, 6, 7, 0xFF])) := by
    decide +kernel
  simp only [Prod.mk.injEq] at states
  rcases states with ⟨vacant, absent, shown⟩
  rcases (reached.evacuation_undoes_load [5, 6, 7, 8, 9] 8 1).1 vacant absent with
    ⟨placement, loaded, _, undone⟩
  rw [loaded] at shown
  simp only [Except.toOption, Option.map_some, Option.some.injEq, Prod.mk.injEq] at shown
  rcases shown with ⟨segment, cells⟩
  have removes := (undone trespassing).1
  rw [(undone trespassing).2, segment] at removes
  exact ⟨reached, ⟨placement, loaded, cells, removes⟩,
    ((full.evacuation_undoes_load [10] 9 1).2 (by decide +kernel)).1⟩

end Occupancy

end Memory

end Timeshare
