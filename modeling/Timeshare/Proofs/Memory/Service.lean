import Timeshare.Proofs.Memory.Lodging

/-!
# Memory in service

Memory keeps in two tables which segments are in use and which one each process was given.  But an
address is checked only against the copy of its segment that a process carries, and an image is
placed without clearing the segment first.  Whether each process finds its own image, and nothing
else, depends therefore on all that was placed, written and cleared before.

An `Occupancy` is memory with the processes that were placed in it and have not been removed since.
`InStep` says that the tables, the copies and the bytes agree, and `Answers` what memory does with
the next request.  Both hold of all that can be `Reached`: no request brings them out of step.
-/

namespace Timeshare

namespace Memory

/-- What memory is asked to do. -/
inductive Request
  | load (program : List UInt8) (pid priority : Nat)
  | place (process : Process) (image : List UInt8)
  | evacuate (pid : Nat)
  | evacuateAll
  | withdraw (process : Process)
  | write (process : Process) (address : Nat) (byte : UInt8)

/-- Memory, and the processes that were placed in it and have not been removed since. -/
structure Occupancy where
  memory : Memory
  lodgers : List Process

/-- An image was put into the first vacant segment.  It was cut to the segment or filled up with
zeros, and both memory and the process know where it is. -/
structure Settles (memory : Memory) (image : List UInt8) (placement : Placement) : Prop where
  first : memory.FirstVacant placement.index placement.segment
  held : placement.memory.holding? placement.process.pid = some placement.index
  located : placement.process.segment = some placement.segment
  bytes : placement.memory.bytes placement.segment = padded placement.segment.length image

namespace Occupancy

/-- A process was placed. -/
def enter (occupancy : Occupancy) (placement : Placement) : Occupancy :=
  ⟨placement.memory, placement.process :: occupancy.lodgers⟩

/-- A process was removed, and this is what is left of memory. -/
def leave (occupancy : Occupancy) (pid : Nat) (memory : Memory) : Occupancy :=
  ⟨memory, occupancy.lodgers.filter fun process => process.pid ≠ pid⟩

def serve (occupancy : Occupancy) : Request → Except MemoryError Occupancy
  | .load program pid priority => (occupancy.memory.load program pid priority).map occupancy.enter
  | .place process image => (occupancy.memory.place process image).map occupancy.enter
  | .evacuate pid => .ok (occupancy.leave pid (occupancy.memory.evacuate pid))
  | .evacuateAll => .ok ⟨occupancy.memory.evacuateAll, []⟩
  | .withdraw process =>
    (occupancy.memory.withdraw process).map fun withdrawal =>
      occupancy.leave process.pid withdrawal.memory
  | .write process address byte =>
    (occupancy.memory.write process address byte).map fun memory => ⟨memory, occupancy.lodgers⟩

/-- A request that is refused changes nothing. -/
def after (occupancy : Occupancy) (request : Request) : Occupancy :=
  match occupancy.serve request with
  | .ok next => next
  | .error _ => occupancy

/-- Nobody is placed who has a segment already, and only processes that were placed and not removed
since write.  All that counts of these is what they know about their place. -/
def Admits (occupancy : Occupancy) : Request → Prop
  | .load _ pid _ => occupancy.memory.holding? pid = none
  | .place process _ => occupancy.memory.holding? process.pid = none
  | .write process _ _ => process.place ∈ occupancy.lodgers.map Process.place
  | .evacuate _ | .evacuateAll | .withdraw _ => True

instance (occupancy : Occupancy) : DecidablePred occupancy.Admits
  | .load _ pid _ => inferInstanceAs (Decidable (occupancy.memory.holding? pid = none))
  | .place process _ => inferInstanceAs (Decidable (occupancy.memory.holding? process.pid = none))
  | .write process _ _ =>
    inferInstanceAs (Decidable (process.place ∈ occupancy.lodgers.map Process.place))
  | .evacuate _ | .evacuateAll | .withdraw _ => inferInstanceAs (Decidable True)

/-- What can become of memory of `size` bytes that `count` segments were asked for. -/
inductive Reached (size count : Nat) : Occupancy → Prop
  | start : Reached size count ⟨divided size count, []⟩
  | step {occupancy : Occupancy} {request : Request} (reached : Reached size count occupancy)
      (admits : occupancy.Admits request) : Reached size count (occupancy.after request)

/-- The tables of memory, the segments that processes carry and the bytes agree. -/
structure InStep (occupancy : Occupancy) (size count : Nat) : Prop where
  segments : occupancy.memory.segments = segmentTable size count
  size : occupancy.memory.store.size = size
  inside : ∀ segment ∈ occupancy.memory.segments, segment.Inside occupancy.memory.store
  counted : occupancy.memory.occupied.length = occupancy.memory.segments.length
  injective : ∀ pid other index, occupancy.memory.holding? pid = some index →
    occupancy.memory.holding? other = some index → pid = other
  occupied : ∀ index, occupancy.memory.isOccupied index = true ↔
    ∃ pid, occupancy.memory.holding? pid = some index
  cleared : ∀ index segment, occupancy.memory.segments[index]? = some segment →
    occupancy.memory.isOccupied index = false →
      occupancy.memory.bytes segment = List.replicate segment.length 0
  lodged : ∀ process ∈ occupancy.lodgers, ∃ index segment,
    occupancy.memory.holding? process.pid = some index ∧
      occupancy.memory.segments[index]? = some segment ∧ process.segment = some segment
  distinct : (occupancy.lodgers.map Process.pid).Nodup
  known : ∀ pid index, occupancy.memory.holding? pid = some index →
    pid ∈ occupancy.lodgers.map Process.pid

/-- The requests that are refused, and the reasons. -/
inductive Refuses (occupancy : Occupancy) : Request → MemoryError → Prop
  | load (full : occupancy.memory.isFull = true) (program : List UInt8) (pid priority : Nat) :
      Refuses occupancy (.load program pid priority) .outOfMemory
  | place (full : occupancy.memory.isFull = true) (process : Process) (image : List UInt8) :
      Refuses occupancy (.place process image) .outOfMemory
  | withdraw {process : Process} (homeless : occupancy.memory.holding? process.pid = none) :
      Refuses occupancy (.withdraw process) (.notResident process.pid)
  | write {process : Process} {segment : Segment} {address : Nat}
      (located : process.segment = some segment) (beyond : ¬ address < segment.length)
      (byte : UInt8) :
      Refuses occupancy (.write process address byte) (.segmentationFault process.pid address)

/-- What memory does with the next request. -/
structure Answers (occupancy : Occupancy) : Prop where
  refused : ∀ request error, occupancy.Admits request →
    (occupancy.serve request = .error error ↔ occupancy.Refuses request error)
  inRange : ∀ request address, occupancy.Admits request →
    occupancy.serve request ≠ .error (.outOfRange address)
  /-- Clearing a segment ignores errors of the store, but there are none. -/
  clears : ∀ segment ∈ occupancy.memory.segments, ∃ store,
    occupancy.memory.store.zeroFill segment.base segment.limit = .ok store
  loads : ∀ program pid priority placement, occupancy.memory.holding? pid = none →
    occupancy.memory.load program pid priority = .ok placement →
      occupancy.memory.Settles program placement
  places : ∀ process image placement, occupancy.memory.holding? process.pid = none →
    occupancy.memory.place process image = .ok placement →
      occupancy.memory.Settles image placement

end Occupancy

/-! ## What a tidy memory tells -/

namespace Tidy

variable {memory : Memory}

theorem settles (tidy : memory.Tidy) {process : Process} {image : List UInt8}
    {placement : Placement} (homeless : memory.holding? process.pid = none)
    (placed : memory.place process image = .ok placement) : memory.Settles image placement := by
  have vacant : memory.isFull = false := by
    rw [← Bool.not_eq_true]
    intro full
    rw [place_eq_error_of_isFull full] at placed
    cases placed
  rcases tidy.place vacant homeless image with
    ⟨other, succeeded, process_eq, enters, tidyNext, bytes⟩
  obtain rfl : other = placement := Except.ok.inj (succeeded.symm.trans placed)
  refine ⟨firstVacant_of_place placed, ?_, by rw [process_eq], bytes⟩
  rw [process_eq]
  exact enters.held.1

end Tidy

/-! ## What each request keeps -/

namespace Occupancy

/-- Memory houses the lodgers and nobody else, in the segments it was divided into. -/
structure Kept (occupancy : Occupancy) (size count : Nat) : Prop where
  lodges : occupancy.memory.Lodges occupancy.lodgers
  present : ∀ process ∈ occupancy.lodgers, process.isInMemory = true
  segments : occupancy.memory.segments = segmentTable size count
  size : occupancy.memory.store.size = size

variable {occupancy : Occupancy} {size count : Nat} {request : Request}

theorem kept_start (size count : Nat) : Kept ⟨divided size count, []⟩ size count where
  lodges := {
    tidy := tidy_divided size count
    distinct := .nil
    houses := by simp
    held := by
      intro pid index held
      simp [holding?_divided] at held }
  present := by simp
  segments := segments_divided
  size := by simp [divided, ByteStore.zeroed, ByteStore.size]

namespace Kept

theorem lodged (kept : occupancy.Kept size count) {process : Process}
    (member : process ∈ occupancy.lodgers) : ∃ index segment,
      occupancy.memory.holding? process.pid = some index ∧
        occupancy.memory.segments[index]? = some segment ∧ process.segment = some segment := by
  cases kept.lodges.houses process member with
  | inside index segment residence segment_eq held located =>
      exact ⟨index, segment, held, located, segment_eq⟩
  | outside residence =>
      have present := kept.present process member
      simp [Process.isInMemory, residence] at present

theorem new (kept : occupancy.Kept size count) {pid : Nat}
    (homeless : occupancy.memory.holding? pid = none) :
    pid ∉ occupancy.lodgers.map Process.pid := by
  intro member
  rcases List.mem_map.mp member with ⟨process, among, rfl⟩
  rcases kept.lodged among with ⟨index, segment, held, _⟩
  simp [homeless] at held

theorem enter (kept : occupancy.Kept size count) {process : Process}
    (vacant : occupancy.memory.isFull = false)
    (homeless : occupancy.memory.holding? process.pid = none) (image : List UInt8) :
    ∃ placement, occupancy.memory.place process image = .ok placement ∧
      (occupancy.enter placement).Kept size count := by
  rcases kept.lodges.tidy.moveIn vacant homeless image with
    ⟨placement, placed, pid, inMemory, rehouses, houses⟩
  rw [← pid] at rehouses homeless
  refine ⟨placement, placed, ?_⟩
  exact {
    lodges := kept.lodges.add (kept.new homeless) rehouses houses
    present := List.forall_mem_cons.mpr ⟨inMemory, kept.present⟩
    segments := rehouses.segments.trans kept.segments
    size := (size_of_place placed).trans kept.size }

/-- The segment of a process is vacated. -/
theorem leave (kept : occupancy.Kept size count) {pid index : Nat}
    (held : occupancy.memory.holding? pid = some index) :
    (occupancy.leave pid (occupancy.memory.vacate pid index)).Kept size count := by
  rcases kept.lodges.tidy.holding?_eq_some_iff.mp held with ⟨segment, found⟩
  rcases kept.lodges.tidy.moveOut found with ⟨rehouses, homeless, _⟩
  exact {
    lodges := kept.lodges.evict rehouses homeless
    present process member := kept.present process (List.mem_of_mem_filter member)
    segments := rehouses.segments.trans kept.segments
    size := (size_vacate occupancy.memory pid index).trans kept.size }

theorem evacuate (kept : occupancy.Kept size count) (pid : Nat) :
    (occupancy.leave pid (occupancy.memory.evacuate pid)).Kept size count := by
  unfold Memory.evacuate
  split
  · rename_i index held
    exact kept.leave held
  · rename_i homeless
    have same : occupancy.leave pid occupancy.memory = occupancy := by
      have all : (occupancy.lodgers.filter fun process => process.pid ≠ pid) =
          occupancy.lodgers := by
        rw [List.filter_eq_self]
        intro process member
        apply decide_eq_true
        rintro rfl
        exact kept.new homeless (List.mem_map_of_mem member)
      rw [Occupancy.leave, all]
    rw [same]
    exact kept

theorem evacuateAll (kept : occupancy.Kept size count) :
    Kept ⟨occupancy.memory.evacuateAll, []⟩ size count := by
  have lodges := kept.lodges.evacuateAll
  have nobody : (occupancy.lodgers.filter fun process => !process.isInMemory) = [] := by
    rw [List.filter_eq_nil_iff]
    intro process member
    simp [kept.present process member]
  rw [nobody] at lodges
  exact {
    lodges := lodges
    present := by simp
    segments := kept.lodges.tidy.evacuateAll.2.1.trans kept.segments
    size := (size_evacuateAll occupancy.memory).trans kept.size }

theorem withdraw (kept : occupancy.Kept size count) {process : Process} {index : Nat}
    (held : occupancy.memory.holding? process.pid = some index) :
    ∃ withdrawal, occupancy.memory.withdraw process = .ok withdrawal ∧
      (occupancy.leave process.pid withdrawal.memory).Kept size count := by
  rcases kept.lodges.tidy.holding?_eq_some_iff.mp held with ⟨segment, found⟩
  exact ⟨_, kept.lodges.tidy.withdraw found, kept.leave held⟩

theorem write (kept : occupancy.Kept size count) {process : Process} {segment : Segment}
    {index address : Nat} (located : process.segment = some segment)
    (found : occupancy.memory.partitions[index]? = some ⟨segment, .heldBy process.pid⟩)
    (within : address < segment.length) (byte : UInt8) :
    ∃ memory, occupancy.memory.write process address byte = .ok memory ∧
      Kept ⟨memory, occupancy.lodgers⟩ size count := by
  have inside := kept.lodges.tidy.inside_of_getElem? found
  rcases write_eq_ok located inside within byte with ⟨memory, written, change, _⟩
  refine ⟨memory, written, ?_⟩
  exact {
    lodges := kept.lodges.within change found
    present := kept.present
    segments := change.segments.trans kept.segments
    size := change.size.trans kept.size }

/-- A process that may write has its segment. -/
theorem partition (kept : occupancy.Kept size count) {process : Process}
    (known : process.place ∈ occupancy.lodgers.map Process.place) :
    ∃ (index : Nat) (segment : Segment), process.segment = some segment ∧
      occupancy.memory.partitions[index]? = some ⟨segment, .heldBy process.pid⟩ := by
  rcases List.mem_map.mp known with ⟨lodger, member, same⟩
  simp only [Process.place, Prod.mk.injEq] at same
  rcases same with ⟨pid, _, carried⟩
  rcases (kept.lodges.houses lodger member).partition kept.lodges.tidy
    (kept.present lodger member) with ⟨index, segment, segment_eq, found⟩
  exact ⟨index, segment, carried ▸ segment_eq, pid ▸ found⟩

end Kept

theorem serve_of_refuses {error : MemoryError} (refuses : occupancy.Refuses request error) :
    occupancy.serve request = .error error := by
  cases refuses with
  | load full program pid priority =>
      simp only [serve, load, place_eq_error_of_isFull full]
      rfl
  | place full process image =>
      simp only [serve, place_eq_error_of_isFull full]
      rfl
  | withdraw homeless =>
      simp only [serve, Memory.withdraw, homeless]
      rfl
  | write located beyond byte =>
      simp only [serve, write_eq_error located beyond]
      rfl

namespace Kept

/-- A request is refused for one of the reasons there are, or it keeps what there is to keep. -/
theorem serve (kept : occupancy.Kept size count) (admits : occupancy.Admits request) :
    (∃ error, occupancy.Refuses request error) ∨
      ∃ next, occupancy.serve request = .ok next ∧ next.Kept size count := by
  cases request with
  | load program pid priority =>
      cases full : occupancy.memory.isFull with
      | true => exact .inl ⟨_, .load full program pid priority⟩
      | false =>
          have homeless : occupancy.memory.holding? (Process.create pid priority).pid = none := admits
          rcases kept.enter full homeless program with ⟨placement, placed, keptNext⟩
          refine .inr ⟨_, ?_, keptNext⟩
          simp only [Occupancy.serve, load, placed]
          rfl
  | place process image =>
      cases full : occupancy.memory.isFull with
      | true => exact .inl ⟨_, .place full process image⟩
      | false =>
          rcases kept.enter full admits image with ⟨placement, placed, keptNext⟩
          refine .inr ⟨_, ?_, keptNext⟩
          simp only [Occupancy.serve, placed]
          rfl
  | evacuate pid => exact .inr ⟨_, rfl, kept.evacuate pid⟩
  | evacuateAll => exact .inr ⟨_, rfl, kept.evacuateAll⟩
  | withdraw process =>
      cases held : occupancy.memory.holding? process.pid with
      | none => exact .inl ⟨_, .withdraw held⟩
      | some index =>
          rcases kept.withdraw held with ⟨withdrawal, withdrawn, keptNext⟩
          refine .inr ⟨_, ?_, keptNext⟩
          simp only [Occupancy.serve, withdrawn]
          rfl
  | write process address byte =>
      rcases kept.partition admits with ⟨index, segment, located, found⟩
      by_cases within : address < segment.length
      · rcases kept.write located found within byte with ⟨memory, written, keptNext⟩
        refine .inr ⟨_, ?_, keptNext⟩
        simp only [Occupancy.serve, written]
        rfl
      · exact .inl ⟨_, .write located within byte⟩

theorem after (kept : occupancy.Kept size count) (admits : occupancy.Admits request) :
    (occupancy.after request).Kept size count := by
  rcases kept.serve admits with ⟨error, refuses⟩ | ⟨next, served, keptNext⟩
  · simpa only [Occupancy.after, serve_of_refuses refuses] using kept
  · simpa only [Occupancy.after, served] using keptNext

theorem serve_eq_error_iff (kept : occupancy.Kept size count) (admits : occupancy.Admits request)
    {error : MemoryError} :
    occupancy.serve request = .error error ↔ occupancy.Refuses request error := by
  refine ⟨?_, serve_of_refuses⟩
  intro failed
  rcases kept.serve admits with ⟨reason, refuses⟩ | ⟨next, served, _⟩
  · rw [serve_of_refuses refuses, Except.error.injEq] at failed
    exact failed ▸ refuses
  · rw [served] at failed
    cases failed

theorem inStep (kept : occupancy.Kept size count) : occupancy.InStep size count where
  segments := kept.segments
  size := kept.size
  inside := kept.lodges.tidy.inside
  counted := kept.lodges.tidy.counted
  injective := kept.lodges.tidy.single
  occupied := kept.lodges.tidy.occupied
  cleared := kept.lodges.tidy.cleared
  lodged _ := kept.lodged
  distinct := kept.lodges.distinct
  known := kept.lodges.held

theorem answers (kept : occupancy.Kept size count) : occupancy.Answers where
  refused _ _ admits := kept.serve_eq_error_iff admits
  inRange request address admits failed := by
    cases (kept.serve_eq_error_iff admits).mp failed
  clears segment member := by
    have inside := kept.lodges.tidy.inside segment member
    rcases ByteStore.zeroFill_eq_ok inside.ordered inside.bounded with ⟨store, filled, _⟩
    exact ⟨store, filled⟩
  loads _ _ _ _ homeless loaded := kept.lodges.tidy.settles homeless loaded
  places _ _ _ := kept.lodges.tidy.settles

end Kept

theorem Reached.kept (reached : Reached size count occupancy) : occupancy.Kept size count := by
  induction reached with
  | start => exact kept_start size count
  | step _ admits hypothesis => exact hypothesis.after admits

/-- Whatever memory was asked to do before, its tables, the segments that processes carry and the
bytes agree.  So the next image gets the first vacant segment and finds it clear. -/
theorem Reached.stays_in_step (reached : Reached size count occupancy) :
    occupancy.InStep size count ∧ occupancy.Answers :=
  ⟨reached.kept.inStep, reached.kept.answers⟩

/-- A process fills its segment to the end and is evicted, and another one gets the segment. -/
def succession : List Request :=
  [.load [1, 2, 3, 4, 5] 7 1, .load [8, 8] 8 1,
    .write { Process.create 7 1 with segment := some ⟨0, 3⟩, residence := some .memory } 3 6,
    .evacuate 7, .load [9] 9 1]

theorem Reached.stays_in_step_succession :
    Reached 8 2 (succession.foldl after ⟨divided 8 2, []⟩) ∧
      ((succession.foldl after ⟨divided 8 2, []⟩).InStep 8 2 ∧
        (succession.foldl after ⟨divided 8 2, []⟩).Answers) ∧
      (succession.foldl after ⟨divided 8 2, []⟩).memory.store.cells =
        #[9, 0, 0, 0, 8, 8, 0, 0] := by
  have reached : Reached 8 2 (succession.foldl after ⟨divided 8 2, []⟩) := by
    simp only [succession, List.foldl_cons, List.foldl_nil]
    refine .step (.step (.step (.step (.step .start ?_) ?_) ?_) ?_) ?_ <;> decide
  exact ⟨reached, reached.stays_in_step, by decide +kernel⟩

end Occupancy

end Memory

end Timeshare
