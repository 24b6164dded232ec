import Timeshare.Proofs.Memory.Segments
import Timeshare.Proofs.OrderedMap

/-!
# The tables of memory

Two tables tell who is where: which segments are in use, and which one each process was given.
`Memory.Tidy` says that they agree, that no segment was given to two processes, that the segments lie
apart inside the store, and that those not in use are clear.  `Memory.Changes` says that one segment
has got another use, in both tables.  Memory that was tidy is tidy after it, if the segment is clear
or was given to a process.
-/

namespace Timeshare

namespace Memory

/-- Memory whose segments are apart and whose tables are in step. -/
structure Tidy (memory : Memory) : Prop where
  inside : ∀ segment ∈ memory.segments, segment.Inside memory.store
  disjoint : memory.segments.Pairwise fun first second => first.limit < second.base
  counted : memory.occupied.length = memory.segments.length
  occupied : ∀ index, memory.isOccupied index = true ↔ ∃ pid, memory.holding? pid = some index
  single : ∀ pid other index, memory.holding? pid = some index →
    memory.holding? other = some index → pid = other
  cleared : ∀ index segment, memory.segments[index]? = some segment →
    memory.isOccupied index = false → memory.bytes segment = List.replicate segment.length 0

/-- One segment has got another use, in both tables, and nothing has changed outside of it. -/
structure Changes (memory next : Memory) (index : Nat) (segment : Segment)
    (old new : Tenancy) : Prop where
  before : memory.partitions[index]? = some ⟨segment, old⟩
  segments : next.segments = memory.segments
  occupied : next.occupied = memory.occupied.set index (new != .vacant)
  tenants : ∀ pid other, next.holding? pid = some other ↔
    if other = index then new = .heldBy pid else memory.holding? pid = some other
  size : next.store.size = memory.store.size
  outside : ∀ place, place < segment.base ∨ segment.limit < place →
    next.store.cells[place]? = memory.store.cells[place]?

/-! ## The tables read together -/

section Tables

variable {memory : Memory} {pid index : Nat} {segment : Segment} {tenancy : Tenancy}

theorem getElem?_partitions_eq_some_iff :
    memory.partitions[index]? = some ⟨segment, tenancy⟩ ↔
      memory.segments[index]? = some segment ∧ memory.tenancy index = tenancy := by
  simp [partitions]

theorem located_of_partition (found : memory.partitions[index]? = some ⟨segment, tenancy⟩) :
    memory.segments[index]? = some segment :=
  (getElem?_partitions_eq_some_iff.mp found).1

theorem isOccupied_eq_tenancy (memory : Memory) (index : Nat) :
    memory.isOccupied index = (memory.tenancy index != .vacant) := by
  unfold tenancy
  cases memory.isOccupied index with
  | false => rfl
  | true =>
      rw [if_pos rfl]
      split
      · rfl
      · rfl

theorem vacant_iff : memory.partitions[index]? = some ⟨segment, .vacant⟩ ↔
    memory.segments[index]? = some segment ∧ memory.isOccupied index = false := by
  rw [getElem?_partitions_eq_some_iff, isOccupied_eq_tenancy, bne_eq_false_iff_eq]

theorem isOccupied_eq_getElem (small : index < memory.occupied.length) :
    memory.isOccupied index = memory.occupied[index] := by
  rw [isOccupied, List.getElem?_eq_getElem small, Option.getD_some]

theorem lt_of_isOccupied (occupied : memory.isOccupied index = true) :
    index < memory.occupied.length := by
  by_contra beyond
  rw [isOccupied, List.getElem?_eq_none (Nat.le_of_not_lt beyond)] at occupied
  cases occupied

theorem isOccupied_of_isFull (full : memory.isFull = true)
    (small : index < memory.occupied.length) : memory.isOccupied index = true := by
  rw [isOccupied_eq_getElem small]
  exact List.all_eq_true.mp full _ (List.getElem_mem small)

theorem isFull_eq_false_of_vacant (unused : memory.isOccupied index = false)
    (small : index < memory.occupied.length) : memory.isFull = false := by
  rw [← Bool.not_eq_true]
  intro full
  simp [isOccupied_of_isFull full small] at unused

@[simp]
theorem mem_residentPids : pid ∈ memory.residentPids ↔ ∃ index, memory.holding? pid = some index :=
  OrderedMap.mem_keys_iff

theorem isResident_eq (memory : Memory) (pid : Nat) :
    memory.isResident pid = (memory.holding? pid).isSome := rfl

/-- Two memories are the same if their tables are and every address holds the same byte. -/
theorem ext_tables {next : Memory} (segments : next.segments = memory.segments)
    (occupied : next.occupied = memory.occupied)
    (tenants : ∀ pid, next.holding? pid = memory.holding? pid)
    (cells : ∀ place : Nat, next.store.cells[place]? = memory.store.cells[place]?) :
    next = memory := by
  rcases memory with ⟨⟨bytes⟩, table, flags, map⟩
  rcases next with ⟨⟨bytesNext⟩, tableNext, flagsNext, mapNext⟩
  obtain rfl : bytesNext = bytes := Array.ext_getElem? cells
  obtain rfl : tableNext = table := segments
  obtain rfl : flagsNext = flags := occupied
  obtain rfl : mapNext = map := OrderedMap.ext_lookup? tenants
  rfl

end Tables

namespace Tidy

variable {memory : Memory} {pid index : Nat} {segment : Segment} {tenancy : Tenancy}

theorem inside_of_getElem? (tidy : memory.Tidy)
    (found : memory.partitions[index]? = some ⟨segment, tenancy⟩) :
    segment.Inside memory.store :=
  tidy.inside segment (List.mem_of_getElem? (located_of_partition found))

/-- Two segments at different places have no address in common. -/
theorem separate (tidy : memory.Tidy) {other : Nat} {there : Segment}
    (located : memory.segments[index]? = some segment)
    (locatedOther : memory.segments[other]? = some there) (different : other ≠ index) :
    there.limit < segment.base ∨ segment.limit < there.base := by
  rcases List.getElem?_eq_some_iff.mp located with ⟨small, rfl⟩
  rcases List.getElem?_eq_some_iff.mp locatedOther with ⟨smallOther, rfl⟩
  have ordered := List.pairwise_iff_getElem.mp tidy.disjoint
  rcases Nat.lt_or_gt_of_ne different with before | after
  · exact Or.inl (ordered other index smallOther small before)
  · exact Or.inr (ordered index other small smallOther after)

theorem lt_of_located (tidy : memory.Tidy) (located : memory.segments[index]? = some segment) :
    index < memory.occupied.length := by
  rw [tidy.counted]
  exact (List.getElem?_eq_some_iff.mp located).1

theorem isOccupied_of_held (tidy : memory.Tidy) (held : memory.holding? pid = some index) :
    memory.isOccupied index = true :=
  (tidy.occupied index).mpr ⟨pid, held⟩

/-- Whoever was given a segment that is in use is its only tenant. -/
theorem tenancy_eq_heldBy_iff (tidy : memory.Tidy) :
    memory.tenancy index = .heldBy pid ↔ memory.holding? pid = some index := by
  constructor
  · intro held
    unfold Memory.tenancy at held
    split at held
    · split at held
      · rename_i other found
        rw [← Tenancy.heldBy.inj held]
        simpa using List.find?_some found
      · cases held
    · cases held
  · intro held
    rw [Memory.tenancy, if_pos (tidy.isOccupied_of_held held)]
    cases found : memory.residentPids.find? fun pid => memory.holding? pid = some index with
    | none =>
        have absent := List.find?_eq_none.mp found pid (mem_residentPids.mpr ⟨index, held⟩)
        simp [held] at absent
    | some other =>
        have heldOther : memory.holding? other = some index := by
          simpa using List.find?_some found
        rw [tidy.single other pid index heldOther held]

theorem holding?_eq_some_iff (tidy : memory.Tidy) :
    memory.holding? pid = some index ↔
      ∃ segment, memory.partitions[index]? = some ⟨segment, .heldBy pid⟩ := by
  simp only [getElem?_partitions_eq_some_iff, tidy.tenancy_eq_heldBy_iff]
  constructor
  · intro held
    have small := lt_of_isOccupied (tidy.isOccupied_of_held held)
    rw [tidy.counted] at small
    exact ⟨_, List.getElem?_eq_getElem small, held⟩
  · rintro ⟨_, _, held⟩
    exact held

theorem partition_of_held (tidy : memory.Tidy) (held : memory.holding? pid = some index)
    (located : memory.segments[index]? = some segment) :
    memory.partitions[index]? = some ⟨segment, .heldBy pid⟩ :=
  getElem?_partitions_eq_some_iff.mpr ⟨located, tidy.tenancy_eq_heldBy_iff.mpr held⟩

theorem held_of_partition (tidy : memory.Tidy)
    (found : memory.partitions[index]? = some ⟨segment, .heldBy pid⟩) :
    memory.holding? pid = some index :=
  tidy.holding?_eq_some_iff.mpr ⟨segment, found⟩

/-- A vacant segment is clear. -/
theorem clear (tidy : memory.Tidy)
    (vacant : memory.partitions[index]? = some ⟨segment, .vacant⟩) :
    memory.bytes segment = List.replicate segment.length 0 :=
  tidy.cleared index segment (vacant_iff.mp vacant).1 (vacant_iff.mp vacant).2

end Tidy

namespace Changes

variable {memory next : Memory} {index : Nat} {segment : Segment} {old new : Tenancy}

theorem located (changes : memory.Changes next index segment old new) :
    memory.segments[index]? = some segment :=
  located_of_partition changes.before

theorem isOccupied_self (changes : memory.Changes next index segment old new)
    (tidy : memory.Tidy) : next.isOccupied index = (new != .vacant) := by
  rw [isOccupied, changes.occupied, List.getElem?_set_self (tidy.lt_of_located changes.located),
    Option.getD_some]

theorem isOccupied_of_ne (changes : memory.Changes next index segment old new) {other : Nat}
    (different : other ≠ index) : next.isOccupied other = memory.isOccupied other := by
  rw [isOccupied, changes.occupied, List.getElem?_set_ne different.symm, isOccupied]

theorem holding?_self_iff (changes : memory.Changes next index segment old new) {pid : Nat} :
    next.holding? pid = some index ↔ new = .heldBy pid := by
  rw [changes.tenants, if_pos rfl]

theorem holding?_iff_of_ne (changes : memory.Changes next index segment old new) {pid other : Nat}
    (different : other ≠ index) :
    next.holding? pid = some other ↔ memory.holding? pid = some other := by
  rw [changes.tenants, if_neg different]

theorem bytes (changes : memory.Changes next index segment old new) (tidy : memory.Tidy)
    {other : Nat} {there : Segment} (different : other ≠ index)
    (located : memory.segments[other]? = some there) : next.bytes there = memory.bytes there := by
  have apart := tidy.separate changes.located located different
  apply bytes_congr (tidy.inside there (List.mem_of_getElem? located)) changes.size
  intro place after before
  apply changes.outside
  omega

/-- Memory stays tidy when a segment is cleared or given to a process. -/
theorem tidy (changes : memory.Changes next index segment old new) (tidy : memory.Tidy)
    (kept : new ≠ .abandoned)
    (cleared : new = .vacant → next.bytes segment = List.replicate segment.length 0) :
    next.Tidy where
  inside := by
    intro other member
    rw [changes.segments] at member
    have inside := tidy.inside other member
    exact ⟨inside.ordered, changes.size ▸ inside.bounded⟩
  disjoint := changes.segments ▸ tidy.disjoint
  counted := by rw [changes.occupied, List.length_set, changes.segments, tidy.counted]
  occupied := by
    intro other
    by_cases same : other = index
    · subst same
      simp only [changes.isOccupied_self tidy, changes.holding?_self_iff]
      cases new with
      | vacant => simp
      | heldBy pid => simp
      | abandoned => exact absurd rfl kept
    · simp only [changes.isOccupied_of_ne same, changes.holding?_iff_of_ne same, tidy.occupied]
  single := by
    intro pid other place held heldOther
    by_cases same : place = index
    · subst same
      rw [changes.holding?_self_iff] at held heldOther
      exact Tenancy.heldBy.inj (held.symm.trans heldOther)
    · rw [changes.holding?_iff_of_ne same] at held heldOther
      exact tidy.single pid other place held heldOther
  cleared := by
    intro other there located unused
    rw [changes.segments] at located
    by_cases same : other = index
    · subst same
      obtain rfl : segment = there := Option.some.inj (changes.located.symm.trans located)
      rw [changes.isOccupied_self tidy, bne_eq_false_iff_eq] at unused
      exact cleared unused
    · rw [changes.isOccupied_of_ne same] at unused
      rw [changes.bytes tidy same located]
      exact tidy.cleared other there located unused

theorem here (changes : memory.Changes next index segment old new) (tidy : memory.Tidy)
    (tidyNext : next.Tidy) : next.partitions[index]? = some ⟨segment, new⟩ := by
  rw [getElem?_partitions_eq_some_iff, changes.segments]
  refine ⟨changes.located, ?_⟩
  have occupied := changes.isOccupied_self tidy
  cases new with
  | vacant => rwa [isOccupied_eq_tenancy, bne_self_eq_false, bne_eq_false_iff_eq] at occupied
  | heldBy pid => exact tidyNext.tenancy_eq_heldBy_iff.mpr (changes.holding?_self_iff.mpr rfl)
  | abandoned =>
      rcases (tidyNext.occupied index).mp occupied with ⟨pid, held⟩
      cases changes.holding?_self_iff.mp held

/-- Who holds what does not change for other processes. -/
theorem holding?_of_ne (changes : memory.Changes next index segment old new)
    (tidy : memory.Tidy) {pid : Nat} (notOld : old ≠ .heldBy pid) (notNew : new ≠ .heldBy pid) :
    next.holding? pid = memory.holding? pid := by
  apply Option.ext
  intro other
  by_cases same : other = index
  · have before := (getElem?_partitions_eq_some_iff.mp changes.before).2
    rw [same, changes.holding?_self_iff, ← tidy.tenancy_eq_heldBy_iff, before]
    exact iff_of_false notNew notOld
  · exact changes.holding?_iff_of_ne same

theorem holding?_of_left (changes : memory.Changes next index segment old .vacant)
    (tidy : memory.Tidy) {pid : Nat} (held : old = .heldBy pid) : next.holding? pid = none := by
  rw [Option.eq_none_iff_forall_ne_some]
  intro other remaining
  have different : other ≠ index := by
    rintro rfl
    cases changes.holding?_self_iff.mp remaining
  rw [changes.holding?_iff_of_ne different] at remaining
  have before := tidy.held_of_partition (held ▸ changes.before)
  exact different (Option.some.inj (remaining.symm.trans before))

theorem held {pid : Nat} (changes : memory.Changes next index segment old (.heldBy pid)) :
    next.holding? pid = some index ∧ next.segments[index]? = some segment :=
  ⟨changes.holding?_self_iff.mpr rfl, changes.segments ▸ changes.located⟩

theorem isFull_eq_false (changes : memory.Changes next index segment old .vacant)
    (tidy : memory.Tidy) : next.isFull = false := by
  apply isFull_eq_false_of_vacant (changes.isOccupied_self tidy)
  rw [changes.occupied, List.length_set]
  exact tidy.lt_of_located changes.located

/-- In memory that was full only the segment that has become vacant is. -/
theorem eq_of_vacant (changes : memory.Changes next index segment old .vacant) (tidy : memory.Tidy)
    (full : memory.isFull = true) {other : Nat} {there : Segment}
    (vacant : next.partitions[other]? = some ⟨there, .vacant⟩) : other = index ∧ there = segment := by
  rcases vacant_iff.mp vacant with ⟨located, unused⟩
  rw [changes.segments] at located
  have same : other = index := by
    by_contra different
    rw [changes.isOccupied_of_ne different] at unused
    simp [isOccupied_of_isFull full (tidy.lt_of_located located)] at unused
  rw [same, changes.located, Option.some.injEq] at located
  exact ⟨same, located.symm⟩

/-- A segment gets one use and then another. -/
theorem trans {last : Memory} {further : Tenancy}
    (changes : memory.Changes next index segment old new)
    (second : next.Changes last index segment new further) :
    memory.Changes last index segment old further where
  before := changes.before
  segments := second.segments.trans changes.segments
  occupied := by rw [second.occupied, changes.occupied, List.set_set]
  tenants := by
    intro pid other
    rw [second.tenants, changes.tenants]
    split
    · rfl
    · rfl
  size := second.size.trans changes.size
  outside place beyond := (second.outside place beyond).trans (changes.outside place beyond)

/-- If a segment is used as before and holds the same bytes, then nothing has changed. -/
theorem eq_of_bytes {tenancy : Tenancy}
    (changes : memory.Changes next index segment tenancy tenancy) (tidy : memory.Tidy)
    (same : next.bytes segment = memory.bytes segment) : next = memory := by
  have inside := tidy.inside_of_getElem? changes.before
  have insideNext : segment.Inside next.store := ⟨inside.ordered, changes.size ▸ inside.bounded⟩
  have before := (getElem?_partitions_eq_some_iff.mp changes.before).2
  refine ext_tables changes.segments ?_ (fun pid => Option.ext fun other => ?_) fun place => ?_
  · have small := tidy.lt_of_located changes.located
    rw [changes.occupied, ← before, ← isOccupied_eq_tenancy, isOccupied_eq_getElem small,
      List.set_getElem_self]
  · by_cases here : other = index
    · rw [here, changes.holding?_self_iff, ← before, tidy.tenancy_eq_heldBy_iff]
    · exact changes.holding?_iff_of_ne here
  · by_cases outside : place < segment.base ∨ segment.limit < place
    · exact changes.outside place outside
    · rw [getElem?_cells insideNext (by omega) (by omega), same,
        getElem?_cells inside (by omega) (by omega)]

end Changes

/-! ## Memory changed inside a segment -/

namespace WithinSegment

variable {memory next : Memory} {segment : Segment} {index pid : Nat}

theorem held (within : memory.WithinSegment next segment) :
    next.holding? pid = memory.holding? pid := by
  rw [holding?, within.tenants, holding?]

theorem isOccupied (within : memory.WithinSegment next segment) :
    next.isOccupied index = memory.isOccupied index := by
  rw [Memory.isOccupied, within.occupied, Memory.isOccupied]

theorem bytes (within : memory.WithinSegment next segment) (tidy : memory.Tidy) {other : Nat}
    {there : Segment} (located : memory.segments[index]? = some segment) (different : other ≠ index)
    (locatedOther : memory.segments[other]? = some there) :
    next.bytes there = memory.bytes there := by
  have apart := tidy.separate located locatedOther different
  apply bytes_congr (tidy.inside there (List.mem_of_getElem? locatedOther)) within.size
  intro place after before
  apply within.outside
  omega

/-- What a process writes into its own segment leaves memory tidy. -/
theorem tidy (within : memory.WithinSegment next segment) (tidy : memory.Tidy)
    (found : memory.partitions[index]? = some ⟨segment, .heldBy pid⟩) : next.Tidy where
  inside := by
    intro other member
    rw [within.segments] at member
    exact ⟨(tidy.inside other member).ordered, within.size ▸ (tidy.inside other member).bounded⟩
  disjoint := within.segments ▸ tidy.disjoint
  counted := by rw [within.occupied, within.segments, tidy.counted]
  occupied := by
    intro other
    simp only [within.isOccupied, within.held, tidy.occupied]
  single := by
    simp only [within.held]
    exact tidy.single
  cleared := by
    intro other there located unused
    rw [within.segments] at located
    rw [within.isOccupied] at unused
    have different : other ≠ index := by
      rintro rfl
      rw [tidy.isOccupied_of_held (tidy.held_of_partition found)] at unused
      cases unused
    rw [within.bytes tidy (located_of_partition found) different located]
    exact tidy.cleared other there located unused

end WithinSegment

end Memory

end Timeshare
