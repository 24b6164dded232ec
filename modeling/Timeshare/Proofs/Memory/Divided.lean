import Timeshare.Proofs.Memory.Tables

/-!
# Memory at the beginning

Memory is divided into segments of one length, and the last one takes the remainder.  No byte is
left out, and nobody has a segment.  Memory that is tidy is as it was at the beginning as soon as
nobody has a segment any more.
-/

namespace Timeshare

namespace Memory

variable {size count : Nat}

theorem segments_divided : (divided size count).segments = segmentTable size count := rfl

theorem holding?_divided (size count pid : Nat) : (divided size count).holding? pid = none := rfl

theorem isOccupied_divided (size count index : Nat) :
    (divided size count).isOccupied index = false := by
  simp only [divided, isOccupied, List.getElem?_map]
  cases (segmentTable size count)[index]? with
  | none => rfl
  | some segment => rfl

/-- Each segment starts at its multiple of the common length and does not reach the next one.  The
last one, at the end of memory, is longer by the remainder. -/
theorem getElem?_segmentTable (positive : 0 < count) (fits : count ≤ size) {index : Nat}
    {segment : Segment} (found : (segmentTable size count)[index]? = some segment) :
    index < count ∧ segment.base = index * (size / count) ∧ segment.base ≤ segment.limit ∧
      segment.limit < size ∧
      (index + 1 < count → segment.limit + 1 = (index + 1) * (size / count)) ∧
      segment.length = size / count + if segment.limit + 1 = size then size % count else 0 := by
  have total : segmentCount size count = count := by
    rw [segmentCount, if_neg (by omega)]
    omega
  have width : 0 < size / count := Nat.div_pos fits positive
  have covered := Nat.div_mul_le_self size count
  have exact_cover := Nat.div_add_mod size count
  rw [segmentTable, total, List.getElem?_map] at found
  rcases Option.map_eq_some_iff.mp found with ⟨number, inRange, rfl⟩
  rcases List.getElem?_eq_some_iff.mp inRange with ⟨small, same⟩
  rw [List.length_range] at small
  rw [List.getElem_range] at same
  subst same
  have next : (index + 1) * (size / count) = index * (size / count) + size / count := by
    rw [Nat.add_mul, Nat.one_mul]
  have reach : (index + 1) * (size / count) ≤ size / count * count := by
    rw [Nat.mul_comm (size / count)]
    exact Nat.mul_le_mul_right _ small
  rw [Nat.mul_comm] at exact_cover
  simp only [Segment.length]
  by_cases last : index + 1 = count
  · have whole : (index + 1) * (size / count) = size / count * count := by
      rw [last, Nat.mul_comm]
    simp only [if_pos last]
    refine ⟨small, trivial, ?_, ?_, ?_, ?_⟩
    · omega
    · omega
    · omega
    · rw [if_pos (by omega)]
      omega
  · have beyond : (index + 2) * (size / count) ≤ size / count * count := by
      rw [Nat.mul_comm (size / count)]
      exact Nat.mul_le_mul_right _ (by omega)
    rw [Nat.add_mul] at beyond
    simp only [if_neg last]
    refine ⟨small, trivial, ?_, ?_, ?_, ?_⟩
    · omega
    · omega
    · omega
    · rw [if_neg (by omega)]
      omega

/-- Two segments have the same length unless memory leaves a remainder and one of them, but not the
other, is the last. -/
theorem length_eq_length_iff (positive : 0 < count) (fits : count ≤ size) {first second : Segment}
    (member : first ∈ segmentTable size count) (memberSecond : second ∈ segmentTable size count) :
    second.length = first.length ↔
      size % count = 0 ∨ (first.limit + 1 = size ↔ second.limit + 1 = size) := by
  rcases List.mem_iff_getElem?.mp member with ⟨index, found⟩
  rcases List.mem_iff_getElem?.mp memberSecond with ⟨other, foundSecond⟩
  rcases getElem?_segmentTable positive fits found with ⟨_, _, _, _, _, length⟩
  rcases getElem?_segmentTable positive fits foundSecond with ⟨_, _, _, _, _, lengthSecond⟩
  rw [length, lengthSecond]
  split <;> split <;> omega

theorem inside_divided (positive : 0 < count) (fits : count ≤ size) {segment : Segment}
    (member : segment ∈ (divided size count).segments) :
    segment.Inside (divided size count).store := by
  rw [segments_divided] at member
  rcases List.mem_iff_getElem?.mp member with ⟨index, found⟩
  rcases getElem?_segmentTable positive fits found with ⟨_, _, ordered, bounded, _⟩
  refine ⟨ordered, ?_⟩
  simpa [divided, ByteStore.zeroed, ByteStore.size] using bounded

theorem divided_tidy (positive : 0 < count) (fits : count ≤ size) :
    (divided size count).Tidy where
  inside _ member := inside_divided positive fits member
  disjoint := by
    rw [segments_divided, List.pairwise_iff_getElem]
    intro i j smallFirst smallSecond before
    rcases getElem?_segmentTable positive fits (List.getElem?_eq_getElem smallFirst) with
      ⟨_, _, _, _, reach, _⟩
    rcases getElem?_segmentTable positive fits (List.getElem?_eq_getElem smallSecond) with
      ⟨small, start, _⟩
    have order : (i + 1) * (size / count) ≤ j * (size / count) := Nat.mul_le_mul_right _ before
    have next := reach (by omega)
    omega
  counted := List.length_map ..
  occupied := by
    intro index
    simp [isOccupied_divided, holding?_divided]
  single := by
    intro pid other index held
    cases held
  cleared := by
    intro index segment located _
    have inside := inside_divided positive fits (List.mem_of_getElem? located)
    have bounded := inside.bounded
    have ordered := inside.ordered
    simp only [divided, ByteStore.zeroed, ByteStore.size, Array.size_replicate] at bounded
    apply List.ext_getElem?
    intro offset
    rw [getElem?_bytes inside, List.getElem?_replicate]
    simp only [divided, ByteStore.zeroed, Array.getElem?_replicate]
    split
    · rename_i within
      simp only [Segment.length] at within
      rw [if_pos (by omega)]
    · rfl

/-- However many segments are asked for, there is at least one and no more than there are bytes. -/
theorem divided_segmentCount (size count : Nat) :
    divided size (segmentCount size count) = divided size count := by
  have again : segmentCount size (segmentCount size count) = segmentCount size count := by
    simp only [segmentCount]
    split <;> omega
  simp only [divided, segmentTable, again]

theorem tidy_divided (size count : Nat) : (divided size count).Tidy := by
  rcases Nat.eq_zero_or_pos size with rfl | positive
  · have none_there : (divided 0 count).segments = [] := rfl
    exact {
      inside := by simp [none_there]
      disjoint := by simp [none_there]
      counted := rfl
      occupied := by simp [isOccupied_divided, holding?_divided]
      single := by simp [holding?_divided]
      cleared := by simp [none_there] }
  · have counted : segmentCount size count = max 1 (min count size) := if_neg (by omega)
    rw [← divided_segmentCount]
    exact divided_tidy (by omega) (by omega)

/-- The segments leave no address of memory out. -/
theorem exists_segment_of_lt (positive : 0 < count) (fits : count ≤ size) {place : Nat}
    (small : place < size) :
    ∃ segment ∈ segmentTable size count, segment.base ≤ place ∧ place ≤ segment.limit := by
  have total : segmentCount size count = count := by
    rw [segmentCount, if_neg (by omega)]
    omega
  have width : 0 < size / count := Nat.div_pos fits positive
  have reached : place / (size / count) * (size / count) ≤ place := Nat.div_mul_le_self _ _
  have next : place < place / (size / count) * (size / count) + size / count := by
    have step := Nat.lt_mul_div_succ place width
    rwa [Nat.mul_comm, Nat.add_mul, Nat.one_mul] at step
  rw [segmentTable, total]
  by_cases early : place / (size / count) + 1 < count
  · refine ⟨_, List.mem_map_of_mem (List.mem_range.mpr (Nat.lt_of_succ_lt early)), reached, ?_⟩
    simp only [if_neg (Nat.ne_of_lt early)]
    omega
  · -- The last segment takes the remainder as well.
    have last : (count - 1) * (size / count) ≤ place / (size / count) * (size / count) :=
      Nat.mul_le_mul_right _ (by omega)
    refine ⟨_, List.mem_map_of_mem (List.mem_range.mpr (Nat.sub_one_lt_of_lt positive)),
      Nat.le_trans last reached, ?_⟩
    simp only [if_pos (Nat.sub_add_cancel positive)]
    omega

/-- Memory that nobody holds a segment of is as it was at the beginning. -/
theorem Tidy.eq_divided {memory : Memory} (tidy : memory.Tidy) (positive : 0 < count)
    (fits : count ≤ size) (segments : memory.segments = segmentTable size count)
    (whole : memory.store.size = size) (nobody : ∀ pid, memory.holding? pid = none) :
    memory = divided size count := by
  have unused (index : Nat) : memory.isOccupied index = false := by
    rw [← Bool.not_eq_true, tidy.occupied]
    simp [nobody]
  refine ext_tables segments ?_ nobody fun place => ?_
  · apply List.ext_getElem
    · rw [tidy.counted, (tidy_divided size count).counted, segments, segments_divided]
    · intro index small smallDivided
      rw [← isOccupied_eq_getElem small, ← isOccupied_eq_getElem smallDivided, unused,
        isOccupied_divided]
  · simp only [divided, ByteStore.zeroed, Array.getElem?_replicate]
    split
    · rename_i small
      rcases exists_segment_of_lt positive fits small with ⟨segment, among, lower, upper⟩
      rw [← segments] at among
      rcases List.mem_iff_getElem?.mp among with ⟨index, located⟩
      have within : place - segment.base < segment.length := by
        simp only [Segment.length]
        omega
      rw [getElem?_cells (tidy.inside _ among) lower upper,
        tidy.cleared index segment located (unused index), List.getElem?_replicate, if_pos within]
    · rename_i beyond
      rw [← whole] at beyond
      exact Array.getElem?_eq_none (Nat.le_of_not_lt beyond)

/-- All segments, at least one, have the same length. -/
structure Uniform (memory : Memory) (length : Nat) : Prop where
  some_segment : memory.segments ≠ []
  each : ∀ segment ∈ memory.segments, segment.length = length

theorem Uniform.segmentSize {memory : Memory} {length : Nat} (uniform : memory.Uniform length) :
    memory.segmentSize = length := by
  rcases memory with ⟨store, _ | ⟨first, rest⟩, occupied, tenants⟩
  · exact absurd rfl uniform.some_segment
  · exact uniform.each first List.mem_cons_self

theorem Uniform.of_segments {memory next : Memory} {length : Nat} (uniform : memory.Uniform length)
    (segments : next.segments = memory.segments) : next.Uniform length :=
  ⟨segments ▸ uniform.some_segment, segments ▸ uniform.each⟩

/-- Where the count divides the size all segments have the same length. -/
theorem divided_uniform (positive : 0 < count) (fits : count ≤ size) (even : size % count = 0) :
    (divided size count).Uniform (size / count) where
  some_segment := by
    intro empty
    have none := congrArg List.length (segments_divided.symm.trans empty)
    simp only [segmentTable, segmentCount, List.length_map, List.length_range,
      List.length_nil] at none
    split at none
    · omega
    · omega
  each := by
    rw [segments_divided]
    intro segment member
    rcases List.mem_iff_getElem?.mp member with ⟨index, found⟩
    rcases getElem?_segmentTable positive fits found with ⟨_, _, _, _, _, length⟩
    rw [length, even, ite_self, Nat.add_zero]

end Memory

end Timeshare
