import Mathlib.Algebra.GroupWithZero.Nat
import Timeshare.Proofs.Kernel.Run

/-!
# Segments tile memory

The segments of a memory lie end to end: the first starts at the first byte, each starts right after
the one before it, and the last ends at the last byte.  So each byte is the byte of one segment at
one offset.  What follows from lying end to end is proved of any list of segments; only that the
segments of a memory do so depends on how its size is divided.
-/

namespace Timeshare

theorem Segment.translate?_eq_some_iff {segment : Segment} {offset address : Nat} :
    segment.translate? offset = some address ↔
      offset < segment.length ∧ segment.base + offset = address := by
  unfold Segment.translate?
  split
  · rename_i within
    simp [within]
  · rename_i beyond
    simp [beyond]

/-- The segments lie end to end from the address `start` up to the address `stop`, which the last
of them does not reach, and none of them is empty. -/
inductive Tiles : Nat → List Segment → Nat → Prop
  | nil {start} : Tiles start [] start
  | cons {start segment segments stop} (starts : segment.base = start)
      (ordered : segment.base ≤ segment.limit) (tiles : Tiles (segment.limit + 1) segments stop) :
      Tiles start (segment :: segments) stop

namespace Tiles

variable {start stop : Nat} {segments : List Segment}

theorem concat (tiles : Tiles start segments stop) (limit : Nat) (ordered : stop ≤ limit) :
    Tiles start (segments ++ [⟨stop, limit⟩]) (limit + 1) := by
  induction tiles with
  | nil => exact .cons rfl ordered .nil
  | cons starts nonempty _ hypothesis => exact .cons starts nonempty (hypothesis ordered)

theorem sum_length (tiles : Tiles start segments stop) :
    start + (segments.map Segment.length).sum = stop := by
  induction tiles with
  | nil => rfl
  | cons starts ordered _ hypothesis =>
      rw [List.map_cons, List.sum_cons, Segment.length]
      omega

/-- No segment is empty, and none reaches out of what is tiled. -/
theorem bounds (tiles : Tiles start segments stop) {segment : Segment}
    (member : segment ∈ segments) :
    start ≤ segment.base ∧ segment.base ≤ segment.limit ∧ segment.limit < stop := by
  induction tiles with
  | nil => cases member
  | cons starts ordered tiles hypothesis =>
      have total := tiles.sum_length
      rcases List.mem_cons.mp member with rfl | later
      · omega
      · have inside := hypothesis later
        omega

theorem base_of_head? (tiles : Tiles start segments stop) {first : Segment}
    (found : segments.head? = some first) : first.base = start := by
  cases tiles with
  | nil => cases found
  | cons starts _ _ =>
      rw [List.head?_cons, Option.some.injEq] at found
      exact found ▸ starts

theorem limit_of_getLast? (tiles : Tiles start segments stop) {last : Segment}
    (found : segments.getLast? = some last) : last.limit + 1 = stop := by
  induction tiles with
  | nil => cases found
  | cons _ _ tiles hypothesis =>
      cases tiles with
      | nil =>
          rw [List.getLast?_singleton, Option.some.injEq] at found
          rw [found]
      | cons => exact hypothesis (by rwa [List.getLast?_cons_cons] at found)

/-- Each segment but the first starts right after the one before it. -/
theorem base_of_next (tiles : Tiles start segments stop) {index : Nat} {first second : Segment}
    (found : segments[index]? = some first) (next : segments[index + 1]? = some second) :
    second.base = first.limit + 1 := by
  induction tiles generalizing index with
  | nil => cases found
  | cons _ _ tiles hypothesis =>
      rw [List.getElem?_cons_succ] at next
      cases index with
      | zero =>
          rw [List.getElem?_cons_zero, Option.some.injEq] at found
          rw [← found]
          exact tiles.base_of_head? (by rw [List.head?_eq_getElem?, next])
      | succ index => exact hypothesis found next

/-- The byte at an address between the ends is in one segment only, and at one offset only. -/
theorem existsUnique_place (tiles : Tiles start segments stop) {address : Nat}
    (above : start ≤ address) (below : address < stop) :
    ∃! place : Nat × Nat, segments[place.1]?.bind (·.translate? place.2) = some address := by
  induction tiles with
  | nil => omega
  | @cons start head rest stop starts ordered tiles hypothesis =>
      have atHead (offset : Nat) : (head :: rest)[0]?.bind (·.translate? offset) = some address ↔
          offset < head.length ∧ head.base + offset = address :=
        Segment.translate?_eq_some_iff
      rcases Nat.lt_or_ge head.limit address with after | within
      · rcases hypothesis after below with ⟨⟨index, offset⟩, found, unique⟩
        refine ⟨(index + 1, offset), found, ?_⟩
        rintro ⟨_ | other, elsewhere⟩ same
        · rcases (atHead elsewhere).mp same with ⟨short, reached⟩
          rw [Segment.length] at short
          omega
        · have equal := unique (other, elsewhere) same
          rw [Prod.mk.injEq] at equal ⊢
          exact ⟨congrArg Nat.succ equal.1, equal.2⟩
      · refine ⟨(0, address - head.base), (atHead _).mpr ?_, ?_⟩
        · rw [Segment.length]
          omega
        · rintro ⟨_ | other, elsewhere⟩ same
          · rcases (atHead elsewhere).mp same with ⟨_, reached⟩
            rw [Prod.mk.injEq]
            exact ⟨rfl, by omega⟩
          · -- Whatever a later segment translates to lies past the end of the first.
            rcases Option.bind_eq_some_iff.mp same with ⟨segment, located, translated⟩
            have later := tiles.bounds (List.mem_of_getElem? located)
            have reached := (Segment.translate?_eq_some_iff.mp translated).2
            dsimp only at reached
            omega

end Tiles

/-! ## The segments of a memory -/

variable {size : Nat}

/-- The number that is asked for, but at least one and at most one for each byte. -/
theorem segmentCount_of_nonempty (nonempty : 0 < size) (count : Nat) :
    segmentCount size count = min (max count 1) size := by
  rw [segmentCount, if_neg (by omega)]
  omega

/-- Segments of one length lie end to end. -/
theorem tiles_of_equal {length : Nat} (positive : 0 < length) (number : Nat) :
    Tiles 0 ((List.range number).map fun index =>
      ⟨index * length, index * length + length - 1⟩) (number * length) := by
  induction number with
  | zero =>
      rw [Nat.zero_mul]
      exact .nil
  | succ number hypothesis =>
      have longer := hypothesis.concat (number * length + length - 1) (by omega)
      have stop : number * length + length - 1 + 1 = (number + 1) * length := by
        rw [Nat.succ_mul]
        omega
      rw [List.range_succ, List.map_append, List.map_singleton, ← stop]
      exact longer

theorem tiles_segmentTable (nonempty : 0 < size) (count : Nat) :
    Tiles 0 (segmentTable size count) size := by
  have total := segmentCount_of_nonempty nonempty count
  unfold segmentTable
  generalize segmentCount size count = number at total
  -- All segments but the last are of one length; the last one takes what is left.
  obtain ⟨others, rfl⟩ : ∃ others, number = others + 1 := ⟨number - 1, by omega⟩
  dsimp only
  generalize width : size / (others + 1) = length
  have positive : 0 < length := width ▸ Nat.div_pos (by omega) (by omega)
  have covered : others * length + length ≤ size := by
    rw [← Nat.succ_mul, ← width]
    exact Nat.mul_div_le size (others + 1)
  have tiles := (tiles_of_equal positive others).concat (size - 1) (by omega)
  rw [Nat.sub_add_cancel nonempty] at tiles
  have regular : ∀ index ∈ List.range others,
      Segment.mk (index * length)
          (if index + 1 = others + 1 then size - 1 else index * length + length - 1) =
        ⟨index * length, index * length + length - 1⟩ := by
    intro index among
    have other := List.mem_range.mp among
    rw [if_neg (by omega)]
  rw [List.range_succ, List.map_append, List.map_congr_left regular, List.map_singleton, if_pos rfl]
  exact tiles

namespace Memory

theorem length_segments_divided (nonempty : 0 < size) (count : Nat) :
    (divided size count).segments.length = min (max count 1) size := by
  rw [segments_divided, segmentTable, List.length_map, List.length_range,
    segmentCount_of_nonempty nonempty]

/-- The segments that a valid configuration asks for. -/
theorem segments_of_valid {config : Config} (valid : config.validate = .ok ()) :
    (divided config.memorySize config.segmentCount).segments.length = config.segmentCount ∧
      ∀ index segment,
        (divided config.memorySize config.segmentCount).segments[index]? = some segment →
        index + 1 < config.segmentCount →
          segment.length = config.memorySize / config.segmentCount := by
  rcases Config.validate_eq_ok valid with ⟨positive, fits, _⟩
  refine ⟨?_, fun index segment found other => ?_⟩
  · rw [length_segments_divided (Nat.lt_of_lt_of_le positive fits)]
    omega
  · rw [segments_divided] at found
    rcases getElem?_segmentTable positive fits found with ⟨_, base, ordered, _, reach, _⟩
    have limit := reach other
    rw [Nat.succ_mul] at limit
    rw [Segment.length]
    omega

/-- Memory is divided without gaps and without overlaps, and into as many segments as a valid
configuration asks for. -/
theorem segments_partition_memory (nonempty : 0 < size) (count : Nat) :
    (divided size count).segments.length = min (max count 1) size ∧
    (∀ segment ∈ (divided size count).segments, segment.base ≤ segment.limit) ∧
    (divided size count).segments.head?.map Segment.base = some 0 ∧
    (∀ index first second, (divided size count).segments[index]? = some first →
      (divided size count).segments[index + 1]? = some second →
        second.base = first.limit + 1) ∧
    (divided size count).segments.getLast?.map Segment.limit = some (size - 1) ∧
    (∀ address < size, ∃! place : Nat × Nat,
      (divided size count).segments[place.1]?.bind (·.translate? place.2) = some address) ∧
    (∀ segment ∈ (divided size count).segments, ∀ offset,
      (offset < segment.length ↔ ∃ address < size, segment.translate? offset = some address) ∧
      (segment.length ≤ offset ↔ segment.translate? offset = none)) ∧
    ((divided size count).segments.map Segment.length).sum = size ∧
    ∀ config : Config, config.validate = .ok () →
      (divided config.memorySize config.segmentCount).segments.length = config.segmentCount ∧
      ∀ index segment,
        (divided config.memorySize config.segmentCount).segments[index]? = some segment →
        index + 1 < config.segmentCount →
          segment.length = config.memorySize / config.segmentCount := by
  have number := length_segments_divided nonempty count
  have tiles : Tiles 0 (divided size count).segments size :=
    segments_divided ▸ tiles_segmentTable nonempty count
  generalize (divided size count).segments = segments at number tiles ⊢
  have any : segments ≠ [] := List.ne_nil_of_length_pos (by omega)
  refine ⟨number, fun segment member => (tiles.bounds member).2.1, ?_, ?_, ?_,
    fun address below => tiles.existsUnique_place (Nat.zero_le address) below, ?_, ?_,
    fun config valid => segments_of_valid valid⟩
  · have head := List.head?_eq_some_head any
    rw [head, Option.map_some, tiles.base_of_head? head]
  · intro index first second found next
    exact tiles.base_of_next found next
  · have last := List.getLast?_eq_some_getLast any
    rw [last, Option.map_some, ← tiles.limit_of_getLast? last, Nat.add_sub_cancel]
  · intro segment member offset
    rcases tiles.bounds member with ⟨_, ordered, inside⟩
    constructor
    · constructor
      · intro within
        refine ⟨segment.base + offset, ?_, Segment.translate?_eq_some_iff.mpr ⟨within, rfl⟩⟩
        rw [Segment.length] at within
        omega
      · rintro ⟨address, _, translated⟩
        exact (Segment.translate?_eq_some_iff.mp translated).1
    · unfold Segment.translate?
      split <;> simp <;> omega
  · have total := tiles.sum_length
    omega

/-- Ten bytes in four segments, of which the last is the longest. -/
theorem segments_partition_memory_small :
    0 < 10 ∧
      (divided 10 4).segments = [⟨0, 1⟩, ⟨2, 3⟩, ⟨4, 5⟩, ⟨6, 9⟩] ∧
      (∃! place : Nat × Nat,
        (divided 10 4).segments[place.1]?.bind (·.translate? place.2) = some 8) ∧
      Config.standard.validate = .ok () ∧
      (divided 768 3).segments.length = 3 := by
  rcases @segments_partition_memory 10 (by decide) 4 with
    ⟨_, _, _, _, _, places, _, _, configured⟩
  exact ⟨by decide, by decide, places 8 (by decide), by decide,
    (configured .standard (by decide)).1⟩

end Memory

end Timeshare
