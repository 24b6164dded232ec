import Mathlib.Data.List.Induction
import Mathlib.Data.List.Sort
import Timeshare.Proofs.Disk

/-!
# Numbering the blocks of a disk

A disk numbers its locations in their order, by track, then by sector, then by block, from zero up
to its capacity and without a gap, whatever its geometry; of a geometry without blocks nothing is
numbered.  Each location has a number of its own, so what is read there is what was last written
there.
-/

namespace Timeshare

/-! ## The order of locations -/

namespace Location

/-- The order of locations: by track, then by sector, then by block. -/
def Precedes (first second : Location) : Prop :=
  first.track < second.track ∨ first.track = second.track ∧
    (first.sector < second.sector ∨ first.sector = second.sector ∧ first.block < second.block)

instance (first second : Location) : Decidable (first.Precedes second) :=
  inferInstanceAs (Decidable (_ ∨ _))

/-- It is the order in which sets of locations are kept. -/
theorem precedes_iff_rank_lt {first second : Location} :
    first.Precedes second ↔ first.rank < second.rank := by
  have := first.sector.toNat_lt
  have := second.sector.toNat_lt
  have := first.block.toNat_lt
  have := second.block.toNat_lt
  simp only [Precedes, rank, UInt8.lt_iff_toNat_lt, ← UInt8.toNat_inj]
  omega

theorem precedes_or_eq_or_precedes (first second : Location) :
    first.Precedes second ∨ first = second ∨ second.Precedes first := by
  rw [precedes_iff_rank_lt, precedes_iff_rank_lt]
  rcases Nat.lt_trichotomy first.rank second.rank with before | same | after
  · exact Or.inl before
  · exact Or.inr (Or.inl (rank_injective same))
  · exact Or.inr (Or.inr after)

end Location

/-! ## Positions -/

namespace Geometry

variable {geometry : Geometry} {first second : Location}

/-- Numerals of two digits, of which the last is below the radix, are ordered by the first digit and
then by the last. -/
theorem numeral_lt {radix high high' low low' : Nat} (small : low < radix)
    (less : high < high' ∨ high = high' ∧ low < low') :
    high * radix + low < high' * radix + low' := by
  rcases less with higher | ⟨rfl, lower⟩
  · have carried : (high + 1) * radix ≤ high' * radix := Nat.mul_le_mul_right radix higher
    rw [Nat.succ_mul] at carried
    omega
  · omega

theorem position_lt_of_precedes (valid : geometry.contains first = true)
    (precedes : first.Precedes second) : geometry.position first < geometry.position second := by
  simp only [contains, Bool.and_eq_true, decide_eq_true_eq, UInt8.lt_iff_toNat_lt] at valid
  simp only [Location.Precedes, UInt8.lt_iff_toNat_lt, ← UInt8.toNat_inj] at precedes
  rcases valid with ⟨⟨_, sectorSmall⟩, blockSmall⟩
  apply numeral_lt blockSmall
  rcases precedes with track | ⟨track, sector | ⟨sector, block⟩⟩
  · exact Or.inl (numeral_lt sectorSmall (Or.inl track))
  · exact Or.inl (numeral_lt sectorSmall (Or.inr ⟨track, sector⟩))
  · exact Or.inr ⟨by rw [track, sector], block⟩

theorem position_lt_iff (firstValid : geometry.contains first = true)
    (secondValid : geometry.contains second = true) :
    geometry.position first < geometry.position second ↔ first.Precedes second := by
  constructor
  · intro less
    rcases first.precedes_or_eq_or_precedes second with before | rfl | after
    · exact before
    · omega
    · have := position_lt_of_precedes secondValid after
      omega
  · exact position_lt_of_precedes firstValid

theorem below_ascending (bound : UInt8) : (below bound).Pairwise (· < ·) := by
  rw [below, List.pairwise_map]
  apply List.pairwise_lt_range.imp_of_mem
  intro first second firstSmall secondSmall less
  rw [List.mem_range] at firstSmall secondSmall
  have := bound.toNat_lt
  rw [UInt8.lt_iff_toNat_lt, UInt8.toNat_ofNat_of_lt' (by simp only [UInt8.size]; omega),
    UInt8.toNat_ofNat_of_lt' (by simp only [UInt8.size]; omega)]
  exact less

/-- The enumeration goes up in the order of locations. -/
theorem locations_ascending (geometry : Geometry) :
    geometry.locations.Pairwise Location.Precedes := by
  simp only [locations, List.pairwise_flatMap, List.pairwise_map, List.mem_flatMap, List.mem_map]
  refine ⟨fun track _ => ⟨fun sector _ => ?_, ?_⟩, ?_⟩
  · apply (below_ascending geometry.blocks).imp
    intro block block' less
    exact Or.inr ⟨rfl, Or.inr ⟨rfl, less⟩⟩
  · apply (below_ascending geometry.sectors).imp
    rintro sector sector' less _ ⟨block, _, rfl⟩ _ ⟨block', _, rfl⟩
    exact Or.inr ⟨rfl, Or.inl less⟩
  · apply (below_ascending geometry.tracks).imp
    rintro track track' less _ ⟨sector, _, block, _, rfl⟩ _ ⟨sector', _, block', _, rfl⟩
    exact Or.inl less

/-- Each location on the disk is enumerated once, and no other one is. -/
theorem count_locations (geometry : Geometry) (location : Location) :
    geometry.locations.count location = if geometry.contains location = true then 1 else 0 := by
  split
  · rename_i inside
    exact List.count_eq_one_of_mem geometry.locations_nodup (mem_locations.mpr inside)
  · rename_i outside
    exact List.count_eq_zero.mpr fun listed => outside (mem_locations.mp listed)

/-- The place of a location in the enumeration is its position. -/
theorem map_position_locations (geometry : Geometry) :
    geometry.locations.map geometry.position = List.range geometry.capacity := by
  apply (map_position_perm geometry).eq_of_pairwise' _ List.pairwise_lt_range
  rw [List.pairwise_map]
  apply geometry.locations_ascending.imp_of_mem
  intro first second firstListed secondListed precedes
  exact position_lt_of_precedes (mem_locations.mp firstListed) precedes

end Geometry

/-! ## Numbers and blocks -/

namespace Disk

variable {disk : Disk} {location place : Location} {raw : RawBlock}

theorem indexOf?_eq_some_iff {index : Fin disk.geometry.capacity} :
    disk.indexOf? location = some index ↔
      disk.geometry.contains location = true ∧ disk.geometry.position location = index := by
  constructor
  · intro found
    by_cases inside : disk.geometry.contains location = true
    · rw [indexOf?_eq_some inside, Option.some_inj] at found
      exact ⟨inside, congrArg Fin.val found⟩
    · rw [Bool.not_eq_true] at inside
      rw [indexOf?_eq_none inside] at found
      cases found
  · rintro ⟨inside, same⟩
    rw [indexOf?_eq_some inside, Option.some_inj]
    exact Fin.ext same

/-- How a disk numbers its locations. -/
structure Numbered (disk : Disk) : Prop where
  /-- Just the locations that are on the disk have a number. -/
  defined : ∀ location, (disk.indexOf? location).isSome = disk.geometry.contains location
  /-- Each number up to the capacity is that of one location. -/
  bijective : ∀ index, ∃! location, disk.indexOf? location = some index
  /-- Numbers go up in the order of the locations. -/
  ordered : ∀ {first second i j}, disk.indexOf? first = some i → disk.indexOf? second = some j →
    (i < j ↔ first.Precedes second)

theorem numbered (disk : Disk) : disk.Numbered where
  defined location := by
    cases inside : disk.geometry.contains location with
    | true => rw [indexOf?_eq_some inside, Option.isSome_some]
    | false => rw [indexOf?_eq_none inside, Option.isSome_none]
  bijective index := by
    rcases Geometry.exists_position index.isLt with ⟨location, inside, same⟩
    refine ⟨location, indexOf?_eq_some_iff.mpr ⟨inside, same⟩, ?_⟩
    intro other found
    rcases indexOf?_eq_some_iff.mp found with ⟨otherInside, otherSame⟩
    exact Geometry.position_injective otherInside inside (otherSame.trans same.symm)
  ordered := by
    intro first second i j firstFound secondFound
    rcases indexOf?_eq_some_iff.mp firstFound with ⟨firstInside, firstSame⟩
    rcases indexOf?_eq_some_iff.mp secondFound with ⟨secondInside, secondSame⟩
    rw [Fin.lt_def, ← firstSame, ← secondSame]
    exact Geometry.position_lt_iff firstInside secondInside

/-- Enumerating the locations of a disk counts through the numbers. -/
theorem map_indexOf?_locations (disk : Disk) :
    disk.geometry.locations.map disk.indexOf? =
      (List.finRange disk.geometry.capacity).map some := by
  apply List.ext_getElem
  · rw [List.length_map, List.length_map, List.length_finRange, Geometry.length_locations]
  · intro number small _
    rw [List.length_map] at small
    rw [List.getElem_map, List.getElem_map, List.getElem_finRange, indexOf?_eq_some_iff]
    refine ⟨Geometry.mem_locations.mp (List.getElem_mem small), ?_⟩
    have counted := List.getElem_of_eq disk.geometry.map_position_locations (i := number)
      (by rwa [List.length_map])
    rwa [List.getElem_map, List.getElem_range] at counted

/-! ## Writing -/

/-- The disk after a block is written at a location, which is the disk as it was when the location
is not on it. -/
def attempt (disk : Disk) (write : Location × RawBlock) : Disk :=
  (disk.write? write.1 write.2).getD disk

def writeAll (disk : Disk) (writes : List (Location × RawBlock)) : Disk :=
  writes.foldl attempt disk

theorem write?_eq_none (outside : disk.geometry.contains location = false) (raw : RawBlock) :
    disk.write? location raw = none := by
  rw [write?, indexOf?_eq_none outside]

/-- One write: it is read back where it was made, if that is on the disk, and elsewhere the disk
reads as before. -/
theorem attempt_spec (disk : Disk) (place : Location) (raw : RawBlock) :
    (disk.attempt (place, raw)).geometry = disk.geometry ∧
      ∀ location, (disk.attempt (place, raw)).read? location =
        if place = location ∧ disk.geometry.contains location = true then some raw
        else disk.read? location := by
  by_cases inside : disk.geometry.contains place = true
  · rcases write?_eq_some raw inside with ⟨written, succeeded, geometry, here, elsewhere⟩
    have after : disk.attempt (place, raw) = written := by rw [attempt, succeeded, Option.getD_some]
    rw [after]
    refine ⟨geometry, fun location => ?_⟩
    by_cases same : place = location
    · subst same
      rw [if_pos ⟨rfl, inside⟩, here]
    · rw [if_neg fun both => same both.1, elsewhere location (Ne.symm same)]
  · have outside : disk.geometry.contains place = false := Bool.not_eq_true _ ▸ inside
    have after : disk.attempt (place, raw) = disk := by
      rw [attempt, write?_eq_none outside, Option.getD_none]
    rw [after]
    refine ⟨rfl, fun location => ?_⟩
    rw [if_neg]
    rintro ⟨rfl, valid⟩
    exact inside valid

theorem writeAll_concat (disk : Disk) (writes : List (Location × RawBlock))
    (write : Location × RawBlock) :
    disk.writeAll (writes ++ [write]) = (disk.writeAll writes).attempt write := by
  rw [writeAll, List.foldl_append]
  rfl

@[simp]
theorem geometry_writeAll (disk : Disk) (writes : List (Location × RawBlock)) :
    (disk.writeAll writes).geometry = disk.geometry := by
  induction writes using List.reverseRecOn with
  | nil => rfl
  | append_singleton writes write hypothesis =>
      rw [writeAll_concat, (attempt_spec _ write.1 write.2).1, hypothesis]

/-- After any writes a location on the disk reads as the last of those that were made there, and as
before when there was none. -/
theorem read?_writeAll (disk : Disk) (writes : List (Location × RawBlock)) (location : Location) :
    (disk.writeAll writes).read? location =
      if disk.geometry.contains location = true then
        (writes.reverse.lookup location).or (disk.read? location)
      else none := by
  induction writes using List.reverseRecOn with
  | nil =>
      split
      · rfl
      · rename_i outside
        exact read?_eq_none (Bool.not_eq_true _ ▸ outside)
  | append_singleton writes write hypothesis =>
      rcases write with ⟨place, raw⟩
      rw [writeAll_concat, (attempt_spec _ place raw).2, geometry_writeAll, hypothesis,
        List.reverse_append, List.reverse_singleton, List.singleton_append, List.lookup_cons]
      by_cases same : place = location
      · subst same
        simp only [true_and, BEq.rfl, Option.some_or]
        split <;> rfl
      · have other : (location == place) = false := beq_false_of_ne (Ne.symm same)
        simp only [same, other, false_and, if_false]

theorem read?_blank (geometry : Geometry) (location : Location) :
    (blank geometry).read? location = none := by
  unfold read?
  split
  · exact Vector.getElem_replicate _
  · rfl

/-- What is found first from the end of a list stands there with nothing like it behind it. -/
theorem lookup_reverse_eq_some_iff {writes : List (Location × RawBlock)} :
    writes.reverse.lookup location = some raw ↔ ∃ earlier later,
      writes = earlier ++ (location, raw) :: later ∧ ∀ write ∈ later, write.1 ≠ location := by
  rw [List.lookup_eq_some_iff]
  constructor
  · rintro ⟨later, earlier, split, others⟩
    refine ⟨earlier.reverse, later.reverse, ?_, ?_⟩
    · rw [← List.reverse_reverse writes, split]
      simp
    · intro write member
      have other := others write (List.mem_reverse.mp member)
      exact Ne.symm (bne_iff_ne.mp other)
  · rintro ⟨earlier, later, rfl, others⟩
    refine ⟨later.reverse, earlier.reverse, by simp, ?_⟩
    intro write member
    exact bne_iff_ne.mpr (Ne.symm (others write (List.mem_reverse.mp member)))

variable {geometry : Geometry} {writes : List (Location × RawBlock)}

theorem read?_eq_some_iff :
    ((blank geometry).writeAll writes).read? location = some raw ↔
      geometry.contains location = true ∧ ∃ earlier later,
        writes = earlier ++ (location, raw) :: later ∧ ∀ write ∈ later, write.1 ≠ location := by
  have onto : (blank geometry).geometry = geometry := rfl
  rw [read?_writeAll, read?_blank, Option.or_none, onto, ← lookup_reverse_eq_some_iff]
  split
  · rename_i inside
    simp only [inside, true_and]
  · rename_i outside
    simp only [outside, false_and, reduceCtorEq]

theorem read?_eq_none_iff :
    ((blank geometry).writeAll writes).read? location = none ↔
      geometry.contains location = false ∨ ∀ write ∈ writes, write.1 ≠ location := by
  have onto : (blank geometry).geometry = geometry := rfl
  rw [read?_writeAll, read?_blank, Option.or_none, onto]
  split
  · rename_i inside
    simp only [List.lookup_eq_none_iff, List.mem_reverse, bne_iff_ne, inside, Bool.true_eq_false,
      false_or, ne_comm]
  · rename_i outside
    simp only [Bool.not_eq_true _ ▸ outside, true_or]

/-- A disk is addressed faithfully, whatever its geometry.  Its locations are numbered in their
order and without a gap, and enumerated in that order, each of them once.  What is read at a location
after any writes is the last block that was written there, and nothing when there was none or the
location is not on the disk; a write that is not on the disk fails and changes nothing. -/
theorem addresses_faithfully :
    (∀ disk : Disk, disk.Numbered ∧
      disk.geometry.locations.Pairwise Location.Precedes ∧
      (∀ location, disk.geometry.locations.count location =
        if disk.geometry.contains location = true then 1 else 0) ∧
      disk.geometry.locations.map disk.indexOf? =
        (List.finRange disk.geometry.capacity).map some) ∧
    (∀ geometry writes location,
      (∀ raw, ((blank geometry).writeAll writes).read? location = some raw ↔
        geometry.contains location = true ∧ ∃ earlier later,
          writes = earlier ++ (location, raw) :: later ∧ ∀ write ∈ later, write.1 ≠ location) ∧
      (((blank geometry).writeAll writes).read? location = none ↔
        geometry.contains location = false ∨ ∀ write ∈ writes, write.1 ≠ location)) ∧
    ∀ (disk : Disk) (location : Location) (raw : RawBlock),
      (disk.write? location raw).isSome = disk.geometry.contains location ∧
      (disk.geometry.contains location = false → disk.attempt (location, raw) = disk) := by
  refine ⟨fun disk => ⟨disk.numbered, disk.geometry.locations_ascending,
    Geometry.count_locations disk.geometry, disk.map_indexOf?_locations⟩,
    fun geometry writes location => ⟨fun raw => read?_eq_some_iff, read?_eq_none_iff⟩, ?_⟩
  intro disk location raw
  cases inside : disk.geometry.contains location with
  | true =>
      rcases write?_eq_some raw inside with ⟨written, succeeded, _⟩
      simp [succeeded]
  | false => simp [attempt, write?_eq_none inside]

/-- Two tracks of three sectors of two blocks each. -/
def oblong : Geometry :=
  ⟨2, 3, 2⟩

/-- A block is written twice, with another one and one in a sector that there is not in between. -/
def overwriting : List (Location × RawBlock) :=
  [(⟨1, 0, 1⟩, Vector.replicate 64 1), (⟨0, 2, 1⟩, Vector.replicate 64 2),
    (⟨0, 3, 0⟩, Vector.replicate 64 3), (⟨1, 0, 1⟩, Vector.replicate 64 4)]

/-- The sector that there is not would come to lie where the second track begins, so the write is
refused. -/
theorem addresses_faithfully_small :
    ((blank oblong).indexOf? ⟨0, 2, 1⟩).map Fin.val = some 5 ∧
      ((blank oblong).indexOf? ⟨1, 0, 0⟩).map Fin.val = some 6 ∧
      Location.Precedes ⟨0, 2, 1⟩ ⟨1, 0, 0⟩ ∧
      ((blank oblong).writeAll overwriting).read? ⟨1, 0, 1⟩ = some (Vector.replicate 64 4) ∧
      ((blank oblong).writeAll overwriting).read? ⟨1, 0, 0⟩ = none ∧
      oblong.contains ⟨0, 3, 0⟩ = false ∧
      (blank oblong).attempt (⟨0, 3, 0⟩, Vector.replicate 64 3) = blank oblong := by
  rcases addresses_faithfully with ⟨numbers, reads, writes⟩
  have before : (blank oblong).indexOf? ⟨0, 2, 1⟩ = some ⟨5, by decide⟩ := by decide
  have after : (blank oblong).indexOf? ⟨1, 0, 0⟩ = some ⟨6, by decide⟩ := by decide
  have precedes := ((numbers (blank oblong)).1.ordered before after).mp (by decide)
  have last := ((reads oblong overwriting ⟨1, 0, 1⟩).1 (Vector.replicate 64 4)).mpr
    ⟨by decide, overwriting.take 3, [], rfl, by simp⟩
  have never := (reads oblong overwriting ⟨1, 0, 0⟩).2.mpr (Or.inr (by decide))
  have outside : oblong.contains ⟨0, 3, 0⟩ = false := by decide
  exact ⟨congrArg (Option.map Fin.val) before, congrArg (Option.map Fin.val) after, precedes, last,
    never, outside, (writes (blank oblong) _ _).2 outside⟩

end Disk

end Timeshare
