import Mathlib.Data.List.Nodup
import Mathlib.Data.List.Perm.Subperm
import Timeshare.Disk.Device

/-!
# Addressing a disk

The locations of a disk, enumerated once each, are those that its geometry contains, and no two of
them lie at the same position.  A block written at one location is therefore read back there, and
at every other location the disk reads as before.
-/

namespace Timeshare

namespace Geometry

/-- The geometry of a disk that has a block at all. -/
structure HasBlocks (geometry : Geometry) : Prop where
  tracks : geometry.tracks ≠ 0
  sectors : geometry.sectors ≠ 0
  blocks : geometry.blocks ≠ 0

theorem mem_below {bound number : UInt8} : number ∈ below bound ↔ number < bound := by
  simp only [below, List.mem_map, List.mem_range, UInt8.lt_iff_toNat_lt]
  constructor
  · rintro ⟨value, small, rfl⟩
    have := bound.toNat_lt
    rwa [UInt8.toNat_ofNat_of_lt' (by simp only [UInt8.size]; omega)]
  · intro small
    exact ⟨number.toNat, small, UInt8.ofNat_toNat⟩

theorem length_below (bound : UInt8) : (below bound).length = bound.toNat := by
  simp [below]

theorem below_nodup (bound : UInt8) : (below bound).Nodup := by
  refine List.Nodup.map_on ?_ List.nodup_range
  intro first firstSmall second secondSmall same
  have := bound.toNat_lt
  rw [List.mem_range] at firstSmall secondSmall
  have values := congrArg UInt8.toNat same
  rwa [UInt8.toNat_ofNat_of_lt' (by simp only [UInt8.size]; omega),
    UInt8.toNat_ofNat_of_lt' (by simp only [UInt8.size]; omega)] at values

/-- Zero comes first, and only once. -/
theorem below_eq_cons {bound : UInt8} (nonzero : bound ≠ 0) :
    ∃ others, below bound = 0 :: others ∧ 0 ∉ others ∧ others.length = bound.toNat - 1 := by
  have positive : 0 < bound.toNat := UInt8.lt_iff_toNat_lt.mp (UInt8.pos_iff_ne_zero.mpr nonzero)
  obtain ⟨count, counted⟩ : ∃ count, bound.toNat = count + 1 := ⟨bound.toNat - 1, by omega⟩
  have split : below bound = 0 :: (below bound).tail := by
    simp [below, counted, List.range_succ_eq_map]
  have distinct := below_nodup bound
  rw [split, List.nodup_cons] at distinct
  exact ⟨(below bound).tail, split, distinct.1, by rw [List.length_tail, length_below]⟩

theorem mem_locations {geometry : Geometry} {location : Location} :
    location ∈ geometry.locations ↔ geometry.contains location = true := by
  simp only [locations, List.mem_flatMap, List.mem_map, mem_below, contains, Bool.and_eq_true,
    decide_eq_true_eq]
  constructor
  · rintro ⟨track, trackSmall, sector, sectorSmall, block, blockSmall, rfl⟩
    exact ⟨⟨trackSmall, sectorSmall⟩, blockSmall⟩
  · rintro ⟨⟨trackSmall, sectorSmall⟩, blockSmall⟩
    exact ⟨_, trackSmall, _, sectorSmall, _, blockSmall, rfl⟩

theorem locations_nodup (geometry : Geometry) : geometry.locations.Nodup := by
  refine List.nodup_flatMap.mpr ⟨fun track _ => List.nodup_flatMap.mpr ⟨fun sector _ => ?_, ?_⟩, ?_⟩
  · refine (below_nodup _).map ?_
    intro first second same
    exact (Location.mk.inj same).2.2
  · refine (below_nodup _).imp ?_
    intro first second different location inFirst inSecond
    simp only [List.mem_map] at inFirst inSecond
    rcases inFirst with ⟨_, _, rfl⟩
    rcases inSecond with ⟨_, _, same⟩
    exact different (Location.mk.inj same).2.1.symm
  · refine (below_nodup _).imp ?_
    intro first second different location inFirst inSecond
    simp only [List.mem_flatMap, List.mem_map] at inFirst inSecond
    rcases inFirst with ⟨_, _, _, _, rfl⟩
    rcases inSecond with ⟨_, _, _, _, same⟩
    exact different (Location.mk.inj same).1.symm

theorem length_locations (geometry : Geometry) :
    geometry.locations.length = geometry.capacity := by
  simp [locations, capacity, length_below, List.length_flatMap, Nat.mul_assoc]

/-- Locations of one disk at the same position are the same. -/
theorem position_injective {geometry : Geometry} {first second : Location}
    (firstValid : geometry.contains first = true) (secondValid : geometry.contains second = true)
    (same : geometry.position first = geometry.position second) : first = second := by
  rcases first with ⟨track, sector, block⟩
  rcases second with ⟨track', sector', block'⟩
  simp only [contains, Bool.and_eq_true, decide_eq_true_eq, UInt8.lt_iff_toNat_lt]
    at firstValid secondValid
  simp only [position] at same
  rcases firstValid with ⟨⟨_, sectorSmall⟩, blockSmall⟩
  rcases secondValid with ⟨⟨_, sectorSmall'⟩, blockSmall'⟩
  have blocks : block.toNat = block'.toNat := by
    have := congrArg (· % geometry.blocks.toNat) same
    simpa [Nat.mod_eq_of_lt blockSmall, Nat.mod_eq_of_lt blockSmall'] using this
  have rows : track.toNat * geometry.sectors.toNat + sector.toNat =
      track'.toNat * geometry.sectors.toNat + sector'.toNat := by
    rw [blocks, Nat.add_right_cancel_iff] at same
    exact Nat.eq_of_mul_eq_mul_right (by omega) same
  have sectors : sector.toNat = sector'.toNat := by
    have := congrArg (· % geometry.sectors.toNat) rows
    simpa [Nat.mod_eq_of_lt sectorSmall, Nat.mod_eq_of_lt sectorSmall'] using this
  have tracks : track.toNat = track'.toNat := by
    rw [sectors, Nat.add_right_cancel_iff] at rows
    exact Nat.eq_of_mul_eq_mul_right (by omega) rows
  rw [UInt8.toNat_inj.mp tracks, UInt8.toNat_inj.mp sectors, UInt8.toNat_inj.mp blocks]

/-- The positions of the locations are the numbers up to the capacity, in some order. -/
theorem map_position_perm (geometry : Geometry) :
    (geometry.locations.map geometry.position).Perm (List.range geometry.capacity) := by
  have distinct : (geometry.locations.map geometry.position).Nodup := by
    refine List.Nodup.map_on ?_ geometry.locations_nodup
    intro first inFirst second inSecond same
    exact position_injective (mem_locations.mp inFirst) (mem_locations.mp inSecond) same
  have inside : geometry.locations.map geometry.position ⊆ List.range geometry.capacity := by
    intro position member
    rcases List.mem_map.mp member with ⟨location, valid, rfl⟩
    exact List.mem_range.mpr (position_lt_capacity (mem_locations.mp valid))
  -- As many locations as positions, and no two at the same one.
  refine (List.subperm_of_subset distinct inside).perm_of_length_le (Nat.le_of_eq ?_)
  rw [List.length_range, List.length_map, length_locations]

/-- Every position is that of a location. -/
theorem exists_position {geometry : Geometry} {index : Nat} (small : index < geometry.capacity) :
    ∃ location, geometry.contains location = true ∧ geometry.position location = index := by
  have listed := geometry.map_position_perm.mem_iff.mpr (List.mem_range.mpr small)
  rcases List.mem_map.mp listed with ⟨location, valid, same⟩
  exact ⟨location, mem_locations.mp valid, same⟩

end Geometry

namespace Disk

theorem indexOf?_eq_none {disk : Disk} {location : Location}
    (outside : disk.geometry.contains location = false) : disk.indexOf? location = none := by
  simp [indexOf?, outside]

theorem indexOf?_eq_some {disk : Disk} {location : Location}
    (inside : disk.geometry.contains location = true) :
    disk.indexOf? location =
      some ⟨disk.geometry.position location, Geometry.position_lt_capacity inside⟩ := by
  simp [indexOf?, inside]

theorem read?_eq_blocks {disk : Disk} {location : Location}
    (inside : disk.geometry.contains location = true)
    (small : disk.geometry.position location < disk.geometry.capacity) :
    disk.read? location = disk.blocks[disk.geometry.position location] := by
  rw [read?, indexOf?_eq_some inside]
  rfl

theorem read?_eq_none {disk : Disk} {location : Location}
    (outside : disk.geometry.contains location = false) : disk.read? location = none := by
  simp [read?, indexOf?_eq_none outside]

/-- A disk is determined by what is read from it. -/
theorem ext_read? {first second : Disk} (geometry : first.geometry = second.geometry)
    (same : ∀ location, first.read? location = second.read? location) : first = second := by
  rcases first with ⟨geometryFirst, blocks⟩
  rcases second with ⟨geometrySecond, others⟩
  cases geometry
  refine congrArg (Disk.mk geometryFirst) (Vector.ext fun index small => ?_)
  rcases Geometry.exists_position small with ⟨location, inside, rfl⟩
  have read := same location
  rwa [read?_eq_blocks (by exact inside) (by exact small),
    read?_eq_blocks (by exact inside) (by exact small)] at read

/-- A write inside the disk succeeds, is read back, and leaves what is read elsewhere. -/
theorem write?_eq_some {disk : Disk} {location : Location} (raw : RawBlock)
    (inside : disk.geometry.contains location = true) :
    ∃ written, disk.write? location raw = some written ∧ written.geometry = disk.geometry ∧
      written.read? location = some raw ∧
      ∀ other, other ≠ location → written.read? other = disk.read? other := by
  refine ⟨{ disk with blocks := disk.blocks.set _ (some raw) (Geometry.position_lt_capacity inside) },
    ?_, rfl, ?_, ?_⟩
  · simp [write?, indexOf?_eq_some inside]
  · have small := Geometry.position_lt_capacity inside
    rw [read?_eq_blocks (by exact inside) (by exact small)]
    simp
  · intro other different
    by_cases otherInside : disk.geometry.contains other = true
    · have apart : disk.geometry.position location ≠ disk.geometry.position other := by
        intro same
        exact different (Geometry.position_injective inside otherInside same).symm
      have small := Geometry.position_lt_capacity otherInside
      rw [read?_eq_blocks (by exact otherInside) (by exact small),
        read?_eq_blocks otherInside small]
      simp [apart]
    · rw [Bool.not_eq_true] at otherInside
      rw [read?_eq_none (by exact otherInside), read?_eq_none otherInside]

end Disk

end Timeshare
