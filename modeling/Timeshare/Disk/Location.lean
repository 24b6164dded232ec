import Timeshare.Collections.OrderedSet

/-!
# Disk locations

A block on disk is addressed by track, sector and block number, in that order of significance.
-/

namespace Timeshare

structure Location where
  track : UInt8
  sector : UInt8
  block : UInt8
deriving DecidableEq, Repr

namespace Location

/-- The place of a location in the order by track, then sector, then block. -/
def rank (location : Location) : Nat :=
  (location.track.toNat * 256 + location.sector.toNat) * 256 + location.block.toNat

theorem rank_injective {a b : Location} (same : a.rank = b.rank) : a = b := by
  rcases a with ⟨track, sector, block⟩
  rcases b with ⟨track', sector', block'⟩
  simp only [rank] at same
  have := sector.toNat_lt
  have := sector'.toNat_lt
  have := block.toNat_lt
  have := block'.toNat_lt
  have tracks : track = track' := UInt8.toNat_inj.mp (by omega)
  have sectors : sector = sector' := UInt8.toNat_inj.mp (by omega)
  have blocks : block = block' := UInt8.toNat_inj.mp (by omega)
  subst tracks sectors blocks
  rfl

instance : Ranked Location where
  rank := rank
  rank_injective := rank_injective

def text (location : Location) : String :=
  s!"({location.track.toNat},{location.sector.toNat},{location.block.toNat})"

end Location

/-- The numbers of tracks, of sectors on a track and of blocks in a sector. -/
structure Geometry where
  tracks : UInt8
  sectors : UInt8
  blocks : UInt8
deriving DecidableEq

namespace Geometry

def capacity (geometry : Geometry) : Nat :=
  geometry.tracks.toNat * geometry.sectors.toNat * geometry.blocks.toNat

def contains (geometry : Geometry) (location : Location) : Bool :=
  location.track < geometry.tracks && location.sector < geometry.sectors &&
    location.block < geometry.blocks

/-- The numbers from zero up to, but not including, `bound`. -/
def below (bound : UInt8) : List UInt8 :=
  (List.range bound.toNat).map UInt8.ofNat

def locations (geometry : Geometry) : List Location :=
  (below geometry.tracks).flatMap fun track =>
    (below geometry.sectors).flatMap fun sector =>
      (below geometry.blocks).map fun block => ⟨track, sector, block⟩

/-- The position of a location among the locations of the disk, in mixed radix. -/
def position (geometry : Geometry) (location : Location) : Nat :=
  (location.track.toNat * geometry.sectors.toNat + location.sector.toNat) *
    geometry.blocks.toNat + location.block.toNat

theorem position_lt_capacity {geometry : Geometry} {location : Location}
    (valid : geometry.contains location = true) :
    geometry.position location < geometry.capacity := by
  simp only [contains, Bool.and_eq_true, decide_eq_true_eq, UInt8.lt_iff_toNat_lt] at valid
  rcases valid with ⟨⟨track, sector⟩, block⟩
  have sectors : (location.track.toNat + 1) * geometry.sectors.toNat ≤
      geometry.tracks.toNat * geometry.sectors.toNat := Nat.mul_le_mul_right _ track
  have blocks : (location.track.toNat * geometry.sectors.toNat + location.sector.toNat + 1) *
      geometry.blocks.toNat ≤
      geometry.tracks.toNat * geometry.sectors.toNat * geometry.blocks.toNat := by
    refine Nat.mul_le_mul_right _ ?_
    rw [Nat.add_mul, Nat.one_mul] at sectors
    omega
  simp only [position, capacity]
  rw [Nat.add_mul, Nat.one_mul] at blocks
  omega

end Geometry

end Timeshare
