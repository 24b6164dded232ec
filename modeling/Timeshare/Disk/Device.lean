import Timeshare.Disk.Location

/-!
# The raw disk

A store of 64-byte blocks addressed by location.  The disk knows nothing of what the blocks mean;
a block that was never written reads as nothing.
-/

namespace Timeshare

abbrev blockSize : Nat := 64

abbrev RawBlock : Type := Vector UInt8 blockSize

/-- A disk: its geometry and, for each location in order, the block last written there. -/
structure Disk where
  geometry : Geometry
  blocks : Vector (Option RawBlock) geometry.capacity

namespace Disk

/-- A disk of the geometry on which nothing was written yet. -/
def blank (geometry : Geometry) : Disk :=
  ⟨geometry, Vector.replicate geometry.capacity none⟩

/-- The index of the block at `location`, or `none` off the disk. -/
def indexOf? (disk : Disk) (location : Location) : Option (Fin disk.geometry.capacity) :=
  if valid : disk.geometry.contains location = true then
    some ⟨disk.geometry.position location, Geometry.position_lt_capacity valid⟩
  else none

/-- The block last written at `location`; `none` when there was none or the location is off the
disk. -/
def read? (disk : Disk) (location : Location) : Option RawBlock :=
  match disk.indexOf? location with
  | some index => disk.blocks[index]
  | none => none

/-- The disk with `raw` written at `location`, or `none` off the disk. -/
def write? (disk : Disk) (location : Location) (raw : RawBlock) : Option Disk :=
  match disk.indexOf? location with
  | some index => some { disk with blocks := disk.blocks.set index (some raw) }
  | none => none

end Disk

end Timeshare
