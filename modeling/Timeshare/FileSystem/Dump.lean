import Timeshare.FileSystem.Block

/-!
# Disk dumps

What a disk holds beside blocks that are as formatting leaves them.
-/

namespace Timeshare

namespace RawBlock

/-- The bytes of a raw block without the zero bytes at its end, the header and the pointer being
kept whole. -/
def withoutTail (raw : RawBlock) : List UInt8 :=
  let used := (raw.toList.reverse.dropWhile fun byte => byte == 0).length
  raw.toList.take (max used 4)

end RawBlock

namespace Disk

/-- The blocks that were written and are not free ones without contents, in the order of their
locations. -/
def dump (disk : Disk) : List (Location × List UInt8) :=
  disk.geometry.locations.filterMap fun location =>
    match disk.read? location with
    | some raw =>
      if raw = (Block.available location).encode then none
      else some (location, RawBlock.withoutTail raw)
    | none => none

end Disk

end Timeshare
