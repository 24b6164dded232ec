/-!
# Segments

A process sees a segment of physical memory as logical addresses from zero.
-/

namespace Timeshare

/-- The physical addresses from `base` to `limit`, both included. -/
structure Segment where
  base : Nat
  limit : Nat
deriving DecidableEq

namespace Segment

def length (segment : Segment) : Nat :=
  segment.limit - segment.base + 1

/-- The physical address of a logical one, or `none` past the end of the segment. -/
def translate? (segment : Segment) (address : Nat) : Option Nat :=
  if address < segment.length then some (segment.base + address) else none

end Segment

/-- The number of segments that memory of `size` bytes is divided into when `count` are asked for:
at least one and no more than there are bytes, but none at all in empty memory. -/
def segmentCount (size count : Nat) : Nat :=
  if size = 0 then 0 else max 1 (min count size)

/-- The segments of memory of `size` bytes, one after the other and of equal length, except that
the last one takes the remainder as well. -/
def segmentTable (size count : Nat) : List Segment :=
  let total := segmentCount size count
  let length := size / total
  (List.range total).map fun index =>
    { base := index * length
      limit := if index + 1 = total then size - 1 else index * length + length - 1 }

end Timeshare
