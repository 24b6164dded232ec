import Timeshare.Disk.Device

/-!
# File system blocks

How the file system lays out the 64 bytes of a raw block: byte 0 packs the occupied flag (bit 0)
with the payload length (the bits above), bytes 1 to 3 hold a pointer to another block, and the
remaining 60 bytes are contents.
-/

namespace Timeshare

abbrev contentSize : Nat := 60

inductive BlockState
  | available
  | occupied
deriving DecidableEq

/-- A block as the file system reads it. -/
structure Block where
  location : Location
  state : BlockState
  /-- The next block of the chain.  The last block points to itself. -/
  pointer : Location
  /-- The content bytes, those past the payload included. -/
  contents : Vector UInt8 contentSize
  /-- How many of the content bytes are payload. -/
  length : Nat
  length_le : length ≤ contentSize
deriving DecidableEq

namespace Block

/-- A free block: it points to itself and holds nothing. -/
def available (location : Location) : Block where
  location := location
  state := .available
  pointer := location
  contents := Vector.replicate contentSize 0
  length := 0
  length_le := Nat.zero_le _

/-- A block in use that points to itself and holds nothing yet. -/
def occupied (location : Location) : Block :=
  { available location with state := .occupied }

/-- The first byte of the raw block: the length above the occupied flag. -/
def header (block : Block) : UInt8 :=
  UInt8.ofNat (2 * block.length + (if block.state = .occupied then 1 else 0))

def encode (block : Block) : RawBlock :=
  #v[block.header, block.pointer.track, block.pointer.sector, block.pointer.block] ++
    block.contents

/-- The block that the bytes at `location` stand for.  A length beyond the contents is cut to
them. -/
def decode (location : Location) (raw : RawBlock) : Block where
  location := location
  state := if raw[0].toNat % 2 = 1 then .occupied else .available
  pointer := ⟨raw[1], raw[2], raw[3]⟩
  contents := raw.drop 4
  length := min (raw[0].toNat / 2) contentSize
  length_le := Nat.min_le_right _ _

/-- Whether the block ends its chain: it points to itself. -/
def isTerminus (block : Block) : Bool :=
  block.pointer = block.location

def payload (block : Block) : List UInt8 :=
  block.contents.toList.take block.length

def room (block : Block) : Nat :=
  contentSize - block.length

/-- The block with as much of `data` as fits appended to its payload. -/
def fill (block : Block) (data : List UInt8) : Block :=
  { block with
    contents := Vector.ofFn fun index =>
      if index.val < block.length then block.contents[index]
      else (data[index.val - block.length]?).getD block.contents[index]
    length := block.length + min block.room data.length
    length_le := by
      have := block.length_le
      simp only [room]
      omega }

def overflow (block : Block) (data : List UInt8) : List UInt8 :=
  data.drop block.room

end Block

def blocksFor (length : Nat) : Nat :=
  (length + (contentSize - 1)) / contentSize

/-- The first `count` stretches of `data` of one block's contents each. -/
def stretches : Nat → List UInt8 → List (List UInt8)
  | 0, _ => []
  | count + 1, data => data.take contentSize :: stretches count (data.drop contentSize)

end Timeshare
