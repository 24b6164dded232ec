import Mathlib.Tactic.IntervalCases
import Timeshare.Proofs.FileSystem.Block

/-!
# Blocks and their bytes

The layout of a block is described bit by bit, apart from how blocks are written and read.  What is
written is laid out so, every block is read back from it, and the bytes read back are the same again
just if their length field is no more than a block holds.  A greater one is cut to that, so no length
ever leads out of the contents: the operations on blocks are repeated here with every bound checked,
and no check fails.
-/

namespace Timeshare

/-! ## The layout -/

/-- The lowest bit of a block: whether it is in use. -/
def BlockState.flag : BlockState → UInt8
  | .available => 0
  | .occupied => 1

namespace Block

variable {block : Block} {raw : RawBlock} {location : Location}

/-- The bytes of a block: its flag and above it its length in the first, its pointer in the three
after that, and its contents. -/
structure LaidOut (block : Block) (raw : RawBlock) : Prop where
  header : raw[0] = UInt8.ofNat block.length <<< 1 ||| block.state.flag
  track : raw[1] = block.pointer.track
  sector : raw[2] = block.pointer.sector
  number : raw[3] = block.pointer.block
  contents : raw.drop 4 = block.contents

theorem blockSize_pos : 0 < blockSize := by
  decide

/-- The length field in the bytes of a block: all bits of the first byte but the lowest. -/
def lengthField (raw : RawBlock) : Nat :=
  (raw.get ⟨0, blockSize_pos⟩ >>> 1).toNat

theorem lengthField_eq (raw : RawBlock) : lengthField raw = raw[0].toNat / 2 := by
  rw [lengthField, UInt8.toNat_shiftRight, Nat.shiftRight_eq_div_pow]
  rfl

theorem header_eq_bits (block : Block) :
    block.header = UInt8.ofNat block.length <<< 1 ||| block.state.flag := by
  have length_le := block.length_le
  have narrow : block.length % 2 ^ 8 = block.length :=
    Nat.mod_eq_of_lt (Nat.lt_of_le_of_lt length_le (by decide))
  have shifted : block.length <<< 1 % 2 ^ 8 = block.length <<< 1 := by
    rw [Nat.shiftLeft_eq]
    simp only [contentSize] at length_le
    omega
  have small : block.state.flag.toNat < 2 ^ 1 := by cases block.state <;> decide
  have bits : (UInt8.ofNat block.length <<< 1).toNat = block.length <<< 1 := by
    rw [UInt8.toNat_shiftLeft, UInt8.toNat_ofNat', narrow]
    exact shifted
  apply UInt8.toNat_inj.mp
  rw [header_toNat, UInt8.toNat_or, bits, ← Nat.shiftLeft_add_eq_or_of_lt small, Nat.shiftLeft_eq]
  cases block.state <;> simp [BlockState.flag] <;> omega

/-- The bytes of a block are known from the first four and those after them. -/
theorem ext_raw {first second : RawBlock} (header : first[0] = second[0])
    (track : first[1] = second[1]) (sector : first[2] = second[2]) (number : first[3] = second[3])
    (contents : first.drop 4 = second.drop 4) : first = second := by
  apply Vector.ext
  intro index inside
  rcases Nat.lt_or_ge index 4 with lead | past
  · interval_cases index <;> assumption
  · obtain ⟨offset, rfl⟩ := Nat.exists_eq_add_of_le past
    have small : offset < blockSize - 4 := by omega
    have dropped (raw : RawBlock) : raw[4 + offset] = (raw.drop 4)[offset] :=
      (Vector.getElem_drop small).symm
    rw [dropped first, dropped second, contents]

theorem laidOut_encode (block : Block) : block.LaidOut block.encode where
  header := (block.encode_lead (by decide) (by decide)).trans block.header_eq_bits
  track := block.encode_lead (by decide) (by decide)
  sector := block.encode_lead (by decide) (by decide)
  number := block.encode_lead (by decide) (by decide)
  contents := block.encode_drop

/-- The bytes that a block is written as are laid out as its bytes, and no others are. -/
theorem encode_eq_iff : block.encode = raw ↔ block.LaidOut raw := by
  constructor
  · rintro rfl
    exact block.laidOut_encode
  · intro laid
    have written := block.laidOut_encode
    exact ext_raw (written.header.trans laid.header.symm) (written.track.trans laid.track.symm)
      (written.sector.trans laid.sector.symm) (written.number.trans laid.number.symm)
      (written.contents.trans laid.contents.symm)

theorem length_decode (location : Location) (raw : RawBlock) :
    (decode location raw).length = min (lengthField raw) contentSize := by
  rw [lengthField_eq]
  rfl

theorem header_decode (location : Location) (raw : RawBlock) :
    (decode location raw).header.toNat =
      2 * min (lengthField raw) contentSize + raw[0].toNat % 2 := by
  rw [header_toNat, length_decode, decode]
  rcases Nat.mod_two_eq_zero_or_one raw[0].toNat with even | odd
  · simp [even]
  · simp [odd]

/-- Bytes are written as they were read just if their length field is no more than a block holds:
of the bytes of a block it is the field alone that reading can change. -/
theorem encode_decode_iff :
    (decode location raw).encode = raw ↔ lengthField raw ≤ contentSize := by
  have bits := header_decode location raw
  rw [lengthField_eq] at bits ⊢
  constructor
  · intro same
    have header : (decode location raw).encode[0] = (decode location raw).header :=
      (decode location raw).encode_lead (by decide) (by decide)
    rw [same] at header
    rw [← header] at bits
    omega
  · intro fits
    rw [encode_eq_iff]
    refine ⟨?_, rfl, rfl, rfl, rfl⟩
    rw [← header_eq_bits, ← UInt8.toNat_inj, bits]
    omega

/-! ## Operations with their bounds checked -/

/-- The bytes from `first` up to `last`; `none` when these are no bounds within the bytes. -/
def slice? (bytes : List UInt8) (first last : Nat) : Option (List UInt8) :=
  if first ≤ last ∧ last ≤ bytes.length then some ((bytes.take last).drop first) else none

/-- The bytes with those from `first` up to `last` replaced by others; `none` when these are no
bounds within the bytes, or not as many bytes are given. -/
def splice? (bytes : List UInt8) (first last : Nat) (others : List UInt8) : Option (List UInt8) :=
  if first ≤ last ∧ last ≤ bytes.length ∧ others.length = last - first then
    some (bytes.take first ++ others ++ bytes.drop last)
  else none

/-- The payload in the contents of a block, of whatever length. -/
def payload? (contents : Vector UInt8 contentSize) (length : Nat) : Option (List UInt8) :=
  slice? contents.toList 0 length

/-- The room that a payload leaves, unless it is longer than the contents. -/
def room? (length : Nat) : Option Nat :=
  if length ≤ contentSize then some (contentSize - length) else none

/-- The contents filled from `data`, the length of the payload then, and what is left of the
data. -/
def fill? (contents : Vector UInt8 contentSize) (length : Nat) (data : List UInt8) :
    Option (List UInt8 × Nat × List UInt8) := do
  let room ← room? length
  let count := min room data.length
  let fitting ← slice? data 0 count
  let filled ← splice? contents.toList length (length + count) fitting
  let rest ← slice? data count data.length
  return (filled, length + count, rest)

variable (data : List UInt8)

/-- Filling a block changes those bytes only that the payload grows by. -/
theorem fill_contents (block : Block) :
    (block.fill data).contents.toList = block.contents.toList.take block.length ++
      data.take block.room ++
        block.contents.toList.drop (block.length + min block.room data.length) := by
  have length_le := block.length_le
  apply List.ext_getElem?
  intro index
  simp only [fill, room, Vector.getElem?_toList, Vector.getElem?_ofFn, List.getElem?_append,
    List.getElem?_take, List.getElem?_drop, List.length_append, List.length_take,
    Vector.length_toList, contentSize] at *
  rw [Nat.min_eq_left length_le]
  by_cases filled : index < block.length + min (60 - block.length) data.length
  · have inside : index < 60 := by omega
    by_cases old : index < block.length
    · simp [inside, filled, old]
    · have new : index - block.length < data.length := by omega
      have fits : index - block.length < 60 - block.length := by omega
      simp [inside, filled, old, new, fits]
  · have place : block.length + min (60 - block.length) data.length +
        (index - (block.length + min (60 - block.length) data.length)) = index := by omega
    by_cases inside : index < 60
    · have old : ¬ index < block.length := by omega
      have ended : data[index - block.length]? = none := List.getElem?_eq_none (by omega)
      simp [filled, inside, old, place, ended]
    · simp [filled, inside, place]

theorem slice?_eq {bytes : List UInt8} {first last : Nat} (ordered : first ≤ last)
    (within : last ≤ bytes.length) : slice? bytes first last = some ((bytes.take last).drop first) :=
  if_pos ⟨ordered, within⟩

theorem splice?_eq (bytes others : List UInt8) {first last : Nat} (ordered : first ≤ last)
    (within : last ≤ bytes.length) (whole : others.length = last - first) :
    splice? bytes first last others = some (bytes.take first ++ others ++ bytes.drop last) :=
  if_pos ⟨ordered, within, whole⟩

/-- All bounds lie within the contents, whatever the block and the data. -/
theorem checked_eq (block : Block) :
    payload? block.contents block.length = some block.payload ∧
      room? block.length = some block.room ∧
      fill? block.contents block.length data =
        some ((block.fill data).contents.toList, (block.fill data).length, block.overflow data) := by
  have length_le := block.length_le
  have held : block.contents.toList.length = contentSize := Vector.length_toList
  have count : block.room = contentSize - block.length := rfl
  have room : room? block.length = some block.room := if_pos length_le
  refine ⟨slice?_eq (Nat.zero_le _) (by omega), room, ?_⟩
  have fitting : slice? data 0 (min block.room data.length) = some (data.take block.room) := by
    rw [slice?_eq (Nat.zero_le _) (Nat.min_le_right ..), List.drop_zero, ← List.take_eq_take_min]
  have filled := splice?_eq block.contents.toList (data.take block.room)
    (Nat.le_add_right block.length (min block.room data.length)) (by omega)
    (by rw [List.length_take]; omega)
  have rest : slice? data (min block.room data.length) data.length =
      some (block.overflow data) := by
    rw [slice?_eq (Nat.min_le_right ..) (Nat.le_refl _), List.take_length, ← List.drop_eq_drop_min,
      overflow]
  simp only [fill?, room, fitting, filled, rest, ← block.fill_contents data, fill_length, bind,
    Option.bind_some, pure]

/-- They would not if a length were more than the contents hold. -/
theorem checked_eq_none_iff (contents : Vector UInt8 contentSize) (length : Nat) :
    (payload? contents length = none ↔ contentSize < length) ∧
      (room? length = none ↔ contentSize < length) ∧
      (fill? contents length data = none ↔ contentSize < length) := by
  have held : contents.toList.length = contentSize := Vector.length_toList
  by_cases length_le : length ≤ contentSize
  · rcases checked_eq data ⟨⟨0, 0, 0⟩, .occupied, ⟨0, 0, 0⟩, contents, length, length_le⟩ with
      ⟨payload, room, filled⟩
    simp [payload, room, filled, length_le]
  · have outside : ¬ (0 ≤ length ∧ length ≤ contents.toList.length) := by omega
    have payload : payload? contents length = none := if_neg outside
    have room : room? length = none := if_neg length_le
    have filled : fill? contents length data = none := by rw [fill?, room]; rfl
    simp only [payload, room, filled, Nat.not_le.mp length_le, and_self]

/-! ## Nothing is lost -/

/-- `fitting` is the longest part of `data`, from its start, that a block can take in. -/
structure Fits (block : Block) (data fitting : List UInt8) : Prop where
  begins : fitting <+: data
  room : (block.payload ++ fitting).length ≤ contentSize
  longest : ∀ other, other <+: data → (block.payload ++ other).length ≤ contentSize →
    other <+: fitting

theorem fits_take (block : Block) (data : List UInt8) :
    block.Fits data (data.take block.room) := by
  have length_le := block.length_le
  have room : block.room = contentSize - block.length := rfl
  refine ⟨List.take_prefix .., ?_, ?_⟩
  · rw [List.length_append, length_payload, List.length_take]
    omega
  · intro other begins short
    rw [List.length_append, length_payload] at short
    exact List.prefix_take_iff.mpr ⟨begins, by omega⟩

/-- Writing blocks and reading them loses nothing.  The bytes of a block are laid out bit by bit as
said, and the block is read back from them.  Bytes that are read are written again as they were just
if their length field is no more than a block holds; a greater one is read as that, so no bound that
is taken from a length leads out of the contents, as it would with any greater length.  Filling a
block adds to its payload the longest part of the data that fits, keeps the rest of the block, and
gives the rest of the data back. -/
theorem encoding_loses_nothing :
    (∀ (block : Block) (raw : RawBlock), block.encode = raw ↔ block.LaidOut raw) ∧
    (∀ block : Block, decode block.location block.encode = block) ∧
    (∀ (location : Location) (raw : RawBlock),
      (decode location raw).location = location ∧
      ((decode location raw).encode = raw ↔ lengthField raw ≤ contentSize) ∧
      (decode location raw).length = min (lengthField raw) contentSize) ∧
    (∀ contents length data,
      (payload? contents length = none ↔ contentSize < length) ∧
      (room? length = none ↔ contentSize < length) ∧
      (fill? contents length data = none ↔ contentSize < length)) ∧
    ∀ (block : Block) (data : List UInt8),
      payload? block.contents block.length = some block.payload ∧
      room? block.length = some block.room ∧
      fill? block.contents block.length data =
        some ((block.fill data).contents.toList, (block.fill data).length, block.overflow data) ∧
      ∃ fitting, block.Fits data fitting ∧
        (block.fill data).payload = block.payload ++ fitting ∧
        fitting ++ block.overflow data = data ∧
        (block.fill data).contents.toList.drop (block.fill data).length =
          block.contents.toList.drop (block.fill data).length ∧
        (block.fill data).location = block.location ∧ (block.fill data).state = block.state ∧
        (block.fill data).pointer = block.pointer := by
  refine ⟨fun block raw => encode_eq_iff, decode_encode,
    fun location raw => ⟨rfl, encode_decode_iff, length_decode location raw⟩,
    fun contents length data => checked_eq_none_iff data contents length, ?_⟩
  intro block data
  rcases checked_eq data block with ⟨payload, room, filled⟩
  refine ⟨payload, room, filled, data.take block.room, block.fits_take data,
    block.fill_payload data, List.take_append_drop .., ?_, block.fill_location data,
    block.fill_state data, block.fill_pointer data⟩
  have length_le := block.length_le
  have room : block.room = contentSize - block.length := rfl
  rw [fill_contents, fill_length]
  apply List.drop_left'
  rw [List.length_append, List.length_take, List.length_take, Vector.length_toList]
  omega

end Block

end Timeshare
