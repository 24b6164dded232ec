import Mathlib.Data.List.Nodup
import Timeshare.FileSystem.Block

/-!
# The format of blocks

A block is read back from disk as it was written, and filling a block appends to its payload what
fits into it.  `blocksFor` counts the stretches that data is cut into.
-/

namespace Timeshare

namespace Block

theorem header_toNat (block : Block) :
    block.header.toNat = 2 * block.length + (if block.state = .occupied then 1 else 0) := by
  have := block.length_le
  rw [header, UInt8.toNat_ofNat_of_lt']
  simp only [UInt8.size, contentSize] at *
  split <;> omega

@[ext]
theorem ext {first second : Block} (location : first.location = second.location)
    (state : first.state = second.state) (pointer : first.pointer = second.pointer)
    (contents : first.contents = second.contents) (length : first.length = second.length) :
    first = second := by
  cases first
  cases second
  cases location
  cases state
  cases pointer
  cases contents
  cases length
  rfl

/-- The bytes before the contents are the header and the pointer. -/
theorem encode_lead (block : Block) {index : Nat} (small : index < 4) (inside : index < blockSize) :
    block.encode[index] =
      #v[block.header, block.pointer.track, block.pointer.sector, block.pointer.block][index] :=
  Vector.getElem_append_left small

theorem encode_drop (block : Block) : block.encode.drop 4 = block.contents := by
  apply Vector.toList_inj.mp
  simp only [encode, Vector.toList_drop]
  exact (congrArg (List.drop 4) (Vector.toList_append ..)).trans (by simp)

/-- Reading a block from the bytes that stand for it gives the block. -/
theorem decode_encode (block : Block) : decode block.location block.encode = block := by
  have length_le := block.length_le
  have header : block.encode[0] = block.header := block.encode_lead (by decide) (by decide)
  refine ext rfl ?_ ?_ block.encode_drop ?_
  · simp only [decode, header, header_toNat]
    cases block.state <;> simp [Nat.add_mod]
  · have track : block.encode[1] = block.pointer.track := block.encode_lead (by decide) (by decide)
    have sector : block.encode[2] = block.pointer.sector := block.encode_lead (by decide) (by decide)
    have number : block.encode[3] = block.pointer.block := block.encode_lead (by decide) (by decide)
    simp only [decode, track, sector, number]
  · simp only [decode, header, header_toNat]
    split <;> omega

@[simp]
theorem available_location (location : Location) : (available location).location = location := rfl

@[simp]
theorem available_state (location : Location) : (available location).state = .available := rfl

@[simp]
theorem occupied_location (location : Location) : (occupied location).location = location := rfl

@[simp]
theorem occupied_state (location : Location) : (occupied location).state = .occupied := rfl

@[simp]
theorem occupied_pointer (location : Location) : (occupied location).pointer = location := rfl

@[simp]
theorem occupied_length (location : Location) : (occupied location).length = 0 := rfl

@[simp]
theorem occupied_payload (location : Location) : (occupied location).payload = [] := rfl

@[simp]
theorem length_payload (block : Block) : block.payload.length = block.length := by
  have := block.length_le
  simp [payload]
  omega

variable (block : Block) (data : List UInt8)

@[simp]
theorem fill_location : (block.fill data).location = block.location := by
  simp only [fill]

@[simp]
theorem fill_state : (block.fill data).state = block.state := by
  simp only [fill]

@[simp]
theorem fill_pointer : (block.fill data).pointer = block.pointer := by
  simp only [fill]

@[simp]
theorem fill_length : (block.fill data).length = block.length + min block.room data.length := by
  simp only [fill]

/-- Filling a block appends what fits. -/
theorem fill_payload : (block.fill data).payload = block.payload ++ data.take block.room := by
  have length_le := block.length_le
  apply List.ext_getElem?
  intro index
  simp only [payload, fill, room, List.getElem?_append, List.getElem?_take, List.length_take,
    Vector.length_toList, contentSize] at *
  rw [Nat.min_eq_left length_le]
  simp only [Vector.getElem?_toList, Vector.getElem?_ofFn]
  by_cases old : index < block.length
  · have inside : index < 60 := by omega
    have covered : index < block.length + min (60 - block.length) data.length := by omega
    simp [old, inside, covered]
  · by_cases new : index - block.length < min (60 - block.length) data.length
    · have covered : index < block.length + min (60 - block.length) data.length := by omega
      have fits : index - block.length < 60 - block.length := by omega
      have inside : index < 60 := by omega
      have given : index - block.length < data.length := by omega
      simp [old, covered, fits, inside, given]
    · have uncovered : ¬ index < block.length + min (60 - block.length) data.length := by omega
      simp [old, uncovered]
      omega

/-- A block and what overflows it hold the payload and the data. -/
theorem fill_payload_append_overflow :
    (block.fill data).payload ++ block.overflow data = block.payload ++ data := by
  rw [fill_payload, overflow, List.append_assoc, List.take_append_drop]

/-- A block that overflows is full. -/
theorem fill_length_of_overflow (overflows : block.overflow data ≠ []) :
    (block.fill data).length = contentSize := by
  have length_le := block.length_le
  simp only [overflow, ne_eq, List.drop_eq_nil_iff, room] at overflows
  rw [fill_length, room]
  omega

/-- A block that was given something is not empty. -/
theorem fill_length_pos {data : List UInt8} (given : data ≠ []) : 0 < (block.fill data).length := by
  have := List.length_pos_iff.mpr given
  rw [fill_length, room]
  simp only [contentSize]
  omega

end Block

/-! ## Stretches -/

@[simp]
theorem blocksFor_zero : blocksFor 0 = 0 := rfl

theorem blocksFor_pos {length : Nat} (positive : 0 < length) :
    blocksFor length = blocksFor (length - contentSize) + 1 := by
  simp only [blocksFor, contentSize]
  omega

@[simp]
theorem length_stretches (count : Nat) (data : List UInt8) :
    (stretches count data).length = count := by
  induction count generalizing data with
  | zero => rfl
  | succ count hypothesis => simp [stretches, hypothesis]

end Timeshare
