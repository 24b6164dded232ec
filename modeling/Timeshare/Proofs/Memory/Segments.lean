import Timeshare.Memory.Partitioned

/-!
# The bytes of segments

What writing to the byte store does to the bytes of a segment.  Bytes outside of what is written
stay as they were, so segments that do not overlap are independent of each other.
-/

namespace Timeshare

/-- An image cut to a length, or filled up to it with zeros. -/
def padded (length : Nat) (image : List UInt8) : List UInt8 :=
  image.take length ++ List.replicate (length - image.length) 0

@[simp]
theorem length_padded (length : Nat) (image : List UInt8) :
    (padded length image).length = length := by
  simp only [padded, List.length_append, List.length_take, List.length_replicate]
  omega

@[simp]
theorem padded_of_length {length : Nat} {image : List UInt8} (whole : image.length = length) :
    padded length image = image := by
  simp [padded, ← whole]

theorem getElem?_padded (length : Nat) (image : List UInt8) (index : Nat) :
    (padded length image)[index]? =
      if index < length then some (image[index]?.getD 0) else none := by
  simp only [padded, List.getElem?_append, List.length_take, List.getElem?_take,
    List.getElem?_replicate]
  by_cases within : index < length
  · by_cases given : index < image.length
    · have both : index < min length image.length := by omega
      simp [within, given, both]
    · have neither : ¬ index < min length image.length := by omega
      have filled : index - min length image.length < length - image.length := by omega
      have absent : image[index]? = none := List.getElem?_eq_none (Nat.le_of_not_lt given)
      simp [within, neither, filled, absent]
  · have neither : ¬ index < min length image.length := by omega
    have beyond : ¬ index - min length image.length < length - image.length := by omega
    simp [within, neither, beyond]

/-- Cutting an image before it is padded makes no difference. -/
@[simp]
theorem padded_take (length : Nat) (image : List UInt8) :
    padded length (image.take length) = padded length image := by
  simp only [padded, List.take_take, Nat.min_self, List.length_take]
  congr 2
  omega

namespace ByteStore

variable {store : ByteStore}

/-- Cells with others put in the place of those from an address on. -/
theorem getElem?_splice {cells others : Array UInt8} {address : Nat}
    (fits : address + others.size ≤ cells.size) (place : Nat) :
    (cells.extract 0 address ++ others ++
        cells.extract (address + others.size) cells.size)[place]? =
      if address ≤ place ∧ place < address + others.size then others[place - address]?
      else cells[place]? := by
  have lead : (cells.extract 0 address).size = address := by
    simp only [Array.size_extract]
    omega
  have front : (cells.extract 0 address ++ others).size = address + others.size := by
    rw [Array.size_append, lead]
  rcases Nat.lt_or_ge place (address + others.size) with covered | beyond
  · rw [Array.getElem?_append_left (front ▸ covered)]
    rcases Nat.lt_or_ge place address with before | after
    · have outside : ¬ (address ≤ place ∧ place < address + others.size) := by omega
      rw [if_neg outside, Array.getElem?_append_left (by omega), Array.getElem?_extract,
        Nat.zero_add, if_pos (by omega)]
    · rw [if_pos ⟨after, covered⟩, Array.getElem?_append_right (by omega), lead]
  · have outside : ¬ (address ≤ place ∧ place < address + others.size) := by omega
    have offset : address + others.size + (place - (address + others.size)) = place := by omega
    rw [if_neg outside, Array.getElem?_append_right (front ▸ beyond), front,
      Array.getElem?_extract, offset]
    split
    · rfl
    · symm
      apply Array.getElem?_eq_none
      omega

theorem writeRange_eq_ok {address : Nat} {data : List UInt8}
    (fits : address + data.length ≤ store.size) :
    ∃ next, store.writeRange address data = .ok next ∧ next.size = store.size ∧
      ∀ place, next.cells[place]? =
        if address ≤ place ∧ place < address + data.length then data[place - address]?
        else store.cells[place]? := by
  refine ⟨_, if_neg (Nat.not_lt.mpr fits), ?_, ?_⟩
  · simp only [size, Array.size_append, Array.size_extract, List.size_toArray] at fits ⊢
    omega
  · intro place
    exact (@getElem?_splice store.cells data.toArray address fits place).trans (by simp)

theorem zeroFill_eq_ok {first last : Nat} (ordered : first ≤ last) (inside : last < store.size) :
    ∃ next, store.zeroFill first last = .ok next ∧ next.size = store.size ∧
      ∀ place, next.cells[place]? =
        if first ≤ place ∧ place ≤ last then some 0 else store.cells[place]? := by
  have valid : ¬ (decide (store.size ≤ last) || decide (last < first)) = true := by
    simp only [Bool.or_eq_true, decide_eq_true_eq]
    omega
  refine ⟨_, if_neg valid, ?_, ?_⟩
  · simp only [size, Array.size_append, Array.size_extract, Array.size_replicate] at inside ⊢
    omega
  · intro place
    have width : first + (Array.replicate (last + 1 - first) (0 : UInt8)).size = last + 1 := by
      simp only [Array.size_replicate]
      omega
    have spliced := @getElem?_splice store.cells (Array.replicate (last + 1 - first) 0) first
      (by rw [width]; exact inside) place
    rw [width] at spliced
    simp only [Array.getElem?_replicate] at spliced
    refine spliced.trans ?_
    split
    · rename_i within
      rw [if_pos (by omega), if_pos (by omega)]
    · rename_i outside
      rw [if_neg (by omega)]

theorem write_eq_ok {address : Nat} (inside : address < store.size) (byte : UInt8) :
    ∃ next, store.write address byte = .ok next ∧ next.size = store.size ∧
      ∀ place, next.cells[place]? =
        if place = address then some byte else store.cells[place]? := by
  refine ⟨_, dif_pos inside, ?_, ?_⟩
  · exact Array.size_set inside
  · intro place
    refine (Array.getElem?_set inside).trans ?_
    simp only [eq_comm]

/-! Whatever is written, and where, the store keeps its size. -/

theorem size_of_writeRange {next : ByteStore} {address : Nat} {data : List UInt8}
    (written : store.writeRange address data = .ok next) : next.size = store.size := by
  by_cases fits : address + data.length ≤ store.size
  · rcases writeRange_eq_ok fits with ⟨other, succeeded, size, _⟩
    rw [written] at succeeded
    cases succeeded
    exact size
  · rw [writeRange, if_pos (Nat.lt_of_not_le fits)] at written
    cases written

theorem size_of_zeroFill {next : ByteStore} {first last : Nat}
    (filled : store.zeroFill first last = .ok next) : next.size = store.size := by
  by_cases within : first ≤ last ∧ last < store.size
  · rcases zeroFill_eq_ok within.1 within.2 with ⟨other, succeeded, size, _⟩
    rw [filled] at succeeded
    cases succeeded
    exact size
  · have invalid : (decide (store.size ≤ last) || decide (last < first)) = true := by
      simp only [Bool.or_eq_true, decide_eq_true_eq]
      omega
    rw [zeroFill, if_pos invalid] at filled
    cases filled

end ByteStore

namespace Segment

/-- The addresses of a segment, at least one, lie inside the store. -/
structure Inside (segment : Segment) (store : ByteStore) : Prop where
  ordered : segment.base ≤ segment.limit
  bounded : segment.limit < store.size

end Segment

namespace Memory

/-- The bytes in a segment. -/
def bytes (memory : Memory) (segment : Segment) : List UInt8 :=
  (memory.store.cells.extract segment.base (segment.limit + 1)).toList

variable {memory next : Memory} {segment : Segment}

theorem getElem?_bytes (inside : segment.Inside memory.store) (index : Nat) :
    (memory.bytes segment)[index]? =
      if index < segment.length then memory.store.cells[segment.base + index]? else none := by
  have bounded : segment.limit < memory.store.cells.size := inside.bounded
  have ordered := inside.ordered
  have width : min (segment.limit + 1) memory.store.cells.size - segment.base = segment.length := by
    simp only [Segment.length]
    omega
  rw [bytes, Array.getElem?_toList, Array.getElem?_extract, width]

/-- The byte at an address of a segment is found among the bytes of the segment. -/
theorem getElem?_cells (inside : segment.Inside memory.store) {place : Nat}
    (lower : segment.base ≤ place) (upper : place ≤ segment.limit) :
    memory.store.cells[place]? = (memory.bytes segment)[place - segment.base]? := by
  have within : place - segment.base < segment.length := by
    simp only [Segment.length]
    omega
  rw [getElem?_bytes inside, if_pos within, Nat.add_sub_cancel' lower]

@[simp]
theorem length_bytes (inside : segment.Inside memory.store) :
    (memory.bytes segment).length = segment.length := by
  have bounded : segment.limit < memory.store.cells.size := inside.bounded
  have ordered := inside.ordered
  simp only [bytes, Array.length_toList, Array.size_extract, Segment.length]
  omega

theorem readRange_eq_ok (inside : segment.Inside memory.store) :
    memory.store.readRange segment.base segment.limit = .ok (memory.bytes segment) := by
  rw [ByteStore.readRange, if_neg (Nat.not_le.mpr inside.bounded),
    if_neg (Nat.not_lt.mpr inside.ordered), bytes]

/-- The bytes of a segment depend only on the cells of its addresses. -/
theorem bytes_congr (inside : segment.Inside memory.store)
    (size : next.store.size = memory.store.size)
    (same : ∀ place, segment.base ≤ place → place ≤ segment.limit →
      next.store.cells[place]? = memory.store.cells[place]?) :
    next.bytes segment = memory.bytes segment := by
  have insideNext : segment.Inside next.store := ⟨inside.ordered, size ▸ inside.bounded⟩
  have ordered := inside.ordered
  apply List.ext_getElem?
  intro index
  rw [getElem?_bytes inside, getElem?_bytes insideNext]
  split
  · rename_i within
    simp only [Segment.length] at within
    apply same <;> omega
  · rfl

/-- Memory has changed inside a segment only. -/
structure WithinSegment (memory next : Memory) (segment : Segment) : Prop where
  segments : next.segments = memory.segments
  occupied : next.occupied = memory.occupied
  tenants : next.tenants = memory.tenants
  size : next.store.size = memory.store.size
  outside : ∀ place, place < segment.base ∨ segment.limit < place →
    next.store.cells[place]? = memory.store.cells[place]?

theorem WithinSegment.refl (memory : Memory) (segment : Segment) :
    memory.WithinSegment memory segment :=
  ⟨rfl, rfl, rfl, rfl, fun _ _ => rfl⟩

theorem WithinSegment.trans {last : Memory} (first : memory.WithinSegment next segment)
    (second : next.WithinSegment last segment) : memory.WithinSegment last segment where
  segments := second.segments.trans first.segments
  occupied := second.occupied.trans first.occupied
  tenants := second.tenants.trans first.tenants
  size := second.size.trans first.size
  outside place beyond := (second.outside place beyond).trans (first.outside place beyond)

/-! ## Reading and writing as a process -/

variable {process : Process} {address : Nat}

theorem read_eq (located : process.segment = some segment) (inside : segment.Inside memory.store) :
    memory.read process address =
      match (memory.bytes segment)[address]? with
      | some byte => .ok byte
      | none => .error (.segmentationFault process.pid address) := by
  have bounded : segment.limit < memory.store.cells.size := inside.bounded
  have ordered := inside.ordered
  rw [getElem?_bytes inside]
  simp only [read, translate, located, Segment.translate?]
  by_cases within : address < segment.length
  · have valid : segment.base + address < memory.store.cells.size := by
      simp only [Segment.length] at within
      omega
    simp only [if_pos within, Array.getElem?_eq_getElem valid]
    change memory.store.read (segment.base + address) = _
    rw [ByteStore.read, Array.getElem?_eq_getElem valid]
  · simp only [if_neg within]
    rfl

/-- What a write changes: one byte of the segment and nothing outside of it. -/
theorem write_eq_ok (located : process.segment = some segment)
    (inside : segment.Inside memory.store) (within : address < segment.length) (byte : UInt8) :
    ∃ next, memory.write process address byte = .ok next ∧
      memory.WithinSegment next segment ∧
      next.bytes segment = (memory.bytes segment).set address byte := by
  have bounded := inside.bounded
  have ordered := inside.ordered
  have valid : segment.base + address < memory.store.size := by
    simp only [Segment.length] at within
    omega
  rcases ByteStore.write_eq_ok valid byte with ⟨store, written, size, cells⟩
  have insideNext : segment.Inside store := ⟨ordered, size ▸ bounded⟩
  refine ⟨{ memory with store := store }, ?_, ⟨rfl, rfl, rfl, size, ?_⟩, ?_⟩
  · simp only [write, translate, located, Segment.translate?, if_pos within]
    change (memory.store.write (segment.base + address) byte >>= fun store =>
      pure { memory with store := store }) = _
    rw [written]
    rfl
  · intro place outside
    rw [cells, if_neg]
    simp only [Segment.length] at within
    omega
  · apply List.ext_getElem?
    intro index
    rw [getElem?_bytes (by exact insideNext), cells, List.getElem?_set, length_bytes inside,
      getElem?_bytes inside]
    by_cases same : address = index
    · simp [same]
    · have apart : ¬ index = address := fun equal => same equal.symm
      simp [same, apart]

theorem write_eq_error (located : process.segment = some segment)
    (beyond : ¬ address < segment.length) (byte : UInt8) :
    memory.write process address byte = .error (.segmentationFault process.pid address) := by
  simp only [write, translate, located, Segment.translate?, if_neg beyond]
  rfl

end Memory

end Timeshare
