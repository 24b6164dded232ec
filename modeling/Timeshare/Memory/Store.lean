import Timeshare.Memory.Error

/-!
# The byte store

Physical memory.  Every access is checked against the size of the store.
-/

namespace Timeshare

structure ByteStore where
  cells : Array UInt8
deriving DecidableEq

namespace ByteStore

def zeroed (size : Nat) : ByteStore :=
  ⟨Array.replicate size 0⟩

def size (store : ByteStore) : Nat :=
  store.cells.size

def read (store : ByteStore) (address : Nat) : Except MemoryError UInt8 :=
  match store.cells[address]? with
  | some byte => .ok byte
  | none => .error (.outOfRange address)

def write (store : ByteStore) (address : Nat) (byte : UInt8) : Except MemoryError ByteStore :=
  if inside : address < store.cells.size then .ok ⟨store.cells.set address byte⟩
  else .error (.outOfRange address)

/-- The bytes from `first` to `last`, both included. -/
def readRange (store : ByteStore) (first last : Nat) : Except MemoryError (List UInt8) :=
  if store.size ≤ last then .error (.outOfRange last)
  else if last < first then .error (.outOfRange first)
  else .ok (store.cells.extract first (last + 1)).toList

/-- The store with `data` written from `address` on. -/
def writeRange (store : ByteStore) (address : Nat) (data : List UInt8) :
    Except MemoryError ByteStore :=
  if store.size < address + data.length then .error (.outOfRange (address + data.length - 1))
  else
    .ok ⟨store.cells.extract 0 address ++ data.toArray ++
      store.cells.extract (address + data.length) store.size⟩

/-- The store with the bytes from `first` to `last` set to zero. -/
def zeroFill (store : ByteStore) (first last : Nat) : Except MemoryError ByteStore :=
  if store.size ≤ last || last < first then .error (.outOfRange last)
  else
    .ok ⟨store.cells.extract 0 first ++ Array.replicate (last + 1 - first) 0 ++
      store.cells.extract (last + 1) store.size⟩

end ByteStore

end Timeshare
