import Timeshare.Collections.OrderedMap
import Timeshare.Memory.Store
import Timeshare.Process

/-!
# Partitioned memory

Memory is divided into fixed segments.  One table tells which segments are in use, another one which
segment each process was given.  A free segment is all zero.  A process reaches memory only through
the segment it was given.
-/

namespace Timeshare

/-- The byte store, its segments in ascending order, for each of them whether it is in use, and for
each process in memory the index of its segment. -/
structure Memory where
  store : ByteStore
  segments : List Segment
  occupied : List Bool
  tenants : OrderedMap Nat Nat
deriving DecidableEq

/-- An image that was put into memory: the process with its segment, the memory, and which of the
segments it is. -/
structure Placement where
  process : Process
  memory : Memory
  index : Nat
  segment : Segment

/-- An image that was taken out of memory: its bytes, the process without a segment, and the
memory. -/
structure Withdrawal where
  image : List UInt8
  process : Process
  memory : Memory

namespace Memory

/-- Zeroed memory of `size` bytes in which no segment is in use. -/
def divided (size count : Nat) : Memory where
  store := .zeroed size
  segments := segmentTable size count
  occupied := (segmentTable size count).map fun _ => false
  tenants := .empty

/-- The length of the first segment; zero when there is none. -/
def segmentSize (memory : Memory) : Nat :=
  match memory.segments with
  | [] => 0
  | first :: _ => first.length

/-- Whether the segment at an index is in use.  There is nothing past the last one. -/
def isOccupied (memory : Memory) (index : Nat) : Bool :=
  memory.occupied[index]?.getD false

def isFull (memory : Memory) : Bool :=
  memory.occupied.all fun occupied => occupied

/-- The index of the segment that a process was given. -/
def holding? (memory : Memory) (pid : Nat) : Option Nat :=
  memory.tenants.lookup? pid

def isResident (memory : Memory) (pid : Nat) : Bool :=
  memory.tenants.contains pid

/-- The processes with an image in memory, in ascending order. -/
def residentPids (memory : Memory) : List Nat :=
  memory.tenants.keys

/-- Puts `image`, cut to the segment's length, into the first segment that is not in use on behalf of
`process`. -/
def place (memory : Memory) (process : Process) (image : List UInt8) :
    Except MemoryError Placement := do
  match memory.occupied.findIdx? fun occupied => !occupied with
  | none => .error .outOfMemory
  | some index =>
    match memory.segments[index]? with
    | none => .error .outOfMemory
    | some segment =>
      let store ← memory.store.writeRange segment.base (image.take segment.length)
      return {
        process := { process with segment := some segment, residence := some .memory }
        memory :=
          { memory with
            store
            occupied := memory.occupied.set index true
            tenants := memory.tenants.insert process.pid index }
        index
        segment }

/-- Puts a program into the first segment that is not in use as the image of a new process. -/
def load (memory : Memory) (program : List UInt8) (pid priority : Nat) :
    Except MemoryError Placement :=
  memory.place (.create pid priority) program

/-- Clears the segment at an index, which is not in use any more. -/
def release (memory : Memory) (index : Nat) : Memory :=
  match memory.segments[index]? with
  | none => memory
  | some segment =>
    { memory with
      store :=
        match memory.store.zeroFill segment.base segment.limit with
        | .ok store => store
        | .error _ => memory.store
      occupied := memory.occupied.set index false }

/-- Takes the segment at an index away from a process and releases it. -/
def vacate (memory : Memory) (pid index : Nat) : Memory :=
  { memory with tenants := memory.tenants.erase pid }.release index

/-- Clears and frees the segment of a process.  Does nothing when it has none. -/
def evacuate (memory : Memory) (pid : Nat) : Memory :=
  match memory.holding? pid with
  | some index => memory.vacate pid index
  | none => memory

def evacuateAll (memory : Memory) : Memory :=
  memory.residentPids.foldl evacuate memory

/-- Clears and frees the segment of a process or, when none is named, the segments of all processes.
Returns the processes that had one. -/
def evacuation (memory : Memory) (pid? : Option Nat) : List Nat × Memory :=
  let pids :=
    match pid? with
    | some pid => if memory.isResident pid then [pid] else []
    | none => memory.residentPids
  (pids, pids.foldl evacuate memory)

/-- Takes the image of a process out of memory, so that it can be kept on disk. -/
def withdraw (memory : Memory) (process : Process) : Except MemoryError Withdrawal := do
  match memory.holding? process.pid with
  | none => .error (.notResident process.pid)
  | some index =>
    match memory.segments[index]? with
    | none => .error (.notResident process.pid)
    | some segment =>
      let image ← memory.store.readRange segment.base segment.limit
      return {
        image
        process := { process with segment := none, residence := none }
        memory := memory.vacate process.pid index }

def translate (process : Process) (address : Nat) : Except MemoryError Nat :=
  match process.segment with
  | none => .error (.notResident process.pid)
  | some segment =>
    match segment.translate? address with
    | some physical => .ok physical
    | none => .error (.segmentationFault process.pid address)

def read (memory : Memory) (process : Process) (address : Nat) : Except MemoryError UInt8 := do
  let physical ← translate process address
  memory.store.read physical

/-- The memory with the byte at a logical address of a process changed. -/
def write (memory : Memory) (process : Process) (address : Nat) (byte : UInt8) :
    Except MemoryError Memory := do
  let physical ← translate process address
  let store ← memory.store.write physical byte
  return { memory with store }

end Memory

/-! ## Reading the tables together -/

/-- What the tables tell about a segment. -/
inductive Tenancy
  | vacant
  | heldBy (pid : Nat)
  /-- In use, but not by any process. -/
  | abandoned
deriving DecidableEq

/-- A segment and what the tables tell about it. -/
structure Partition where
  segment : Segment
  tenancy : Tenancy
deriving DecidableEq

namespace Memory

/-- What the tables tell about the segment at an index.  Of several processes that were given it the
first one counts. -/
def tenancy (memory : Memory) (index : Nat) : Tenancy :=
  if memory.isOccupied index then
    match memory.residentPids.find? fun pid => memory.holding? pid = some index with
    | some pid => .heldBy pid
    | none => .abandoned
  else .vacant

/-- The segments in ascending order with what the tables tell about them. -/
def partitions (memory : Memory) : List Partition :=
  memory.segments.mapIdx fun index segment => ⟨segment, memory.tenancy index⟩

end Memory

end Timeshare
