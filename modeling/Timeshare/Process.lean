import Timeshare.Machine.Registers
import Timeshare.Memory.Segment

/-!
# Processes

What the system keeps about a process from the moment it is admitted until after it has ended.
-/

namespace Timeshare

/-- The priority of a program loaded without one.  Lower is more urgent, so this is the least. -/
def defaultPriority : Nat := 4294967295

/-- Where a process stands between admission and termination. -/
inductive Phase
  | uninitialized
  | resident
  | ready
  | running
  | terminated
deriving DecidableEq

namespace Phase

def text : Phase → String
  | uninitialized => "uninitialized"
  | resident => "resident"
  | ready => "ready"
  | running => "running"
  | terminated => "terminated"

end Phase

inductive Residence
  | memory
  | disk
deriving DecidableEq

namespace Residence

def text : Residence → String
  | memory => "memory"
  | disk => "disk"

end Residence

structure Process where
  pid : Nat
  priority : Nat
  /-- The registers to go on with, as they were after the last completed instruction. -/
  registers : Registers
  lastInstruction : Option UInt8
  phase : Phase
  /-- Whether the registers must be brought into the processor before the next cycle. -/
  fresh : Bool
  /-- The ticks spent in the ready queue while another process ran. -/
  readyTicks : Nat
  runningTicks : Nat
  segment : Option Segment
  residence : Option Residence
deriving DecidableEq

namespace Process

/-- A process that has not been given a place yet. -/
def create (pid priority : Nat) : Process where
  pid := pid
  priority := priority
  registers := .cleared
  lastInstruction := none
  phase := .uninitialized
  fresh := true
  readyTicks := 0
  runningTicks := 0
  segment := none
  residence := none

def isInMemory (process : Process) : Bool :=
  process.residence = some .memory && process.segment.isSome

def isOnDisk (process : Process) : Bool :=
  process.residence = some .disk

/-- The ticks spent between entering the ready queue and termination. -/
def turnaround (process : Process) : Nat :=
  process.readyTicks + process.runningTicks

def residenceText (process : Process) : String :=
  (process.residence.map Residence.text).getD "-"

def priorityText (process : Process) : String :=
  if process.priority = defaultPriority then "-" else toString process.priority

def text (process : Process) : String :=
  Text.padLeft 3 ' ' (toString process.pid) ++ " " ++ process.phase.text ++ " " ++
    Text.padRight 6 process.residenceText ++ " " ++ Text.padLeft 3 ' ' process.priorityText ++
    " " ++ process.registers.text process.lastInstruction

end Process

end Timeshare
