import Timeshare.FileSystem.State
import Timeshare.Machine.Cpu
import Timeshare.Policy

/-!
# The system's state

The processor, memory and disk, and all processes.  A process is in one of four places: it executes,
waits in the ready queue, is resident but was not asked to run, or has ended.  Every process that
has not ended has its image in memory or in a swap file.
-/

namespace Timeshare

structure System where
  cpu : Cpu
  memory : Memory
  files : FileSystem
  policy : Policy
  nextPid : Nat
  /-- The processes that were admitted but not asked to run, in ascending order of their numbers. -/
  resident : List Process
  /-- The processes that wait for the processor, the next one first. -/
  ready : List Process
  executing : Option Process
  /-- The processes that have ended, in the order of their ends. -/
  terminated : List Process

namespace System

def initial (memory : Memory) (files : FileSystem) (policy : Policy) : System where
  cpu := .initial
  memory := memory
  files := files
  policy := policy
  nextPid := 0
  resident := []
  ready := []
  executing := none
  terminated := []

def executingPid (system : System) : Option Nat :=
  system.executing.map Process.pid

def isIdle (system : System) : Bool :=
  system.executing.isNone && system.ready.isEmpty

/-- The processes that have not ended: the executing one, then the ready ones, then the resident
ones. -/
def processes (system : System) : List Process :=
  system.executing.toList ++ system.ready ++ system.resident

def isActive (system : System) (pid : Nat) : Bool :=
  system.processes.any fun process => process.pid = pid

def insertByPriority (process : Process) : List Process → List Process
  | [] => [process]
  | first :: rest =>
    if process.priority < first.priority then process :: first :: rest
    else first :: insertByPriority process rest

/-- The processes in the order of priority, those of equal priority in the order they had. -/
def sortByPriority (processes : List Process) : List Process :=
  processes.foldl (fun sorted process => insertByPriority process sorted) []

/-- Puts a process at the end of the ready queue, or in its place if the queue is kept in the order
of priority. -/
def enqueueReady (process : Process) (system : System) : System :=
  let queue := system.ready ++ [process]
  { system with
    ready := if system.policy.ordersByPriority then sortByPriority queue else queue }

def setSchedule (schedule : Schedule) (system : System) : System :=
  let policy := system.policy.setSchedule schedule
  { system with
    policy := policy
    ready := if policy.ordersByPriority then sortByPriority system.ready else system.ready }

def takeResident? (pid : Nat) (system : System) : Option (Process × System) :=
  match system.resident.find? fun process => process.pid = pid with
  | some process =>
    some (process, { system with
      resident := system.resident.filter fun other => other.pid ≠ pid })
  | none => none

/-- Queues a resident process for execution; `none` if there is none of this number. -/
def activate? (pid : Nat) (system : System) : Option System :=
  match system.takeResident? pid with
  | some (process, system) => some (system.enqueueReady { process with phase := .ready })
  | none => none

/-- Queues all resident processes for execution, the lowest number first.  Returns the numbers. -/
def activateAll (system : System) : List Nat × System :=
  (system.resident.map Process.pid,
    system.resident.foldl
      (fun system process => system.enqueueReady { process with phase := .ready })
      { system with resident := [] })

/-- Whether the next ready process is to take the place of the executing one: the queue is kept in
the order of priority and its head is strictly more urgent. -/
def shouldPreempt (system : System) : Bool :=
  system.policy.ordersByPriority &&
    match system.executing, system.ready with
    | some executing, head :: _ => head.priority < executing.priority
    | _, _ => false

/-- Counts a tick in which the processor ran a cycle. -/
def countTick (system : System) : System :=
  { system with
    ready := system.ready.map fun process => { process with readyTicks := process.readyTicks + 1 }
    executing := system.executing.map fun process =>
      { process with runningTicks := process.runningTicks + 1 } }

end System

end Timeshare
