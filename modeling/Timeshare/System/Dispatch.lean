import Timeshare.System.Swapping

/-!
# Dispatching and ending processes

The next ready process gets the processor when none has it.  A process gives it up at a context
switch, or when it ends.  A process that ends gives its segment or its swap file back.
-/

namespace Timeshare

namespace System

/-- Frees the segment of a process or deletes its swap file. -/
def reclaim (process : Process) (system : System) : Journaled System :=
  let pid := process.pid
  if process.isInMemory then
    return { system with memory := system.memory.evacuate pid }
  else if system.files.hasSwap pid then
    match FileSystem.perform (FileSystem.deleteSwap pid) system.files with
    | (.ok fetched, files) => do
      Journaled.emit (fetched.events pid)
      return { system with files }
    | (.error error, files) => do
      Journaled.tell (.swapNotDeleted pid error)
      return { system with files }
  else return system

def retire (process : Process) (system : System) : System :=
  { system with
    terminated := system.terminated ++
      [{ process with phase := .terminated, segment := none, residence := none }] }

/-- Gives the processor to the next ready process if no process has it.  A process that cannot be
brought into memory is ended. -/
def dispatch (system : System) : Journaled (Except DispatchFailure Unit × System) :=
  match system.executing, system.ready with
  | none, next :: rest => do
    let (brought, system) ← rollIn next { system with ready := rest }
    match brought with
    | .ok process =>
      Journaled.tell (.dispatching process.pid)
      return (.ok (), { system with executing := some { process with phase := .running } })
    | .error cause =>
      Journaled.tell (.rollInFailed next.pid cause)
      let system ← system.reclaim next
      return (.error ⟨next.pid, cause⟩, system.retire next)
  | _, _ => return (.ok (), system)

/-- Takes the processor from the executing process and puts the process back into the ready
queue. -/
def switchOut (system : System) : Journaled System :=
  match system.executing with
  | none => return system
  | some process => do
    Journaled.tell (.switchingOut process.pid)
    let saved := system.cpu.saveInto process
    return { system with executing := none }.enqueueReady
      { saved with fresh := true, phase := .ready }

def resume (system : System) : System :=
  match system.executing with
  | none => system
  | some process =>
    { system with
      cpu := (system.cpu.restoreFrom process).setExecuting true
      executing := some { process with fresh := false } }

/-- Lets the next ready process run in place of the executing one.  Returns whether there was one to
switch to. -/
def contextSwitch (system : System) : Journaled (Except DispatchFailure Bool × System) :=
  let system := { system with policy := system.policy.didSwitch }
  if system.ready.isEmpty then do
    Journaled.tell .switchSkipped
    return (.ok false, system)
  else do
    let system ← system.switchOut
    let (dispatched, system) ← system.dispatch
    match dispatched with
    | .error failure => return (.error failure, system)
    | .ok () => return (.ok true, system.resume)

/-- Takes a process that has not ended out of its place; `none` if there is none of this number. -/
def remove? (pid : Nat) (system : System) : Journaled (Option (Process × System)) :=
  match system.executing.filter fun process => process.pid = pid with
  | some process => do
    let cpu := (system.cpu.setExecuting false).reset
    Journaled.emit [cpu.snapshot]
    return some (process, { system with cpu, policy := system.policy.didSwitch, executing := none })
  | none =>
    match system.ready.find? fun process => process.pid = pid with
    | some process =>
      return some (process, { system with
        ready := system.ready.eraseP fun other => other.pid = pid })
    | none => return system.takeResident? pid

/-- Ends a process wherever it is.  Returns whether there was one of this number. -/
def terminate (pid : Nat) (system : System) : Journaled (Bool × System) := do
  match ← system.remove? pid with
  | none => return (false, system)
  | some (process, system) =>
    let system ← system.reclaim process
    Journaled.tell (.terminated pid)
    return (true, system.retire process)

/-- Takes the processes in memory out of the resident ones. -/
def drainInMemory (system : System) : List Process × System :=
  (system.resident.filter Process.isInMemory,
    { system with resident := system.resident.filter fun process => !process.isInMemory })

/-- Ends all resident processes in memory and clears every segment; `none` while any process
executes or is ready.  Returns the numbers of the processes. -/
def clearMemory? (system : System) : Option (List Nat × System) :=
  if system.isIdle then
    let (dropped, system) := system.drainInMemory
    let system := dropped.foldl (fun system process => system.retire process) system
    some (dropped.map Process.pid, { system with memory := system.memory.evacuateAll })
  else none

end System

end Timeshare
