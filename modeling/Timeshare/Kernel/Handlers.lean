import Timeshare.Kernel.State
import Timeshare.Program.Source

/-!
# Handling interrupts

What the kernel does for each kind of interrupt, and what it tells the user about it.
-/

namespace Timeshare

namespace Kernel

def reportFinished (pid : Nat) (kernel : Kernel) : Kernel :=
  match kernel.system.terminated.reverse.find? fun process => process.pid = pid with
  | none => kernel
  | some process =>
    kernel.say (s!"Process {pid} finished. Wait time: {process.readyTicks} ticks, " ++
      s!"turnaround time: {process.turnaround} ticks")

/-- Reports a process that was ended because it could not be brought into memory. -/
def dispatchFailed (failure : DispatchFailure) (kernel : Kernel) : Kernel :=
  (kernel.say failure.message).reportFinished failure.pid

def loadProgram (text : String) (priority : Option Nat) (kernel : Kernel) : Journaled Kernel :=
  match ProgramText.parse text with
  | .error error => return kernel.say s!"Invalid program: {error.message}"
  | .ok program => do
    let (result, system) ← kernel.system.enroll program (priority.getD defaultPriority)
    let kernel := { kernel with system }
    match result with
    | .ok pid => return kernel.say s!"Process created with PID {pid}"
    | .error error => return kernel.say s!"Could not load program: {error.message}"

/-- Puts the processor to work for newly ready processes, with a context switch if one of them is
more urgent than the executing one. -/
def didActivate (kernel : Kernel) : Journaled Kernel := do
  let system := kernel.system
  let kernel := { kernel with system := { system with cpu := system.cpu.setExecuting true } }
  if system.shouldPreempt then
    Journaled.tell .preempting
    return kernel.enqueue .contextSwitch
  else return kernel

def runProgram (pid : Nat) (kernel : Kernel) : Journaled Kernel :=
  match kernel.system.activate? pid with
  | some system => ({ kernel with system }.say s!"Running {pid}...").didActivate
  | none => return kernel.say s!"No resident process with PID {pid}"

def runAllPrograms (kernel : Kernel) : Journaled Kernel :=
  let (pids, system) := kernel.system.activateAll
  if pids.isEmpty then return kernel.say "No resident programs to run"
  else
    let list := ", ".intercalate (pids.map toString)
    ({ kernel with system }.say s!"Running {list}...").didActivate

/-- Ends a process and reports its times.  Returns whether there was one of this number. -/
def terminate (pid : Nat) (kernel : Kernel) : Journaled (Bool × Kernel) := do
  let (ended, system) ← kernel.system.terminate pid
  let kernel := { kernel with system }
  if ended then return (true, kernel.reportFinished pid) else return (false, kernel)

/-- Ends a process that has come to its end by itself. -/
def endProgram (pid : Nat) (kernel : Kernel) : Journaled Kernel := do
  let (ended, kernel) ← kernel.terminate pid
  if ended then return kernel
  else
    Journaled.tell (.alreadyTerminated pid)
    return kernel

def killProgram (pid : Nat) (kernel : Kernel) : Journaled Kernel := do
  let (ended, kernel) ← kernel.terminate pid
  if ended then return kernel else return kernel.say s!"No active process with PID {pid}"

def clearMemory (kernel : Kernel) : Journaled Kernel :=
  match kernel.system.clearMemory? with
  | some (dropped, system) => do
    Journaled.tell (.dropped dropped)
    return { kernel with system }.say "Memory cleared"
  | none => return kernel.say "Cannot clear memory while processes are running"

def contextSwitch (kernel : Kernel) : Journaled Kernel := do
  let (switched, system) ← kernel.system.contextSwitch
  let kernel := { kernel with system }
  match switched with
  | .ok true =>
    Journaled.tell (.switchedTo system.executingPid)
    return kernel
  | .ok false => return kernel
  | .error failure => return kernel.dispatchFailed failure

def serveFiles (request : FileRequest) (kernel : Kernel) : Journaled Kernel :=
  match FileSystem.perform (FileSystem.serve request) kernel.system.files with
  | (.ok reply, files) => do
    Journaled.emit reply.events
    return { kernel with system := { kernel.system with files } }.say reply.text
  | (.error error, files) =>
    return { kernel with system := { kernel.system with files } }.say error.message

def trap (message : String) (kernel : Kernel) : Journaled Kernel := do
  Journaled.tell (.trap message)
  (kernel.say s!"Kernel trap: {message}").shutdown

def handle (interrupt : Interrupt) (kernel : Kernel) : Journaled Kernel := do
  Journaled.tell (.handling interrupt)
  match interrupt with
  | .timer => return kernel
  | .keyboard key =>
    Journaled.tell (.key key)
    return { kernel with keyboard := kernel.keyboard.press key }
  | .loadProgram program priority => kernel.loadProgram program priority
  | .runProgram pid => kernel.runProgram pid
  | .breakProgram pid => kernel.endProgram pid
  | .errProgram pid => kernel.endProgram pid
  | .requestClearMemory => kernel.clearMemory
  | .contextSwitch => kernel.contextSwitch
  | .runAllPrograms => kernel.runAllPrograms
  | .killProgram pid => kernel.killProgram pid
  | .fileSystem request => kernel.serveFiles request
  | .unrecognized number => kernel.trap s!"Unrecognized IRQ {number}"

end Kernel

end Timeshare
