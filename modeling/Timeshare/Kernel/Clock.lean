import Timeshare.Kernel.Handlers

/-!
# The clock

At each pulse of its clock the kernel handles one interrupt, or runs one instruction, or does
nothing.
-/

namespace Timeshare

namespace Kernel

/-- How many pulses lie between two notes that there is nothing to do. -/
def idleNoteInterval : Nat := 10

/-- The pending interrupts after a cycle: with the one that the cycle raised, and with a context
switch if the process has used up its turn. -/
def interruptsAfter (cycle : Cycle) (policy : Policy) (queue : InterruptQueue) : InterruptQueue :=
  let raised := cycle.enqueueRaised queue
  if policy.shouldSwitch then InterruptQueue.enqueue .contextSwitch raised else raised

def runCycle (process : Process) (kernel : Kernel) : Journaled Kernel := do
  let system := kernel.system
  let cycle := (system.cpu.setExecuting true).cycle process system.memory
  Journaled.emit cycle.events
  let policy := system.policy.didCycle process.pid
  let system :=
    { system with
      cpu := cycle.cpu
      memory := cycle.memory
      executing := some cycle.process
      policy }.countTick
  Journaled.emit
    [system.cpu.snapshot, .memory system.memory.store, .processes system.processes]
  return { kernel with
    system
    interrupts := interruptsAfter cycle policy kernel.interrupts
    console := cycle.writeTo kernel.console }

/-- Runs one instruction, of the next ready process if none executes. -/
def execute (kernel : Kernel) : Journaled Kernel := do
  let (dispatched, system) ← kernel.system.dispatch
  let kernel := { kernel with system }
  match dispatched, system.executing with
  | .error failure, _ => return kernel.dispatchFailed failure
  | .ok (), some process => kernel.runCycle process
  | .ok (), none => return kernel

def pulse (kernel : Kernel) : Journaled Kernel :=
  if kernel.running then
    let kernel := { kernel with clock := kernel.clock + 1 }
    match kernel.interrupts.dequeue? with
    | some (interrupt, rest) => { kernel with interrupts := rest }.handle interrupt
    | none =>
      if !kernel.system.isIdle then kernel.execute
      else if kernel.clock % idleNoteInterval = 0 then do
        Journaled.tell .idle
        return kernel
      else return kernel
  else return kernel

def isBusy (kernel : Kernel) : Bool :=
  kernel.running && !kernel.isIdle

/-- Pulses a busy kernel at most `limit` times and lets `observe` see the events of each pulse.
Returns what was observed, the kernel, and the number of pulses that were not given. -/
def runObserved {α : Type} (observe : α → Kernel → List Event → α) :
    Nat → α → Kernel → α × Kernel × Nat
  | 0, seen, kernel => (seen, kernel, 0)
  | limit + 1, seen, kernel =>
    if kernel.isBusy then
      let pulsed := kernel.pulse
      runObserved observe limit (observe seen pulsed.value pulsed.events) pulsed.value
    else (seen, kernel, limit + 1)

end Kernel

end Timeshare
