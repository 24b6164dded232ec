import Timeshare.Kernel.Clock
import Timeshare.Program.JobFile

/-!
# Sessions

The host boots a kernel, hands it the jobs of a job file and pulses its clock until every process
has finished, the kernel has stopped, or the limit of ticks is reached.
-/

namespace Timeshare

structure Session where
  config : Config
  maxTicks : Nat
  /-- The scheduling algorithm chosen once the kernel has booted. -/
  schedule : Option Schedule
  /-- The length of turns chosen once the kernel has booted. -/
  quantum : Option Nat
  /-- The keys pressed before the jobs are loaded. -/
  keystrokes : String

namespace Kernel

/-- Pulses a busy kernel at most `limit` times. -/
def run : Nat → Kernel → Kernel
  | 0, kernel => kernel
  | limit + 1, kernel => if kernel.isBusy then run limit kernel.pulse.value else kernel

/-- Observing a run does not change it. -/
theorem runObserved_kernel {α : Type} (observe : α → Kernel → List Event → α) (limit : Nat)
    (seen : α) (kernel : Kernel) :
    (runObserved observe limit seen kernel).2.1 = run limit kernel := by
  induction limit generalizing seen kernel with
  | zero => rfl
  | succ limit hypothesis =>
    unfold runObserved run
    split
    · exact hypothesis _ _
    · rfl

end Kernel

namespace Session

/-- The kernel once it has booted under the session's settings and the session's interrupts wait:
the keystrokes, the jobs, and the request to run them all. -/
def prepare (session : Session) (jobs : List Job) : Journaled Kernel := do
  let kernel ← (Kernel.create session.config).bootstrap session.config.formatDisk
  let kernel ←
    match session.schedule with
    | some schedule => kernel.setSchedule schedule
    | none => pure kernel
  let kernel :=
    match session.quantum with
    | some quantum => kernel.setQuantum quantum
    | none => kernel
  Journaled.emit (jobs.map fun job => .note (.jobQueued job.bytes.length))
  let keys := session.keystrokes.toList.map Interrupt.keyboard
  let loads := jobs.map fun job => Interrupt.loadProgram job.text job.priority
  return { kernel with
    interrupts := kernel.interrupts ++ keys ++ loads ++ [.runAllPrograms] }

def execute (session : Session) (jobs : List Job) : Kernel :=
  ((session.prepare jobs).value.run session.maxTicks).shutdown.value

/-- Runs the jobs and lets `observe` see the events of each step. -/
def executeObserved {α : Type} (observe : α → Kernel → List Event → α) (seen : α)
    (session : Session) (jobs : List Job) : α × Kernel :=
  let prepared := session.prepare jobs
  let seen := observe seen prepared.value prepared.events
  let (seen, kernel, _) := prepared.value.runObserved observe session.maxTicks seen
  let stopped := kernel.shutdown
  (observe seen stopped.value stopped.events, stopped.value)

/-- Observing a session does not change it. -/
theorem executeObserved_kernel {α : Type} (observe : α → Kernel → List Event → α) (seen : α)
    (session : Session) (jobs : List Job) :
    (session.executeObserved observe seen jobs).2 = session.execute jobs := by
  simp only [executeObserved, execute, Kernel.runObserved_kernel]

end Session

end Timeshare
