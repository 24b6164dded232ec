import Timeshare.Host.Directory
import Timeshare.Host.Session

/-!
# Session reports

What the host prints before and after the jobs run.  While they run, every line completed on the
console is printed.
-/

namespace Timeshare

namespace Session

/-- The contents of a job file, or why it could not be opened. -/
abbrev FileContents : Type :=
  Except OpenFailure (List UInt8)

/-- The jobs of a job file, or what is said when there is no reading them. -/
def readContents (contents : FileContents) : Except String (List Job) := do
  let bytes ← contents.mapError OpenFailure.message
  (readJobs bytes).mapError JobFileError.message

/-- The lines printed before the jobs run, and the jobs; none when there is nothing to run. -/
def opening (session : Session) (path : String) (contents : FileContents) :
    List String × List Job :=
  let start := "Starting the driver."
  match session.config.validate with
  | .error error => ([start, s!"Invalid configuration: {error.message}"], [])
  | .ok () =>
    let loading := s!"Loading programs from {path}."
    match readContents contents with
    | .error error =>
      ([start, loading, s!"Failed to load programs: {error}", "No programs to run."], [])
    | .ok [] => ([start, loading, "No programs to run."], [])
    | .ok jobs => ([start, loading, s!"Running {jobs.length} programs:"], jobs)

/-- The times of a process that has ended, as a row of the table of times. -/
def statisticsRow (process : Process) : String :=
  "... " ++ Text.padLeft 3 ' ' (toString process.pid) ++ " | " ++
    Text.padLeft 8 ' ' process.priorityText ++ " | " ++
    Text.padLeft 17 ' ' (toString process.readyTicks) ++ " | " ++
    Text.padLeft 23 ' ' (toString process.turnaround)

/-- The processes left when the session stopped before all work was done. -/
def pendingLines (kernel : Kernel) : List String :=
  if kernel.isIdle then []
  else
    "Stopped with work still pending:" ::
      kernel.system.processes.map fun process => "... " ++ process.text

def fileLine (kernel : Kernel) : String :=
  match kernel.system.files.userFiles with
  | .ok [] => "No files left on disk."
  | .ok names =>
    let list := " ".intercalate names
    s!"Files left on disk: {list}"
  | .error error => s!"Could not list files: {error.message}"

def inputLines (kernel : Kernel) : List String :=
  let input := kernel.takeInput.1
  if input.isEmpty then [] else [s!"Unread keyboard input: {input}"]

def closing (kernel : Kernel) : List String :=
  let policy := kernel.system.policy
  [s!"Ran {kernel.clock} ticks with {policy.schedule.text} scheduling, " ++
    s!"quantum {policy.quantum}."] ++
  pendingLines kernel ++
  ["Stats for executed processes:",
    "... PID | Priority | Wait Time (ticks) | Turnaround Time (ticks)",
    "...-----|----------|-------------------|------------------------"] ++
  kernel.system.terminated.map statisticsRow ++
  [fileLine kernel] ++
  inputLines kernel

/-- Runs the jobs of a job file.  Returns what was observed and all that is printed. -/
def start {α : Type} (observe : α → Kernel → List Event → α) (seen : α) (session : Session)
    (path : String) (contents : FileContents) : α × List String :=
  match session.opening path contents with
  | (lines, []) => (seen, lines)
  | (lines, jobs) =>
    let (seen, kernel) := session.executeObserved observe seen jobs
    (seen, lines ++ kernel.console.transcript.toList ++ closing kernel)

end Session

end Timeshare
