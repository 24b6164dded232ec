import Timeshare.Host.CommandLine
import Timeshare.Host.Report

/-!
# The program

Reads the command line and the job file, runs the session, and prints: what the session prints on
standard output, and the log on standard error.
-/

namespace Timeshare

namespace Program

def readFailure : IO.Error → OpenFailure
  | .noFileOrDirectory .. => .missing
  | .permissionDenied .. => .denied
  | .inappropriateType _ code _ => if code = 20 then .notDirectory else .isDirectory
  | .invalidArgument _ code explanation =>
    if code = 36 then .nameTooLong else .other explanation
  | error => .other (toString error)

/-- The contents of a file, or why it could not be read. -/
def contentsOf (path : String) : IO Session.FileContents := do
  try
    let bytes ← IO.FS.readBinFile path
    return .ok bytes.data.toList
  catch error => return .error (readFailure error)

def printLines (lines : List String) : IO Unit :=
  lines.forM fun line => IO.println line

def logEvents (least : Option Severity) (events : List Event) : IO Unit :=
  match least with
  | none => pure ()
  | some least => (Event.logLines least events).forM fun line => IO.eprintln line

/-- Pulses a busy kernel at most `limit` times, printing the lines that are completed on its
console and logging its events as they come. -/
def pump (least : Option Severity) : Nat → Kernel → IO Kernel
  | 0, kernel => pure kernel
  | limit + 1, kernel =>
    if kernel.isBusy then do
      let shown := kernel.console.transcript.size
      let pulsed := kernel.pulse
      logEvents least pulsed.events
      printLines (pulsed.value.console.transcript.toList.drop shown)
      pump least limit pulsed.value
    else pure kernel

/-- Runs what the command line asks for. -/
def run (invocation : CommandLine.Invocation) : IO Unit := do
  let session := invocation.session
  let least := invocation.logLevel
  let contents ← contentsOf invocation.path
  let (lines, jobs) := session.opening invocation.path contents
  printLines lines
  if jobs.isEmpty then pure ()
  else
    let prepared := session.prepare jobs
    logEvents least prepared.events
    let finished ← pump least session.maxTicks prepared.value
    let stopped := finished.shutdown
    logEvents least stopped.events
    printLines (Session.closing stopped.value)

end Program

end Timeshare

/-- Runs a session as the command line asks for, or says why it cannot. -/
def main (line : List String) : IO UInt32 := do
  match Timeshare.CommandLine.parse line with
  | .ok invocation =>
    Timeshare.Program.run invocation
    return 0
  | .error usage =>
    IO.eprintln usage.message
    return usage.exitCode
