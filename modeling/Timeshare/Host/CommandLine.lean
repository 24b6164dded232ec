import Timeshare.Host.Session

/-!
# The command line

Options have long names; a value follows its option as the next argument or behind an equals sign.
One further argument is the path of the job file.  After `--` every argument is a path.

The arguments are taken from left to right.  The value of an option, or the path, is only looked at
when the next option or path arrives or the arguments end; an argument that is unknown is refused
before that.
-/

namespace Timeshare

/-- Why the command line starts no session. -/
inductive UsageError
  | helpRequested
  /-- An option that does not exist, or a second path. -/
  | unknownArgument
  /-- A value that is missing or is none of those to choose from. -/
  | invalidValue
  | unreadableValue
  | repeatedArgument
  /-- A value for an option that takes none. -/
  | unexpectedValue
deriving DecidableEq

namespace UsageError

def exitCode : UsageError → UInt32
  | helpRequested => 0
  | _ => 2

def message : UsageError → String
  | helpRequested =>
    "Usage: [PATH] [--quantum N] [--schedule rr|fcfs|priority] [--keys TEXT] [--max-ticks N] " ++
      "[--log-level LEVEL] [--no-format] [--help]"
  | unknownArgument => "error: unexpected argument"
  | invalidValue => "error: missing or invalid value"
  | unreadableValue => "error: unreadable value"
  | repeatedArgument => "error: argument given twice"
  | unexpectedValue => "error: unexpected value"

end UsageError

/-- What takes a value on the command line. -/
inductive Parameter
  | path
  | quantum
  | schedule
  | keys
  | maxTicks
  | logLevel
deriving DecidableEq

structure Arguments where
  path : Option String := none
  quantum : Option Nat := none
  schedule : Option Schedule := none
  keys : Option String := none
  maxTicks : Option Nat := none
  /-- The least severity that is logged, if any is. -/
  logLevel : Option (Option Severity) := none
  noFormat : Bool := false

namespace CommandLine

/-- The bound of numbers on the command line: they are 64-bit numbers. -/
def numberBound : Nat := 18446744073709551616

/-- A severity by its name, in any case, or none at all. -/
def severityOf? (name : String) : Option (Option Severity) :=
  let lowered := String.ofList (name.toList.map Schedule.lowerLetter)
  if lowered = "off" then some none
  else if lowered = "error" then some (some .error)
  else if lowered = "warn" then some (some .warn)
  else if lowered = "info" then some (some .info)
  else if lowered = "debug" then some (some .debug)
  else if lowered = "trace" then some (some .trace)
  else none

/-- A scheduling algorithm by its exact short name. -/
def scheduleOf? (name : String) : Option Schedule :=
  [Schedule.roundRobin, .firstComeFirstServed, .priority].find? fun schedule =>
    schedule.text = name

def isGiven (arguments : Arguments) : Parameter → Bool
  | .path => arguments.path.isSome
  | .quantum => arguments.quantum.isSome
  | .schedule => arguments.schedule.isSome
  | .keys => arguments.keys.isSome
  | .maxTicks => arguments.maxTicks.isSome
  | .logLevel => arguments.logLevel.isSome

def setValue (parameter : Parameter) (value : String) (arguments : Arguments) :
    Except UsageError Arguments :=
  match parameter with
  | .path =>
    if value.isEmpty then .error .invalidValue else .ok { arguments with path := some value }
  | .quantum =>
    match Text.numeral? 10 numberBound value with
    | some quantum => .ok { arguments with quantum := some quantum }
    | none => .error .unreadableValue
  | .schedule =>
    match scheduleOf? value with
    | some schedule => .ok { arguments with schedule := some schedule }
    | none => .error .invalidValue
  | .keys => .ok { arguments with keys := some value }
  | .maxTicks =>
    match Text.numeral? 10 numberBound value with
    | some maxTicks => .ok { arguments with maxTicks := some maxTicks }
    | none => .error .unreadableValue
  | .logLevel =>
    match severityOf? value with
    | some logLevel => .ok { arguments with logLevel := some logLevel }
    | none => .error .unreadableValue

/-- Takes a parameter with its value, or without one, which is refused. -/
def settle (parameter : Parameter) (value : Option String) (arguments : Arguments) :
    Except UsageError Arguments :=
  match value with
  | none => .error .invalidValue
  | some value =>
    if isGiven arguments parameter then .error .repeatedArgument
    else setValue parameter value arguments

/-- How far the command line was read: the values taken, the parameter whose value is still to be
looked at, with the value if it has arrived, whether a path was seen, and whether everything that
follows is a path. -/
structure Progress where
  arguments : Arguments := {}
  pending : Option (Parameter × Option String) := none
  pathSeen : Bool := false
  onlyPaths : Bool := false

/-- Looks at the value that is still to be looked at. -/
def resolve (progress : Progress) : Except UsageError Progress :=
  match progress.pending with
  | none => .ok progress
  | some (parameter, value) => do
    let arguments ← settle parameter value progress.arguments
    return { progress with arguments, pending := none }

def parameterOf? (name : String) : Option Parameter :=
  if name = "quantum" then some .quantum
  else if name = "schedule" then some .schedule
  else if name = "keys" then some .keys
  else if name = "max-ticks" then some .maxTicks
  else if name = "log-level" then some .logLevel
  else none

/-- The name of a long option, and its value if there is one behind an equals sign. -/
def splitOption (option : String) : String × Option String :=
  let name := option.toList.takeWhile fun c => c != '='
  match option.toList.drop name.length with
  | [] => (String.ofList name, none)
  | _ :: value => (String.ofList name, some (String.ofList value))

/-- Takes a long option, given without its two dashes. -/
def takeOption (progress : Progress) (option : String) : Except UsageError Progress :=
  match splitOption option with
  | (name, attached) =>
    match parameterOf? name, attached with
    | some parameter, some value => do
      let progress ← resolve progress
      let arguments ← settle parameter (some value) progress.arguments
      return { progress with arguments }
    | some parameter, none => do
      let progress ← resolve progress
      return { progress with pending := some (parameter, none) }
    | none, _ =>
      if name = "no-format" ∨ name = "help" then
        if attached.isSome then .error .unexpectedValue
        else do
          let progress ← resolve progress
          if name = "help" then .error .helpRequested
          else if progress.arguments.noFormat then .error .repeatedArgument
          else return { progress with arguments := { progress.arguments with noFormat := true } }
      else .error .unknownArgument

/-- Takes short options, given without their dash.  Asking for help is the only one. -/
def takeShortOptions (progress : Progress) : List Char → Except UsageError Progress
  | 'h' :: _ => do
    let _ ← resolve progress
    .error .helpRequested
  | _ => .error .unknownArgument

def takePath (progress : Progress) (path : String) : Except UsageError Progress :=
  if progress.pathSeen then .error .unknownArgument
  else do
    let progress ← resolve progress
    return { progress with pending := some (.path, some path), pathSeen := true }

/-- Takes a value for the option that waits for one, or else the path. -/
def takeValue (progress : Progress) (value : String) : Except UsageError Progress :=
  match progress.pending with
  | some (parameter, none) => .ok { progress with pending := some (parameter, some value) }
  | _ => takePath progress value

def takeArgument (progress : Progress) (argument : String) : Except UsageError Progress :=
  if progress.onlyPaths then takePath progress argument
  else
    match argument.toList with
    | ['-', '-'] => .ok { progress with onlyPaths := true }
    | '-' :: '-' :: option => takeOption progress (String.ofList option)
    | '-' :: c :: options => takeShortOptions progress (c :: options)
    | _ => takeValue progress argument

def arguments (line : List String) : Except UsageError Arguments := do
  let progress ← line.foldlM takeArgument {}
  let progress ← resolve progress
  return progress.arguments

def defaultPath : String := "data/program_file.txt"

/-- The ticks after which a session stops when no other limit is named. -/
def defaultMaxTicks : Nat := 10000

/-- What the program is to do: run a session on the jobs of a file, and log with it what is at least
so severe. -/
structure Invocation where
  session : Session
  path : String
  logLevel : Option Severity

def parse (line : List String) : Except UsageError Invocation := do
  let given ← arguments line
  return {
    session :=
      { config := { Config.standard with formatDisk := !given.noFormat }
        maxTicks := given.maxTicks.getD defaultMaxTicks
        schedule := given.schedule
        quantum := given.quantum
        keystrokes := given.keys.getD "" }
    path := given.path.getD defaultPath
    logLevel := given.logLevel.getD (some .warn) }

end CommandLine

end Timeshare
