import Timeshare.Program.Source
import Timeshare.Text.Utf8

/-!
# Job files

A job file is a deck of cards, one a line.  A card that starts with `// JOB` begins a job and may
name its priority in hexadecimal; one that starts with `// END` ends it.  The lines between are
program text.  Other lines that start with `//`, and blank lines, say nothing.
-/

namespace Timeshare

structure Job where
  text : String
  bytes : List UInt8
  priority : Option Nat
deriving DecidableEq

/-- The job of a program text.  A text that is no program has no bytes. -/
def Job.ofText (text : String) (priority : Option Nat) : Job where
  text := text
  bytes :=
    match ProgramText.parse text with
    | .ok bytes => bytes
    | .error _ => []
  priority := priority

inductive JobFileError
  | notText
  | malformed (error : ProgramError)
deriving DecidableEq

namespace JobFileError

def message : JobFileError → String
  | notText => "stream did not contain valid UTF-8"
  | malformed error => error.message

end JobFileError

/-- The bound of priorities: they are 32-bit numbers. -/
def priorityBound : Nat := 4294967296

/-- What has been read of a job file: the finished jobs, and the text and the priority of the one
that is being read. -/
structure Deck where
  jobs : List Job
  text : String
  priority : Option Nat

namespace Deck

def empty : Deck :=
  ⟨[], "", none⟩

/-- The priority on a job card, which may be left out.  The argument is what follows `// JOB`. -/
def cardPriority (card : String) : Except ProgramError (Option Nat) :=
  match Text.fields Text.isCardSpace card with
  | [] => .ok none
  | value :: _ =>
    match Text.numeral? 16 priorityBound value with
    | some priority => .ok (some priority)
    | none => .error (.invalidJobCard (Text.trim card))

/-- Reads one line that has no white space at its ends. -/
def readLine (deck : Deck) (line : String) : Except ProgramError Deck :=
  match Text.after? "// JOB" line with
  | some card => do
    let priority ← cardPriority card
    return { deck with text := "", priority }
  | none =>
    if Text.startsWith "// END" line then do
      let bytes ← ProgramText.parse deck.text
      return {
        jobs := deck.jobs ++ [⟨Text.trim deck.text, bytes, deck.priority⟩]
        text := ""
        priority := none }
    else if line.isEmpty || Text.startsWith "//" line then .ok deck
    else .ok { deck with text := deck.text ++ line ++ " " }

def readRawLine (deck : Deck) (bytes : List UInt8) : Except JobFileError Deck :=
  match Text.decodeUtf8? bytes with
  | none => .error .notText
  | some line => (deck.readLine (Text.trim line)).mapError .malformed

end Deck

/-- The jobs of a job file.  A job that is not ended is dropped. -/
def readJobs (bytes : List UInt8) : Except JobFileError (List Job) := do
  let deck ← (bytes.splitOnP fun byte => byte == 0x0A).foldlM Deck.readRawLine Deck.empty
  return deck.jobs

end Timeshare
