import Timeshare.Text.Whitespace

/-!
# The console

Programs and the kernel write text to a console.  The text of programs runs on from one write to
the next; a system message always stands on a line of its own and leaves the line that is being
written as it was.
-/

namespace Timeshare

/-- What has been written: the completed lines, the line being written, and every line completed
since the console was made, even those that were cleared from it since. -/
structure Console where
  lines : Array String
  line : String
  transcript : Array String
deriving DecidableEq

namespace Console

def empty : Console :=
  ⟨#[], "", #[]⟩

def complete (line : String) (console : Console) : Console :=
  { console with
    lines := console.lines.push line
    transcript := console.transcript.push line }

def advanceLine (console : Console) : Console :=
  { console.complete console.line with line := "" }

def continueLine (text : String) (console : Console) : Console :=
  { console with line := console.line ++ text }

/-- Writes text on from where the last text ended.  Each line feed completes a line. -/
def putText (text : String) (console : Console) : Console :=
  match Text.lineFeedPieces text with
  | [] => console
  | first :: rest =>
    rest.foldl (fun console piece => console.advanceLine.continueLine piece)
      (console.continueLine first)

/-- Shows a system message on a line of its own. -/
def putSystemText (text : String) (console : Console) : Console :=
  console.complete text

def clear (console : Console) : Console :=
  { console with lines := #[], line := "" }

/-- The completed lines and, unless it is empty, the line being written, with a line feed between
each two. -/
def output (console : Console) : String :=
  let completed := "\n".intercalate console.lines.toList
  if console.line.isEmpty then completed
  else if completed.isEmpty then console.line
  else completed ++ "\n" ++ console.line

end Console

end Timeshare
