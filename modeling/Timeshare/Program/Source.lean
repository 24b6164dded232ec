import Timeshare.Text.Numeral
import Timeshare.Text.Quote
import Timeshare.Text.Whitespace

/-!
# Program text

A program is written as its bytes, each a token of two hexadecimal digits of either case, laid out
with any white space.
-/

namespace Timeshare

/-- Why program text or a job file was refused. -/
inductive ProgramError
  /-- A token that is not two hexadecimal digits. -/
  | invalidToken (token : String)
  /-- A job card whose priority is no hexadecimal number. -/
  | invalidJobCard (card : String)
deriving DecidableEq, Repr

namespace ProgramError

def message : ProgramError → String
  | invalidToken token =>
    s!"Invalid program token {Text.quoteText token}: expected two hex digits"
  | invalidJobCard card => s!"Invalid JOB control card: {card}"

end ProgramError

namespace ProgramText

def byteOf (token : String) : Except ProgramError UInt8 :=
  match token.toList with
  | [high, low] =>
    match Text.digitValue? high, Text.digitValue? low with
    | some highValue, some lowValue => .ok (UInt8.ofNat (highValue * 16 + lowValue))
    | _, _ => .error (.invalidToken token)
  | _ => .error (.invalidToken token)

/-- The tokens of a program text, in upper case. -/
def tokens (text : String) : Except ProgramError (List String) :=
  (Text.words text).mapM fun token => do
    let _ ← byteOf token
    return String.ofList (token.toList.map Char.toUpper)

def parse (text : String) : Except ProgramError (List UInt8) :=
  (Text.words text).mapM byteOf

/-- The text of a program in upper case with a space between each two bytes. -/
def render (bytes : List UInt8) : String :=
  Text.hexBytes bytes

end ProgramText

end Timeshare
