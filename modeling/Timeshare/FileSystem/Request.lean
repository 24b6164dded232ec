import Timeshare.Text.Quote

/-!
# File requests

What a program or the host may ask of the file system through an interrupt.
-/

namespace Timeshare

inductive FileRequest
  | format
  | create (name : String)
  | write (name data : String)
  | read (name : String)
  | delete (name : String)
  | list
deriving DecidableEq

namespace FileRequest

def text : FileRequest → String
  | format => "Format"
  | create name => s!"Create({Text.quoteText name})"
  | write name data =>
    s!"Write \x7b name: {Text.quoteText name}, data: {Text.quoteText data} \x7d"
  | read name => s!"Read({Text.quoteText name})"
  | delete name => s!"Delete({Text.quoteText name})"
  | list => "List"

end FileRequest

end Timeshare
