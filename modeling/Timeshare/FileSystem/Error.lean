import Timeshare.Disk.Location
import Timeshare.Text.Quote

/-!
# File system errors
-/

namespace Timeshare

/-- Why a file system operation was refused or could not be carried out. -/
inductive FileSystemError
  | notFormatted
  | fileNotFound (name : String)
  | fileAlreadyExists (name : String)
  | noAvailableSpace
  /-- The name is empty, so no directory entry can hold it. -/
  | invalidName (name : String)
  /-- The name does not fit into a directory entry. -/
  | nameTooLong (name : String)
  /-- The name belongs to the kernel: it starts with a dot. -/
  | reservedName (name : String)
  /-- The block chain of the directory entry at this location never ends. -/
  | corruptChain (directory : Location)
  | noActiveSwap (pid : Nat)
  /-- The location is off the disk, or nothing was written there. -/
  | invalidLocation (location : Location)
deriving DecidableEq, Repr

namespace FileSystemError

def message : FileSystemError → String
  | notFormatted => "The disk is not formatted"
  | fileNotFound name => s!"File {name} does not exist"
  | fileAlreadyExists name => s!"File {name} already exists"
  | noAvailableSpace => "No available space on disk"
  | invalidName name => s!"File name {Text.quoteText name} is not valid"
  | nameTooLong name => s!"File name {name} is too long"
  | reservedName name => s!"File name {name} is reserved"
  | corruptChain directory => s!"Block chain starting at {directory.text} never terminates"
  | noActiveSwap pid => s!"Process {pid} has no swap file on disk"
  | invalidLocation location => s!"Disk location {location.text} does not exist"

end FileSystemError

end Timeshare
