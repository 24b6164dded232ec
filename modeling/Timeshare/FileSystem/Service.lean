import Timeshare.FileSystem.Request
import Timeshare.FileSystem.Swap

/-!
# Serving file requests

Requests reach only the files of users.  A name that starts with a dot belongs to the kernel and is
refused before the disk is looked at.
-/

namespace Timeshare

/-- What the file system answers to a request it carried out. -/
inductive FileReply
  | formatted (report : FileSystem.Formatted)
  | created (name : String) (entry : Location)
  | written (name : String)
  | contents (text : String)
  | deleted (name : String) (blocks : Nat)
  | listing (names : List String)
deriving DecidableEq, Repr

namespace FileReply

def text : FileReply → String
  | formatted _ => "Formatted disk."
  | created name _ => s!"Created file {name}."
  | written name => s!"Wrote to file {name}."
  | contents text => text
  | deleted name _ => s!"Deleted file {name}."
  | listing [] => "No files on disk."
  | listing names => " ".intercalate names

end FileReply

namespace FileSystem

/-- Refuses the names that requests cannot reach: the empty one and those of the kernel. -/
def checkUserName (name : String) : Except FileSystemError Unit :=
  if name.isEmpty then .error (.invalidName name)
  else if isReserved name then .error (.reservedName name)
  else .ok ()

def serve : FileRequest → Action FileReply
  | .format => do
    let report ← format
    return .formatted report
  | .create name => do
    inspect fun _ => checkUserName name
    let entry ← createFile name
    return .created name entry
  | .write name data => do
    inspect fun _ => checkUserName name
    writeFile name (Text.utf8Bytes data)
    return .written name
  | .read name => do
    inspect fun _ => checkUserName name
    let text ← inspect (readText name)
    return .contents text
  | .delete name => do
    inspect fun _ => checkUserName name
    let blocks ← deleteFile name
    return .deleted name blocks
  | .list => do
    let names ← inspect userFiles
    return .listing names

end FileSystem

end Timeshare
