import Timeshare.FileSystem.State
import Timeshare.Text.Utf8

/-!
# Reading files

Finding a file in the directory, following its chain of content blocks, and reading its bytes.
Nothing here changes the disk.
-/

namespace Timeshare

namespace FileSystem

def requireFormatted (files : FileSystem) : Except FileSystemError Unit :=
  if files.formatted then .ok () else .error .notFormatted

def readBlock (files : FileSystem) (location : Location) : Except FileSystemError Block :=
  match files.disk.read? location with
  | some raw => .ok (Block.decode location raw)
  | none => .error (.invalidLocation location)

/-- The directory entries in use, in the order of their locations. -/
def directoryBlocks (files : FileSystem) : Except FileSystemError (List Block) := do
  let entries ← (files.disk.geometry.locations.filter Location.isDirectoryEntry).mapM
    files.readBlock
  return entries.filter fun entry => entry.state = .occupied

def findEntry (name : String) (files : FileSystem) : Except FileSystemError (Option Block) := do
  let entries ← files.directoryBlocks
  return entries.find? fun entry => entry.payload = Text.utf8Bytes name

def requireEntry (name : String) (files : FileSystem) : Except FileSystemError Block := do
  match ← files.findEntry name with
  | some entry => .ok entry
  | none => .error (.fileNotFound name)

/-- The blocks that follow `current` in its chain, at most `hops` of them.  A longer chain is
corrupt; `directory` names it in the error. -/
def chainFrom (files : FileSystem) (directory : Location) :
    Nat → Block → Except FileSystemError (List Block)
  | hops, current =>
    if current.isTerminus then .ok []
    else
      match hops with
      | 0 => .error (.corruptChain directory)
      | hops + 1 => do
        let next ← files.readBlock current.pointer
        let rest ← chainFrom files directory hops next
        return next :: rest

/-- The content blocks of a directory entry, in order.  A chain with more blocks than the disk has
never ends. -/
def walkChain (files : FileSystem) (entry : Block) : Except FileSystemError (List Block) :=
  files.chainFrom entry.location files.disk.geometry.capacity entry

/-- A file of a formatted disk: its directory entry and its content blocks. -/
def openFile (name : String) (files : FileSystem) :
    Except FileSystemError (Block × List Block) := do
  files.requireFormatted
  let entry ← files.requireEntry name
  let chain ← files.walkChain entry
  return (entry, chain)

def readBytes (name : String) (files : FileSystem) : Except FileSystemError (List UInt8) := do
  let (_, chain) ← files.openFile name
  return chain.flatMap Block.payload

def readText (name : String) (files : FileSystem) : Except FileSystemError String := do
  let bytes ← files.readBytes name
  return Text.decodeLossy bytes

/-- Whether a name belongs to the kernel: it starts with a dot. -/
def isReserved (name : String) : Bool :=
  name.toList.head? = some '.'

/-- The names of the files that do not belong to the kernel, in the order of their directory
entries. -/
def userFiles (files : FileSystem) : Except FileSystemError (List String) := do
  files.requireFormatted
  let entries ← files.directoryBlocks
  return (entries.map fun entry => Text.decodeLossy entry.payload).filter fun name =>
    !isReserved name

end FileSystem

end Timeshare
