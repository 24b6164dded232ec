import Timeshare.FileSystem.Lookup

/-!
# Changing files

Formatting the disk, and creating, appending to, replacing and deleting files.  Every change is a
sequence of block writes and of moves between the sets of free blocks.
-/

namespace Timeshare

namespace FileSystem

structure Formatted where
  directory : Nat
  content : Nat
deriving DecidableEq, Repr

def writeBlock (block : Block) : Action Unit := do
  let onDisk ← modifyGet fun files =>
    match files.disk.write? block.location block.encode with
    | some disk => (true, { files with disk := disk })
    | none => (false, files)
  if onDisk then pure () else throw (.invalidLocation block.location)

def bootRecord : Block :=
  (Block.occupied bootRecordLocation).fill (Text.utf8Bytes "MBR")

/-- Frees every block of the disk but the master boot record and forgets all files. -/
def format : Action Formatted := do
  let locations := (← get).disk.geometry.locations
  locations.forM fun location => writeBlock (Block.available location)
  writeBlock bootRecord
  let directory := locations.filter Location.isDirectoryEntry
  let content := locations.filter fun location => !location.inDirectoryTrack
  modify fun files =>
    { files with
      freeDirectory := .ofList directory
      freeContent := .ofList content
      swaps := .empty
      formatted := true }
  return ⟨directory.length, content.length⟩

def claimDirectoryBlock : Action Location := do
  let claimed ← modifyGet fun files =>
    match files.freeDirectory.popFirst? with
    | some (location, rest) => (some location, { files with freeDirectory := rest })
    | none => (none, files)
  match claimed with
  | some location => pure location
  | none => throw .noAvailableSpace

/-- Takes the first free content block.  On disk it still is as it was when it became free. -/
def claimContentBlock : Action Block := do
  let claimed ← modifyGet fun files =>
    match files.freeContent.popFirst? with
    | some (location, rest) => (some location, { files with freeContent := rest })
    | none => (none, files)
  match claimed with
  | some location => pure (Block.occupied location)
  | none => throw .noAvailableSpace

/-- Clears the blocks and gives them back as free content blocks. -/
def releaseBlocks (blocks : List Block) : Action Unit :=
  blocks.forM fun block => do
    writeBlock (Block.available block.location)
    modify fun files =>
      { files with freeContent := files.freeContent.insert block.location }

/-- Refuses a name that cannot be given to a new file. -/
def checkNewName (name : String) (files : FileSystem) : Except FileSystemError Unit := do
  files.requireFormatted
  if name.isEmpty then .error (.invalidName name)
  else if contentSize < (Text.utf8Bytes name).length then .error (.nameTooLong name)
  else
    match ← files.findEntry name with
    | some _ => .error (.fileAlreadyExists name)
    | none => .ok ()

/-- Creates the empty file `name`.  Returns where its directory entry lies. -/
def createFile (name : String) : Action Location := do
  inspect (checkNewName name)
  let location ← claimDirectoryBlock
  writeBlock ((Block.occupied location).fill (Text.utf8Bytes name))
  return location

/-- Writes `current` and, in blocks claimed one after the other and linked to it, the further
stretches of a file. -/
def extendChain (current : Block) : List (List UInt8) → Action Unit
  | [] => writeBlock current
  | stretch :: rest => do
    let next ← claimContentBlock
    writeBlock { current with pointer := next.location }
    extendChain (next.fill stretch) rest

/-- The block that the next byte of a file goes to: the last of its chain or, for an empty file, a
new one that the directory entry is made to point to. -/
def tailBlock (entry : Block) (chain : List Block) : Action Block :=
  match chain.getLast? with
  | some tail => pure tail
  | none => do
    let first ← claimContentBlock
    writeBlock { entry with pointer := first.location }
    return first

/-- The number of blocks to claim before `data` fits behind a chain. -/
def blocksNeeded (chain : List Block) (data : List UInt8) : Nat :=
  match chain.getLast? with
  | some tail => blocksFor (data.length - tail.room)
  | none => blocksFor data.length

def appendToFile (name : String) (data : List UInt8) : Action Unit := do
  let (entry, chain) ← inspect (openFile name)
  if (← get).freeContent.size < blocksNeeded chain data then throw .noAvailableSpace
  else if data.isEmpty then pure ()
  else
    let tail ← tailBlock entry chain
    let rest := tail.overflow data
    extendChain (tail.fill data) (stretches (blocksFor rest.length) rest)

def writeFile (name : String) (data : List UInt8) : Action Unit := do
  let (entry, chain) ← inspect (openFile name)
  if (← get).freeContent.size + chain.length < blocksFor data.length then
    throw .noAvailableSpace
  else
    releaseBlocks chain
    writeBlock { entry with pointer := entry.location }
    appendToFile name data

/-- Deletes the file `name`.  Returns the number of content blocks it had. -/
def deleteFile (name : String) : Action Nat := do
  let (entry, chain) ← inspect (openFile name)
  releaseBlocks chain
  writeBlock (Block.available entry.location)
  modify fun files =>
    { files with freeDirectory := files.freeDirectory.insert entry.location }
  return chain.length

end FileSystem

end Timeshare
