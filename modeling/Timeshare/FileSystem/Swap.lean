import Timeshare.FileSystem.Update

/-!
# Swap files

The image of a process that is not in memory lies in a file of the kernel's own.  Which processes
have one is remembered beside the directory.
-/

namespace Timeshare

namespace FileSystem

/-- A swap file that was written: its name and where its directory entry lies. -/
structure SwapStored where
  name : String
  entry : Location

/-- A swap file that was read back and deleted: its name, its bytes and the number of content
blocks it had. -/
structure SwapFetched where
  name : String
  image : List UInt8
  blocks : Nat

def swapName (pid : Nat) : String :=
  s!".swap{pid}"

def hasSwap (files : FileSystem) (pid : Nat) : Bool :=
  files.swaps.contains pid

/-- Refuses an image that the free blocks cannot take. -/
def checkSwapSpace (image : List UInt8) (files : FileSystem) : Except FileSystemError Unit := do
  files.requireFormatted
  if files.freeDirectory.isEmpty || files.freeContent.size < blocksFor image.length then
    .error .noAvailableSpace
  else .ok ()

/-- Writes the image of a process to its swap file.  The file is deleted again when the image
cannot be appended to it. -/
def storeSwap (pid : Nat) (image : List UInt8) : Action SwapStored := do
  inspect (checkSwapSpace image)
  let name := swapName pid
  let entry ← createFile name
  tryCatch (appendToFile name image) fun error => do
    let _ ← deleteFile name
    throw error
  modify fun files => { files with swaps := files.swaps.insert pid }
  return ⟨name, entry⟩

/-- Reads the image of a process back from its swap file and deletes the file. -/
def deleteSwap (pid : Nat) : Action SwapFetched := do
  if (← get).hasSwap pid then
    let name := swapName pid
    let image ← inspect (readBytes name)
    let blocks ← deleteFile name
    modify fun files => { files with swaps := files.swaps.erase pid }
    return ⟨name, image, blocks⟩
  else throw (.noActiveSwap pid)

end FileSystem

end Timeshare
