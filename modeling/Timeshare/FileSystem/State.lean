import Timeshare.DriverStatus
import Timeshare.FileSystem.Block
import Timeshare.FileSystem.Error

/-!
# The file system's state

A linked-block file system.  Track 0 holds the directory: one block per file, whose payload is the
file's name and whose pointer leads to the first content block.  The block at (0,0,0) is the master
boot record.  The content blocks on the other tracks form a chain that ends at a block pointing to
itself.

Beside the disk the file system remembers which blocks are free and which processes have a swap
file.
-/

namespace Timeshare

/-- The file system: the disk, and what is remembered about it. -/
structure FileSystem where
  disk : Disk
  status : DriverStatus
  formatted : Bool
  freeDirectory : OrderedSet Location
  freeContent : OrderedSet Location
  /-- The processes whose image lies in a swap file. -/
  swaps : OrderedSet Nat

namespace FileSystem

/-- An operation on the file system.  A failing operation keeps the state it has reached. -/
abbrev Action (α : Type) : Type :=
  ExceptT FileSystemError (StateM FileSystem) α

/-- The file system on a disk nothing is known about. -/
def onDisk (disk : Disk) : FileSystem where
  disk := disk
  status := .unloaded
  formatted := false
  freeDirectory := .empty
  freeContent := .empty
  swaps := .empty

/-- The file system on a blank disk of the geometry. -/
def blank (geometry : Geometry) : FileSystem :=
  onDisk (Disk.blank geometry)

def load (files : FileSystem) : FileSystem :=
  { files with status := .loaded }

/-- Carries an action out: its result and the state it leaves. -/
def perform {α : Type} (action : Action α) (files : FileSystem) :
    Except FileSystemError α × FileSystem :=
  Id.run ((ExceptT.run action).run files)

/-- The action that looks at the state and changes nothing. -/
def inspect {α : Type} (look : FileSystem → Except FileSystemError α) : Action α := do
  match look (← get) with
  | .ok answer => pure answer
  | .error error => throw error

end FileSystem

def bootRecordLocation : Location :=
  ⟨0, 0, 0⟩

def Location.inDirectoryTrack (location : Location) : Bool :=
  location.track == 0

/-- Whether a location can hold a directory entry: it lies on the directory's track and is not the
master boot record. -/
def Location.isDirectoryEntry (location : Location) : Bool :=
  location.inDirectoryTrack && location != bootRecordLocation

end Timeshare
