import Timeshare.FileSystem.Service
import Timeshare.Journal.Event
import Timeshare.Memory.Partitioned

/-!
# What operations report

The events to be observed of operations of memory and of the file system that were carried out.
Those that were refused are silent.
-/

namespace Timeshare

def Placement.events (placement : Placement) : List Event :=
  [.note (.placed placement.process.pid placement.index placement.segment)]

namespace FileSystem

def Formatted.events (report : Formatted) : List Event :=
  [.note (.formatted report.directory report.content)]

/-- A file was created with its directory entry at `entry`. -/
def createdEvents (name : String) (entry : Location) : List Event :=
  [.note (.created name entry)]

/-- A file of so many content blocks was deleted. -/
def deletedEvents (name : String) (blocks : Nat) : List Event :=
  [.note (.deleted name blocks)]

/-- A swap file was created and an image of so many bytes was written to it. -/
def SwapStored.events (stored : SwapStored) (pid bytes : Nat) : List Event :=
  createdEvents stored.name stored.entry ++ [.note (.swapWritten bytes pid stored.name)]

def SwapFetched.events (fetched : SwapFetched) (pid : Nat) : List Event :=
  deletedEvents fetched.name fetched.blocks ++ [.note (.swapRead pid fetched.name)]

end FileSystem

def FileReply.events : FileReply → List Event
  | .formatted report => report.events
  | .created name entry => FileSystem.createdEvents name entry
  | .written _ => []
  | .contents _ => []
  | .deleted name blocks => FileSystem.deletedEvents name blocks
  | .listing _ => []

end Timeshare
