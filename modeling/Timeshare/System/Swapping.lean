import Timeshare.Collections.SplitLast
import Timeshare.FileSystem.Swap
import Timeshare.Journal.Journaled
import Timeshare.Journal.Reports
import Timeshare.System.State

/-!
# Admission and swapping

Programs are admitted into memory, or to disk when memory is full.  A process that is to run but
lies on disk is brought into memory; if memory is full another one is moved to disk to make room.
-/

namespace Timeshare

namespace System

/-- Registers a new process whose image has been given a place.  Returns its number. -/
def register (process : Process) (system : System) :
    Journaled (Except TransferError Nat × System) := do
  Journaled.tell
    (.resident process.pid (if system.memory.isResident process.pid then .memory else .disk))
  return (.ok process.pid, { system with
    nextPid := system.nextPid + 1
    resident := system.resident ++ [{ process with phase := .resident }] })

/-- Admits a program as a resident process: into memory or, when every segment is occupied, to disk.
Returns the number of the process. -/
def enroll (program : List UInt8) (priority : Nat) (system : System) :
    Journaled (Except TransferError Nat × System) :=
  let pid := system.nextPid
  if system.memory.isFull then
    let image := program.take system.memory.segmentSize
    match FileSystem.perform (FileSystem.storeSwap pid image) system.files with
    | (.error error, files) => return (.error (.files error), { system with files })
    | (.ok stored, files) => do
      Journaled.emit (stored.events pid image.length)
      register { Process.create pid priority with residence := some .disk }
        { system with files }
  else
    match system.memory.load program pid priority with
    | .error error => return (.error (.memory error), system)
    | .ok placement => do
      Journaled.emit placement.events
      register placement.process { system with memory := placement.memory }

/-- Moves the image of `victim` from memory to its swap file.  If the disk cannot take it, it is put
back.  Returns the process as it is afterwards. -/
def rollOut (victim : Process) (system : System) :
    Journaled (Except TransferError Unit × Process × System) :=
  match system.memory.withdraw victim with
  | .error error => return (.error (.memory error), victim, system)
  | .ok withdrawal =>
    let pid := victim.pid
    let image := withdrawal.image
    match FileSystem.perform (FileSystem.storeSwap pid image) system.files with
    | (.ok stored, files) => do
      Journaled.emit (stored.events pid image.length)
      Journaled.tell (.rolledOut pid)
      return (.ok (), { withdrawal.process with residence := some .disk },
        { system with memory := withdrawal.memory, files })
    | (.error error, files) =>
      match withdrawal.memory.place withdrawal.process image with
      | .ok placement => do
        Journaled.emit placement.events
        return (.error (.files error), placement.process,
          { system with memory := placement.memory, files })
      | .error error =>
        return (.error (.memory error), withdrawal.process,
          { system with memory := withdrawal.memory, files })

/-- Moves one process to disk: the last one in memory of the ready queue or, if the queue has none,
the one with the highest number of the resident ones in memory. -/
def makeRoom (system : System) : Journaled (Except TransferError Unit × System) :=
  match splitLast? Process.isInMemory system.ready with
  | some (before, victim, after) => do
    let (result, victim, system) ← rollOut victim system
    return (result, { system with ready := before ++ victim :: after })
  | none =>
    match splitLast? Process.isInMemory system.resident with
    | some (before, victim, after) => do
      let (result, victim, system) ← rollOut victim system
      return (result, { system with resident := before ++ victim :: after })
    | none => return (.error (.memory .outOfMemory), system)

/-- Reads the image of a process from its swap file into a vacant segment.  Returns the process as
it is afterwards. -/
def fetchImage (process : Process) (system : System) :
    Journaled (Except TransferError Process × System) :=
  match FileSystem.perform (FileSystem.deleteSwap process.pid) system.files with
  | (.error error, files) => return (.error (.files error), { system with files })
  | (.ok fetched, files) => do
    Journaled.emit (fetched.events process.pid)
    match system.memory.place process fetched.image with
    | .error error => return (.error (.memory error), { system with files })
    | .ok placement =>
      Journaled.emit placement.events
      Journaled.tell (.rolledIn process.pid)
      return (.ok placement.process, { system with memory := placement.memory, files })

/-- Brings a process into memory if it lies on disk, making room if memory is full.  Returns the
process as it is afterwards. -/
def rollIn (process : Process) (system : System) :
    Journaled (Except TransferError Process × System) :=
  if !process.isOnDisk then return (.ok process, system)
  else if system.memory.isFull then do
    let (room, system) ← makeRoom system
    match room with
    | .error error => return (.error error, system)
    | .ok () => fetchImage process system
  else fetchImage process system

end System

end Timeshare
