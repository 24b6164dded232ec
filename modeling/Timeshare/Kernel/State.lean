import Timeshare.FileSystem.Service
import Timeshare.Kernel.Config
import Timeshare.Keyboard
import Timeshare.System.Dispatch

/-!
# The kernel

The kernel routes interrupts to the system and to the device drivers.  Its clock counts pulses.
-/

namespace Timeshare

/-- The kernel: the system and the keyboard it manages, the pending interrupts, the console, the
clock, and whether it runs. -/
structure Kernel where
  system : System
  keyboard : Keyboard
  interrupts : InterruptQueue
  console : Console
  clock : Nat
  running : Bool

namespace Kernel

def create (config : Config) : Kernel where
  system :=
    .initial (.divided config.memorySize config.segmentCount) (.blank config.disk)
      (.start config.schedule config.quantum)
  keyboard := .unloaded
  interrupts := []
  console := .empty
  clock := 0
  running := false

def say (message : String) (kernel : Kernel) : Kernel :=
  { kernel with console := kernel.console.putSystemText message }

def enqueue (interrupt : Interrupt) (kernel : Kernel) : Kernel :=
  { kernel with interrupts := kernel.interrupts.enqueue interrupt }

/-- Whether there is nothing left to do: no interrupt is pending and no process waits for the
processor. -/
def isIdle (kernel : Kernel) : Bool :=
  kernel.interrupts.isEmpty && kernel.system.isIdle

/-- Formats the disk at boot.  A failure is only noted. -/
def formatDisk (kernel : Kernel) : Journaled Kernel :=
  match FileSystem.perform FileSystem.format kernel.system.files with
  | (.ok report, files) => do
    Journaled.emit report.events
    return { kernel with system := { kernel.system with files } }
  | (.error error, files) => do
    Journaled.tell (.formatFailed error)
    return { kernel with system := { kernel.system with files } }

/-- Loads the drivers, formats the disk if asked to, and starts the clock. -/
def bootstrap (format : Bool) (kernel : Kernel) : Journaled Kernel := do
  Journaled.tell .bootstrap
  let cpu := kernel.system.cpu.boot
  Journaled.emit [cpu.snapshot, .note .keyboardLoaded]
  let kernel := { kernel with
    system := { kernel.system with cpu, files := kernel.system.files.load }
    keyboard := kernel.keyboard.load }
  let kernel ← if format then kernel.formatDisk else pure kernel
  return { kernel with running := true }

def shutdown (kernel : Kernel) : Journaled Kernel := do
  Journaled.tell (.shutdown kernel.clock)
  return { kernel with
    system := { kernel.system with cpu := kernel.system.cpu.setExecuting false }
    running := false }

def setSchedule (schedule : Schedule) (kernel : Kernel) : Journaled Kernel := do
  Journaled.tell (.scheduleSet schedule)
  return { kernel with system := kernel.system.setSchedule schedule }

def setQuantum (quantum : Nat) (kernel : Kernel) : Kernel :=
  { kernel with
    system := { kernel.system with policy := kernel.system.policy.setQuantum quantum } }

/-- The keystrokes kept by the keyboard, and the kernel without them. -/
def takeInput (kernel : Kernel) : String × Kernel :=
  let (input, keyboard) := kernel.keyboard.takeInput
  (input, { kernel with keyboard })

end Kernel

end Timeshare
