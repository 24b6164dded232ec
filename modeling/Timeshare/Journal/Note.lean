import Timeshare.Interrupt
import Timeshare.Machine.Fault
import Timeshare.Machine.Instruction
import Timeshare.Policy
import Timeshare.Process
import Timeshare.System.Error

/-!
# Notes

What the parts of the system have to tell while they work.  A note has a severity and a source, so
that a reader can choose what to see.
-/

namespace Timeshare

/-- How much a note matters, the most severe first. -/
inductive Severity
  | error
  | warn
  | info
  | debug
  | trace
deriving DecidableEq

namespace Severity

/-- The place of a severity in the order, the most severe at zero. -/
def rank : Severity → Nat
  | error => 0
  | warn => 1
  | info => 2
  | debug => 3
  | trace => 4

def text : Severity → String
  | error => "ERROR"
  | warn => "WARN"
  | info => "INFO"
  | debug => "DEBUG"
  | trace => "TRACE"

end Severity

/-- The part of the system a note comes from. -/
inductive Source
  | kernel
  | processor
  | memory
  | fileSystem
  | shortTerm
  | longTerm
  | keyboard
  | host
  | monitor
deriving DecidableEq

namespace Source

def text : Source → String
  | kernel => "accumulator_os_simulator::kernel::os"
  | processor => "accumulator_os_simulator::kernel::cpu"
  | memory => "accumulator_os_simulator::kernel::memory_manager"
  | fileSystem => "accumulator_os_simulator::kernel::file_system"
  | shortTerm => "accumulator_os_simulator::kernel::short_term_scheduler"
  | longTerm => "accumulator_os_simulator::kernel::long_term_scheduler"
  | keyboard => "accumulator_os_simulator::kernel::keyboard"
  | host => "accumulator_os_simulator::kernel::driver"
  | monitor => "monitor"

end Source

/-- Something a part of the system has to tell. -/
inductive Note
  | bootstrap
  | formatFailed (error : FileSystemError)
  /-- The kernel stops at this tick. -/
  | shutdown (tick : Nat)
  | idle
  | handling (interrupt : Interrupt)
  /-- A process that has ended is to be ended again. -/
  | alreadyTerminated (pid : Nat)
  /-- A more urgent process was admitted than the one that runs. -/
  | preempting
  /-- These resident processes were dropped from memory. -/
  | dropped (pids : List Nat)
  /-- The running process after a context switch. -/
  | switchedTo (pid : Option Nat)
  /-- The kernel cannot go on. -/
  | trap (message : String)
  | scheduleSet (schedule : Schedule)
  | cycle
  | executing (pid : Nat) (instruction : Instruction)
  /-- An instruction of a process was aborted. -/
  | faulted (pid : Nat) (fault : Fault)
  /-- The image of a process was put into a segment. -/
  | placed (pid index : Nat) (segment : Segment)
  /-- The disk was formatted, with these numbers of free blocks. -/
  | formatted (directory content : Nat)
  | created (name : String) (entry : Location)
  | deleted (name : String) (blocks : Nat)
  /-- The image of a process was written to its swap file. -/
  | swapWritten (bytes pid : Nat) (name : String)
  /-- The image of a process was read back from its swap file. -/
  | swapRead (pid : Nat) (name : String)
  | rollInFailed (pid : Nat) (cause : TransferError)
  | dispatching (pid : Nat)
  /-- There is no other process to switch to. -/
  | switchSkipped
  | switchingOut (pid : Nat)
  | terminated (pid : Nat)
  | swapNotDeleted (pid : Nat) (error : FileSystemError)
  /-- A process was admitted. -/
  | resident (pid : Nat) (residence : Residence)
  | rolledIn (pid : Nat)
  | rolledOut (pid : Nat)
  | keyboardLoaded
  | key (character : Char)
  /-- A job waits to be admitted. -/
  | jobQueued (bytes : Nat)

namespace Note

def severity : Note → Severity
  | bootstrap => .info
  | formatFailed _ => .error
  | shutdown _ => .info
  | idle => .trace
  | handling _ => .trace
  | alreadyTerminated _ => .debug
  | preempting => .debug
  | dropped _ => .debug
  | switchedTo _ => .debug
  | trap _ => .error
  | scheduleSet _ => .info
  | cycle => .trace
  | executing _ _ => .trace
  | faulted _ _ => .warn
  | placed _ _ _ => .debug
  | formatted _ _ => .info
  | created _ _ => .debug
  | deleted _ _ => .debug
  | swapWritten _ _ _ => .debug
  | swapRead _ _ => .debug
  | rollInFailed _ _ => .warn
  | dispatching _ => .debug
  | switchSkipped => .trace
  | switchingOut _ => .debug
  | terminated _ => .info
  | swapNotDeleted _ _ => .warn
  | resident _ _ => .info
  | rolledIn _ => .debug
  | rolledOut _ => .debug
  | keyboardLoaded => .debug
  | key _ => .trace
  | jobQueued _ => .debug

def source : Note → Source
  | bootstrap => .kernel
  | formatFailed _ => .kernel
  | shutdown _ => .kernel
  | idle => .kernel
  | handling _ => .kernel
  | alreadyTerminated _ => .kernel
  | preempting => .kernel
  | dropped _ => .kernel
  | switchedTo _ => .kernel
  | trap _ => .kernel
  | scheduleSet _ => .kernel
  | cycle => .processor
  | executing _ _ => .processor
  | faulted _ _ => .processor
  | placed _ _ _ => .memory
  | formatted _ _ => .fileSystem
  | created _ _ => .fileSystem
  | deleted _ _ => .fileSystem
  | swapWritten _ _ _ => .fileSystem
  | swapRead _ _ => .fileSystem
  | rollInFailed _ _ => .shortTerm
  | dispatching _ => .shortTerm
  | switchSkipped => .shortTerm
  | switchingOut _ => .shortTerm
  | terminated _ => .shortTerm
  | swapNotDeleted _ _ => .shortTerm
  | resident _ _ => .longTerm
  | rolledIn _ => .longTerm
  | rolledOut _ => .longTerm
  | keyboardLoaded => .keyboard
  | key _ => .keyboard
  | jobQueued _ => .host

/-- A list of numbers as notes show it. -/
def listText (numbers : List Nat) : String :=
  "[" ++ ", ".intercalate (numbers.map toString) ++ "]"

def message : Note → String
  | bootstrap => "Kernel bootstrap"
  | formatFailed error => s!"Could not format disk: {error.message}"
  | shutdown tick => s!"Kernel shutdown at tick {tick}"
  | idle => "Idle"
  | handling interrupt => s!"Handling IRQ~{interrupt.text}"
  | alreadyTerminated pid => s!"Process {pid} already terminated"
  | preempting => "Preempting process for a more urgent one"
  | dropped pids => s!"Dropped resident processes {listText pids}"
  | switchedTo pid => s!"Context switch to process {Interrupt.optionText pid}"
  | trap message => s!"Kernel trap: {message}"
  | scheduleSet schedule => s!"Schedule set to {schedule.text}"
  | cycle => "CPU cycle"
  | executing pid instruction => s!"Process {pid} executing {instruction.text}"
  | faulted pid fault => s!"Process {pid} faulted: {fault.message}"
  | placed pid index segment =>
    s!"Loaded process {pid} into segment {index} " ++
      s!"({Text.hexPadded 3 segment.base}-{Text.hexPadded 3 segment.limit})"
  | formatted directory content =>
    s!"Formatted disk: {directory} directory blocks, {content} content blocks"
  | created name entry => s!"Created file {name} at {entry.text}"
  | deleted name blocks => s!"Deleted file {name} ({blocks} content blocks)"
  | swapWritten bytes pid name => s!"Wrote {bytes} bytes of process {pid} to {name}"
  | swapRead pid name => s!"Read back process {pid} from {name}"
  | rollInFailed pid cause => s!"Could not roll in process {pid}: {cause.message}"
  | dispatching pid => s!"Dispatching process {pid}"
  | switchSkipped => "Context switch skipped, no other process is ready"
  | switchingOut pid => s!"Switching out process {pid}"
  | terminated pid => s!"Process {pid} terminated"
  | swapNotDeleted pid error =>
    s!"Could not delete swap file of process {pid}: {error.message}"
  | resident pid residence => s!"Process {pid} resident on {residence.text}"
  | rolledIn pid => s!"Rolled in process {pid}"
  | rolledOut pid => s!"Rolled out process {pid}"
  | keyboardLoaded => "Keyboard driver loaded"
  | key character => s!"Key {Text.quoteCharacter character}"
  | jobQueued bytes => s!"Queueing job of {bytes} bytes"

end Note

end Timeshare
