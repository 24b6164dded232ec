import Timeshare.Journal.Note
import Timeshare.Memory.Store
import Timeshare.Text.Whitespace

/-!
# Events

What can be observed of the system beside its state and its console: the notes its parts make, and
the snapshots of machine state it shows to a monitor.  Nothing that happens depends on events.
-/

namespace Timeshare

inductive Event
  | note (told : Note)
  | registers (file : Registers) (lastInstruction : Option UInt8)
  | memory (store : ByteStore)
  /-- The processes that have not ended were shown. -/
  | processes (all : List Process)

/-- A line of the log: a severity, the source and what is said. -/
structure LogRecord where
  severity : Severity
  source : Source
  message : String

namespace LogRecord

/-- The record on one line, unless the message itself has several. -/
def text (record : LogRecord) : String :=
  s!"[{record.severity.text} {record.source.text}] {record.message}"

end LogRecord

def monitorRowSize : Nat := 8

/-- The bytes in rows of `width`, each with the address of its first byte; at most `limit` rows. -/
def rowsOf (width : Nat) : Nat → Nat → List UInt8 → List (Nat × List UInt8)
  | 0, _, _ => []
  | _ + 1, _, [] => []
  | limit + 1, address, bytes =>
    (address, bytes.take width) :: rowsOf width limit (address + width) (bytes.drop width)

namespace ByteStore

/-- The rows of `width` bytes that are not all zero, each with the address of its first byte. -/
def nonZeroRows (width : Nat) (store : ByteStore) : List (Nat × List UInt8) :=
  (rowsOf width store.size 0 store.cells.toList).filter fun row => row.2.any fun byte => byte != 0

end ByteStore

namespace Event

def snapshotRecord (message : String) : LogRecord :=
  ⟨.trace, .monitor, message⟩

/-- The lines of the log for an event.  A monitor shows its snapshots at the lowest severity. -/
def records : Event → List LogRecord
  | .note told => [⟨told.severity, told.source, told.message⟩]
  | .registers file lastInstruction => [snapshotRecord (file.text lastInstruction)]
  | .memory store =>
    (store.nonZeroRows monitorRowSize).map fun row =>
      snapshotRecord s!"{Text.hexPadded 3 row.1}: {Text.hexBytes row.2}"
  | .processes all => all.map fun process => snapshotRecord process.text

/-- Whether an event is a note of this severity or a more severe one, or a snapshot when every
severity is wanted. -/
def isWanted (least : Severity) : Event → Bool
  | .note told => told.severity.rank ≤ least.rank
  | _ => least = .trace

/-- The lines that a log of the severities down to `least` has for these events. -/
def logLines (least : Severity) (events : List Event) : List String :=
  (events.filter (isWanted least)).flatMap fun event =>
    event.records.flatMap fun record => Text.lineFeedPieces record.text

end Event

end Timeshare
