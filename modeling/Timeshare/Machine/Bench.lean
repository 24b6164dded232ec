import Timeshare.Journal.Journaled
import Timeshare.Machine.Cpu

/-!
# The test bench

A processor with memory, a console and an interrupt queue, but no kernel.  Processes run on it one
cycle at a time, for as long as they are told to: nothing switches between them, and the interrupts
they raise are only kept.
-/

namespace Timeshare

/-- A processor and what it works with. -/
structure Bench where
  memory : Memory
  cpu : Cpu
  console : Console
  /-- The interrupts raised so far, the first one first. -/
  interrupts : InterruptQueue

namespace Bench

/-- The bench before any process is put on it. -/
def prepared (memory : Memory) : Bench :=
  ⟨memory, .initial, .empty, []⟩

def cycle (process : Process) (bench : Bench) : Journaled (Process × Bench) := do
  let cycle := bench.cpu.cycle process bench.memory
  Journaled.emit cycle.events
  return (cycle.process, {
    memory := cycle.memory
    cpu := cycle.cpu
    console := cycle.writeTo bench.console
    interrupts := cycle.enqueueRaised bench.interrupts })

def cycles : Nat → Process → Bench → Journaled (Process × Bench)
  | 0, process, bench => return (process, bench)
  | count + 1, process, bench => do
    let (process, bench) ← bench.cycle process
    cycles count process bench

end Bench

end Timeshare
