import Timeshare.Console
import Timeshare.Interrupt
import Timeshare.Journal.Event
import Timeshare.Machine.Fault
import Timeshare.Machine.Instruction
import Timeshare.Memory.Partitioned

/-!
# The processor

One cycle fetches, decodes and executes one instruction of a process, which reaches memory only
through its segment.  An instruction that completes leaves its registers with the process.  One that
ends the program, or is aborted, changes neither memory nor what the process has kept: it clears the
processor and raises an interrupt, for the kernel to act on later.
-/

namespace Timeshare

structure Cpu where
  registers : Registers
  lastInstruction : Option UInt8
  /-- Whether the processor is at work for some process. -/
  executing : Bool
deriving DecidableEq

/-- What an instruction that goes on with the program has done: the registers it leaves, before the
program counter moves on to the next instruction, the memory, and what it has printed. -/
structure Effect where
  registers : Registers
  memory : Memory
  printed : Option String

inductive Outcome
  | completed
  | halted
  | faulted (fault : Fault)
deriving DecidableEq

/-- A cycle that was run: the processor, the process and the memory after it, how it ended, what it
printed, and the instruction if it could be fetched with all its operands. -/
structure Cycle where
  cpu : Cpu
  process : Process
  memory : Memory
  outcome : Outcome
  printed : Option String
  instruction : Option Instruction

namespace Cpu

def initial : Cpu :=
  ⟨.cleared, none, false⟩

def reset (cpu : Cpu) : Cpu :=
  { cpu with registers := .cleared, lastInstruction := none }

/-- Clears the processor when the kernel boots. -/
def boot (cpu : Cpu) : Cpu :=
  { cpu.reset with executing := false }

def setExecuting (executing : Bool) (cpu : Cpu) : Cpu :=
  { cpu with executing := executing }

/-- The snapshot of the processor that a monitor sees. -/
def snapshot (cpu : Cpu) : Event :=
  .registers cpu.registers cpu.lastInstruction

/-- The process with the registers of the processor. -/
def saveInto (cpu : Cpu) (process : Process) : Process :=
  { process with registers := cpu.registers, lastInstruction := cpu.lastInstruction }

/-- The processor with the registers of the process. -/
def restoreFrom (cpu : Cpu) (process : Process) : Cpu :=
  { cpu with registers := process.registers, lastInstruction := process.lastInstruction }

/-- A byte of the process, a failing access being a fault. -/
def readByte (memory : Memory) (process : Process) (address : Nat) : Except Fault UInt8 :=
  (memory.read process address).mapError .memory

/-- The memory with a byte of the process changed, a failing access being a fault. -/
def writeByte (memory : Memory) (process : Process) (address : Nat) (byte : UInt8) :
    Except Fault Memory :=
  (memory.write process address byte).mapError .memory

/-- The bytes that follow the one at `counter`, as many as asked for, and the address of the last of
them.  Addresses wrap around after 255. -/
def fetchOperands (memory : Memory) (process : Process) :
    Nat → UInt8 → Except Fault (List UInt8 × UInt8)
  | 0, counter => .ok ([], counter)
  | count + 1, counter => do
    let operand ← readByte memory process (counter + 1).toNat
    let (rest, last) ← fetchOperands memory process count (counter + 1)
    return (operand :: rest, last)

/-- The instruction at `counter` and the address of its last byte. -/
def fetch (memory : Memory) (process : Process) (counter : UInt8) :
    Except Fault (Instruction × UInt8) := do
  let code ← readByte memory process counter.toNat
  match Opcode.find? code with
  | none => .error (.unknownOpcode code)
  | some opcode =>
    let (operands, last) ← fetchOperands memory process opcode.operands counter
    return (.ofOperands opcode operands, last)

/-- The characters of the process from `address` up to the next zero byte.  Every step reads a
further byte of the segment, so with the segment's length as the limit the end of the segment is
reached, and faults, before the limit is. -/
def readString (memory : Memory) (process : Process) :
    Nat → Nat → Except Fault (List Char)
  | limit, address => do
    let byte ← readByte memory process address
    if byte = 0 then .ok []
    else
      match limit with
      | 0 => .error (.memory (.segmentationFault process.pid (address + 1)))
      | limit + 1 => do
        let rest ← readString memory process limit (address + 1)
        return Char.ofNat byte.toNat :: rest

def stringLimit (process : Process) : Nat :=
  match process.segment with
  | some segment => segment.length
  | none => 0

/-- Executes an instruction; `none` when it ends the program. -/
def execute (instruction : Instruction) (memory : Memory) (process : Process)
    (registers : Registers) : Except Fault (Option Effect) :=
  match instruction.opcode.operation with
  | .halt => .ok none
  | .loadAccConstant =>
    .ok (some ⟨{ registers with accumulator := instruction.constant }, memory, none⟩)
  | .loadAccMemory => do
    let value ← readByte memory process instruction.address
    return some ⟨{ registers with accumulator := value }, memory, none⟩
  | .storeAcc => do
    let memory ← writeByte memory process instruction.address registers.accumulator
    return some ⟨registers, memory, none⟩
  | .addWithCarry => do
    let value ← readByte memory process instruction.address
    return some ⟨{ registers with accumulator := registers.accumulator + value }, memory, none⟩
  | .loadXConstant => .ok (some ⟨{ registers with x := instruction.constant }, memory, none⟩)
  | .loadXMemory => do
    let value ← readByte memory process instruction.address
    return some ⟨{ registers with x := value }, memory, none⟩
  | .loadYConstant => .ok (some ⟨{ registers with y := instruction.constant }, memory, none⟩)
  | .loadYMemory => do
    let value ← readByte memory process instruction.address
    return some ⟨{ registers with y := value }, memory, none⟩
  | .noOperation => .ok (some ⟨registers, memory, none⟩)
  | .compareX => do
    let value ← readByte memory process instruction.address
    return some ⟨{ registers with zero := if value = registers.x then 1 else 0 }, memory, none⟩
  | .branchNotEqual =>
    let target := registers.programCounter + instruction.constant
    if registers.zero = 0 then
      .ok (some ⟨{ registers with programCounter := target }, memory, none⟩)
    else .ok (some ⟨registers, memory, none⟩)
  | .increment => do
    let value ← readByte memory process instruction.address
    let memory ← writeByte memory process instruction.address (value + 1)
    return some ⟨registers, memory, none⟩
  | .systemCall =>
    if registers.x = 1 then .ok (some ⟨registers, memory, some (toString registers.y.toNat)⟩)
    else if registers.x = 2 then do
      let text ← readString memory process (stringLimit process) registers.y.toNat
      return some ⟨registers, memory, some (String.ofList text)⟩
    else .error (.invalidSystemCall registers.x)

/-- Runs one instruction of `process`.  A fresh process first brings its registers into the
processor. -/
def cycle (cpu : Cpu) (process : Process) (memory : Memory) : Cycle :=
  let cpu := if process.fresh then cpu.restoreFrom process else cpu
  let process := { process with fresh := false }
  match fetch memory process cpu.registers.programCounter with
  | .error fault => ⟨cpu.reset, process, memory, .faulted fault, none, none⟩
  | .ok (instruction, last) =>
    match execute instruction memory process { cpu.registers with programCounter := last } with
    | .error fault => ⟨cpu.reset, process, memory, .faulted fault, none, some instruction⟩
    | .ok none => ⟨cpu.reset, process, memory, .halted, none, some instruction⟩
    | .ok (some effect) =>
      let cpu : Cpu :=
        { cpu with
          registers :=
            { effect.registers with programCounter := effect.registers.programCounter + 1 }
          lastInstruction := some instruction.opcode.code }
      ⟨cpu, cpu.saveInto process, effect.memory, .completed, effect.printed, some instruction⟩

end Cpu

namespace Cycle

/-- The interrupt that the cycle raises, if it did not complete its instruction. -/
def raised (cycle : Cycle) : Option Interrupt :=
  match cycle.outcome with
  | .completed => none
  | .halted => some (.breakProgram cycle.process.pid)
  | .faulted _ => some (.errProgram cycle.process.pid)

def enqueueRaised (cycle : Cycle) (queue : InterruptQueue) : InterruptQueue :=
  match cycle.raised with
  | some interrupt => queue.enqueue interrupt
  | none => queue

/-- The console after the cycle: with what the instruction has printed, or with a system message
about its fault. -/
def writeTo (cycle : Cycle) (console : Console) : Console :=
  match cycle.outcome with
  | .faulted fault =>
    console.putSystemText s!"Process {cycle.process.pid} error: {fault.message}"
  | _ =>
    match cycle.printed with
    | some text => console.putText text
    | none => console

def events (cycle : Cycle) : List Event :=
  let fetched :=
    match cycle.instruction with
    | some instruction => [Event.note (.executing cycle.process.pid instruction)]
    | none => []
  let ended :=
    match cycle.outcome with
    | .completed => []
    | .halted => [cycle.cpu.snapshot]
    | .faulted fault => [.note (.faulted cycle.process.pid fault), cycle.cpu.snapshot]
  Event.note .cycle :: fetched ++ ended

end Cycle

end Timeshare
