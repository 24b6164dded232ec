import Timeshare.Proofs.Machine.Faults
import Timeshare.Proofs.Machine.Relocation

/-!
# An instruction has all of its effect or none

A cycle ends in one of three ways: the instruction is completed, it ends the program, or it is
aborted.  Wherever it is aborted, only the processor, an interrupt and a line on the console tell
that anything has happened.
-/

namespace Timeshare

/-- A cycle has left the process and memory as they were, and the processor cleared. -/
structure Cycle.Ineffective (cycle : Cycle) (process : Process) (memory : Memory) : Prop where
  memory : cycle.memory = memory
  process : cycle.process = { process with fresh := false }
  registers : cycle.cpu.registers = .cleared
  lastInstruction : cycle.cpu.lastInstruction = none
  printed : cycle.printed = none

namespace Cpu

variable {cpu : Cpu} {process : Process} {memory : Memory}

theorem cycle_ineffective (incomplete : (cpu.cycle process memory).outcome ≠ .completed) :
    (cpu.cycle process memory).Ineffective process memory := by
  rw [cycle_eq_run, run] at incomplete ⊢
  split at incomplete
  · exact ⟨rfl, rfl, rfl, rfl, rfl⟩
  · split at incomplete
    · exact ⟨rfl, rfl, rfl, rfl, rfl⟩
    · exact ⟨rfl, rfl, rfl, rfl, rfl⟩
    · exact absurd rfl incomplete

/-! ## The instruction that ends the program -/

theorem bind_some_ne_none {α : Type} (first : Except Fault α) (use : α → Effect) :
    (first >>= fun value => pure (some (use value))) ≠ (.ok none : Except Fault (Option Effect)) := by
  cases first with
  | error fault => nofun
  | ok value => nofun

theorem execute_eq_none_iff {instruction : Instruction} {registers : Registers} :
    execute instruction memory process registers = .ok none ↔
      instruction.opcode.operation = .halt := by
  unfold execute
  cases instruction.opcode.operation with
  | halt => exact iff_of_true rfl rfl
  | loadAccConstant | loadXConstant | loadYConstant | noOperation => exact iff_of_false nofun nofun
  | loadAccMemory | storeAcc | addWithCarry | loadXMemory | loadYMemory | compareX =>
      exact iff_of_false (bind_some_ne_none _ _) nofun
  | branchNotEqual =>
      refine iff_of_false ?_ nofun
      simp only []
      split <;> nofun
  | increment =>
      refine iff_of_false ?_ nofun
      simp only []
      cases readByte memory process instruction.address with
      | error fault => nofun
      | ok value => exact bind_some_ne_none _ _
  | systemCall =>
      refine iff_of_false ?_ nofun
      simp only []
      split
      · nofun
      · split
        · exact bind_some_ne_none _ _
        · nofun

theorem readByte_eq_ok_iff {address : Nat} {byte : UInt8} :
    readByte memory process address = .ok byte ↔ memory.read process address = .ok byte := by
  rw [readByte]
  cases memory.read process address with
  | error error => exact iff_of_false (by rintro ⟨⟩) (by rintro ⟨⟩)
  | ok value =>
      constructor
      · rintro ⟨⟩
        rfl
      · rintro ⟨⟩
        rfl

/-- Once its operation code is known, an instruction is fetched if its operands are. -/
theorem fetch_of_code {counter code : UInt8}
    (there : readByte memory process counter.toNat = .ok code) :
    fetch memory process counter =
      match Opcode.find? code with
      | none => .error (.unknownOpcode code)
      | some opcode =>
        (fetchOperands memory process opcode.operands counter).map fun fetched =>
          (.ofOperands opcode fetched.1, fetched.2) := by
  rw [fetch, there]
  change (match Opcode.find? code with | none => _ | some opcode => _) = _
  cases Opcode.find? code with
  | none => rfl
  | some opcode => rfl

/-- Whatever is fetched has the code that the counter points to. -/
theorem read_of_fetched {counter last : UInt8} {instruction : Instruction}
    (fetched : fetch memory process counter = .ok (instruction, last)) :
    ∃ code, readByte memory process counter.toNat = .ok code ∧
      Opcode.find? code = some instruction.opcode := by
  cases there : readByte memory process counter.toNat with
  | error fault =>
      rw [fetch, there] at fetched
      cases fetched
  | ok code =>
      rw [fetch_of_code there] at fetched
      refine ⟨code, rfl, ?_⟩
      cases found : Opcode.find? code with
      | none =>
          rw [found] at fetched
          cases fetched
      | some opcode =>
          simp only [found] at fetched
          cases operands : fetchOperands memory process opcode.operands counter with
          | error fault =>
              rw [operands] at fetched
              cases fetched
          | ok operands =>
              simp only [operands] at fetched
              cases fetched
              rfl

theorem eq_zero_of_halt {code : UInt8} {opcode : Opcode} (found : Opcode.find? code = some opcode)
    (halts : opcode.operation = .halt) : code = 0x00 := by
  have same : opcode.code = code := by simpa using List.find?_some found
  have only : ∀ opcode ∈ opcodeTable, opcode.operation = .halt → opcode.code = 0x00 := by
    simp [opcodeTable]
  rw [← same, only opcode (List.mem_of_find?_eq_some found) halts]

/-- A program ends with the instruction of code zero and with no other. -/
theorem run_halted_iff :
    (cpu.run process memory).outcome = .halted ↔
      memory.read process cpu.registers.programCounter.toNat = .ok 0x00 := by
  rw [run, ← readByte_eq_ok_iff]
  constructor
  · intro halted
    split at halted
    · cases halted
    · rename_i instruction last fetched
      split at halted
      · cases halted
      · rename_i executed
        rcases read_of_fetched fetched with ⟨code, there, found⟩
        rwa [eq_zero_of_halt found (execute_eq_none_iff.mp executed)] at there
      · cases halted
  · intro there
    have fetched : fetch memory process cpu.registers.programCounter =
        .ok (.ofOperands ⟨0x00, "BRK", 0, .halt⟩ [], cpu.registers.programCounter) :=
      fetch_of_code there
    rw [fetched]
    rfl

theorem cycle_halted_iff :
    (cpu.cycle process memory).outcome = .halted ↔
      memory.read process (cpu.entering process).registers.programCounter.toNat = .ok 0x00 :=
  @run_halted_iff (cpu.entering process) { process with fresh := false } memory

end Cpu

/-! ## The three endings -/

namespace Bench

variable (bench : Bench) (process : Process)

/-- The instruction was completed. -/
structure Completes (after : Process × Bench) : Prop where
  interrupts : after.2.interrupts = bench.interrupts
  registers : after.1.registers = after.2.cpu.registers
  lastInstruction : after.1.lastInstruction = after.2.cpu.lastInstruction

/-- Neither memory nor what the process keeps has changed, and the processor is cleared. -/
structure Undone (after : Process × Bench) : Prop where
  memory : after.2.memory = bench.memory
  kept : after.1.registers = process.registers
  keptLast : after.1.lastInstruction = process.lastInstruction
  registers : after.2.cpu.registers = ⟨0, 0, 0, 0, 0⟩
  lastInstruction : after.2.cpu.lastInstruction = none

/-- The instruction that ends a program was met. -/
structure Breaks (after : Process × Bench) : Prop extends Undone bench process after where
  code : bench.memory.read process
    (bench.cpu.entering process).registers.programCounter.toNat = .ok 0x00
  interrupts : after.2.interrupts = bench.interrupts ++ [.breakProgram process.pid]
  console : after.2.console = bench.console

/-- The instruction was aborted.  A line of its own on the console says of which process, and names
the fault and no other one. -/
structure Faults (fault : Fault) (text : String) (after : Process × Bench) : Prop
    extends Undone bench process after where
  outcome : (bench.cpu.cycle process bench.memory).outcome = .faulted fault
  interrupts : after.2.interrupts = bench.interrupts ++ [.errProgram process.pid]
  names : fault.Names text
  only : ∀ other : Fault, other.Names text → other = fault
  lines : after.2.console.lines =
    bench.console.lines.push ("Process " ++ Nat.repr process.pid ++ " error: " ++ text)
  transcript : after.2.console.transcript =
    bench.console.transcript.push ("Process " ++ Nat.repr process.pid ++ " error: " ++ text)
  line : after.2.console.line = bench.console.line

variable {bench process}

theorem completes (completed : (bench.cpu.cycle process bench.memory).outcome = .completed) :
    bench.Completes (bench.cycle process).value := by
  rcases Cpu.cycle_saved completed with ⟨registers, lastInstruction⟩
  refine ⟨?_, registers.symm, lastInstruction.symm⟩
  change (bench.cpu.cycle process bench.memory).enqueueRaised bench.interrupts = _
  rw [Cycle.enqueueRaised, Cycle.raised, completed]

theorem undone (incomplete : (bench.cpu.cycle process bench.memory).outcome ≠ .completed) :
    bench.Undone process (bench.cycle process).value := by
  have ineffective := Cpu.cycle_ineffective incomplete
  refine ⟨ineffective.memory, ?_, ?_, ineffective.registers, ineffective.lastInstruction⟩
  · exact (congrArg Process.registers ineffective.process).trans rfl
  · exact (congrArg Process.lastInstruction ineffective.process).trans rfl

theorem breaks (halted : (bench.cpu.cycle process bench.memory).outcome = .halted) :
    bench.Breaks process (bench.cycle process).value := by
  have incomplete : (bench.cpu.cycle process bench.memory).outcome ≠ .completed := by
    rw [halted]
    nofun
  have ineffective := Cpu.cycle_ineffective incomplete
  refine ⟨undone incomplete, Cpu.cycle_halted_iff.mp halted, ?_, ?_⟩
  · change (bench.cpu.cycle process bench.memory).enqueueRaised bench.interrupts = _
    rw [Cycle.enqueueRaised, Cycle.raised, halted, ineffective.process]
    rfl
  · change (bench.cpu.cycle process bench.memory).writeTo bench.console = _
    rw [Cycle.writeTo, halted, ineffective.printed]

theorem console_of_faulted {fault : Fault}
    (faulted : (bench.cpu.cycle process bench.memory).outcome = .faulted fault) :
    (bench.cycle process).value.2.console =
      bench.console.putSystemText s!"Process {process.pid} error: {fault.message}" := by
  change (bench.cpu.cycle process bench.memory).writeTo bench.console = _
  rw [Cycle.writeTo, faulted, Cpu.cycle_pid]

theorem faults {fault : Fault}
    (faulted : (bench.cpu.cycle process bench.memory).outcome = .faulted fault) :
    bench.Faults process fault fault.message (bench.cycle process).value := by
  have incomplete : (bench.cpu.cycle process bench.memory).outcome ≠ .completed := by
    rw [faulted]
    nofun
  have ineffective := Cpu.cycle_ineffective incomplete
  have console := console_of_faulted faulted
  refine ⟨undone incomplete, faulted, ?_, fault.names_message,
    fun _ => fault.names_message.eq_of_text, ?_, ?_, ?_⟩
  · change (bench.cpu.cycle process bench.memory).enqueueRaised bench.interrupts = _
    rw [Cycle.enqueueRaised, Cycle.raised, faulted, ineffective.process]
    rfl
  · rw [console]
    rfl
  · rw [console]
    rfl
  · rw [console]
    rfl

/-- Every cycle completes its instruction, or meets the end of the program, or is aborted, and only
one of them.  In the latter two cases the instruction has had no effect. -/
theorem completes_or_undone (bench : Bench) (process : Process) :
    let after := (bench.cycle process).value
    (bench.Completes after ∨ bench.Breaks process after ∨
      ∃ fault text, bench.Faults process fault text after) ∧
      ¬ (bench.Completes after ∧ bench.Breaks process after) ∧
      (∀ fault text, ¬ (bench.Completes after ∧ bench.Faults process fault text after)) ∧
      (∀ fault text, ¬ (bench.Breaks process after ∧ bench.Faults process fault text after)) ∧
      (bench.Breaks process after ↔ bench.memory.read process
        (bench.cpu.entering process).registers.programCounter.toNat = .ok 0x00) := by
  refine ⟨?_, ?_, ?_, ?_, Breaks.code, fun code => breaks (Cpu.cycle_halted_iff.mpr code)⟩
  · cases outcome : (bench.cpu.cycle process bench.memory).outcome with
    | completed => exact Or.inl (completes outcome)
    | halted => exact Or.inr (Or.inl (breaks outcome))
    | faulted fault => exact Or.inr (Or.inr ⟨fault, fault.message, faults outcome⟩)
  · rintro ⟨completes, breaks⟩
    simpa using completes.interrupts.symm.trans breaks.interrupts
  · rintro fault text ⟨completes, faults⟩
    simpa using completes.interrupts.symm.trans faults.interrupts
  · rintro fault text ⟨breaks, faults⟩
    simpa using breaks.interrupts.symm.trans faults.interrupts

end Bench

end Timeshare
