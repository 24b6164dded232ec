import Timeshare.Machine.Bench
import Timeshare.Proofs.Memory.Segments

/-!
# Relocation

A process cannot tell where its segment lies.  Two copies of a process whose segments hold the same
bytes, in whatever memories, run the same cycle: with the same outcome, the same registers, the same
text, and again the same bytes.  A cycle writes inside the segment of its process only.
-/

namespace Timeshare

/-- Two copies of a process that see the same bytes, each in the segment it has. -/
structure Alike (first second : Process) (here there : Memory) (near far : Segment) : Prop where
  pid : second.pid = first.pid
  located : first.segment = some near
  located_far : second.segment = some far
  inside : near.Inside here.store
  inside_far : far.Inside there.store
  bytes : there.bytes far = here.bytes near

namespace Alike

variable {first second : Process} {here there : Memory} {near far : Segment}

theorem length (alike : Alike first second here there near far) : far.length = near.length := by
  rw [← Memory.length_bytes alike.inside, ← Memory.length_bytes alike.inside_far, alike.bytes]

theorem readByte (alike : Alike first second here there near far) (address : Nat) :
    Cpu.readByte there second address = Cpu.readByte here first address := by
  rw [Cpu.readByte, Cpu.readByte, Memory.read_eq alike.located alike.inside,
    Memory.read_eq alike.located_far alike.inside_far, alike.bytes, alike.pid]

theorem fetchOperands (alike : Alike first second here there near far) (count : Nat)
    (counter : UInt8) :
    Cpu.fetchOperands there second count counter = Cpu.fetchOperands here first count counter := by
  induction count generalizing counter with
  | zero => rfl
  | succ count hypothesis =>
      rw [Cpu.fetchOperands, Cpu.fetchOperands, alike.readByte]
      simp only [hypothesis]

theorem fetch (alike : Alike first second here there near far) (counter : UInt8) :
    Cpu.fetch there second counter = Cpu.fetch here first counter := by
  rw [Cpu.fetch, Cpu.fetch, alike.readByte]
  simp only [alike.fetchOperands]

theorem readString (alike : Alike first second here there near far) (limit address : Nat) :
    Cpu.readString there second limit address = Cpu.readString here first limit address := by
  induction limit generalizing address with
  | zero =>
      rw [Cpu.readString, Cpu.readString, alike.readByte, alike.pid]
  | succ limit hypothesis =>
      rw [Cpu.readString, Cpu.readString, alike.readByte]
      simp only [hypothesis]

theorem stringLimit (alike : Alike first second here there near far) :
    Cpu.stringLimit second = Cpu.stringLimit first := by
  simp only [Cpu.stringLimit, alike.located, alike.located_far, alike.length]

/-- A byte is written to both copies, or both fault. -/
theorem writeByte (alike : Alike first second here there near far) (address : Nat) (byte : UInt8) :
    (∃ fault, Cpu.writeByte here first address byte = .error fault ∧
      Cpu.writeByte there second address byte = .error fault) ∨
      ∃ hereNext thereNext, Cpu.writeByte here first address byte = .ok hereNext ∧
        Cpu.writeByte there second address byte = .ok thereNext ∧
        Alike first second hereNext thereNext near far ∧ here.WithinSegment hereNext near := by
  by_cases within : address < near.length
  · have withinFar : address < far.length := alike.length ▸ within
    rcases Memory.write_eq_ok alike.located alike.inside within byte with
      ⟨hereNext, written, change, bytes⟩
    rcases Memory.write_eq_ok alike.located_far alike.inside_far withinFar byte with
      ⟨thereNext, writtenFar, changeFar, bytesFar⟩
    refine Or.inr ⟨hereNext, thereNext, ?_, ?_, ?_, change⟩
    · rw [Cpu.writeByte, written]
      rfl
    · rw [Cpu.writeByte, writtenFar]
      rfl
    · exact {
        pid := alike.pid
        located := alike.located
        located_far := alike.located_far
        inside := ⟨alike.inside.ordered, change.size ▸ alike.inside.bounded⟩
        inside_far := ⟨alike.inside_far.ordered, changeFar.size ▸ alike.inside_far.bounded⟩
        bytes := by rw [bytes, bytesFar, alike.bytes] }
  · have beyondFar : ¬ address < far.length := alike.length ▸ within
    refine Or.inl ⟨.memory (.segmentationFault first.pid address), ?_, ?_⟩
    · rw [Cpu.writeByte, Memory.write_eq_error alike.located within]
      rfl
    · rw [Cpu.writeByte, Memory.write_eq_error alike.located_far beyondFar, alike.pid]
      rfl

/-- Both executions of an instruction fault alike, end the program, or go on alike. -/
inductive Executions (first second : Process) (here : Memory) (near far : Segment) :
    Except Fault (Option Effect) → Except Fault (Option Effect) → Prop
  | faulted (fault : Fault) : Executions first second here near far (.error fault) (.error fault)
  | halted : Executions first second here near far (.ok none) (.ok none)
  | completed (registers : Registers) (printed : Option String) (hereNext thereNext : Memory)
      (alike : Alike first second hereNext thereNext near far)
      (within : here.WithinSegment hereNext near) :
      Executions first second here near far (.ok (some ⟨registers, hereNext, printed⟩))
        (.ok (some ⟨registers, thereNext, printed⟩))

theorem execute (alike : Alike first second here there near far) (instruction : Instruction)
    (registers : Registers) :
    Executions first second here near far (Cpu.execute instruction here first registers)
      (Cpu.execute instruction there second registers) := by
  have settled (registers : Registers) (printed : Option String) :
      Executions first second here near far (.ok (some ⟨registers, here, printed⟩))
        (.ok (some ⟨registers, there, printed⟩)) :=
    .completed registers printed here there alike (Memory.WithinSegment.refl here near)
  have reading (address : Nat) (use : UInt8 → Registers) :
      Executions first second here near far
        (Cpu.readByte here first address >>= fun value => pure (some ⟨use value, here, none⟩))
        (Cpu.readByte there second address >>= fun value => pure (some ⟨use value, there, none⟩)) := by
    rw [alike.readByte]
    cases Cpu.readByte here first address with
    | error fault => exact .faulted fault
    | ok value => exact settled (use value) none
  have writing (address : Nat) (byte : UInt8) :
      Executions first second here near far
        (Cpu.writeByte here first address byte >>= fun memory =>
          pure (some ⟨registers, memory, none⟩))
        (Cpu.writeByte there second address byte >>= fun memory =>
          pure (some ⟨registers, memory, none⟩)) := by
    rcases alike.writeByte address byte with
      ⟨fault, faulted, faultedFar⟩ | ⟨hereNext, thereNext, written, writtenFar, alikeNext, within⟩
    · rw [faulted, faultedFar]
      exact .faulted fault
    · rw [written, writtenFar]
      exact .completed registers none hereNext thereNext alikeNext within
  unfold Cpu.execute
  cases instruction.opcode.operation with
  | halt => exact .halted
  | loadAccConstant => exact settled _ none
  | loadAccMemory => exact reading _ _
  | storeAcc => exact writing _ _
  | addWithCarry => exact reading _ _
  | loadXConstant => exact settled _ none
  | loadXMemory => exact reading _ _
  | loadYConstant => exact settled _ none
  | loadYMemory => exact reading _ _
  | noOperation => exact settled _ none
  | compareX => exact reading _ _
  | branchNotEqual =>
      simp only []
      split
      · exact settled _ none
      · exact settled _ none
  | increment =>
      simp only [alike.readByte]
      cases Cpu.readByte here first instruction.address with
      | error fault => exact .faulted fault
      | ok value => exact writing _ _
  | systemCall =>
      simp only []
      split
      · exact settled _ _
      · split
        · rw [alike.stringLimit, alike.readString]
          cases Cpu.readString here first (Cpu.stringLimit first) registers.y.toNat with
          | error fault => exact .faulted fault
          | ok text => exact settled _ _
        · exact .faulted _

end Alike

/-! ## Cycles -/

namespace Cpu

/-- The registers that the next cycle works with are those of the process. -/
def Resumes (cpu : Cpu) (process : Process) : Prop :=
  process.fresh = true ∨
    (cpu.registers = process.registers ∧ cpu.lastInstruction = process.lastInstruction)

/-- The processor as it enters a cycle of the process. -/
def entering (cpu : Cpu) (process : Process) : Cpu :=
  if process.fresh then cpu.restoreFrom process else cpu

/-- The part of a cycle that comes after the registers were brought into the processor. -/
def run (cpu : Cpu) (process : Process) (memory : Memory) : Cycle :=
  match fetch memory process cpu.registers.programCounter with
  | .error fault => ⟨cpu.reset, process, memory, .faulted fault, none, none⟩
  | .ok (instruction, last) =>
    match execute instruction memory process { cpu.registers with programCounter := last } with
    | .error fault => ⟨cpu.reset, process, memory, .faulted fault, none, some instruction⟩
    | .ok none => ⟨cpu.reset, process, memory, .halted, none, some instruction⟩
    | .ok (some effect) =>
      let cpu : Cpu :=
        { cpu with
          registers :=
            { effect.registers with programCounter := effect.registers.programCounter + 1 }
          lastInstruction := some instruction.opcode.code }
      ⟨cpu, cpu.saveInto process, effect.memory, .completed, effect.printed, some instruction⟩

theorem cycle_eq_run (cpu : Cpu) (process : Process) (memory : Memory) :
    cpu.cycle process memory =
      (cpu.entering process).run { process with fresh := false } memory := rfl

variable {cpu : Cpu} {process : Process}

theorem Resumes.entering (resumes : cpu.Resumes process) :
    (cpu.entering process).registers = process.registers ∧
      (cpu.entering process).lastInstruction = process.lastInstruction := by
  cases fresh : process.fresh with
  | true =>
      rw [Cpu.entering, fresh, if_pos rfl]
      exact ⟨rfl, rfl⟩
  | false =>
      rw [Cpu.entering, fresh, if_neg Bool.false_ne_true]
      rcases resumes with isFresh | saved
      · rw [fresh] at isFresh
        exact absurd isFresh Bool.false_ne_true
      · exact saved

/-- A cycle changes the registers that the process keeps and nothing else of the process. -/
theorem cycle_process (cpu : Cpu) (process : Process) (memory : Memory) :
    ∃ registers last, (cpu.cycle process memory).process =
      { process with fresh := false, registers := registers, lastInstruction := last } := by
  rw [cycle_eq_run, run]
  split
  · exact ⟨process.registers, process.lastInstruction, rfl⟩
  · split
    · exact ⟨process.registers, process.lastInstruction, rfl⟩
    · exact ⟨process.registers, process.lastInstruction, rfl⟩
    · exact ⟨_, _, rfl⟩

theorem cycle_pid (cpu : Cpu) (process : Process) (memory : Memory) :
    (cpu.cycle process memory).process.pid = process.pid := by
  rcases cycle_process cpu process memory with ⟨registers, last, process_eq⟩
  rw [process_eq]

/-- After an instruction that was completed the processor and the process agree. -/
theorem cycle_saved {memory : Memory} (completed : (cpu.cycle process memory).outcome = .completed) :
    (cpu.cycle process memory).cpu.registers = (cpu.cycle process memory).process.registers ∧
      (cpu.cycle process memory).cpu.lastInstruction =
        (cpu.cycle process memory).process.lastInstruction := by
  rw [cycle_eq_run, run] at completed ⊢
  split at completed
  · cases completed
  · split at completed
    · cases completed
    · cases completed
    · simp only [*]
      exact ⟨rfl, rfl⟩

end Cpu

/-- Two cycles went alike. -/
structure SameCycle (before : Memory) (near far : Segment) (cycle other : Cycle) : Prop where
  outcome : other.outcome = cycle.outcome
  printed : other.printed = cycle.printed
  registers : other.process.registers = cycle.process.registers
  lastInstruction : other.process.lastInstruction = cycle.process.lastInstruction
  alike : Alike cycle.process other.process cycle.memory other.memory near far
  within : before.WithinSegment cycle.memory near

namespace Alike

variable {first second : Process} {here there : Memory} {near far : Segment} {cpu other : Cpu}

theorem run (alike : Alike first second here there near far)
    (same : other.registers = cpu.registers) (saved : second.registers = first.registers)
    (last : second.lastInstruction = first.lastInstruction) :
    SameCycle here near far (cpu.run first here) (other.run second there) := by
  have unchanged : here.WithinSegment here near := Memory.WithinSegment.refl here near
  rw [Cpu.run, Cpu.run, alike.fetch, same]
  cases Cpu.fetch here first cpu.registers.programCounter with
  | error fault => exact ⟨rfl, rfl, saved, last, alike, unchanged⟩
  | ok fetched =>
      rcases fetched with ⟨instruction, counter⟩
      have executed := alike.execute instruction { cpu.registers with programCounter := counter }
      simp only []
      generalize Cpu.execute instruction here first
        { cpu.registers with programCounter := counter } = outcome at executed
      generalize Cpu.execute instruction there second
        { cpu.registers with programCounter := counter } = outcomeFar at executed
      cases executed with
      | faulted fault => exact ⟨rfl, rfl, saved, last, alike, unchanged⟩
      | halted => exact ⟨rfl, rfl, saved, last, alike, unchanged⟩
      | completed registers printed hereNext thereNext alikeNext within =>
          exact ⟨rfl, rfl, rfl, rfl, ⟨alikeNext.pid, alikeNext.located, alikeNext.located_far,
            alikeNext.inside, alikeNext.inside_far, alikeNext.bytes⟩, within⟩

/-- Copies of a process with the same registers run the same cycle, wherever they lie. -/
theorem cycle (alike : Alike first second here there near far) (resumes : cpu.Resumes first)
    (resumesFar : other.Resumes second) (saved : second.registers = first.registers)
    (last : second.lastInstruction = first.lastInstruction) :
    SameCycle here near far (cpu.cycle first here) (other.cycle second there) := by
  rw [Cpu.cycle_eq_run, Cpu.cycle_eq_run]
  apply run
  · exact ⟨alike.pid, alike.located, alike.located_far, alike.inside, alike.inside_far, alike.bytes⟩
  · rw [resumes.entering.1, resumesFar.entering.1, saved]
  · exact saved
  · exact last

end Alike

/-- A cycle keeps to the segment of its process. -/
theorem Cpu.cycle_within {process : Process} {memory : Memory} {segment : Segment}
    (located : process.segment = some segment) (inside : segment.Inside memory.store) (cpu : Cpu) :
    memory.WithinSegment (cpu.cycle process memory).memory segment := by
  have alike : Alike { process with fresh := false } { process with fresh := false } memory memory
      segment segment := ⟨rfl, located, located, inside, inside, rfl⟩
  exact (@Alike.run _ _ _ _ _ _ (cpu.entering process) _ alike rfl rfl rfl).within

/-! ## The same cycle elsewhere -/

/-- The process as it would be in another segment. -/
def Process.placedAt (process : Process) (segment : Segment) : Process :=
  { process with segment := some segment }

/-- The cycle as it would be elsewhere: only where the process lies and the memory differ. -/
def Cycle.elsewhere (cycle : Cycle) (segment : Segment) (memory : Memory) : Cycle :=
  { cycle with process := cycle.process.placedAt segment, memory := memory }

namespace Cycle

variable (cycle : Cycle) (segment : Segment) (memory : Memory)

theorem raised_elsewhere : (cycle.elsewhere segment memory).raised = cycle.raised := rfl

theorem writeTo_elsewhere (console : Console) :
    (cycle.elsewhere segment memory).writeTo console = cycle.writeTo console := rfl

theorem events_elsewhere : (cycle.elsewhere segment memory).events = cycle.events := rfl

end Cycle

theorem Alike.run_elsewhere {process : Process} {here there : Memory} {near far : Segment}
    (alike : Alike (process.placedAt near) (process.placedAt far) here there near far) (cpu : Cpu) :
    ∃ memory, cpu.run (process.placedAt far) there =
      (cpu.run (process.placedAt near) here).elsewhere far memory := by
  rw [Cpu.run, Cpu.run, alike.fetch]
  cases Cpu.fetch here (process.placedAt near) cpu.registers.programCounter with
  | error fault => exact ⟨there, rfl⟩
  | ok fetched =>
      rcases fetched with ⟨instruction, counter⟩
      have executed := alike.execute instruction { cpu.registers with programCounter := counter }
      simp only []
      generalize Cpu.execute instruction here (process.placedAt near)
        { cpu.registers with programCounter := counter } = outcome at executed
      generalize Cpu.execute instruction there (process.placedAt far)
        { cpu.registers with programCounter := counter } = outcomeFar at executed
      cases executed with
      | faulted fault => exact ⟨there, rfl⟩
      | halted => exact ⟨there, rfl⟩
      | completed registers printed hereNext thereNext => exact ⟨thereNext, rfl⟩

/-- A process that sees the same bytes from another segment, in whatever memory, runs the same cycle
there.  Each of the two cycles keeps to the segment it was given. -/
theorem Cpu.cycle_elsewhere (cpu : Cpu) (process : Process) {here there : Memory}
    {near far : Segment} (inside : near.Inside here.store) (insideFar : far.Inside there.store)
    (bytes : there.bytes far = here.bytes near) :
    let cycle := cpu.cycle (process.placedAt near) here
    let other := cpu.cycle (process.placedAt far) there
    other = cycle.elsewhere far other.memory ∧
      other.raised = cycle.raised ∧
      (∀ console, other.writeTo console = cycle.writeTo console) ∧
      other.events = cycle.events ∧
      other.memory.bytes far = cycle.memory.bytes near ∧
      here.WithinSegment cycle.memory near ∧
      there.WithinSegment other.memory far := by
  let stale : Process := { process with fresh := false }
  have alike : Alike (stale.placedAt near) (stale.placedAt far) here there near far :=
    ⟨rfl, rfl, rfl, inside, insideFar, bytes⟩
  rcases alike.run_elsewhere (cpu.entering process) with ⟨memory, ran⟩
  have same : cpu.cycle (process.placedAt far) there =
      (cpu.cycle (process.placedAt near) here).elsewhere far memory := ran
  have after := (@Alike.run _ _ _ _ _ _ _ (cpu.entering process) alike rfl rfl rfl).alike
  refine ⟨?_, ?_, ?_, ?_, after.bytes, Cpu.cycle_within rfl inside cpu,
    Cpu.cycle_within rfl insideFar cpu⟩
  · rw [same]
    rfl
  · rw [same, Cycle.raised_elsewhere]
  · intro console
    rw [same, Cycle.writeTo_elsewhere]
  · rw [same, Cycle.events_elsewhere]

/-- A program that changes itself, at the beginning of its memory and behind other bytes. -/
theorem Cpu.cycle_elsewhere_small :
    ∃ (cpu : Cpu) (process : Process) (here there : Memory) (near far : Segment),
      near.Inside here.store ∧ far.Inside there.store ∧ near.base = 0 ∧ far.base = 4 ∧
        there.bytes far = here.bytes near ∧ here.bytes near = [0xEE, 0x02, 0x00] ∧
        (cpu.cycle (process.placedAt near) here).memory.bytes near = [0xEE, 0x02, 0x01] ∧
        (cpu.cycle (process.placedAt far) there).memory.bytes far = [0xEE, 0x02, 0x01] ∧
        (cpu.cycle (process.placedAt far) there).process.registers.programCounter = 3 := by
  let here : Memory := ⟨⟨#[0xEE, 0x02, 0x00]⟩, [⟨0, 2⟩], [true], .insert 7 0 .empty⟩
  let there : Memory :=
    ⟨⟨#[9, 8, 7, 6, 0xEE, 0x02, 0x00, 5]⟩, [⟨0, 3⟩, ⟨4, 6⟩], [true, true],
      .insert 7 1 (.insert 1 0 .empty)⟩
  have inside : (⟨0, 2⟩ : Segment).Inside here.store := ⟨by decide, by decide⟩
  have insideFar : (⟨4, 6⟩ : Segment).Inside there.store := ⟨by decide, by decide⟩
  have bytes : there.bytes ⟨4, 6⟩ = here.bytes ⟨0, 2⟩ := by decide +kernel
  have changed : (Cpu.initial.cycle ((Process.create 7 1).placedAt ⟨0, 2⟩) here).memory.bytes
      ⟨0, 2⟩ = [0xEE, 0x02, 0x01] := by decide +kernel
  have counted : (Cpu.initial.cycle ((Process.create 7 1).placedAt ⟨0, 2⟩)
      here).process.registers.programCounter = 3 := by decide +kernel
  rcases Cpu.initial.cycle_elsewhere (.create 7 1) inside insideFar bytes with
    ⟨same, _, _, _, bytesNext, _⟩
  refine ⟨.initial, .create 7 1, here, there, ⟨0, 2⟩, ⟨4, 6⟩, inside, insideFar, rfl, rfl, bytes,
    by decide +kernel, changed, bytesNext.trans changed, ?_⟩
  rw [same]
  exact counted

end Timeshare
