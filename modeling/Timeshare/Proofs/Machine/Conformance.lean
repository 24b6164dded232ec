import Timeshare.Proofs.Machine.Atomicity
import Timeshare.Proofs.Machine.InstructionSet

/-!
# The processor keeps to the instruction set

A cycle takes the step that the instruction set prescribes to the program in the segment of the
process, and no other step is prescribed.  `step_of_prescribes` goes through the rules: it looks at
what is fetched where the rule says that the instruction stands, and then at what is executed.
-/

namespace Timeshare

/-- A process is in memory: it has a segment, which lies inside the store. -/
structure Process.Dwells (process : Process) (memory : Memory) (segment : Segment) : Prop where
  located : process.segment = some segment
  inside : segment.Inside memory.store

/-- What a cycle has made of the program in a segment. -/
def Cycle.step (cycle : Cycle) (segment : Segment) : InstructionSet.Step :=
  match cycle.outcome with
  | .completed => .completed cycle.cpu.registers (cycle.memory.bytes segment) cycle.printed
  | .halted => .halted
  | .faulted fault => .faulted fault

namespace InstructionSet

/-! ## The table of operation codes -/

theorem find?_of_operands? {code : UInt8} {count : Nat} (listed : operands? code = some count) :
    ∃ opcode, Opcode.find? code = some opcode ∧ opcode.operands = count := by
  unfold operands? at listed
  split at listed
  · rename_i member
    cases listed
    simp only [bare, List.mem_cons, List.not_mem_nil, or_false] at member
    rcases member with rfl | rfl | rfl <;> exact ⟨_, rfl, rfl⟩
  · split at listed
    · rename_i member
      cases listed
      simp only [immediate, List.mem_cons, List.not_mem_nil, or_false] at member
      rcases member with rfl | rfl | rfl | rfl <;> exact ⟨_, rfl, rfl⟩
    · split at listed
      · rename_i member
        cases listed
        simp only [absolute, List.mem_cons, List.not_mem_nil, or_false] at member
        rcases member with rfl | rfl | rfl | rfl | rfl | rfl | rfl <;> exact ⟨_, rfl, rfl⟩
      · cases listed

theorem operands?_of_mem {opcode : Opcode} (member : opcode ∈ opcodeTable) :
    operands? opcode.code = some opcode.operands := by
  have listed : ∀ opcode ∈ opcodeTable, operands? opcode.code = some opcode.operands := by
    simp only [opcodeTable, List.forall_mem_cons]
    exact ⟨rfl, rfl, rfl, rfl, rfl, rfl, rfl, rfl, rfl, rfl, rfl, rfl, rfl, rfl,
      List.forall_mem_nil _⟩
  exact listed opcode member

theorem find?_of_unlisted {code : UInt8} (unlisted : operands? code = none) :
    Opcode.find? code = none := by
  cases found : Opcode.find? code with
  | none => rfl
  | some opcode =>
      have same : opcode.code = code := by simpa using List.find?_some found
      have listed := operands?_of_mem (List.mem_of_find?_eq_some found)
      rw [same, unlisted] at listed
      cases listed

variable {process : Process} {memory : Memory} {segment : Segment} {cpu : Cpu}

/-! ## Reading and writing a byte -/

section Bytes

variable {place : Nat} {byte : UInt8}

theorem readByte_of_some (dwells : process.Dwells memory segment)
    (there : (memory.bytes segment)[place]? = some byte) :
    Cpu.readByte memory process place = .ok byte := by
  rw [Cpu.readByte, Memory.read_eq dwells.located dwells.inside, there]
  rfl

theorem readByte_of_missing (dwells : process.Dwells memory segment)
    (missing : (memory.bytes segment).length ≤ place) :
    Cpu.readByte memory process place =
      .error (.memory (.segmentationFault process.pid place)) := by
  rw [Cpu.readByte, Memory.read_eq dwells.located dwells.inside, List.getElem?_eq_none missing]
  rfl

theorem writeByte_of_lt (dwells : process.Dwells memory segment)
    (within : place < (memory.bytes segment).length) (byte : UInt8) :
    ∃ next, Cpu.writeByte memory process place byte = .ok next ∧
      next.bytes segment = (memory.bytes segment).set place byte := by
  rw [Memory.length_bytes dwells.inside] at within
  rcases Memory.write_eq_ok dwells.located dwells.inside within byte with
    ⟨next, written, _, bytes⟩
  refine ⟨next, ?_, bytes⟩
  rw [Cpu.writeByte, written]
  rfl

theorem writeByte_of_missing (dwells : process.Dwells memory segment)
    (missing : (memory.bytes segment).length ≤ place) (byte : UInt8) :
    Cpu.writeByte memory process place byte =
      .error (.memory (.segmentationFault process.pid place)) := by
  rw [Memory.length_bytes dwells.inside] at missing
  rw [Cpu.writeByte, Memory.write_eq_error dwells.located (Nat.not_lt.mpr missing)]
  rfl

end Bytes

/-! ## Fetching an instruction -/

section Fetching

variable {counter code : UInt8} {operands : List UInt8} {opcode : Opcode}

/-- The counter is moved on by one byte and then by the others. -/
theorem one_add_ofNat (counter : UInt8) (count : Nat) :
    counter + 1 + UInt8.ofNat count = counter + UInt8.ofNat (count + 1) := by
  rw [UInt8.ofNat_add, UInt8.add_comm (UInt8.ofNat count), ← UInt8.add_assoc]
  rfl

theorem fetchOperands_of_stands (dwells : process.Dwells memory segment)
    (here : Stands (memory.bytes segment) (counter + 1) operands) :
    Cpu.fetchOperands memory process operands.length counter =
      .ok (operands, counter + UInt8.ofNat operands.length) := by
  induction operands generalizing counter with
  | nil => simp [Cpu.fetchOperands]
  | cons operand rest hypothesis =>
      rw [List.length_cons, Cpu.fetchOperands, readByte_of_some dwells here.1, hypothesis here.2,
        ← one_add_ofNat]
      rfl

theorem fetchOperands_of_missing (dwells : process.Dwells memory segment) {count : Nat}
    (here : Stands (memory.bytes segment) (counter + 1) operands) (few : operands.length < count)
    (missing : (memory.bytes segment).length ≤ (counter + 1 + UInt8.ofNat operands.length).toNat) :
    Cpu.fetchOperands memory process count counter =
      .error (.memory (.segmentationFault process.pid
        (counter + 1 + UInt8.ofNat operands.length).toNat)) := by
  obtain ⟨count, rfl⟩ := Nat.exists_eq_add_one_of_ne_zero (Nat.ne_zero_of_lt few)
  induction operands generalizing counter count with
  | nil =>
      have first : counter + 1 + UInt8.ofNat 0 = counter + 1 := UInt8.add_zero _
      rw [List.length_nil, first] at missing ⊢
      rw [Cpu.fetchOperands, readByte_of_missing dwells missing]
      rfl
  | cons operand rest hypothesis =>
      have fewer : rest.length < count := Nat.lt_of_succ_lt_succ few
      obtain ⟨count, rfl⟩ := Nat.exists_eq_add_one_of_ne_zero (Nat.ne_zero_of_lt fewer)
      rw [List.length_cons, ← one_add_ofNat] at missing ⊢
      rw [Cpu.fetchOperands, readByte_of_some dwells here.1, hypothesis here.2 missing count fewer]
      rfl

theorem fetch_of_comes {registers : Registers} (dwells : process.Dwells memory segment)
    (here : Comes (memory.bytes segment) registers (code :: operands))
    (found : Opcode.find? code = some opcode) (whole : opcode.operands = operands.length) :
    Cpu.fetch memory process registers.programCounter =
      .ok (.ofOperands opcode operands,
        registers.programCounter + UInt8.ofNat operands.length) := by
  rw [Cpu.fetch_of_code (readByte_of_some dwells here.1), found]
  simp only [whole, fetchOperands_of_stands dwells here.2]
  rfl

end Fetching

/-! ## Reading a text -/

section Texts

variable {place limit : Nat} {byte : UInt8} {bytes rest text : List UInt8}

theorem cons_prefix_drop_iff :
    byte :: rest <+: bytes.drop place ↔
      bytes[place]? = some byte ∧ rest <+: bytes.drop (place + 1) := by
  rcases Nat.lt_or_ge place bytes.length with within | beyond
  · rw [List.drop_eq_getElem_cons within, List.cons_prefix_cons, List.getElem?_eq_getElem within,
      Option.some.injEq, eq_comm]
  · rw [List.drop_eq_nil_of_le beyond, List.getElem?_eq_none beyond]
    simp

theorem readString_succ (nonzero : byte ≠ 0) (first : Cpu.readByte memory process place = .ok byte)
    (limit : Nat) :
    Cpu.readString memory process (limit + 1) place =
      (Cpu.readString memory process limit (place + 1)).map (Char.ofNat byte.toNat :: ·) := by
  rw [Cpu.readString, first]
  exact if_neg nonzero

theorem readString_of_text (dwells : process.Dwells memory segment) (nonzero : 0 ∉ text)
    (there : text ++ [0] <+: (memory.bytes segment).drop place) (short : text.length ≤ limit) :
    Cpu.readString memory process limit place =
      .ok (text.map fun byte => Char.ofNat byte.toNat) := by
  induction text generalizing place limit with
  | nil =>
      unfold Cpu.readString
      rw [readByte_of_some dwells (cons_prefix_drop_iff.mp there).1]
      rfl
  | cons character text hypothesis =>
      rcases cons_prefix_drop_iff.mp there with ⟨first, further⟩
      rcases not_or.mp (List.mem_cons.not.mp nonzero) with ⟨different, others⟩
      obtain ⟨limit, rfl⟩ := Nat.exists_eq_add_one_of_ne_zero (Nat.ne_zero_of_lt short)
      rw [readString_succ (Ne.symm different) (readByte_of_some dwells first),
        hypothesis others further (Nat.le_of_succ_le_succ short)]
      rfl

/-- A text that has no end runs up to the end of the segment. -/
theorem readString_of_endless (dwells : process.Dwells memory segment)
    (endless : 0 ∉ (memory.bytes segment).drop place)
    (far : (memory.bytes segment).length ≤ place + limit) :
    Cpu.readString memory process limit place =
      .error (.memory (.segmentationFault process.pid
        (max place (memory.bytes segment).length))) := by
  induction limit generalizing place with
  | zero =>
      rw [Nat.add_zero] at far
      rw [Cpu.readString, readByte_of_missing dwells far, Nat.max_eq_left far]
      rfl
  | succ limit hypothesis =>
      rcases Nat.lt_or_ge place (memory.bytes segment).length with within | beyond
      · rw [List.drop_eq_getElem_cons within, List.mem_cons, not_or] at endless
        have first := readByte_of_some dwells (List.getElem?_eq_getElem within)
        rw [readString_succ (Ne.symm endless.1) first, hypothesis endless.2 (by omega),
          Nat.max_eq_right within, Nat.max_eq_right (Nat.le_of_lt within)]
        rfl
      · rw [Cpu.readString, readByte_of_missing dwells beyond, Nat.max_eq_left beyond]
        rfl

theorem stringLimit_eq (dwells : process.Dwells memory segment) :
    Cpu.stringLimit process = (memory.bytes segment).length := by
  rw [Cpu.stringLimit, dwells.located, Memory.length_bytes dwells.inside]

end Texts

/-! ## Executing an instruction -/

/-- What executing an instruction makes of the program. -/
def stepOf (segment : Segment) : Except Fault (Option Effect) → Step
  | .error fault => .faulted fault
  | .ok none => .halted
  | .ok (some effect) =>
    .completed (past 1 effect.registers) (effect.memory.bytes segment) effect.printed

section Executing

variable {code low high : UInt8} {operands : List UInt8} {opcode : Opcode} {place : Nat}

theorem step_of_comes (dwells : process.Dwells memory segment)
    (here : Comes (memory.bytes segment) cpu.registers (code :: operands))
    (found : Opcode.find? code = some opcode) (whole : opcode.operands = operands.length) :
    (cpu.run process memory).step segment =
      stepOf segment (Cpu.execute (.ofOperands opcode operands) memory process
        (past (UInt8.ofNat operands.length) cpu.registers)) := by
  rw [Cpu.run, fetch_of_comes dwells here found whole]
  simp only [past]
  cases Cpu.execute (.ofOperands opcode operands) memory process
      { cpu.registers with
        programCounter := cpu.registers.programCounter + UInt8.ofNat operands.length } with
  | error fault => rfl
  | ok effect =>
      cases effect with
      | none => rfl
      | some effect => rfl

theorem stepOf_reading (dwells : process.Dwells memory segment) {value : UInt8}
    (there : (memory.bytes segment)[place]? = some value) (use : UInt8 → Registers) :
    stepOf segment (Cpu.readByte memory process place >>= fun value =>
        pure (some ⟨use value, memory, none⟩)) =
      .completed (past 1 (use value)) (memory.bytes segment) none := by
  rw [readByte_of_some dwells there]
  rfl

theorem stepOf_writing (dwells : process.Dwells memory segment)
    (within : place < (memory.bytes segment).length) (byte : UInt8) (registers : Registers) :
    stepOf segment (Cpu.writeByte memory process place byte >>= fun next =>
        pure (some ⟨registers, next, none⟩)) =
      .completed (past 1 registers) ((memory.bytes segment).set place byte) none := by
  rcases writeByte_of_lt dwells within byte with ⟨next, written, bytes⟩
  rw [written, ← bytes]
  rfl

theorem step_of_unreachable (dwells : process.Dwells memory segment) (reaches : code ∈ absolute)
    (here : Comes (memory.bytes segment) cpu.registers [code, low, high])
    (missing : (memory.bytes segment).length ≤ address low high) :
    (cpu.run process memory).step segment = outside process.pid (address low high) := by
  have unread (use : UInt8 → Except Fault (Option Effect)) :
      stepOf segment (Cpu.readByte memory process (address low high) >>= use) =
        outside process.pid (address low high) := by
    rw [readByte_of_missing dwells missing]
    rfl
  have unwritten (byte : UInt8) (use : Memory → Except Fault (Option Effect)) :
      stepOf segment (Cpu.writeByte memory process (address low high) byte >>= use) =
        outside process.pid (address low high) := by
    rw [writeByte_of_missing dwells missing]
    rfl
  simp only [absolute, List.mem_cons, List.not_mem_nil, or_false] at reaches
  rcases reaches with rfl | rfl | rfl | rfl | rfl | rfl | rfl
  · exact (step_of_comes dwells here rfl rfl).trans (unread _)
  · exact (step_of_comes dwells here rfl rfl).trans (unwritten _ _)
  · exact (step_of_comes dwells here rfl rfl).trans (unread _)
  · exact (step_of_comes dwells here rfl rfl).trans (unread _)
  · exact (step_of_comes dwells here rfl rfl).trans (unread _)
  · exact (step_of_comes dwells here rfl rfl).trans (unread _)
  · exact (step_of_comes dwells here rfl rfl).trans (unread _)

theorem step_of_unfetched {fault : Fault}
    (unfetched : Cpu.fetch memory process cpu.registers.programCounter = .error fault) :
    (cpu.run process memory).step segment = .faulted fault := by
  rw [Cpu.run, unfetched]
  rfl

end Executing

/-- What the instruction set prescribes is what the processor does. -/
theorem step_of_prescribes (dwells : process.Dwells memory segment) {step : Step}
    (prescribed : Prescribes process.pid (memory.bytes segment) cpu.registers step) :
    (cpu.run process memory).step segment = step := by
  cases prescribed with
  | brk here => exact step_of_comes dwells here rfl rfl
  | nop here =>
      rw [step_of_comes dwells here rfl rfl]
      simp [stepOf, Cpu.execute, Instruction.ofOperands, past]
  | sysNumber here call =>
      rw [step_of_comes dwells here rfl rfl]
      simp [stepOf, Cpu.execute, Instruction.ofOperands, past, call]
  | sysText here call text nonzero there =>
      have short : text.length ≤ Cpu.stringLimit process := by
        have fits := there.length_le
        rw [stringLimit_eq dwells]
        simp only [List.length_append, List.length_drop, List.length_singleton] at fits
        omega
      have read := readString_of_text dwells nonzero there short
      rw [step_of_comes dwells here rfl rfl]
      simp [stepOf, Cpu.execute, Instruction.ofOperands, past, call, read]
  | sysEndless here call endless =>
      have far : (memory.bytes segment).length ≤
          cpu.registers.y.toNat + Cpu.stringLimit process := by
        rw [stringLimit_eq dwells]
        omega
      have read := readString_of_endless dwells endless far
      rw [step_of_comes dwells here rfl rfl]
      simp [stepOf, Cpu.execute, Instruction.ofOperands, past, outside, call, read]
  | sysUnknown here notNumber notText =>
      rw [step_of_comes dwells here rfl rfl]
      simp [stepOf, Cpu.execute, Instruction.ofOperands, past, notNumber, notText]
  | ldaConstant value here | ldxConstant value here | ldyConstant value here =>
      rw [step_of_comes dwells here rfl rfl]
      simp [stepOf, Cpu.execute, Instruction.ofOperands, Instruction.constant, past,
        UInt8.add_assoc]
  | bneTaken distance here differs =>
      have order : 1 + (distance + 1) = 2 + distance := by
        rw [UInt8.add_comm distance, ← UInt8.add_assoc]
        rfl
      rw [step_of_comes dwells here rfl rfl]
      simp [stepOf, Cpu.execute, Instruction.ofOperands, Instruction.constant, past,
        UInt8.add_assoc, differs, order]
  | bnePassed distance here equal =>
      rw [step_of_comes dwells here rfl rfl]
      simp [stepOf, Cpu.execute, Instruction.ofOperands, past, UInt8.add_assoc, equal]
  | lda low high value here there | ldx low high value here there | ldy low high value here there
  | adc low high value here there | cpx low high value here there =>
      rw [step_of_comes dwells here rfl rfl]
      refine (stepOf_reading dwells there _).trans ?_
      simp [past, UInt8.add_assoc]
  | sta low high here within =>
      rw [step_of_comes dwells here rfl rfl]
      refine (stepOf_writing dwells within _ _).trans ?_
      simp [past, UInt8.add_assoc]
  | inc low high value here there =>
      have within := (List.getElem?_eq_some_iff.mp there).1
      rw [step_of_comes dwells here rfl rfl]
      change stepOf segment (Cpu.readByte memory process (address low high) >>= _) = _
      rw [readByte_of_some dwells there]
      refine (stepOf_writing dwells within _ _).trans ?_
      simp [past, UInt8.add_assoc]
  | nowhere missing =>
      apply step_of_unfetched
      rw [Cpu.fetch, readByte_of_missing dwells missing]
      rfl
  | unknown code here unlisted =>
      apply step_of_unfetched
      rw [Cpu.fetch_of_code (readByte_of_some dwells here.1), find?_of_unlisted unlisted]
  | cutShort code operands count here listed few missing =>
      rcases find?_of_operands? listed with ⟨opcode, found, rfl⟩
      apply step_of_unfetched
      rw [Cpu.fetch_of_code (readByte_of_some dwells here.1), found]
      simp only [fetchOperands_of_missing dwells here.2 few missing]
      rfl
  | unreachable code low high here reaches missing =>
      exact step_of_unreachable dwells reaches here missing

/-- The processor takes the step that is prescribed, which is the only one. -/
theorem prescribes_iff (dwells : process.Dwells memory segment) {step : Step} :
    Prescribes process.pid (memory.bytes segment) cpu.registers step ↔
      (cpu.run process memory).step segment = step := by
  constructor
  · exact step_of_prescribes dwells
  · rintro rfl
    rcases exists_step process.pid (memory.bytes segment) cpu.registers with ⟨step, prescribed⟩
    exact (step_of_prescribes dwells prescribed).symm ▸ prescribed

end InstructionSet

namespace Bench

open InstructionSet

/-- A step of a process has come to pass on the bench. -/
def Shows (bench after : Bench) (pid : Nat) (segment : Segment) : Step → Prop
  | .completed registers bytes printed =>
    after.cpu.registers = registers ∧ after.memory.bytes segment = bytes ∧
      after.console = printed.elim bench.console (bench.console.putText ·) ∧
      after.interrupts = bench.interrupts
  | .halted =>
    after.cpu.registers = .cleared ∧ after.memory = bench.memory ∧
      after.console = bench.console ∧
      after.interrupts = bench.interrupts.enqueue (.breakProgram pid)
  | .faulted fault =>
    after.cpu.registers = .cleared ∧ after.memory = bench.memory ∧
      after.console = bench.console.putSystemText s!"Process {pid} error: {fault.message}" ∧
      after.interrupts = bench.interrupts.enqueue (.errProgram pid)

theorem shows_step (bench : Bench) (process : Process) (segment : Segment) :
    bench.Shows (bench.cycle process).value.2 process.pid segment
      ((bench.cpu.cycle process bench.memory).step segment) := by
  rw [Cycle.step]
  cases outcome : (bench.cpu.cycle process bench.memory).outcome with
  | completed =>
      refine ⟨rfl, rfl, ?_, (completes outcome).interrupts⟩
      change (bench.cpu.cycle process bench.memory).writeTo bench.console = _
      rw [Cycle.writeTo, outcome]
      cases (bench.cpu.cycle process bench.memory).printed with
      | none => rfl
      | some text => rfl
  | halted =>
      have breaks := breaks outcome
      exact ⟨breaks.registers, breaks.memory, breaks.console, breaks.interrupts⟩
  | faulted fault =>
      have faults := faults outcome
      exact ⟨faults.registers, faults.memory, console_of_faulted outcome, faults.interrupts⟩

/-- One cycle of a process in memory takes exactly the step that the instruction set prescribes for
the registers it goes on with, and changes memory inside its segment only. -/
theorem cycle_as_prescribed (bench : Bench) {process : Process} {segment : Segment}
    (dwells : process.Dwells bench.memory segment) :
    let registers := if process.fresh then process.registers else bench.cpu.registers
    let cycle := bench.cpu.cycle process bench.memory
    let after := (bench.cycle process).value.2
    (∀ step, Prescribes process.pid (bench.memory.bytes segment) registers step ↔
        cycle.step segment = step) ∧
      bench.Shows after process.pid segment (cycle.step segment) ∧
      bench.memory.WithinSegment after.memory segment := by
  have entered : (bench.cpu.entering process).registers =
      if process.fresh then process.registers else bench.cpu.registers := by
    rw [Cpu.entering]
    split <;> rfl
  have dwellsStale : ({ process with fresh := false } : Process).Dwells bench.memory segment :=
    ⟨dwells.located, dwells.inside⟩
  refine ⟨?_, bench.shows_step process segment, Cpu.cycle_within dwells.located dwells.inside _⟩
  intro step
  rw [← entered, Cpu.cycle_eq_run]
  exact prescribes_iff dwellsStale

/-- An instruction that begins at address 255 has its operands at the addresses zero and one.  This
one increments its own operation code. -/
theorem cycle_as_prescribed_wrapping :
    ∃ (bench : Bench) (process : Process) (segment : Segment),
      process.Dwells bench.memory segment ∧ segment.base = 4 ∧
        process.registers.programCounter = 255 ∧
        bench.memory.bytes segment = [0xFF, 0x00] ++ List.replicate 253 0 ++ [0xEE] ∧
        (bench.cycle process).value.2.cpu.registers.programCounter = 2 ∧
        (bench.cycle process).value.2.memory.bytes segment =
          [0xFF, 0x00] ++ List.replicate 253 0 ++ [0xEF] := by
  have situation : ∃ (bench : Bench) (process : Process) (segment : Segment),
      process.Dwells bench.memory segment ∧ segment.base = 4 ∧ process.fresh = true ∧
        process.registers.programCounter = 255 ∧
        bench.memory.bytes segment = [0xFF, 0x00] ++ List.replicate 253 0 ++ [0xEE] := by
    refine ⟨prepared ⟨⟨⟨[1, 2, 3, 4] ++ ([0xFF, 0x00] ++ List.replicate 253 0 ++ [0xEE])⟩⟩,
        [⟨0, 3⟩, ⟨4, 259⟩], [false, true], .insert 7 1 .empty⟩,
      { Process.create 7 1 with
        registers := { Registers.cleared with programCounter := 255 }
        segment := some ⟨4, 259⟩ },
      ⟨4, 259⟩, ⟨rfl, by decide, by decide +kernel⟩, rfl, rfl, rfl, ?_⟩
    rw [Memory.bytes, Array.toList_extract, List.extract_eq_take_drop]
    decide +kernel
  rcases situation with ⟨bench, process, segment, dwells, base, fresh, counter, bytes⟩
  have here : Comes (bench.memory.bytes segment) process.registers [0xEE, 0xFF, 0x00] := by
    rw [Comes, bytes, counter]
    exact ⟨by decide +kernel, by decide +kernel, by decide +kernel, trivial⟩
  have there : (bench.memory.bytes segment)[address 0xFF 0x00]? = some 0xEE := by
    rw [bytes]
    decide +kernel
  rcases bench.cycle_as_prescribed dwells with ⟨prescribed, shows, _⟩
  rw [if_pos fresh] at prescribed
  rw [(prescribed _).mp (.inc 0xFF 0x00 0xEE here there)] at shows
  rcases shows with ⟨registers, bytesNext, _, _⟩
  refine ⟨bench, process, segment, dwells, base, counter, bytes, ?_, ?_⟩
  · rw [registers, past, counter]
    change (255 : UInt8) + 3 = 2
    decide
  · rw [bytesNext, bytes]
    decide +kernel

end Bench

end Timeshare
