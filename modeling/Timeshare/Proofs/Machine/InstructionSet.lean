import Mathlib.Data.List.Basic
import Timeshare.Machine.Fault
import Timeshare.Machine.Registers

/-!
# The instruction set

What one instruction does to a program, told from inside its segment: from the bytes of the program
and its registers alone, with one rule for each operation code and for each way to fault.  There is
a step for every program (`exists_step`).  That there is only one follows when the processor is found
to take whatever is prescribed.
-/

namespace Timeshare

namespace InstructionSet

/-- A step of a program: the registers, the bytes of the segment and what was printed, or the end of
the program, or a fault. -/
inductive Step
  | completed (registers : Registers) (bytes : List UInt8) (printed : Option String)
  | halted
  | faulted (fault : Fault)

/-- The operation codes without operands. -/
def bare : List UInt8 := [0x00, 0xEA, 0xFF]

/-- The operation codes that are followed by a constant. -/
def immediate : List UInt8 := [0xA9, 0xA2, 0xA0, 0xD0]

/-- The operation codes that are followed by an address. -/
def absolute : List UInt8 := [0xAD, 0x8D, 0x6D, 0xAE, 0xAC, 0xEC, 0xEE]

/-- The number of operand bytes that belong to an operation code. -/
def operands? (code : UInt8) : Option Nat :=
  if code ∈ bare then some 0
  else if code ∈ immediate then some 1
  else if code ∈ absolute then some 2
  else none

/-- The address that two operand bytes name, the low one first. -/
def address (low high : UInt8) : Nat :=
  low.toNat + 256 * high.toNat

/-- The bytes of an instruction lie one after the other from where a counter points.  The counter
wraps around after 255. -/
def Stands (bytes : List UInt8) : UInt8 → List UInt8 → Prop
  | _, [] => True
  | counter, byte :: rest => bytes[counter.toNat]? = some byte ∧ Stands bytes (counter + 1) rest

/-- The program counter points to an instruction. -/
def Comes (bytes : List UInt8) (registers : Registers) (instruction : List UInt8) : Prop :=
  Stands bytes registers.programCounter instruction

/-- The registers with the program counter moved on. -/
def past (distance : UInt8) (registers : Registers) : Registers :=
  { registers with programCounter := registers.programCounter + distance }

/-- A program has reached for an address that its segment does not have. -/
def outside (pid address : Nat) : Step :=
  .faulted (.memory (.segmentationFault pid address))

/-- The step that the instruction set prescribes to a program. -/
inductive Prescribes (pid : Nat) (bytes : List UInt8) (registers : Registers) : Step → Prop
  -- Operations without operands.
  | brk (here : Comes bytes registers [0x00]) : Prescribes pid bytes registers .halted
  | nop (here : Comes bytes registers [0xEA]) :
      Prescribes pid bytes registers (.completed (past 1 registers) bytes none)
  | sysNumber (here : Comes bytes registers [0xFF]) (call : registers.x = 1) :
      Prescribes pid bytes registers
        (.completed (past 1 registers) bytes (some (toString registers.y.toNat)))
  | sysText (here : Comes bytes registers [0xFF]) (call : registers.x = 2) (text : List UInt8)
      (nonzero : 0 ∉ text) (there : text ++ [0] <+: bytes.drop registers.y.toNat) :
      Prescribes pid bytes registers
        (.completed (past 1 registers) bytes
          (some (String.ofList (text.map fun byte => Char.ofNat byte.toNat))))
  | sysEndless (here : Comes bytes registers [0xFF]) (call : registers.x = 2)
      (endless : 0 ∉ bytes.drop registers.y.toNat) :
      Prescribes pid bytes registers (outside pid (max registers.y.toNat bytes.length))
  | sysUnknown (here : Comes bytes registers [0xFF]) (notNumber : registers.x ≠ 1)
      (notText : registers.x ≠ 2) :
      Prescribes pid bytes registers (.faulted (.invalidSystemCall registers.x))
  -- Operations on a constant.
  | ldaConstant (value : UInt8) (here : Comes bytes registers [0xA9, value]) :
      Prescribes pid bytes registers
        (.completed { past 2 registers with accumulator := value } bytes none)
  | ldxConstant (value : UInt8) (here : Comes bytes registers [0xA2, value]) :
      Prescribes pid bytes registers (.completed { past 2 registers with x := value } bytes none)
  | ldyConstant (value : UInt8) (here : Comes bytes registers [0xA0, value]) :
      Prescribes pid bytes registers (.completed { past 2 registers with y := value } bytes none)
  | bneTaken (distance : UInt8) (here : Comes bytes registers [0xD0, distance])
      (differs : registers.zero = 0) :
      Prescribes pid bytes registers (.completed (past (2 + distance) registers) bytes none)
  | bnePassed (distance : UInt8) (here : Comes bytes registers [0xD0, distance])
      (equal : registers.zero ≠ 0) :
      Prescribes pid bytes registers (.completed (past 2 registers) bytes none)
  -- Operations on a byte of the segment.
  | lda (low high value : UInt8) (here : Comes bytes registers [0xAD, low, high])
      (there : bytes[address low high]? = some value) :
      Prescribes pid bytes registers
        (.completed { past 3 registers with accumulator := value } bytes none)
  | ldx (low high value : UInt8) (here : Comes bytes registers [0xAE, low, high])
      (there : bytes[address low high]? = some value) :
      Prescribes pid bytes registers (.completed { past 3 registers with x := value } bytes none)
  | ldy (low high value : UInt8) (here : Comes bytes registers [0xAC, low, high])
      (there : bytes[address low high]? = some value) :
      Prescribes pid bytes registers (.completed { past 3 registers with y := value } bytes none)
  | adc (low high value : UInt8) (here : Comes bytes registers [0x6D, low, high])
      (there : bytes[address low high]? = some value) :
      Prescribes pid bytes registers
        (.completed { past 3 registers with accumulator := registers.accumulator + value } bytes
          none)
  | cpx (low high value : UInt8) (here : Comes bytes registers [0xEC, low, high])
      (there : bytes[address low high]? = some value) :
      Prescribes pid bytes registers
        (.completed { past 3 registers with zero := if value = registers.x then 1 else 0 } bytes
          none)
  | sta (low high : UInt8) (here : Comes bytes registers [0x8D, low, high])
      (within : address low high < bytes.length) :
      Prescribes pid bytes registers
        (.completed (past 3 registers) (bytes.set (address low high) registers.accumulator) none)
  | inc (low high value : UInt8) (here : Comes bytes registers [0xEE, low, high])
      (there : bytes[address low high]? = some value) :
      Prescribes pid bytes registers
        (.completed (past 3 registers) (bytes.set (address low high) (value + 1)) none)
  -- Faults that any operation can have.
  | nowhere (missing : bytes.length ≤ registers.programCounter.toNat) :
      Prescribes pid bytes registers (outside pid registers.programCounter.toNat)
  | unknown (code : UInt8) (here : Comes bytes registers [code])
      (unlisted : operands? code = none) :
      Prescribes pid bytes registers (.faulted (.unknownOpcode code))
  | cutShort (code : UInt8) (operands : List UInt8) (count : Nat)
      (here : Comes bytes registers (code :: operands)) (listed : operands? code = some count)
      (few : operands.length < count)
      (missing : bytes.length ≤
        (registers.programCounter + 1 + UInt8.ofNat operands.length).toNat) :
      Prescribes pid bytes registers
        (outside pid (registers.programCounter + 1 + UInt8.ofNat operands.length).toNat)
  | unreachable (code low high : UInt8) (here : Comes bytes registers [code, low, high])
      (reaches : code ∈ absolute) (missing : bytes.length ≤ address low high) :
      Prescribes pid bytes registers (outside pid (address low high))

variable {pid : Nat} {bytes : List UInt8} {registers : Registers}

/-! ## Every program has a step -/

theorem exists_bare {code : UInt8} (listed : code ∈ bare) (here : Comes bytes registers [code]) :
    ∃ step, Prescribes pid bytes registers step := by
  simp only [bare, List.mem_cons, List.not_mem_nil, or_false] at listed
  rcases listed with rfl | rfl | rfl
  · exact ⟨_, .brk here⟩
  · exact ⟨_, .nop here⟩
  · by_cases number : registers.x = 1
    · exact ⟨_, .sysNumber here number⟩
    · by_cases text : registers.x = 2
      · by_cases ends : (0 : UInt8) ∈ bytes.drop registers.y.toNat
        · rcases List.eq_append_cons_of_mem ends with ⟨characters, rest, split, nonzero⟩
          refine ⟨_, .sysText here text characters nonzero ⟨rest, ?_⟩⟩
          rw [split, List.append_assoc, List.singleton_append]
        · exact ⟨_, .sysEndless here text ends⟩
      · exact ⟨_, .sysUnknown here number text⟩

theorem exists_immediate {code value : UInt8} (listed : code ∈ immediate)
    (here : Comes bytes registers [code, value]) : ∃ step, Prescribes pid bytes registers step := by
  simp only [immediate, List.mem_cons, List.not_mem_nil, or_false] at listed
  rcases listed with rfl | rfl | rfl | rfl
  · exact ⟨_, .ldaConstant value here⟩
  · exact ⟨_, .ldxConstant value here⟩
  · exact ⟨_, .ldyConstant value here⟩
  · by_cases differs : registers.zero = 0
    · exact ⟨_, .bneTaken value here differs⟩
    · exact ⟨_, .bnePassed value here differs⟩

theorem exists_absolute {code low high : UInt8} (listed : code ∈ absolute)
    (here : Comes bytes registers [code, low, high]) (within : address low high < bytes.length) :
    ∃ step, Prescribes pid bytes registers step := by
  have there := List.getElem?_eq_getElem within
  simp only [absolute, List.mem_cons, List.not_mem_nil, or_false] at listed
  rcases listed with rfl | rfl | rfl | rfl | rfl | rfl | rfl
  · exact ⟨_, .lda low high _ here there⟩
  · exact ⟨_, .sta low high here within⟩
  · exact ⟨_, .adc low high _ here there⟩
  · exact ⟨_, .ldx low high _ here there⟩
  · exact ⟨_, .ldy low high _ here there⟩
  · exact ⟨_, .cpx low high _ here there⟩
  · exact ⟨_, .inc low high _ here there⟩

/-- Either some of the operand bytes that are still wanted are missing, or all of them are there. -/
theorem cut_or_whole (bytes : List UInt8) (counter : UInt8) (count : Nat) :
    (∃ operands : List UInt8, Stands bytes counter operands ∧ operands.length < count ∧
        bytes.length ≤ (counter + UInt8.ofNat operands.length).toNat) ∨
      ∃ operands : List UInt8, Stands bytes counter operands ∧ operands.length = count := by
  induction count generalizing counter with
  | zero => exact Or.inr ⟨[], trivial, rfl⟩
  | succ count hypothesis =>
      rcases Nat.lt_or_ge counter.toNat bytes.length with within | missing
      · have there := List.getElem?_eq_getElem within
        rcases hypothesis (counter + 1) with
          ⟨operands, here, few, missing⟩ | ⟨operands, here, whole⟩
        · refine Or.inl ⟨_ :: operands, ⟨there, here⟩, Nat.succ_lt_succ few, ?_⟩
          rwa [List.length_cons, UInt8.ofNat_add, UInt8.add_comm (UInt8.ofNat _), ← UInt8.add_assoc]
        · exact Or.inr ⟨_ :: operands, ⟨there, here⟩, congrArg Nat.succ whole⟩
      · refine Or.inl ⟨[], trivial, Nat.succ_pos count, ?_⟩
        simpa using missing

theorem exists_whole {code : UInt8} {operands : List UInt8}
    (listed : operands? code = some operands.length)
    (here : Comes bytes registers (code :: operands)) :
    ∃ step, Prescribes pid bytes registers step := by
  unfold operands? at listed
  split at listed
  · rename_i member
    obtain rfl : operands = [] := List.length_eq_zero_iff.mp (Option.some.inj listed).symm
    exact exists_bare member here
  · split at listed
    · rename_i member
      obtain ⟨value, rfl⟩ := List.length_eq_one_iff.mp (Option.some.inj listed).symm
      exact exists_immediate member here
    · split at listed
      · rename_i member
        obtain ⟨low, high, rfl⟩ := List.length_eq_two.mp (Option.some.inj listed).symm
        rcases Nat.lt_or_ge (address low high) bytes.length with within | missing
        · exact exists_absolute member here within
        · exact ⟨_, .unreachable code low high here member missing⟩
      · cases listed

theorem exists_step (pid : Nat) (bytes : List UInt8) (registers : Registers) :
    ∃ step, Prescribes pid bytes registers step := by
  cases fetched : bytes[registers.programCounter.toNat]? with
  | none => exact ⟨_, .nowhere (List.getElem?_eq_none_iff.mp fetched)⟩
  | some code =>
      cases listed : operands? code with
      | none => exact ⟨_, .unknown code ⟨fetched, trivial⟩ listed⟩
      | some count =>
          rcases cut_or_whole bytes (registers.programCounter + 1) count with
            ⟨operands, here, few, missing⟩ | ⟨operands, here, rfl⟩
          · exact ⟨_, .cutShort code operands count ⟨fetched, here⟩ listed few missing⟩
          · exact exists_whole listed ⟨fetched, here⟩

end InstructionSet

end Timeshare
