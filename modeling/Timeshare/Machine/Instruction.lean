import Timeshare.Text.Numeral

/-!
# The instruction set

An instruction is a one-byte operation code followed by no, one or two operand bytes.  One operand
byte is a constant; two are a logical address, low byte first.
-/

namespace Timeshare

inductive Operation
  | halt
  | loadAccConstant
  | loadAccMemory
  | storeAcc
  | addWithCarry
  | loadXConstant
  | loadXMemory
  | loadYConstant
  | loadYMemory
  | noOperation
  | compareX
  | branchNotEqual
  | increment
  | systemCall
deriving DecidableEq, Repr

/-- A row of the table of operation codes. -/
structure Opcode where
  code : UInt8
  mnemonic : String
  operands : Nat
  operation : Operation

def opcodeTable : List Opcode := [
  ⟨0x00, "BRK", 0, .halt⟩,
  ⟨0xA9, "LDA", 1, .loadAccConstant⟩,
  ⟨0xAD, "LDA", 2, .loadAccMemory⟩,
  ⟨0x8D, "STA", 2, .storeAcc⟩,
  ⟨0x6D, "ADC", 2, .addWithCarry⟩,
  ⟨0xA2, "LDX", 1, .loadXConstant⟩,
  ⟨0xAE, "LDX", 2, .loadXMemory⟩,
  ⟨0xA0, "LDY", 1, .loadYConstant⟩,
  ⟨0xAC, "LDY", 2, .loadYMemory⟩,
  ⟨0xEA, "NOP", 0, .noOperation⟩,
  ⟨0xEC, "CPX", 2, .compareX⟩,
  ⟨0xD0, "BNE", 1, .branchNotEqual⟩,
  ⟨0xEE, "INC", 2, .increment⟩,
  ⟨0xFF, "SYS", 0, .systemCall⟩]

def Opcode.find? (code : UInt8) : Option Opcode :=
  opcodeTable.find? fun opcode => opcode.code = code

/-- An instruction with its operand bytes.  Operands that the instruction does not have are
zero. -/
structure Instruction where
  opcode : Opcode
  low : UInt8
  high : UInt8

namespace Instruction

/-- The instruction of an operation code with as many of the operand bytes as it has. -/
def ofOperands (opcode : Opcode) (operands : List UInt8) : Instruction :=
  let own := operands.take opcode.operands
  ⟨opcode, own.getD 0 0, own.getD 1 0⟩

def constant (instruction : Instruction) : UInt8 :=
  instruction.low

def address (instruction : Instruction) : Nat :=
  instruction.low.toNat + 256 * instruction.high.toNat

def text (instruction : Instruction) : String :=
  let lead := s!"{Text.hexByte instruction.opcode.code} {instruction.opcode.mnemonic}"
  match instruction.opcode.operands with
  | 1 => lead ++ " #$" ++ Text.hexByte instruction.constant
  | 2 => lead ++ " $" ++ Text.hexPadded 4 instruction.address
  | _ => lead

end Instruction

end Timeshare
