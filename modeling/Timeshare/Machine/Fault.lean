import Timeshare.Memory.Error

/-!
# Faults

What can abort an instruction.
-/

namespace Timeshare

/-- Why an instruction was aborted. -/
inductive Fault
  | unknownOpcode (code : UInt8)
  /-- The X register holds no system call number. -/
  | invalidSystemCall (x : UInt8)
  | memory (error : MemoryError)
deriving DecidableEq

namespace Fault

def message : Fault → String
  | unknownOpcode code => s!"Unknown opcode: {Text.hexByte code}"
  | invalidSystemCall x => s!"Invalid system call: X register holds {Text.hexByte x}"
  | memory error => error.message

end Fault

end Timeshare
