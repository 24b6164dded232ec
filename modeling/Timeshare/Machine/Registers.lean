import Timeshare.Text.Numeral

/-!
# Registers

The register file of the accumulator machine.  The processor works on one, and every process keeps
a copy of it while it does not run.
-/

namespace Timeshare

structure Registers where
  programCounter : UInt8
  accumulator : UInt8
  x : UInt8
  y : UInt8
  /-- One after a comparison that found equality, zero after one that did not. -/
  zero : UInt8
deriving DecidableEq

namespace Registers

def cleared : Registers :=
  ⟨0, 0, 0, 0, 0⟩

/-- The registers and the last instruction fetched, as displays show them. -/
def text (registers : Registers) (lastInstruction : Option UInt8) : String :=
  let instruction := (lastInstruction.map Text.hexByte).getD "--"
  s!"PC={Text.hexByte registers.programCounter} IR={instruction} " ++
    s!"ACC={Text.hexByte registers.accumulator} X={Text.hexByte registers.x} " ++
    s!"Y={Text.hexByte registers.y} Z={registers.zero.toNat}"

end Registers

end Timeshare
