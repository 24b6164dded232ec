import Timeshare.Text.Numeral

/-!
# Memory errors
-/

namespace Timeshare

inductive MemoryError
  /-- The physical address lies outside the store. -/
  | outOfRange (address : Nat)
  | outOfMemory
  /-- The logical address lies outside the segment of the process. -/
  | segmentationFault (pid address : Nat)
  | notResident (pid : Nat)
deriving DecidableEq, Repr

namespace MemoryError

def message : MemoryError → String
  | outOfRange address => s!"Memory address 0x{Text.hexPadded 4 address} is out of range"
  | outOfMemory => "There is not enough memory to load a new program"
  | segmentationFault pid address =>
    s!"Process {pid} attempted to access memory address {Text.hexPadded 2 address}, " ++
      "which is out of its segment"
  | notResident pid => s!"Process {pid} is not resident in memory"

end MemoryError

end Timeshare
