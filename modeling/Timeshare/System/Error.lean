import Timeshare.FileSystem.Error
import Timeshare.Memory.Error

/-!
# Errors of moving processes
-/

namespace Timeshare

/-- Why an image could not be moved between memory and disk. -/
inductive TransferError
  | memory (error : MemoryError)
  | files (error : FileSystemError)
deriving DecidableEq

namespace TransferError

def message : TransferError → String
  | memory error => error.message
  | files error => error.message

end TransferError

/-- A ready process that could not be brought into memory.  It has been terminated. -/
structure DispatchFailure where
  pid : Nat
  cause : TransferError
deriving DecidableEq

namespace DispatchFailure

def message (failure : DispatchFailure) : String :=
  s!"Could not dispatch process {failure.pid}: {failure.cause.message}"

end DispatchFailure

end Timeshare
