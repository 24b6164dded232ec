/-!
# Driver status

Device drivers are loaded once, when the kernel boots.
-/

namespace Timeshare

/-- Whether a device driver was loaded. -/
inductive DriverStatus
  | unloaded
  | loaded
deriving DecidableEq

end Timeshare
