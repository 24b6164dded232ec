import Timeshare.Disk.Location
import Timeshare.Policy

/-!
# Configuration

The geometry of the machine and the settings the kernel boots with.
-/

namespace Timeshare

structure Config where
  memorySize : Nat := 768
  segmentCount : Nat := 3
  disk : Geometry := ⟨4, 8, 8⟩
  quantum : Nat := defaultQuantum
  schedule : Schedule := .roundRobin
  formatDisk : Bool := true
deriving DecidableEq

inductive ConfigError
  | noMemory
  | noSegments
  /-- There are more segments than bytes to put into them. -/
  | tooManySegments (memorySize segmentCount : Nat)
  | emptyDisk
deriving DecidableEq, Repr

namespace ConfigError

def message : ConfigError → String
  | noMemory => "Memory size must be at least one byte"
  | noSegments => "Memory needs at least one segment"
  | tooManySegments memorySize segmentCount =>
    s!"Cannot split {memorySize} bytes of memory into {segmentCount} segments"
  | emptyDisk => "Disk tracks, sectors and blocks must all be non-zero"

end ConfigError

namespace Config

/-- The configuration used where nothing else is asked for. -/
def standard : Config := {}

/-- Refuses geometries the kernel cannot boot with. -/
def validate (config : Config) : Except ConfigError Unit :=
  if config.memorySize = 0 then .error .noMemory
  else if config.segmentCount = 0 then .error .noSegments
  else if config.memorySize < config.segmentCount then
    .error (.tooManySegments config.memorySize config.segmentCount)
  else if config.disk.tracks = 0 ∨ config.disk.sectors = 0 ∨ config.disk.blocks = 0 then
    .error .emptyDisk
  else .ok ()

end Config

end Timeshare
