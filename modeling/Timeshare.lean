import Timeshare.Collections.OrderedMap
import Timeshare.Collections.OrderedSet
import Timeshare.Collections.SplitLast
import Timeshare.Console
import Timeshare.Disk.Device
import Timeshare.Disk.Location
import Timeshare.DriverStatus
import Timeshare.FileSystem.Block
import Timeshare.FileSystem.Dump
import Timeshare.FileSystem.Error
import Timeshare.FileSystem.Lookup
import Timeshare.FileSystem.Request
import Timeshare.FileSystem.Service
import Timeshare.FileSystem.State
import Timeshare.FileSystem.Swap
import Timeshare.FileSystem.Update
import Timeshare.Host.CommandLine
import Timeshare.Host.Directory
import Timeshare.Host.Report
import Timeshare.Host.Session
import Timeshare.Interrupt
import Timeshare.Journal.Event
import Timeshare.Journal.Journaled
import Timeshare.Journal.Note
import Timeshare.Journal.Reports
import Timeshare.Kernel.Clock
import Timeshare.Kernel.Config
import Timeshare.Kernel.Handlers
import Timeshare.Kernel.State
import Timeshare.Keyboard
import Timeshare.Machine.Bench
import Timeshare.Machine.Cpu
import Timeshare.Machine.Fault
import Timeshare.Machine.Instruction
import Timeshare.Machine.Registers
import Timeshare.Memory.Error
import Timeshare.Memory.Partitioned
import Timeshare.Memory.Segment
import Timeshare.Memory.Store
import Timeshare.Policy
import Timeshare.Process
import Timeshare.Program.JobFile
import Timeshare.Program.Source
import Timeshare.System.Dispatch
import Timeshare.System.Error
import Timeshare.System.State
import Timeshare.System.Swapping
import Timeshare.Text.Glyphless
import Timeshare.Text.Numeral
import Timeshare.Text.Quote
import Timeshare.Text.Utf8
import Timeshare.Text.Whitespace
import Timeshare.Main
import Timeshare.Proofs.OrderedMap
import Timeshare.Proofs.OrderedSet
import Timeshare.Proofs.Disk
import Timeshare.Proofs.FileSystem.Block
import Timeshare.Proofs.FileSystem.Perform
import Timeshare.Proofs.FileSystem.Layout
import Timeshare.Proofs.FileSystem.Chain
import Timeshare.Proofs.FileSystem.Catalogue
import Timeshare.Proofs.FileSystem.Updates
import Timeshare.Proofs.FileSystem.SwapFiles
import Timeshare.Proofs.FileSystem.Representation
import Timeshare.Proofs.FileSystem.Contents
import Timeshare.Proofs.FileSystem.Refinement
import Timeshare.Proofs.Memory.Tables
import Timeshare.Proofs.Memory.Partitions
import Timeshare.Proofs.Memory.Divided
import Timeshare.Proofs.Memory.Lodging
import Timeshare.Proofs.Memory.Service
import Timeshare.Proofs.FileSystem.SwapArea
import Timeshare.Proofs.Machine.Faults
import Timeshare.Proofs.Machine.Relocation
import Timeshare.Proofs.System.Storage
import Timeshare.Proofs.System.Swapping
import Timeshare.Proofs.System.Dispatch
import Timeshare.Proofs.System.Execution
import Timeshare.Proofs.Kernel.Run
import Timeshare.Proofs.Kernel.Ownership
import Timeshare.Proofs.Machine.Atomicity
import Timeshare.Proofs.Machine.InstructionSet
import Timeshare.Proofs.Machine.Conformance
import Timeshare.Proofs.Machine.Solo
import Timeshare.Proofs.Kernel.Console
import Timeshare.Proofs.Kernel.Transparency
import Timeshare.Proofs.System.Moving
import Timeshare.Proofs.System.Roster
import Timeshare.Proofs.Kernel.Response
import Timeshare.Proofs.System.Lineup
import Timeshare.Proofs.System.Housing
import Timeshare.Proofs.Kernel.Ticks
import Timeshare.Proofs.Kernel.Preemption
import Timeshare.Proofs.Kernel.Turns
import Timeshare.Proofs.Kernel.Endings
import Timeshare.Proofs.Kernel.Coherence
import Timeshare.Proofs.Kernel.Census
import Timeshare.Proofs.Kernel.FileRequests
import Timeshare.Proofs.Kernel.RoundTrip
import Timeshare.Proofs.FileSystem.SwapIndex
import Timeshare.Proofs.System.Times
import Timeshare.Proofs.Kernel.Times
import Timeshare.Proofs.FileSystem.SwapRelease
import Timeshare.Proofs.System.FailedDispatch
import Timeshare.Proofs.Kernel.FailedDispatch
import Timeshare.Proofs.FileSystem.SwapsOnly
import Timeshare.Proofs.Kernel.StorageSteps
import Timeshare.Proofs.Kernel.Batch
import Timeshare.Proofs.Kernel.Quiescence
import Timeshare.Proofs.Kernel.Clock
import Timeshare.Proofs.Host.Session
import Timeshare.Proofs.Kernel.Arrivals
import Timeshare.Proofs.FileSystem.Atomicity
import Timeshare.Proofs.FileSystem.Undoing
import Timeshare.Proofs.FileSystem.Appending
import Timeshare.Proofs.Kernel.ClearMemory
import Timeshare.Proofs.FileSystem.SwapSpace
import Timeshare.Proofs.Kernel.Admission
import Timeshare.Proofs.Kernel.RollingIn
import Timeshare.Proofs.Kernel.Overtaking
import Timeshare.Proofs.Memory.Evacuation
import Timeshare.Proofs.FileSystem.Walking
import Timeshare.Proofs.Text.Whitespace
import Timeshare.Proofs.Text.Numeral
import Timeshare.Proofs.Text.Lines
import Timeshare.Proofs.Program.Source
import Timeshare.Proofs.Program.JobFile
import Timeshare.Proofs.Host.Jobs
import Timeshare.Proofs.Text.Fields
import Timeshare.Proofs.Program.Tokens
import Timeshare.Proofs.Console
import Timeshare.Proofs.Memory.Tiling
import Timeshare.Proofs.Disk.Addressing
import Timeshare.Proofs.FileSystem.Encoding
import Timeshare.Proofs.Machine.Strings
import Timeshare.Proofs.Program.Cards
