import Timeshare.Proofs.Kernel.Census

/-!
# File requests and swapped-out processes

Requests of users share the disk with the images of processes.  All but one leave every swap file as
it is, whatever the name they give.  Formatting does not: it takes the image of every process that
lies on disk, and the kernel does not refuse it.
-/

namespace Timeshare

/-- A process that has not ended lies on disk, and its active swap file holds `image`. -/
structure System.SwappedOut (system : System) (process : Process) (image : List UInt8) : Prop where
  living : process ∈ system.processes
  onDisk : process.isOnDisk = true
  active : system.files.hasSwap process.pid = true
  stored : system.files.readBytes (FileSystem.swapName process.pid) = .ok image

namespace FileSystem

theorem swapImage_eq_some_iff {files : FileSystem} {pid : Nat} {image : List UInt8} :
    files.swapImage pid = some image ↔
      files.hasSwap pid = true ∧ files.readBytes (swapName pid) = .ok image := by
  unfold swapImage
  cases files.hasSwap pid with
  | false => simp
  | true =>
      cases files.readBytes (swapName pid) with
      | error error => simp [Except.toOption]
      | ok bytes => simp [Except.toOption]

end FileSystem

namespace System

variable {system next : System} {process : Process} {image : List UInt8}

theorem swappedOut_iff : system.SwappedOut process image ↔
    process ∈ system.processes ∧ process.isOnDisk = true ∧
      system.files.swapImage process.pid = some image := by
  rw [FileSystem.swapImage_eq_some_iff]
  constructor
  · rintro ⟨living, onDisk, active, stored⟩
    exact ⟨living, onDisk, active, stored⟩
  · rintro ⟨living, onDisk, active, stored⟩
    exact ⟨living, onDisk, active, stored⟩

instance : Decidable (system.SwappedOut process image) :=
  decidable_of_iff _ swappedOut_iff.symm

theorem swappedOut_congr (processes : next.processes = system.processes)
    (swapped : ∀ pid, next.files.swapImage pid = system.files.swapImage pid) :
    next.SwappedOut process image ↔ system.SwappedOut process image := by
  rw [swappedOut_iff, swappedOut_iff, processes, swapped]

/-- In a system in order every process on disk is swapped out with some image. -/
theorem Sound.exists_swappedOut (sound : system.Sound) (member : process ∈ system.processes)
    (onDisk : process.isOnDisk = true) : ∃ image, system.SwappedOut process image := by
  cases sound.owns.keeps process member with
  | inMemory _ _ residence => simp [Process.isOnDisk, residence] at onDisk
  | onDisk image _ _ _ swapped => exact ⟨image, swappedOut_iff.mpr ⟨member, onDisk, swapped⟩⟩

end System

namespace Kernel

/-- The kernel can come to this state, whatever the host has said. -/
def Reached (config : Config) (kernel : Kernel) : Prop :=
  ∃ format commands, kernel = (booted config format).obeyAll commands

theorem Reached.serviceable {config : Config} (valid : config.validate = .ok ()) {kernel : Kernel}
    (reached : kernel.Reached config) : kernel.system.files.Serviceable := by
  rcases reached with ⟨format, commands, rfl⟩
  have usable := (loaded_sound valid).owns.serviceable
  rcases system_booted config format with ⟨files, system_eq, serviceable⟩
  apply ((steady_booted config format).upholds_obeyAll commands).serviceable
  rw [system_eq]
  exact serviceable usable

/-- A request of a user leaves every swapped-out process its swap file and brings none about, unless
it formats the disk: then none is left.  As long as the disk was not formatted while a process lay
there, every process on disk is swapped out. -/
theorem swappedOut_after_request {config : Config} (valid : config.validate = .ok ())
    {kernel : Kernel} (reached : kernel.Reached config) (request : FileRequest) :
    (request ≠ .format → ∀ process image,
      (kernel.handle (.fileSystem request)).value.system.SwappedOut process image ↔
        kernel.system.SwappedOut process image) ∧
    (request = .format → ∀ process image,
      ¬ (kernel.handle (.fileSystem request)).value.system.SwappedOut process image) ∧
    ∀ admitted printed, Run config kernel admitted printed → ∀ process ∈ kernel.system.processes,
      process.isOnDisk = true → ∃ image, kernel.system.SwappedOut process image := by
  have serviceable := reached.serviceable valid
  rw [system_handle]
  refine ⟨?_, ?_, ?_⟩
  · intro keeps process image
    exact System.swappedOut_congr rfl (serviceable.serve keeps).2
  · rintro rfl process image swapped
    rcases serviceable.serve_format with ⟨report, files, served, _, dropped⟩
    have kept := (System.swappedOut_iff.mp swapped).2.2
    rw [System.respond, served, dropped] at kept
    cases kept
  · intro admitted printed run process member onDisk
    exact (run.inOrder valid).sound.exists_swappedOut member onDisk

/-- A segment for one program, and two programs. -/
def crowded : Config :=
  { memorySize := 6, segmentCount := 1, disk := ⟨2, 1, 4⟩ }

def crowd : List Command :=
  [.enqueue (.loadProgram "EA 00" none), .enqueue (.loadProgram "A9 07 00" none), .pulse, .pulse]

/-- Of two programs the second lies on disk, out of reach of a request to delete its file. -/
theorem swappedOut_after_request_small :
    ∃ (kernel : Kernel) (process : Process), kernel.Reached crowded ∧ kernel.system.SwappedOut process [0xA9, 7, 0] ∧
      (kernel.handle (.fileSystem (.delete ".swap1"))).value.system.SwappedOut process
        [0xA9, 7, 0] ∧
      ¬ (kernel.handle (.fileSystem .format)).value.system.SwappedOut process [0xA9, 7, 0] := by
  have present : ∃ process ∈ ((booted crowded true).obeyAll crowd).system.processes,
      ((booted crowded true).obeyAll crowd).system.SwappedOut process [0xA9, 7, 0] := by
    decide +kernel
  have reached : ((booted crowded true).obeyAll crowd).Reached crowded := ⟨true, crowd, rfl⟩
  generalize (booted crowded true).obeyAll crowd = kernel at present reached
  rcases present with ⟨process, _, swapped⟩
  rcases swappedOut_after_request (by decide) reached (.delete ".swap1") with ⟨spares, _⟩
  rcases swappedOut_after_request (by decide) reached .format with ⟨_, drops, _⟩
  exact ⟨kernel, process, reached, swapped, (spares (by simp) process _).mpr swapped,
    drops rfl process _⟩

/-- Formatting the disk takes the image of a process that lies there. -/
theorem not_swappedOut_after_format : ¬ ∀ config : Config, config.validate = .ok () →
    ∀ kernel : Kernel, kernel.Reached config → ∀ request process image,
      kernel.system.SwappedOut process image →
        (kernel.handle (.fileSystem request)).value.system.SwappedOut process image := by
  intro spared
  have lost : ∃ process ∈ ((booted crowded true).obeyAll crowd).system.processes,
      ((booted crowded true).obeyAll crowd).system.SwappedOut process [0xA9, 7, 0] ∧
        ¬ (((booted crowded true).obeyAll crowd).handle (.fileSystem .format)).value.system.SwappedOut
          process [0xA9, 7, 0] := by
    decide +kernel
  have reached : ((booted crowded true).obeyAll crowd).Reached crowded := ⟨true, crowd, rfl⟩
  generalize (booted crowded true).obeyAll crowd = kernel at lost reached
  rcases lost with ⟨process, _, before, after⟩
  exact after (spared crowded (by decide) kernel reached .format process _ before)

end Kernel

end Timeshare
