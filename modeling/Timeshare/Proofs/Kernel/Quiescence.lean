import Timeshare.Proofs.Kernel.Batch
import Timeshare.Proofs.Kernel.Ownership
import Timeshare.Proofs.Kernel.RoundTrip
import Timeshare.Proofs.Kernel.StorageSteps

/-!
# Quiescence

When a kernel that works off a batch has nothing left to do, it leaves nothing behind.  The programs
that were admitted have all ended, each of them once, and memory and disk are as they were before
the first of them was loaded.

That nothing leaks is the ownership of storage: what is kept is kept for a process that has not
ended.  That no process stays behind is a matter of the batch, since only a process that nobody asks
to run could.
-/

namespace Timeshare

namespace System

variable {system next : System}

/-- Nothing is left of the programs that were admitted but the record that each has ended. -/
structure Quiescent (config : Config) (admitted : List (Nat × List UInt8)) (system : System) :
    Prop where
  nobody : system.processes = []
  ended : (system.terminated.map Process.pid).Perm (admitted.map Prod.fst)
  once : (admitted.map Prod.fst).Nodup
  cleared : system.memory.store = .zeroed config.memorySize
  vacant : ∀ index, system.memory.isOccupied index = false
  unswapped : ∀ pid, system.files.hasSwap pid = false
  formatted : system.files.formatted = config.formatDisk
  emptied : system.files.formatted = true → system.files.Emptied config.disk

/-! ## The numbers of the programs admitted -/

theorem Admits.pids {program : List UInt8} (admits : system.Admits next program) :
    (next.everyone.map Process.pid).Perm (system.nextPid :: system.everyone.map Process.pid) := by
  simpa [List.map_map, Function.comp_def] using admits.progress.map Progress.pid

theorem Runs.pids {process : Process} {cycle : Cycle} (runs : system.Runs next process cycle) :
    (next.everyone.map Process.pid).Perm (system.everyone.map Process.pid) := by
  have before := runs.before.map Progress.pid
  have after := runs.after.map Progress.pid
  rw [List.map_cons] at before after
  simpa [List.map_map, Function.comp_def] using after.trans before.symm

end System

namespace Kernel

variable {kernel next : Kernel} {config : Config} {programs : List (List UInt8)}
  {admitted : List (Nat × List UInt8)} {printed : List (Nat × String)}

theorem Steps.pids {command : Command} (steps : kernel.Steps command next) :
    (next.system.everyone.map Process.pid).Perm
      (kernel.system.everyone.map Process.pid ++
        (kernel.admitted? command).toList.map Prod.fst) := by
  cases steps with
  | carries carries none_admitted =>
      rw [none_admitted]
      simpa using carries.pids
  | admits program admits one_admitted =>
      rw [one_admitted]
      exact admits.pids.trans (List.perm_append_singleton _ _).symm
  | runs between process cycle _ carries _ _ _ runs _ _ none_admitted =>
      rw [none_admitted]
      simpa using runs.pids.trans carries.pids

/-- The processes that there are, ended or not, are the programs that were admitted. -/
theorem Run.numbers (valid : config.validate = .ok ()) (run : Run config kernel admitted printed) :
    (kernel.system.everyone.map Process.pid).Perm (admitted.map Prod.fst) := by
  induction run with
  | boot format =>
      rw [(booted_spec valid format).2.1]
      exact .nil
  | obey command run careful hypothesis =>
      have steps := (obey_spec command (run.inOrder valid) careful).steps
      rw [List.map_append]
      exact steps.pids.trans (hypothesis.append_right _)

/-- The programs that some commands make the kernel admit, with their numbers, the first one
first. -/
def admittedIn : List Command → Kernel → List (Nat × List UInt8)
  | [], _ => []
  | command :: rest, kernel =>
      (kernel.admitted? command).toList ++ admittedIn rest (kernel.obey command)

/-! ## Working off a batch -/

/-- Without a process memory is as it was at the beginning. -/
theorem Run.memory_of_nobody (valid : config.validate = .ok ())
    (run : Run config kernel admitted printed) (nobody : kernel.system.processes = [])
    (size : kernel.system.memory.store.size = config.memorySize) :
    kernel.system.memory = .divided config.memorySize config.segmentCount := by
  have sound := (run.inOrder valid).sound
  rcases Config.validate_eq_ok valid with ⟨positive, fits, _⟩
  apply sound.owns.tidy.eq_divided positive fits (run.segments valid) size
  intro pid
  apply sound.owns.homeless
  simp [nobody]

/-- A kernel of a machine that works off a batch, and the programs that it has admitted. -/
structure Working (kernel : Kernel) (config : Config) (programs : List (List UInt8))
    (admitted : List (Nat × List UInt8)) : Prop where
  run : ∃ printed, Run config kernel admitted printed
  batch : kernel.Batch programs admitted
  size : kernel.system.memory.store.size = config.memorySize
  swaps : kernel.system.files.HoldsSwaps config.disk config.formatDisk

namespace Working

theorem pulse (valid : config.validate = .ok ())
    (working : kernel.Working config programs admitted) :
    kernel.pulse.value.Working config programs
      (admitted ++ (kernel.admitted? .pulse).toList) := by
  rcases working.run with ⟨printed, run⟩
  have order := run.inOrder valid
  have own := working.batch.handled?_ne
  have evolves := pulse_evolves order own
  refine ⟨⟨_, run.obey .pulse ?_⟩, working.batch.pulse order.sound.distinct_resident, ?_, ?_⟩
  · intro format
    exact absurd format (own .format)
  · exact evolves.size.trans working.size
  · exact evolves.holdsSwaps working.swaps

theorem pulses (valid : config.validate = .ok ()) (count : Nat)
    (working : kernel.Working config programs admitted) :
    (kernel.obeyAll (List.replicate count .pulse)).Working config programs
      (admitted ++ kernel.admittedIn (List.replicate count .pulse)) := by
  induction count generalizing kernel admitted with
  | zero =>
      rw [List.replicate_zero, admittedIn, List.append_nil]
      exact working
  | succ count hypothesis =>
      rw [List.replicate_succ, admittedIn, ← List.append_assoc]
      exact hypothesis (working.pulse valid)

/-- Once the batch is worked off nobody is left. -/
theorem nobody (working : kernel.Working config programs admitted) (idle : kernel.isIdle = true) :
    kernel.system.processes = [] := by
  simp only [isIdle, System.isIdle, Bool.and_eq_true, List.isEmpty_iff, Option.isNone_iff_eq_none]
    at idle
  rcases idle with ⟨quiet, executing, ready⟩
  have resident : kernel.system.resident = [] := by
    rcases working.batch.requested with nobody | asked
    · exact nobody
    · rw [quiet] at asked
      cases asked
  simp [System.processes, executing, ready, resident]

theorem quiescent (valid : config.validate = .ok ())
    (working : kernel.Working config programs admitted) (idle : kernel.isIdle = true) :
    kernel.system.Quiescent config admitted := by
  rcases working.run with ⟨printed, run⟩
  have sound := (run.inOrder valid).sound
  have nobody := working.nobody idle
  have unswapped (pid : Nat) : kernel.system.files.hasSwap pid = false := by
    rw [System.hasSwap_eq_false_iff sound]
    apply sound.unswapped_of_nobody
    simp [nobody]
  have everyone : kernel.system.everyone = kernel.system.terminated := by
    simp [System.everyone, nobody]
  have ended := run.numbers valid
  have distinct := sound.distinct
  rw [everyone] at ended distinct
  constructor
  case nobody => exact nobody
  case ended => exact ended
  case once => exact ended.nodup_iff.mp distinct
  case cleared => exact congrArg Memory.store (run.memory_of_nobody valid nobody working.size)
  case vacant =>
    intro index
    rw [Bool.eq_false_iff]
    intro occupied
    rcases sound.existsUnique_hasSegment occupied with ⟨process, ⟨member, _⟩, _⟩
    rw [nobody] at member
    cases member
  case unswapped => exact unswapped
  case formatted => exact working.swaps.formatted_eq
  case emptied =>
    intro formatted
    have swaps := working.swaps
    rw [← swaps.formatted_eq, formatted] at swaps
    exact swaps.emptied unswapped

end Working

end Kernel

end Timeshare
