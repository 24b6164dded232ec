import Timeshare.Proofs.Kernel.Preemption
import Timeshare.Proofs.Kernel.RoundTrip
import Timeshare.Proofs.System.FailedDispatch

/-!
# Failed dispatches of the kernel

In every state of a run a dispatch that fails, in a context switch or not, costs the process that
was to run and nothing else.  That the other processes stay in order needs the ready queue to be in
the order of priority whenever the policy keeps it so, which every command preserves.
-/

namespace Timeshare

open FileSystem (swapName)

namespace Lineup

variable {lineup next : Lineup}

theorem Dispatches.sorted (dispatches : lineup.Dispatches next) (sorted : Sorted lineup.ready) :
    Sorted next.ready := by
  cases dispatches with
  | stays => exact sorted
  | gives head rest idle ready =>
      rw [ready] at sorted
      exact sorted.of_cons
  | fails head rest idle ready =>
      rw [ready] at sorted
      exact sorted.of_cons

/-- The ready queue is in the order of priority if the policy keeps it so. -/
def Ordered (lineup : Lineup) : Prop :=
  lineup.policy.ordersByPriority = true → Sorted lineup.ready

theorem Ordered.of_schedule (ordered : lineup.Ordered)
    (schedule : next.policy.schedule = lineup.policy.schedule)
    (sorted : lineup.policy.ordersByPriority = true → Sorted lineup.ready → Sorted next.ready) :
    next.Ordered := by
  intro priority
  have before : lineup.policy.ordersByPriority = true := by
    rwa [Policy.ordersByPriority, schedule] at priority
  exact sorted before (ordered before)

end Lineup

namespace System

/-- A dispatch fails, in a context switch or not.  What is saved of the executing process, if it
is switched out, and the system afterwards. -/
inductive Fails (system : System) (failure : DispatchFailure) : Option Process → System → Prop
  | dispatch {next : System} (failed : system.dispatch.value = (.error failure, next)) :
      Fails system failure none next
  | contextSwitch {next : System} (failed : system.contextSwitch.value = (.error failure, next)) :
      Fails system failure system.saved next

end System

namespace Kernel

variable {kernel : Kernel}

theorem ordered_obey (ordered : kernel.lineup.Ordered)
    (distinct : (kernel.system.resident.map Process.pid).Nodup) (command : Command) :
    (kernel.obey command).lineup.Ordered := by
  cases command with
  | enqueue interrupt => exact ordered
  | setQuantum quantum => exact ordered.of_schedule rfl fun _ sorted => sorted
  | setSchedule schedule =>
      rcases System.setSchedule_lineup schedule kernel.system with ⟨queue, lineup_eq, _, sorted⟩
      have lineup_eq : (kernel.obey (.setSchedule schedule)).lineup = _ := lineup_eq
      rw [lineup_eq]
      intro priority
      exact sorted (of_decide_eq_true priority)
  | pulse =>
      change kernel.pulse.value.lineup.Ordered
      cases pulse_ticks distinct with
      | rests lineup_eq =>
          rw [lineup_eq]
          exact ordered
      | handles interrupt rest raised queue _ _ _ changes =>
          exact ordered.of_schedule changes.schedule changes.sorted
      | fails head rest _ _ _ _ idle ready lineup_eq =>
          rw [lineup_eq]
          exact ordered.of_schedule rfl fun _ =>
            (Lineup.Dispatches.fails head rest idle ready).sorted
      | runs between cycle _ _ _ dispatches _ _ lineup_eq =>
          rw [lineup_eq]
          have schedule : between.policy.schedule = kernel.lineup.policy.schedule :=
            congrArg Policy.schedule dispatches.policy
          exact ordered.of_schedule schedule fun _ => dispatches.sorted

theorem Run.ordered {config : Config} (valid : config.validate = .ok ())
    {admitted : List (Nat × List UInt8)} {printed : List (Nat × String)}
    (run : Run config kernel admitted printed) : kernel.lineup.Ordered := by
  induction run with
  | boot format =>
      rw [lineup_booted]
      exact fun _ => List.Pairwise.nil
  | obey command run careful hypothesis =>
      exact ordered_obey hypothesis (run.inOrder valid).sound.distinct_resident command

/-- A failed dispatch costs one process, whatever the kernel was asked to do before.  Process
numbers have 32 bits. -/
theorem failed_dispatch_loses_one {config : Config} (valid : config.validate = .ok ())
    {admitted : List (Nat × List UInt8)} {printed : List (Nat × String)}
    (run : Run config kernel admitted printed) (fits : kernel.system.nextPid ≤ 2 ^ 32)
    {failure : DispatchFailure} {requeued : Option Process} {next : System}
    (fails : kernel.system.Fails failure requeued next) :
    kernel.system.LosesOnly failure requeued next := by
  have sound := (run.inOrder valid).sound
  rcases Config.validate_eq_ok valid with ⟨positive, enough, _⟩
  have divided : kernel.system.memory.segments ≠ [] := by
    rw [run.segments valid, segmentTable, segmentCount]
    simp
    omega
  have short : ∀ pid < kernel.system.nextPid,
      (Text.utf8Bytes (swapName pid)).length ≤ contentSize := by
    intro pid small
    have same : (UInt32.ofNat pid).toNat = pid := UInt32.toNat_ofNat_of_lt' (by
      simp only [UInt32.size]
      omega)
    have fitting := FileSystem.length_swapName_le (UInt32.ofNat pid)
    rwa [same] at fitting
  cases fails with
  | dispatch failed => exact System.dispatch_losesOnly sound divided short failed
  | contextSwitch failed =>
      exact System.contextSwitch_losesOnly sound divided short (run.ordered valid) failed

/-- One segment, and room for one swap file. -/
def cramped : Config :=
  { memorySize := 3, segmentCount := 1, disk := ⟨2, 1, 2⟩, quantum := 1 }

/-- Two programs, of which the second one is admitted to disk. -/
def twoPrograms (asked : Interrupt) (pulses : Nat) : List Command :=
  [.enqueue (.loadProgram "EA EA 00" none), .enqueue (.loadProgram "EA EA 00" none),
    .enqueue asked] ++ List.replicate pulses .pulse

/-- Neither of the two can take the place of the other. -/
theorem cramped_fails :
    (follow (twoPrograms (.runProgram 1) 3) (booted cramped true) [] []).isSome = true ∧
      ((booted cramped true).obeyAll (twoPrograms (.runProgram 1) 3)).system.nextPid ≤ 2 ^ 32 ∧
      ((booted cramped true).obeyAll (twoPrograms (.runProgram 1) 3)).system.dispatch.value.1 =
        .error ⟨1, .files .noAvailableSpace⟩ ∧
    (follow (twoPrograms .runAllPrograms 4) (booted cramped true) [] []).isSome = true ∧
      ((booted cramped true).obeyAll (twoPrograms .runAllPrograms 4)).system.nextPid ≤ 2 ^ 32 ∧
      ((booted cramped true).obeyAll (twoPrograms .runAllPrograms 4)).handled? .pulse =
        some .contextSwitch ∧
      ((booted cramped true).obeyAll
        (twoPrograms .runAllPrograms 4)).system.contextSwitch.value.1 =
          .error ⟨1, .files .noAvailableSpace⟩ := by
  decide +kernel

/-- The second of two programs is lost when nobody executes, and when the first one does. -/
theorem failed_dispatch_loses_one_small :
    (∃ kernel next, (∃ admitted printed, Run cramped kernel admitted printed) ∧
      kernel.system.dispatch.value = (.error ⟨1, .files .noAvailableSpace⟩, next) ∧
      kernel.system.LosesOnly ⟨1, .files .noAvailableSpace⟩ none next) ∧
    ∃ kernel next, (∃ admitted printed, Run cramped kernel admitted printed) ∧
      kernel.system.contextSwitch.value = (.error ⟨1, .files .noAvailableSpace⟩, next) ∧
      kernel.system.LosesOnly ⟨1, .files .noAvailableSpace⟩ kernel.system.saved next := by
  rcases cramped_fails with
    ⟨followed, fits, failed, followedSwitch, fitsSwitch, _, failedSwitch⟩
  rcases (@Run.boot cramped true).obeyAll followed with ⟨_, _, run⟩
  rcases (@Run.boot cramped true).obeyAll followedSwitch with ⟨_, _, runSwitch⟩
  generalize (booted cramped true).obeyAll (twoPrograms (.runProgram 1) 3) = kernel at *
  generalize (booted cramped true).obeyAll (twoPrograms .runAllPrograms 4) = other at *
  rcases dispatched : kernel.system.dispatch.value with ⟨result, next⟩
  rcases switched : other.system.contextSwitch.value with ⟨resultSwitch, nextSwitch⟩
  rw [dispatched] at failed
  rw [switched] at failedSwitch
  subst failed failedSwitch
  exact ⟨⟨kernel, next, ⟨_, _, run⟩, dispatched,
      failed_dispatch_loses_one (by decide) run fits (.dispatch dispatched)⟩,
    other, nextSwitch, ⟨_, _, runSwitch⟩, switched,
      failed_dispatch_loses_one (by decide) runSwitch fitsSwitch (.contextSwitch switched)⟩

end Kernel

end Timeshare
