import Timeshare.Proofs.Kernel.Ticks
import Timeshare.Proofs.Machine.Atomicity
import Timeshare.Proofs.System.Housing

/-!
# How a process comes to its end

A cycle that ends the program, or that faults, raises an interrupt and does nothing else.  It is
only when the interrupt is handled that the process ends.  A cycle is run only while no interrupt
is pending, so the one that it raises comes first, before a context switch for the end of the turn
and before anything that the host can raise.  Nothing runs until then, and the process is still the
executing one when its end is handled.
-/

namespace Timeshare

/-- Whether the cycle has completed its instruction. -/
def Cycle.completed (cycle : Cycle) : Bool :=
  cycle.outcome = .completed

/-! ## Ending the executing process -/

namespace System

variable {system next : System} {process : Process}

/-- The executing process has joined those that have ended, and its segment is vacant and clear.
Nothing else in memory has changed, and nobody else has changed places. -/
structure Finishes (system next : System) (process : Process) : Prop where
  executing : system.executing = some process
  idle : next.executing = none
  ready : next.ready = system.ready
  resident : next.resident = system.resident
  terminated : next.terminated = system.terminated ++
    [{ process with phase := .terminated, segment := none, residence := none }]
  freed : ∃ index segment, process.segment = some segment ∧
    system.memory.Changes next.memory index segment (.heldBy process.pid) .vacant ∧
    next.memory.bytes segment = List.replicate segment.length 0
  homeless : next.memory.holding? process.pid = none

theorem terminate_finishes (housed : system.Housed) (executing : system.executing = some process) :
    system.Finishes (terminate process.pid system).value.2 process := by
  have inMemory := housed.running process executing
  have tidy := housed.lodges.tidy
  have houses := housed.lodges.houses process (by simp [processes, executing])
  rcases houses.partition tidy inMemory with ⟨index, segment, segment_eq, found⟩
  rcases tidy.vacate found with ⟨leaves, tidyLeft⟩
  have clear := tidyLeft.clear (leaves.here tidy tidyLeft)
  have removed : (remove? process.pid system).value = some (process, { system with
      cpu := (system.cpu.setExecuting false).reset
      policy := system.policy.didSwitch
      executing := none }) := by
    simp [remove?, executing, Option.filter]
  have terminate_eq : (terminate process.pid system).value.2 =
      retire process { system with
        cpu := (system.cpu.setExecuting false).reset
        policy := system.policy.didSwitch
        executing := none
        memory := system.memory.vacate process.pid index } := by
    simp [terminate, removed, reclaim, inMemory, tidy.evacuate found]
  rw [terminate_eq]
  exact ⟨executing, rfl, rfl, rfl, rfl, ⟨index, segment, segment_eq, leaves, clear⟩,
    leaves.holding?_of_left tidy rfl⟩

theorem Finishes.gone (finishes : system.Finishes next process) (rostered : system.Rostered) :
    process.pid ∉ next.processes.map Process.pid := by
  have others := rostered.not_mem_others finishes.executing
  intro member
  apply others
  rw [List.map_append]
  apply List.mem_append_left
  simpa [processes, finishes.idle, finishes.ready, finishes.resident] using member

theorem Finishes.mem_everyone (finishes : system.Finishes next process) :
    process.pid ∈ next.everyone.map Process.pid := by
  simp [everyone, finishes.terminated]

/-- Both interrupts that report the end of a process end it alike. -/
theorem respond_of_ended {interrupt : Interrupt} {pid : Nat}
    (ends : interrupt.ended? = some pid) (system : System) :
    system.respond interrupt = (terminate pid system).value.2 := by
  cases interrupt with
  | breakProgram other =>
      cases ends
      rfl
  | errProgram other =>
      cases ends
      rfl
  | _ => cases ends

end System

namespace Kernel

variable {kernel next : Kernel} {history : List Cycle} {cycle : Cycle}

/-! ## Memory in a run -/

namespace Steady

theorem new_nextPid (steady : kernel.Steady history) :
    kernel.system.nextPid ∉ kernel.system.processes.map Process.pid := by
  intro member
  rcases List.mem_map.mp member with ⟨process, living, same⟩
  have given := steady.rostered.pid_lt_nextPid (List.mem_append_left _ living)
  exact absurd same (Nat.ne_of_lt given)

theorem housed_pulse (steady : kernel.Steady history) (housed : kernel.system.Housed) :
    kernel.pulse.value.system.Housed := by
  have pulses := kernel.pulse_pulses
  generalize kernel.pulse.value = next at pulses ⊢
  cases pulses with
  | stopped running => exact housed
  | idles running quiet idle => exact housed
  | handles interrupt rest running queue =>
      rw [system_handle]
      exact housed.respond steady.new_nextPid interrupt
  | executes running quiet busy =>
      rcases System.dispatch_retains steady.rostered.toInPlace with
        ⟨result, system, dispatched, _, _, failed⟩
      have housedNext := housed.dispatch
      rw [dispatched] at housedNext
      rcases execute_cases running quiet busy dispatched failed with
        ⟨_, _, next_eq⟩ | ⟨process, executes, _, next_eq⟩
      · rw [next_eq]
        exact housedNext
      · rw [next_eq]
        exact housedNext.afterCycle executes _ _ rfl

theorem housed_obey (steady : kernel.Steady history) (housed : kernel.system.Housed)
    (command : Command) : (kernel.obey command).system.Housed := by
  cases command with
  | pulse => exact steady.housed_pulse housed
  | enqueue interrupt => exact housed
  | setSchedule schedule => exact housed.setSchedule schedule
  | setQuantum quantum => exact ⟨housed.lodges, housed.running⟩

theorem housed_obeyAll (steady : kernel.Steady history) (housed : kernel.system.Housed)
    (commands : List Command) : (kernel.obeyAll commands).system.Housed :=
  steady.along (fun kernel _ => kernel.system.Housed) housed
    fun command _ steady housed => steady.housed_obey housed command

end Steady

theorem housed_booted {config : Config} (valid : config.validate = .ok ()) (format : Bool) :
    (booted config format).system.Housed := by
  rcases Config.validate_eq_ok valid with ⟨positive, fits, _⟩
  rcases system_booted config format with ⟨files, system_eq, _⟩
  have homeless := Memory.holding?_divided config.memorySize config.segmentCount
  rw [system_eq]
  refine ⟨⟨Memory.divided_tidy positive fits, .nil, ?_, ?_⟩, ?_⟩
  · rintro process ⟨⟩
  · intro pid index held
    exact absurd (held.symm.trans (homeless pid)) (by simp)
  · rintro process ⟨⟩

/-! ## The registers of the last completed instruction -/

/-- What a pulse does that runs a cycle. -/
theorem pulse_of_cycle? (runs : kernel.cycle? .pulse = some cycle) :
    ∃ system process, kernel.system.dispatch.value = (.ok (), system) ∧
      system.executing = some process ∧
      cycle = (system.cpu.setExecuting true).cycle process system.memory ∧
      kernel.running = true ∧ kernel.interrupts = [] ∧ kernel.obey .pulse =
        ({ kernel with clock := kernel.clock + 1, system }.runCycle process).value := by
  simp only [cycle?] at runs
  split at runs
  · rename_i awake
    simp only [Bool.and_eq_true, List.isEmpty_iff, Bool.not_eq_true'] at awake
    rcases awake with ⟨⟨running, quiet⟩, busy⟩
    split at runs
    · rename_i system dispatched
      rcases Option.map_eq_some_iff.mp runs with ⟨process, executing, same⟩
      refine ⟨system, process, dispatched, executing, same.symm, running, quiet, ?_⟩
      rw [obey, pulse_execute running quiet busy]
      simp [execute, dispatched, executing]
    · cases runs
  · cases runs

namespace Steady

/-- Who has not completed an instruction has kept what the instructions before have left. -/
theorem kept_of_incomplete (steady : kernel.Steady history)
    (runs : kernel.cycle? .pulse = some cycle) (incomplete : cycle.outcome ≠ .completed) :
    (cycle.process.registers, cycle.process.lastInstruction) =
      lastKept cycle.process.pid history := by
  rcases pulse_of_cycle? runs with ⟨system, process, dispatched, executing, rfl, _⟩
  rcases System.dispatch_retains steady.rostered.toInPlace with
    ⟨result, same, dispatchedSame, _, retains, _⟩
  cases dispatched.symm.trans dispatchedSame
  have living : process.progress ∈ system.everyone.map Process.progress := by
    apply List.mem_map_of_mem
    simp [System.everyone, System.processes, executing]
  rw [(Cpu.cycle_ineffective incomplete).process]
  exact steady.kept process.progress (retains.progress.mem_iff.mp living)

/-- Cycles that were not completed can be left out of the history. -/
theorem lastKept_completed (steady : kernel.Steady history)
    (same : ∀ pid, lastKept pid (history.filter Cycle.completed) = lastKept pid history)
    (command : Command) (pid : Nat) :
    lastKept pid ((history ++ (kernel.cycle? command).toList).filter Cycle.completed) =
      lastKept pid (history ++ (kernel.cycle? command).toList) := by
  cases runs : kernel.cycle? command with
  | none => simpa using same pid
  | some cycle =>
      rw [Option.toList_some, List.filter_append]
      cases completed : cycle.completed with
      | true =>
          have kept : [cycle].filter Cycle.completed = [cycle] := by simp [completed]
          rw [kept]
          by_cases own : cycle.process.pid = pid
          · rw [lastKept, lastKept, lastCycle?_append_same own, lastCycle?_append_same own]
          · rw [lastKept, lastKept, lastCycle?_append_other own, lastCycle?_append_other own]
            exact same pid
      | false =>
          have dropped : [cycle].filter Cycle.completed = [] := by simp [completed]
          rw [dropped, List.append_nil, same pid]
          by_cases own : cycle.process.pid = pid
          · have incomplete : cycle.outcome ≠ .completed := by
              simpa [Cycle.completed] using completed
            cases command with
            | pulse =>
                have before := steady.kept_of_incomplete runs incomplete
                rw [own] at before
                rw [← before]
                simp only [lastKept, lastCycle?_append_same own]
            | _ => cases runs
          · rw [lastKept, lastKept, lastCycle?_append_other own]

theorem lastKept_completed_all (steady : kernel.Steady history)
    (same : ∀ pid, lastKept pid (history.filter Cycle.completed) = lastKept pid history)
    (commands : List Command) (pid : Nat) :
    lastKept pid ((history ++ kernel.cycles commands).filter Cycle.completed) =
      lastKept pid (history ++ kernel.cycles commands) :=
  steady.along (fun _ history => ∀ pid,
      lastKept pid (history.filter Cycle.completed) = lastKept pid history) same
    (fun command _ steady same => steady.lastKept_completed same command) pid

end Steady

/-! ## Between the cycle and the end -/

/-- The kernel handles `interrupt` next, while `process` executes. -/
structure Expects (kernel : Kernel) (interrupt : Interrupt) (process : Process) : Prop where
  running : kernel.running = true
  head : kernel.interrupts.head? = some interrupt
  executing : kernel.system.executing = some process

section Expects

variable {interrupt : Interrupt} {process : Process}

/-- A cycle that was not completed is followed by the end of its process. -/
theorem expects_of_incomplete (runs : kernel.cycle? .pulse = some cycle)
    (raised : cycle.raised = some interrupt) :
    (kernel.obey .pulse).Expects interrupt cycle.process.ticked := by
  rcases pulse_of_cycle? runs with ⟨system, process, _, _, rfl, running, quiet, next_eq⟩
  rw [next_eq]
  refine ⟨running, ?_, rfl⟩
  have head := head?_interruptsAfter raised (system.policy.didCycle process.pid)
  rw [← quiet] at head
  exact head

namespace Expects

/-- What the host says between two pulses changes neither what comes next nor who executes. -/
theorem obey (expects : kernel.Expects interrupt process) {command : Command}
    (pulseless : command ≠ .pulse) : (kernel.obey command).Expects interrupt process := by
  cases command with
  | pulse => exact absurd rfl pulseless
  | setSchedule schedule => exact ⟨expects.running, expects.head, expects.executing⟩
  | setQuantum quantum => exact ⟨expects.running, expects.head, expects.executing⟩
  | enqueue other =>
      refine ⟨expects.running, ?_, expects.executing⟩
      have head := expects.head
      cases queue : kernel.interrupts with
      | nil => simp [queue] at head
      | cons first rest =>
          simpa [Kernel.obey, enqueue, InterruptQueue.enqueue, queue] using head

theorem obeyAll (expects : kernel.Expects interrupt process) {commands : List Command}
    (pulseless : ∀ command ∈ commands, command ≠ .pulse) :
    (kernel.obeyAll commands).Expects interrupt process ∧ kernel.cycles commands = [] ∧
      kernel.handledIn commands = [] := by
  induction commands generalizing kernel with
  | nil => exact ⟨expects, rfl, rfl⟩
  | cons command rest hypothesis =>
      have first := pulseless command List.mem_cons_self
      rcases hypothesis (expects.obey first) fun other member =>
        pulseless other (List.mem_cons_of_mem command member) with ⟨last, none_run, none_handled⟩
      refine ⟨last, ?_, ?_⟩
      · cases command with
        | pulse => exact absurd rfl first
        | _ => simpa [cycles, cycle?] using none_run
      · cases command with
        | pulse => exact absurd rfl first
        | _ => simpa [handledIn, handled?] using none_handled

/-- The end of the executing process is handled at the next pulse. -/
theorem finishes (expects : kernel.Expects interrupt process) (housed : kernel.system.Housed)
    (ends : interrupt.ended? = some process.pid) :
    kernel.cycle? .pulse = none ∧ kernel.handled? .pulse = some interrupt ∧
      kernel.system.Finishes (kernel.obey .pulse).system process := by
  rcases expects with ⟨running, head, executing⟩
  cases queue : kernel.interrupts with
  | nil => simp [queue] at head
  | cons first rest =>
      rw [queue, List.head?_cons, Option.some.injEq] at head
      subst head
      refine ⟨by simp [cycle?, queue], by simp [handled?, running, queue], ?_⟩
      have next_eq : (kernel.obey .pulse).system =
          (System.terminate process.pid kernel.system).value.2 := by
        rw [Kernel.obey, pulse_handle running queue, system_handle]
        exact System.respond_of_ended ends kernel.system
      rw [next_eq]
      exact System.terminate_finishes housed executing

end Expects

end Expects

/-! ## After the end -/

/-- A number that was given out and is that of no process any more never runs again. -/
theorem Steady.never_runs (steady : kernel.Steady history) {pid : Nat}
    (given : pid < kernel.lineup.nextPid) (gone : pid ∉ kernel.lineup.everyone.map Rank.pid)
    (further : List Command) : ∀ cycle ∈ kernel.cycles further, cycle.process.pid ≠ pid := by
  induction further generalizing kernel history with
  | nil => rintro cycle ⟨⟩
  | cons command rest hypothesis =>
      have continues := steady.continues_obey command
      have still : pid ∉ (kernel.obey command).lineup.everyone.map Rank.pid := by
        intro member
        rcases List.mem_map.mp member with ⟨rank, among, rfl⟩
        rcases continues.everyone rank among with before | new
        · exact gone (List.mem_map_of_mem before)
        · exact absurd new (Nat.not_le_of_lt given)
      intro cycle member
      rcases List.mem_append.mp member with now | later
      · have executing := executing_of_cycle? steady (Option.mem_toList.mp now)
        rintro rfl
        apply still
        have among : cycle.process.rank ∈ (kernel.obey command).lineup.everyone := by
          simp [Lineup.everyone, executing]
        exact List.mem_map_of_mem among
      · exact hypothesis (steady.obey command) (Nat.lt_of_lt_of_le given continues.nextPid) still
          cycle later

/-- What becomes of the process of a cycle that was not completed, if the host says `later` before
it gives the next pulse. -/
structure EndsNext (kernel : Kernel) (history : List Cycle) (cycle : Cycle)
    (later : List Command) : Prop where
  /-- No other instruction is executed until the end is handled. -/
  alone : kernel.cycles (.pulse :: later ++ [.pulse]) = [cycle]
  halted : cycle.outcome = .halted →
    kernel.handledIn (.pulse :: later ++ [.pulse]) = [.breakProgram cycle.process.pid]
  faulted : ∀ fault, cycle.outcome = .faulted fault →
    kernel.handledIn (.pulse :: later ++ [.pulse]) = [.errProgram cycle.process.pid]
  /-- The process ends with the registers that its last completed instruction has left. -/
  finishes : ∃ process, process.pid = cycle.process.pid ∧
    (process.registers, process.lastInstruction) =
      lastKept cycle.process.pid (history.filter Cycle.completed) ∧
    (kernel.obeyAll (.pulse :: later)).system.Finishes
      (kernel.obeyAll (.pulse :: later ++ [.pulse])).system process
  gone : cycle.process.pid ∉
    (kernel.obeyAll (.pulse :: later ++ [.pulse])).system.processes.map Process.pid
  never : ∀ further, ∀ other ∈ (kernel.obeyAll (.pulse :: later ++ [.pulse])).cycles further,
    other.process.pid ≠ cycle.process.pid

/-- A process whose program has ended, or whose instruction has faulted, ends at the next pulse.  It
keeps the registers of its last completed instruction, and its segment is cleared.  Nobody runs
before, and the process never runs again. -/
theorem ends_before_anything_runs {config : Config} (valid : config.validate = .ok ())
    (format : Bool) (commands : List Command) {cycle : Cycle}
    (runs : ((booted config format).obeyAll commands).cycle? .pulse = some cycle)
    (incomplete : cycle.outcome ≠ .completed) {later : List Command}
    (pulseless : ∀ command ∈ later, command ≠ .pulse) :
    ((booted config format).obeyAll commands).EndsNext ((booted config format).cycles commands)
      cycle later := by
  have steady := steady_obeyAll config format commands
  have housed := (steady_booted config format).housed_obeyAll (housed_booted valid format) commands
  have same := (steady_booted config format).lastKept_completed_all (fun _ => rfl) commands
  simp only [List.nil_append] at same
  generalize (booted config format).obeyAll commands = kernel at runs steady housed ⊢
  generalize (booted config format).cycles commands = history at steady same ⊢
  rcases Option.ne_none_iff_exists'.mp (mt Cycle.completed_iff.mpr incomplete) with
    ⟨interrupt, raised⟩
  rcases pulse_of_cycle? runs with ⟨_, _, _, _, _, _, quiet, _⟩
  have none_before : kernel.handled? .pulse = none := by simp [handled?, quiet]
  rcases (expects_of_incomplete runs raised).obeyAll pulseless with
    ⟨expects, none_run, none_handled⟩
  have steadyLater := (steady.obey .pulse).obeyAll later
  have housedLater := (steady.obey .pulse).housed_obeyAll (steady.housed_obey housed .pulse) later
  rcases expects.finishes housedLater (Cycle.ended?_of_raised raised) with
    ⟨none_last, handled, finishes⟩
  have steadyLast := steadyLater.obey .pulse
  have last_eq : kernel.obeyAll (.pulse :: later ++ [.pulse]) =
      ((kernel.obey .pulse).obeyAll later).obey .pulse :=
    kernel.obeyAll_concat (.pulse :: later) .pulse
  have handledIn_eq : kernel.handledIn (.pulse :: later ++ [.pulse]) = [interrupt] := by
    simp [handledIn, handledIn_append, none_before, none_handled, handled]
  have gone : cycle.process.pid ∉
      (((kernel.obey .pulse).obeyAll later).obey .pulse).system.processes.map Process.pid :=
    finishes.gone steadyLater.rostered
  refine ⟨?_, ?_, ?_, ?_, ?_, ?_⟩
  · simp [cycles, cycles_append, runs, none_run, none_last]
  · intro halted
    rw [handledIn_eq]
    simpa [Cycle.raised, halted] using raised.symm
  · intro fault faulted
    rw [handledIn_eq]
    simpa [Cycle.raised, faulted] using raised.symm
  · rw [last_eq]
    refine ⟨cycle.process.ticked, rfl, ?_, finishes⟩
    rw [same]
    exact steady.kept_of_incomplete runs incomplete
  · rw [last_eq]
    exact gone
  · rw [last_eq]
    apply steadyLast.never_runs
    · have given := steadyLast.rostered.numbers.mem_iff.mp finishes.mem_everyone
      exact List.mem_range.mp given
    · rw [lineup, Steady.pids_everyone]
      exact gone

/-- Two segments, and turns of two instructions. -/
def paired : Config :=
  { memorySize := 8, segmentCount := 2, disk := ⟨2, 1, 4⟩, quantum := 2 }

/-- Two processes are made ready, and the first one executes an instruction. -/
def underway : List Command :=
  [.enqueue (.loadProgram "A9 07 00" none), .enqueue (.loadProgram "EA 00" none),
    .enqueue .runAllPrograms, .pulse, .pulse, .pulse, .pulse]

/-- The first process ends its program just when its turn is over, and the host asks for a
switch. -/
theorem ends_before_anything_runs_small :
    ∃ cycle, ((booted paired true).obeyAll underway).cycle? .pulse = some cycle ∧
      cycle.outcome = .halted ∧ cycle.process.registers.accumulator = 7 ∧
      ((booted paired true).obeyAll underway).EndsNext ((booted paired true).cycles underway) cycle
        [.enqueue .contextSwitch, .setSchedule .priority] := by
  have run : (((booted paired true).obeyAll underway).cycle? .pulse).map
      (fun cycle => (cycle.outcome, cycle.process.registers.accumulator)) = some (.halted, 7) := by
    decide +kernel
  rcases Option.map_eq_some_iff.mp run with ⟨cycle, runs, same⟩
  rcases Prod.mk.inj same with ⟨halted, accumulator⟩
  refine ⟨cycle, runs, halted, accumulator, ?_⟩
  exact ends_before_anything_runs rfl true underway runs (by simp [halted]) (by simp)

end Kernel

end Timeshare
