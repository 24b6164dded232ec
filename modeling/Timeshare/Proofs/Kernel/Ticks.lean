import Timeshare.Proofs.Kernel.Coherence
import Timeshare.Proofs.System.Lineup

/-!
# The lineup at each pulse

What a pulse does to the lineup and to the pending interrupts, with the interrupt that it handles
and the cycle that it runs.  No more than this is needed to tell in which order processes run, and
for how long.
-/

namespace Timeshare

/-- The host gives a pulse or raises an interrupt, but no context switch. -/
def Command.Plain : Command → Prop
  | .pulse => True
  | .enqueue interrupt => interrupt ≠ .contextSwitch
  | .setSchedule _ => False
  | .setQuantum _ => False

open Lineup

namespace Kernel

variable {kernel next : Kernel} {history : List Cycle}

/-- The lineup of the kernel's processes. -/
def lineup (kernel : Kernel) : Lineup :=
  kernel.system.lineup

/-- The interrupts that some commands make the kernel handle, the first one first. -/
def handledIn : List Command → Kernel → List Interrupt
  | [], _ => []
  | command :: rest, kernel =>
      (kernel.handled? command).toList ++ handledIn rest (kernel.obey command)

theorem handledIn_append (commands further : List Command) (kernel : Kernel) :
    kernel.handledIn (commands ++ further) =
      kernel.handledIn commands ++ (kernel.obeyAll commands).handledIn further := by
  induction commands generalizing kernel with
  | nil => rfl
  | cons command rest hypothesis => simp [handledIn, hypothesis, obeyAll]

/-! ## The interrupts that handlers raise -/

@[simp]
theorem interrupts_say (message : String) (kernel : Kernel) :
    (kernel.say message).interrupts = kernel.interrupts := rfl

@[simp]
theorem interrupts_reportFinished (pid : Nat) (kernel : Kernel) :
    (kernel.reportFinished pid).interrupts = kernel.interrupts := by
  unfold reportFinished
  split
  · rfl
  · rfl

@[simp]
theorem interrupts_dispatchFailed (failure : DispatchFailure) (kernel : Kernel) :
    (kernel.dispatchFailed failure).interrupts = kernel.interrupts := by
  simp [dispatchFailed]

@[simp]
theorem interrupts_terminate (pid : Nat) (kernel : Kernel) :
    (kernel.terminate pid).value.2.interrupts = kernel.interrupts := by
  simp only [terminate, Journaled.value_bind]
  split
  · simp
  · simp

theorem interrupts_didActivate (kernel : Kernel) :
    kernel.didActivate.value.interrupts = kernel.interrupts ++ kernel.lineup.preemption := by
  simp only [didActivate, lineup, preemption, System.shouldPreempt_lineup]
  split
  · rfl
  · simp

theorem interrupts_contextSwitch (kernel : Kernel) :
    kernel.contextSwitch.value.interrupts = kernel.interrupts := by
  simp only [contextSwitch, Journaled.value_bind]
  split
  · rfl
  · rfl
  · simp

theorem interrupts_serveFiles (request : FileRequest) (kernel : Kernel) :
    (kernel.serveFiles request).value.interrupts = kernel.interrupts := by
  unfold serveFiles
  split
  · rfl
  · rfl

/-- Handling an interrupt adds the interrupts that it raises, and no others. -/
theorem interrupts_handle (interrupt : Interrupt) (kernel : Kernel) :
    (kernel.handle interrupt).value.interrupts =
      kernel.interrupts ++ kernel.system.raised interrupt := by
  cases interrupt with
  | timer => simp [handle, System.raised]
  | keyboard key => simp [handle, System.raised]
  | loadProgram text priority =>
      simp only [handle, Journaled.value_bind, loadProgram, System.raised, List.append_nil]
      cases ProgramText.parse text with
      | error error => rfl
      | ok program =>
          simp only [Journaled.value_bind]
          split
          · rfl
          · rfl
  | runProgram pid =>
      simp only [handle, Journaled.value_bind, runProgram, System.raised]
      cases kernel.system.activate? pid with
      | none => simp
      | some activated => exact interrupts_didActivate _
  | breakProgram pid =>
      simp only [handle, Journaled.value_bind, endProgram, System.raised, List.append_nil]
      split
      · simp
      · simp
  | errProgram pid =>
      simp only [handle, Journaled.value_bind, endProgram, System.raised, List.append_nil]
      split
      · simp
      · simp
  | requestClearMemory =>
      simp only [handle, Journaled.value_bind, clearMemory, System.raised, List.append_nil]
      cases kernel.system.clearMemory? with
      | none => rfl
      | some cleared => rfl
  | contextSwitch => simpa [handle, System.raised] using interrupts_contextSwitch kernel
  | runAllPrograms =>
      simp only [handle, Journaled.value_bind, runAllPrograms, System.raised]
      cases kernel.system.activateAll.1.isEmpty with
      | true => simp
      | false => exact interrupts_didActivate _
  | killProgram pid =>
      simp only [handle, Journaled.value_bind, killProgram, System.raised, List.append_nil]
      split
      · simp
      · simp
  | fileSystem request => simpa [handle, System.raised] using interrupts_serveFiles request kernel
  | unrecognized number => simp [handle, System.raised, trap, shutdown]

/-! ## Pulses -/

/-- What a pulse makes of the lineup and of the pending interrupts. -/
inductive Ticks (kernel next : Kernel) : Prop
  | rests (lineup_eq : next.lineup = kernel.lineup)
      (interrupts_eq : next.interrupts = kernel.interrupts)
      (none_handled : kernel.handled? .pulse = none) (none_run : kernel.cycle? .pulse = none)
  | handles (interrupt : Interrupt) (rest : InterruptQueue) (raised : List Interrupt)
      (queue : kernel.interrupts = interrupt :: rest)
      (one_handled : kernel.handled? .pulse = some interrupt)
      (none_run : kernel.cycle? .pulse = none)
      (interrupts_eq : next.interrupts = rest ++ raised)
      (changes : kernel.lineup.Handles interrupt raised next.lineup)
  | fails (head : Rank) (rest : List Rank) (quiet : kernel.interrupts = [])
      (none_handled : kernel.handled? .pulse = none) (none_run : kernel.cycle? .pulse = none)
      (interrupts_eq : next.interrupts = []) (idle : kernel.lineup.executing = none)
      (ready : kernel.lineup.ready = head :: rest)
      (lineup_eq : next.lineup = { kernel.lineup with ready := rest })
  | runs (between : Lineup) (cycle : Cycle) (quiet : kernel.interrupts = [])
      (none_handled : kernel.handled? .pulse = none) (one_run : kernel.cycle? .pulse = some cycle)
      (dispatches : kernel.lineup.Dispatches between)
      (executing : between.executing = some cycle.process.rank)
      (interrupts_eq : next.interrupts = interruptsAfter cycle next.lineup.policy [])
      (lineup_eq : next.lineup =
        { between with policy := between.policy.didCycle cycle.process.pid })

theorem interrupts_execute {result : Except DispatchFailure Unit} {system : System}
    (dispatched : kernel.system.dispatch.value = (result, system))
    (idle : system.executing = none) :
    kernel.execute.value.interrupts = kernel.interrupts := by
  cases result with
  | error failure => simp [execute, dispatched]
  | ok _ => simp [execute, dispatched, idle]

theorem runCycle_ticks {system : System} {process : Process} (quiet : kernel.interrupts = [])
    (none_handled : kernel.handled? .pulse = none)
    (one_run : kernel.cycle? .pulse =
      some ((system.cpu.setExecuting true).cycle process system.memory))
    (dispatches : kernel.lineup.Dispatches system.lineup)
    (executing : system.executing = some process) :
    kernel.Ticks ({ kernel with clock := kernel.clock + 1, system }.runCycle process).value := by
  rcases Cpu.cycle_process (system.cpu.setExecuting true) process system.memory with
    ⟨registers, last, process_eq⟩
  have rank : ((system.cpu.setExecuting true).cycle process system.memory).process.rank =
      process.rank := by rw [process_eq]; rfl
  refine .runs system.lineup _ quiet none_handled one_run dispatches ?_ ?_ ?_
  · rw [rank]
    simp [System.lineup, executing]
  · rw [← quiet]
    rfl
  · have pid : ((system.cpu.setExecuting true).cycle process system.memory).process.pid =
        process.pid := congrArg Rank.pid rank
    have held : some process.rank = system.lineup.executing := by simp [System.lineup, executing]
    have next_eq := System.afterCycle_lineup
      ((system.cpu.setExecuting true).cycle process system.memory)
      (system.policy.didCycle process.pid) system
    rw [rank, held] at next_eq
    rw [pid]
    exact next_eq

theorem execute_ticks (running : kernel.running = true) (quiet : kernel.interrupts = [])
    (busy : kernel.system.isIdle = false) :
    kernel.Ticks ({ kernel with clock := kernel.clock + 1 }.execute).value := by
  have none_handled : kernel.handled? .pulse = none := by simp [handled?, quiet]
  rcases System.dispatch_lineup kernel.system with ⟨result, system, dispatched, dispatches, failed⟩
  rcases execute_cases running quiet busy dispatched failed with
    ⟨idle, none_run, next_eq⟩ | ⟨process, executes, one_run, next_eq⟩
  · have interrupts_eq :
        ({ kernel with clock := kernel.clock + 1 }.execute).value.interrupts = [] := by
      have same := @interrupts_execute { kernel with clock := kernel.clock + 1 } result system
        dispatched idle
      exact same.trans quiet
    have idle_lineup : system.lineup.executing = none := by simp [System.lineup, idle]
    have lineup_eq : ({ kernel with clock := kernel.clock + 1 }.execute).value.lineup =
        system.lineup := by rw [lineup, next_eq]
    generalize system.lineup = last at dispatches idle_lineup lineup_eq
    cases dispatches with
    | stays needless =>
        simp [System.isIdle, System.lineup] at busy needless idle_lineup
        simp [busy idle_lineup, idle_lineup] at needless
    | gives head rest _ _ => cases idle_lineup
    | fails head rest waiting ready =>
        exact .fails head rest quiet none_handled none_run interrupts_eq waiting ready lineup_eq
  · rw [next_eq]
    exact runCycle_ticks quiet none_handled one_run dispatches executes

/-- Once for all: what a pulse can do. -/
theorem pulse_ticks (distinct : (kernel.system.resident.map Process.pid).Nodup) :
    kernel.Ticks kernel.pulse.value := by
  have pulses := kernel.pulse_pulses
  generalize kernel.pulse.value = next at pulses ⊢
  cases pulses with
  | stopped running =>
      exact .rests rfl rfl (by simp [handled?, running]) (by simp [cycle?, running])
  | handles interrupt rest running queue =>
      refine .handles interrupt rest (kernel.system.raised interrupt) queue
        (by simp [handled?, running, queue]) (by simp [cycle?, queue]) (interrupts_handle _ _) ?_
      rw [lineup, lineup, system_handle]
      exact System.respond_lineup distinct interrupt
  | executes running quiet busy => exact execute_ticks running quiet busy
  | idles running quiet idle =>
      exact .rests rfl rfl (by simp [handled?, quiet]) (by simp [cycle?, idle])

namespace Steady

theorem pulse_ticks (steady : kernel.Steady history) : kernel.Ticks kernel.pulse.value :=
  Kernel.pulse_ticks (steady.rostered.ascending.imp fun below => Nat.ne_of_lt below)

/-! ## Numbers and priorities -/

theorem pids_everyone (system : System) :
    system.lineup.everyone.map Rank.pid = system.processes.map Process.pid := by
  cases executing : system.executing with
  | none => simp [everyone, System.lineup, System.processes, executing, Function.comp_def]
  | some process => simp [everyone, System.lineup, System.processes, executing, Function.comp_def]

theorem distinct_everyone (steady : kernel.Steady history) :
    (kernel.lineup.everyone.map Rank.pid).Nodup := by
  have distinct := steady.rostered.distinct
  rw [System.everyone, List.map_append] at distinct
  rw [lineup, pids_everyone]
  exact distinct.of_append_left

theorem pid_lt_nextPid (steady : kernel.Steady history) {rank : Rank}
    (member : rank ∈ kernel.lineup.everyone) : rank.pid < kernel.lineup.nextPid := by
  have given : rank.pid ∈ kernel.system.processes.map Process.pid := by
    rw [← pids_everyone]
    exact List.mem_map_of_mem member
  rcases List.mem_map.mp given with ⟨process, living, same⟩
  rw [← same]
  exact steady.rostered.pid_lt_nextPid (List.mem_append_left _ living)

/-- A number belongs to one process. -/
theorem eq_of_pid (steady : kernel.Steady history) {first second : Rank}
    (member : first ∈ kernel.lineup.everyone) (memberSecond : second ∈ kernel.lineup.everyone)
    (same : first.pid = second.pid) : first = second :=
  List.inj_on_of_nodup_map steady.distinct_everyone member memberSecond same

theorem continues_pulse (steady : kernel.Steady history) :
    kernel.lineup.Continues kernel.pulse.value.lineup := by
  cases steady.pulse_ticks with
  | rests lineup_eq => exact .of_eq (by rw [lineup_eq]) (by rw [lineup_eq])
  | handles _ _ _ _ _ _ _ changes => exact changes.continues
  | fails head rest _ _ _ _ idle ready lineup_eq =>
      rw [lineup_eq]
      exact (Dispatches.fails head rest idle ready).continues
  | runs between cycle _ _ _ dispatches _ _ lineup_eq =>
      rw [lineup_eq]
      exact dispatches.continues.trans (.of_eq rfl rfl)

theorem continues_obey (steady : kernel.Steady history) (command : Command) :
    kernel.lineup.Continues (kernel.obey command).lineup := by
  cases command with
  | pulse => exact steady.continues_pulse
  | enqueue interrupt => exact .of_eq rfl rfl
  | setQuantum quantum => exact .of_eq rfl rfl
  | setSchedule schedule =>
      rcases System.setSchedule_lineup schedule kernel.system with ⟨queue, lineup_eq, same, _⟩
      have lineup_eq : (kernel.obey (.setSchedule schedule)).lineup = _ := lineup_eq
      rw [lineup_eq]
      refine ⟨Nat.le_refl _, fun rank member => Or.inl ?_⟩
      have order := (same.append_right kernel.lineup.resident).append_left
        kernel.lineup.executing.toList
      rw [everyone, List.append_assoc] at member ⊢
      exact order.mem_iff.mp member

theorem continues_obeyAll (steady : kernel.Steady history) (commands : List Command) :
    kernel.lineup.Continues (kernel.obeyAll commands).lineup :=
  steady.along (fun next _ => kernel.lineup.Continues next.lineup) (.of_eq rfl rfl)
    fun command _ steady continues => continues.trans (steady.continues_obey command)

/-- A process has the same priority as long as it has not ended. -/
theorem rank_kept (steady : kernel.Steady history) {commands : List Command} {first second : Rank}
    (member : first ∈ kernel.lineup.everyone)
    (memberSecond : second ∈ (kernel.obeyAll commands).lineup.everyone)
    (same : second.pid = first.pid) : second = first := by
  rcases (steady.continues_obeyAll commands).everyone second memberSecond with before | new
  · exact steady.eq_of_pid before member same
  · have given := steady.pid_lt_nextPid member
    exact absurd new (Nat.not_le_of_lt (same ▸ given))

end Steady

/-- Who runs a cycle executes. -/
theorem executing_of_cycle? (steady : kernel.Steady history) {command : Command} {cycle : Cycle}
    (runs : kernel.cycle? command = some cycle) :
    (kernel.obey command).lineup.executing = some cycle.process.rank := by
  cases command with
  | enqueue interrupt => cases runs
  | setSchedule schedule => cases runs
  | setQuantum quantum => cases runs
  | pulse =>
      have next_eq : kernel.obey .pulse = kernel.pulse.value := rfl
      rw [next_eq]
      cases steady.pulse_ticks with
      | rests _ _ _ none_run => simp [runs] at none_run
      | handles _ _ _ _ _ none_run => simp [runs] at none_run
      | fails _ _ _ _ none_run => simp [runs] at none_run
      | runs between ran _ _ one_run _ executing _ lineup_eq =>
          cases runs.symm.trans one_run
          rw [lineup_eq]
          exact executing

/-! ## Booting -/

theorem lineup_booted (config : Config) (format : Bool) : (booted config format).lineup =
    ⟨none, [], [], 0, .start config.schedule config.quantum⟩ := by
  rcases system_booted config format with ⟨files, system_eq, _⟩
  rw [lineup, system_eq]
  rfl

theorem interrupts_booted (config : Config) (format : Bool) :
    (booted config format).interrupts = [] := by
  cases format with
  | false => rfl
  | true => exact congrArg Kernel.interrupts (loaded config).formatDisk_eq

end Kernel

end Timeshare
