import Timeshare.Proofs.Kernel.Ticks
import Timeshare.Proofs.System.Times

/-!
# Times

The times that the kernel reports of a process are those of the history.  Whatever the host does, a
process has run for as many ticks as pulses have run one of its instructions, it has waited for as
many as pulses have run an instruction of another process while it was in the ready queue, and the
two together are the pulses that have run an instruction from the moment it was asked to run until
its end.
-/

namespace Timeshare

/-! ## The history -/

/-- A pulse that has run an instruction: the cycle, and the kernel after it. -/
structure InstructionPulse where
  cycle : Cycle
  after : Kernel

namespace InstructionPulse

/-- The instruction was one of the process. -/
def ran (pid : Nat) (pulse : InstructionPulse) : Bool :=
  pulse.cycle.process.pid = pid

/-- The instruction was one of another process, while the process was in the ready queue. -/
def passedOver (pid : Nat) (pulse : InstructionPulse) : Bool :=
  !pulse.ran pid && pulse.after.system.ready.any fun process => process.pid = pid

/-- The process had not ended yet. -/
def precedesEnd (pid : Nat) (pulse : InstructionPulse) : Bool :=
  !pulse.after.system.terminated.any fun process => process.pid = pid

variable {pid : Nat} {pulse : InstructionPulse}

theorem ran_iff : pulse.ran pid = true ↔ pulse.cycle.process.pid = pid :=
  decide_eq_true_iff

theorem passedOver_iff : pulse.passedOver pid = true ↔
    pulse.cycle.process.pid ≠ pid ∧ pid ∈ pulse.after.system.ready.map Process.pid := by
  simp [passedOver, ran]

theorem precedesEnd_iff : pulse.precedesEnd pid = true ↔
    pid ∉ pulse.after.system.terminated.map Process.pid := by
  simp [precedesEnd]

end InstructionPulse

namespace Kernel

/-- The pulse of a command, if it runs an instruction. -/
def instructionPulse? (command : Command) (kernel : Kernel) : Option InstructionPulse :=
  (kernel.cycle? command).map fun cycle => ⟨cycle, kernel.obey command⟩

/-- The pulses that run an instruction, the first one first. -/
def instructionPulses : List Command → Kernel → List InstructionPulse
  | [], _ => []
  | command :: rest, kernel =>
      (kernel.instructionPulse? command).toList ++ instructionPulses rest (kernel.obey command)

/-- The command makes the kernel handle an interrupt that asks to run the process, and the process is
resident. -/
def starts (pid : Nat) (command : Command) (kernel : Kernel) : Bool :=
  (kernel.handled? command).any (Interrupt.asksFor pid) &&
    kernel.system.resident.any fun process => process.pid = pid

/-- The pulses that run an instruction from the moment that the process is asked to run until its
end.  There are none if that never happens. -/
def pulsesInService (pid : Nat) : List Command → Kernel → List InstructionPulse
  | [], _ => []
  | command :: rest, kernel =>
      if kernel.starts pid command then
        (instructionPulses rest (kernel.obey command)).filter (InstructionPulse.precedesEnd pid)
      else pulsesInService pid rest (kernel.obey command)

/-- What is said of a process that has ended. -/
def finishedText (pid wait turnaround : Nat) : String :=
  s!"Process {pid} finished. Wait time: {wait} ticks, " ++ s!"turnaround time: {turnaround} ticks"

/-- One line was completed on the console, and in its transcript, and nothing else has changed. -/
structure Shows (kernel next : Kernel) (line : String) : Prop where
  lines : next.console.lines = kernel.console.lines.push line
  transcript : next.console.transcript = kernel.console.transcript.push line
  line : next.console.line = kernel.console.line
  rest : next = { kernel with console := next.console }

/-- The times kept with the processes are those of the history, and so are the times in the line that
reports the end of a process. -/
structure KeepsTime (start : Kernel) (commands : List Command) : Prop where
  total : ((start.obeyAll commands).system.everyone.map Process.runningTicks).sum =
    (start.instructionPulses commands).length
  ran : ∀ process ∈ (start.obeyAll commands).system.everyone, process.runningTicks =
    (start.instructionPulses commands).countP (InstructionPulse.ran process.pid)
  waited : ∀ process ∈ (start.obeyAll commands).system.everyone, process.readyTicks =
    (start.instructionPulses commands).countP (InstructionPulse.passedOver process.pid)
  turnaround : ∀ process ∈ (start.obeyAll commands).system.everyone, process.turnaround =
    (start.pulsesInService process.pid commands).length
  reported : ∀ process ∈ (start.obeyAll commands).system.terminated, ∀ speaking : Kernel,
    speaking.system = (start.obeyAll commands).system →
      speaking.Shows (speaking.reportFinished process.pid) (finishedText process.pid
        ((start.instructionPulses commands).countP (InstructionPulse.passedOver process.pid))
        (start.pulsesInService process.pid commands).length)

/-! ## One command -/

/-- What a command does to the times: it runs no instruction and at most admits a process, or it runs
one, of the process that executes then. -/
inductive Spends (kernel : Kernel) (command : Command) (next : Kernel) : Prop
  | rests (none_run : kernel.cycle? command = none)
      (change : kernel.system.Retains next.system ∨ kernel.system.Enrolls next.system)
  | runs (between : System) (process : Process) (cpu : Cpu) (cycle : Cycle) (policy : Policy)
      (one_run : kernel.cycle? command = some cycle)
      (retains : kernel.system.Retains between) (executing : between.executing = some process)
      (ran : cycle = cpu.cycle process between.memory)
      (next_eq : next.system = between.afterCycle cycle policy)

namespace Steady

variable {kernel : Kernel} {history : List Cycle} {command : Command} {pid : Nat}

theorem spends_execute (steady : kernel.Steady history) (running : kernel.running = true)
    (quiet : kernel.interrupts = []) (busy : kernel.system.isIdle = false) :
    kernel.Spends .pulse ({ kernel with clock := kernel.clock + 1 }.execute).value := by
  rcases System.dispatch_retains steady.rostered.toInPlace with
    ⟨result, system, dispatched, inPlace, retains, failed⟩
  rcases execute_cases running quiet busy dispatched failed with
    ⟨idle, none_run, system_eq⟩ | ⟨process, executes, one_run, next_eq⟩
  · refine .rests none_run (Or.inl ?_)
    rw [system_eq]
    exact retains
  · refine .runs system process _ _ (system.policy.didCycle process.pid) one_run retains executes
      rfl ?_
    rw [next_eq]
    rfl

theorem spends (steady : kernel.Steady history) (command : Command) :
    kernel.Spends command (kernel.obey command) := by
  cases command with
  | enqueue interrupt => exact .rests rfl (Or.inl (.refl kernel.system))
  | setQuantum quantum => exact .rests rfl (Or.inl (.of_processes rfl .rfl rfl rfl))
  | setSchedule schedule =>
      exact .rests rfl
        (Or.inl (System.setSchedule_retains steady.rostered.toInPlace schedule).2)
  | pulse =>
      have pulses := kernel.pulse_pulses
      change kernel.Spends .pulse kernel.pulse.value
      generalize kernel.pulse.value = next at pulses ⊢
      cases pulses with
      | stopped running =>
          exact .rests (by simp [cycle?, running]) (Or.inl (.refl kernel.system))
      | handles interrupt rest running queue =>
          exact .rests (by simp [cycle?, queue]) (steady.responds queue).change
      | executes running quiet busy => exact steady.spends_execute running quiet busy
      | idles running quiet idle =>
          exact .rests (by simp [cycle?, idle]) (Or.inl (.refl kernel.system))

/-! ## What a command adds to the times -/

/-- In the pulse of a cycle the others in the ready queue are passed over, and nobody else. -/
theorem count_ready (steady : kernel.Steady history) {process : Process}
    (executing : kernel.system.executing = some process) {cycle : Cycle}
    (same : cycle.process.pid = process.pid) (pid : Nat) :
    (kernel.system.ready.map Process.pid).count pid =
      [(⟨cycle, kernel⟩ : InstructionPulse)].countP (InstructionPulse.passedOver pid) := by
  have apart := steady.rostered.not_mem_others executing
  have distinct := steady.rostered.distinct
  rw [System.everyone_of_executing executing, List.map_cons, List.nodup_cons,
    List.map_append] at distinct
  rw [List.countP_singleton, distinct.2.of_append_left.count]
  have waits_iff : InstructionPulse.passedOver pid ⟨cycle, kernel⟩ = true ↔
      pid ∈ kernel.system.ready.map Process.pid := by
    rw [InstructionPulse.passedOver_iff, and_iff_right_of_imp]
    rintro member rfl
    apply apart
    rw [← same, List.append_assoc, List.map_append]
    exact List.mem_append_left _ member
  simp only [waits_iff]

theorem executing_afterCycle {system next : System} {process : Process} {cpu : Cpu} {cycle : Cycle}
    {policy : Policy} (ran : cycle = cpu.cycle process system.memory)
    (next_eq : next = system.afterCycle cycle policy) :
    next.executing = some cycle.process.ticked ∧ cycle.process.ticked.pid = process.pid ∧
      next.ready.map Process.pid = system.ready.map Process.pid := by
  have waited := System.map_waited_append Process.pid (fun _ => rfl) system.ready []
  rw [List.append_nil, List.append_nil] at waited
  subst next_eq
  refine ⟨rfl, ?_, waited⟩
  rw [Process.pid_ticked, ran, Cpu.cycle_pid]

theorem sum_obey (steady : kernel.Steady history) (command : Command) :
    ((kernel.obey command).system.everyone.map Process.runningTicks).sum =
      (kernel.system.everyone.map Process.runningTicks).sum +
        (kernel.instructionPulse? command).toList.length := by
  cases steady.spends command with
  | rests none_run change =>
      rw [instructionPulse?, none_run]
      rcases change with retains | enrolls
      · exact retains.sum_eq
      · exact enrolls.sum_eq
  | runs between process cpu cycle policy one_run retains executing ran next_eq =>
      rw [instructionPulse?, one_run, next_eq, System.sum_afterCycle executing ran, retains.sum_eq]
      rfl

theorem ticks_obey (steady : kernel.Steady history) (command : Command) (pid : Nat) :
    (kernel.obey command).system.tally (fun career => career.ticks) pid =
      kernel.system.tally (fun career => career.ticks) pid +
        (kernel.instructionPulse? command).toList.countP (InstructionPulse.ran pid) := by
  cases steady.spends command with
  | rests none_run change =>
      rw [instructionPulse?, none_run]
      rcases change with retains | enrolls
      · exact retains.tally_eq _ pid
      · exact enrolls.tally_eq rfl pid
  | runs between process cpu cycle policy one_run retains executing ran next_eq =>
      have same : cycle.process.pid = process.pid := by rw [ran, Cpu.cycle_pid]
      rw [next_eq, System.ticks_afterCycle executing ran, retains.tally_eq, instructionPulse?,
        one_run, Option.map_some, Option.toList_some, List.countP_singleton]
      simp [InstructionPulse.ran, same]

theorem waited_obey (steady : kernel.Steady history) (command : Command) (pid : Nat) :
    (kernel.obey command).system.tally Career.waited pid =
      kernel.system.tally Career.waited pid +
        (kernel.instructionPulse? command).toList.countP (InstructionPulse.passedOver pid) := by
  cases steady.spends command with
  | rests none_run change =>
      rw [instructionPulse?, none_run]
      rcases change with retains | enrolls
      · exact retains.tally_eq _ pid
      · exact enrolls.tally_eq rfl pid
  | runs between process cpu cycle policy one_run retains executing ran next_eq =>
      rcases executing_afterCycle ran next_eq with ⟨executes, _, ready⟩
      have passed := (steady.obey command).count_ready executes rfl pid
      rw [next_eq, System.waited_afterCycle executing ran, retains.tally_eq, instructionPulse?,
        one_run, Option.map_some, Option.toList_some, ← ready, passed]

/-- While a process runs a cycle, everybody else waits, is resident or has ended. -/
theorem divided (steady : kernel.Steady history) {process : Process}
    (executing : kernel.system.executing = some process)
    (known : pid ∈ kernel.system.everyone.map Process.pid)
    (asked : pid ∉ kernel.system.resident.map Process.pid) :
    (process.pid = pid ∧ pid ∉ kernel.system.terminated.map Process.pid) ∨
      (process.pid ≠ pid ∧ pid ∈ kernel.system.ready.map Process.pid ∧
        pid ∉ kernel.system.terminated.map Process.pid) ∨
      (process.pid ≠ pid ∧ pid ∉ kernel.system.ready.map Process.pid ∧
        pid ∈ kernel.system.terminated.map Process.pid) := by
  have distinct := steady.rostered.distinct
  rw [System.everyone_of_executing executing] at known distinct
  simp only [List.map_cons, List.map_append, List.mem_cons, List.mem_append] at known
  simp only [List.map_cons, List.map_append, List.nodup_cons, List.mem_append, not_or] at distinct
  rcases distinct with ⟨⟨notReady, _, notEnded⟩, others⟩
  have apart := List.disjoint_of_nodup_append others
  rcases known with rfl | ready | resident | ended
  · exact Or.inl ⟨rfl, notEnded⟩
  · refine Or.inr (Or.inl ⟨?_, ready, fun ended => apart ready (List.mem_append_right _ ended)⟩)
    rintro rfl
    exact notReady ready
  · exact absurd resident asked
  · refine Or.inr (Or.inr ⟨?_, fun ready => apart ready (List.mem_append_right _ ended), ended⟩)
    rintro rfl
    exact notEnded ended

theorem turnaround_obey (steady : kernel.Steady history) (command : Command) (pid : Nat) :
    (kernel.obey command).system.turnaroundOf pid = kernel.system.turnaroundOf pid +
      ((kernel.instructionPulse? command).toList.countP (InstructionPulse.passedOver pid) +
        (kernel.instructionPulse? command).toList.countP (InstructionPulse.ran pid)) := by
  have waited := steady.waited_obey command pid
  have ticks := steady.ticks_obey command pid
  rw [System.turnaroundOf, System.turnaroundOf]
  omega

/-- A process that was asked to run either runs or is passed over, until it has ended. -/
theorem service_obey (steady : kernel.Steady history) (command : Command)
    (known : pid ∈ (kernel.obey command).system.everyone.map Process.pid)
    (asked : pid ∉ (kernel.obey command).system.resident.map Process.pid) :
    (kernel.instructionPulse? command).toList.countP (InstructionPulse.passedOver pid) +
        (kernel.instructionPulse? command).toList.countP (InstructionPulse.ran pid) =
      ((kernel.instructionPulse? command).toList.filter
        (InstructionPulse.precedesEnd pid)).length := by
  cases steady.spends command with
  | rests none_run change =>
      rw [instructionPulse?, none_run]
      rfl
  | runs between process cpu cycle policy one_run retains executing ran next_eq =>
      rcases executing_afterCycle ran next_eq with ⟨executes, _, _⟩
      have divided := (steady.obey command).divided executes known asked
      rw [Process.pid_ticked] at divided
      rw [instructionPulse?, one_run, Option.map_some, Option.toList_some, ← List.countP_eq_length_filter,
        List.countP_singleton, List.countP_singleton, List.countP_singleton]
      simp only [InstructionPulse.ran_iff, InstructionPulse.passedOver_iff,
        InstructionPulse.precedesEnd_iff]
      rcases divided with ⟨runs, lives⟩ | ⟨other, waits, lives⟩ | ⟨other, left, ended⟩
      · simp [runs, lives]
      · simp only [other, waits, lives, ne_eq, not_false_eq_true, and_self, if_true, if_false]
      · simp only [other, left, ended, not_true_eq_false, and_false, if_false]

/-- A process that neither executes nor waits for the processor has no part in a cycle. -/
theorem rest_obey (steady : kernel.Steady history) (command : Command)
    (rests : pid ∉ (kernel.obey command).lineup.active) :
    (kernel.instructionPulse? command).toList.countP (InstructionPulse.passedOver pid) = 0 ∧
      (kernel.instructionPulse? command).toList.countP (InstructionPulse.ran pid) = 0 := by
  cases steady.spends command with
  | rests none_run change =>
      rw [instructionPulse?, none_run]
      exact ⟨rfl, rfl⟩
  | runs between process cpu cycle policy one_run retains executing ran next_eq =>
      rcases executing_afterCycle ran next_eq with ⟨executes, _, _⟩
      simp only [lineup, System.lineup, Lineup.active, executes, List.map_append, List.map_map,
        List.mem_append, not_or] at rests
      rcases rests with ⟨other, left⟩
      have number : cycle.process.pid ≠ pid := by
        rintro rfl
        exact other List.mem_cons_self
      have away : pid ∉ (kernel.obey command).system.ready.map Process.pid := left
      rw [instructionPulse?, one_run, Option.map_some, Option.toList_some, List.countP_singleton,
        List.countP_singleton]
      simp only [InstructionPulse.ran_iff, InstructionPulse.passedOver_iff, number, away, and_false,
        if_false, and_self]

/-! ## Who is asked to run -/

theorem pids_resident (system : System) :
    system.lineup.resident.map Rank.pid = system.resident.map Process.pid := by
  rw [System.lineup, List.map_map]
  rfl

/-- A process comes to execute or to wait for the processor only when it is asked to run. -/
theorem active_obey (steady : kernel.Steady history) (command : Command)
    (member : pid ∈ (kernel.obey command).lineup.active) :
    pid ∈ kernel.lineup.active ∨ kernel.starts pid command = true := by
  cases command with
  | enqueue interrupt => exact Or.inl member
  | setQuantum quantum => exact Or.inl member
  | setSchedule schedule =>
      rcases System.setSchedule_lineup schedule kernel.system with ⟨queue, lineup_eq, same, _⟩
      change pid ∈ (kernel.system.setSchedule schedule).lineup.active at member
      rw [lineup_eq] at member
      exact Or.inl (((same.append_left _).map Rank.pid).mem_iff.mp member)
  | pulse =>
      change pid ∈ kernel.pulse.value.lineup.active at member
      cases steady.pulse_ticks with
      | rests lineup_eq =>
          rw [lineup_eq] at member
          exact Or.inl member
      | handles interrupt rest raised queue one_handled none_run interrupts_eq changes =>
          rcases changes.active member with before | ⟨asked, resident⟩
          · exact Or.inl before
          · refine Or.inr ?_
            rw [lineup, pids_resident] at resident
            rcases List.mem_map.mp resident with ⟨process, among, same⟩
            rw [starts, one_handled, Option.any_some, asked, Bool.true_and, List.any_eq_true]
            exact ⟨process, among, decide_eq_true same⟩
      | fails head rest quiet none_handled none_run interrupts_eq idle ready lineup_eq =>
          rw [lineup_eq] at member
          exact Or.inl ((Lineup.Dispatches.fails head rest idle ready).active member)
      | runs between cycle quiet none_handled one_run dispatches executing interrupts_eq lineup_eq =>
          rw [lineup_eq] at member
          exact Or.inl (dispatches.active member)

/-- A process is resident from the beginning or not at all. -/
theorem resident_obey (steady : kernel.Steady history) (command : Command)
    (member : pid ∈ (kernel.obey command).system.resident.map Process.pid) :
    pid ∈ kernel.system.resident.map Process.pid ∨ pid = kernel.system.nextPid := by
  cases command with
  | enqueue interrupt => exact Or.inl member
  | setQuantum quantum => exact Or.inl member
  | setSchedule schedule => exact Or.inl member
  | pulse =>
      change pid ∈ kernel.pulse.value.system.resident.map Process.pid at member
      rw [← pids_resident] at member ⊢
      change pid ∈ kernel.pulse.value.lineup.resident.map Rank.pid at member
      cases steady.pulse_ticks with
      | rests lineup_eq =>
          rw [lineup_eq] at member
          exact Or.inl member
      | handles interrupt rest raised queue one_handled none_run interrupts_eq changes =>
          exact changes.resident member
      | fails head rest quiet none_handled none_run interrupts_eq idle ready lineup_eq =>
          rw [lineup_eq] at member
          exact Or.inl member
      | runs between cycle quiet none_handled one_run dispatches executing interrupts_eq lineup_eq =>
          rw [lineup_eq] at member
          cases dispatches with
          | stays => exact Or.inl member
          | gives => exact Or.inl member
          | fails => exact Or.inl member

theorem known_obey (steady : kernel.Steady history) (command : Command)
    (known : pid ∈ kernel.system.everyone.map Process.pid) :
    pid ∈ (kernel.obey command).system.everyone.map Process.pid := by
  have given := List.mem_range.mp (steady.rostered.numbers.mem_iff.mp known)
  apply (steady.obey command).rostered.numbers.mem_iff.mpr
  exact List.mem_range.mpr (Nat.lt_of_lt_of_le given (steady.continues_obey command).nextPid)

/-- In the pulse in which a process is asked to run nobody runs, and it leaves the resident ones. -/
theorem of_starts (starts : kernel.starts pid command = true) :
    kernel.cycle? command = none ∧ pid ∈ kernel.system.everyone.map Process.pid ∧
      pid ∉ (kernel.obey command).system.resident.map Process.pid := by
  rw [Kernel.starts, Bool.and_eq_true, List.any_eq_true] at starts
  rcases starts with ⟨handled, process, resident, same⟩
  have member : pid ∈ kernel.system.resident.map Process.pid :=
    of_decide_eq_true same ▸ List.mem_map_of_mem resident
  have known : pid ∈ kernel.system.everyone.map Process.pid := by
    simp only [System.everyone, System.processes, List.map_append, List.mem_append]
    exact Or.inl (Or.inr member)
  cases command with
  | enqueue interrupt => cases handled
  | setQuantum quantum => cases handled
  | setSchedule schedule => cases handled
  | pulse =>
      have pulses := kernel.pulse_pulses
      change kernel.cycle? .pulse = none ∧ _ ∧
        pid ∉ kernel.pulse.value.system.resident.map Process.pid
      generalize kernel.pulse.value = next at pulses ⊢
      cases pulses with
      | stopped running => simp [handled?, running] at handled
      | handles interrupt rest running queue =>
          simp only [handled?, running, if_true, queue, List.head?_cons, Option.any_some] at handled
          refine ⟨by simp [cycle?, queue], known, ?_⟩
          rw [system_handle]
          exact System.not_resident_of_asksFor handled member
      | executes running quiet busy => simp [handled?, quiet] at handled
      | idles running quiet idle => simp [handled?, quiet] at handled

/-! ## All commands -/

/-- What grows by one in certain pulses has grown by their number. -/
theorem counted_obeyAll (steady : kernel.Steady history) (measure : System → Nat)
    (counted : InstructionPulse → Bool)
    (step : ∀ {kernel : Kernel} {history : List Cycle}, kernel.Steady history → ∀ command,
      measure (kernel.obey command).system =
        measure kernel.system + (kernel.instructionPulse? command).toList.countP counted)
    (commands : List Command) : measure (kernel.obeyAll commands).system =
      measure kernel.system + (kernel.instructionPulses commands).countP counted := by
  induction commands generalizing kernel history with
  | nil => rfl
  | cons command rest hypothesis =>
      have first := step steady command
      have others := hypothesis (steady.obey command)
      rw [instructionPulses, List.countP_append]
      change measure ((kernel.obey command).obeyAll rest).system = _
      omega

/-- From the moment it was asked to run, every instruction counts for a process until its end. -/
theorem turnaround_started (steady : kernel.Steady history) (commands : List Command)
    (known : pid ∈ kernel.system.everyone.map Process.pid)
    (asked : pid ∉ kernel.system.resident.map Process.pid) :
    (kernel.obeyAll commands).system.turnaroundOf pid = kernel.system.turnaroundOf pid +
      ((kernel.instructionPulses commands).filter (InstructionPulse.precedesEnd pid)).length := by
  induction commands generalizing kernel history with
  | nil => rfl
  | cons command rest hypothesis =>
      have knownNext := steady.known_obey command known
      have askedNext : pid ∉ (kernel.obey command).system.resident.map Process.pid := by
        intro resident
        rcases steady.resident_obey command resident with before | rfl
        · exact asked before
        · have given := List.mem_range.mp (steady.rostered.numbers.mem_iff.mp known)
          exact Nat.lt_irrefl _ given
      have step := steady.turnaround_obey command pid
      have service := steady.service_obey command knownNext askedNext
      have run := hypothesis (steady.obey command) knownNext askedNext
      rw [instructionPulses, List.filter_append, List.length_append]
      change ((kernel.obey command).obeyAll rest).system.turnaroundOf pid = _
      omega

/-- As long as a process is not asked to run, nothing counts for it. -/
theorem turnaround_obeyAll (steady : kernel.Steady history) (commands : List Command)
    (waits : pid ∉ kernel.lineup.active) (none_spent : kernel.system.turnaroundOf pid = 0) :
    (kernel.obeyAll commands).system.turnaroundOf pid =
      (kernel.pulsesInService pid commands).length := by
  induction commands generalizing kernel history with
  | nil => exact none_spent
  | cons command rest hypothesis =>
      have step := steady.turnaround_obey command pid
      change ((kernel.obey command).obeyAll rest).system.turnaroundOf pid = _
      rw [pulsesInService]
      split
      · rename_i starts
        rcases of_starts starts with ⟨none_run, known, asked⟩
        have run := (steady.obey command).turnaround_started rest (steady.known_obey command known)
          asked
        have none_counted : kernel.instructionPulse? command = none := by
          rw [instructionPulse?, none_run, Option.map_none]
        rw [none_counted, Option.toList_none, List.countP_nil, List.countP_nil] at step
        omega
      · rename_i unasked
        have waitsNext : pid ∉ (kernel.obey command).lineup.active := by
          intro member
          rcases steady.active_obey command member with before | starts
          · exact waits before
          · exact unasked starts
        rcases steady.rest_obey command waitsNext with ⟨notPassed, notRun⟩
        apply hypothesis (steady.obey command) waitsNext
        omega

end Steady

/-! ## Since booting -/

section Booted

variable {config : Config} {format : Bool} {commands : List Command} {process : Process}

theorem everyone_booted (config : Config) (format : Bool) :
    (booted config format).system.everyone = [] := by
  rcases system_booted config format with ⟨files, system_eq, _⟩
  rw [system_eq]
  rfl

theorem tally_booted (config : Config) (format : Bool) (measure : Career → Nat) (pid : Nat) :
    (booted config format).system.tally measure pid = 0 := by
  rw [System.tally, everyone_booted]
  rfl

theorem runningTicks_since_booting
    (member : process ∈ ((booted config format).obeyAll commands).system.everyone) :
    process.runningTicks = ((booted config format).instructionPulses commands).countP
      (InstructionPulse.ran process.pid) := by
  have steady := steady_booted config format
  have counted := steady.counted_obeyAll (System.tally (fun career => career.ticks) process.pid)
    (InstructionPulse.ran process.pid)
    (fun steady command => steady.ticks_obey command process.pid) commands
  rw [tally_booted, Nat.zero_add, (steady.obeyAll commands).rostered.tally_eq member] at counted
  exact counted

theorem readyTicks_since_booting
    (member : process ∈ ((booted config format).obeyAll commands).system.everyone) :
    process.readyTicks = ((booted config format).instructionPulses commands).countP
      (InstructionPulse.passedOver process.pid) := by
  have steady := steady_booted config format
  have counted := steady.counted_obeyAll (System.tally Career.waited process.pid)
    (InstructionPulse.passedOver process.pid)
    (fun steady command => steady.waited_obey command process.pid) commands
  rw [tally_booted, Nat.zero_add, (steady.obeyAll commands).rostered.tally_eq member] at counted
  exact counted

theorem turnaround_since_booting
    (member : process ∈ ((booted config format).obeyAll commands).system.everyone) :
    process.turnaround =
      ((booted config format).pulsesInService process.pid commands).length := by
  have steady := steady_booted config format
  have rostered := (steady.obeyAll commands).rostered
  have waits : process.pid ∉ (booted config format).lineup.active := by
    rw [lineup_booted]
    exact List.not_mem_nil
  have none_spent : (booted config format).system.turnaroundOf process.pid = 0 := by
    rw [System.turnaroundOf, tally_booted, tally_booted]
  have counted := steady.turnaround_obeyAll commands waits none_spent
  rw [System.turnaroundOf, rostered.tally_eq member, rostered.tally_eq member] at counted
  exact counted

end Booted

/-- The kernel keeps the times of all processes, whatever the host has said since booting. -/
theorem keepsTime_after_commands (config : Config) (format : Bool) (commands : List Command) :
    (booted config format).KeepsTime commands := by
  have steady := steady_booted config format
  constructor
  case total =>
    have counted := steady.counted_obeyAll
      (fun system => (system.everyone.map Process.runningTicks).sum) (fun _ => true)
      (fun steady command => by rw [steady.sum_obey command, List.countP_true]) commands
    rw [everyone_booted, List.countP_true, List.map_nil, List.sum_nil, Nat.zero_add] at counted
    exact counted
  case ran => exact fun process => runningTicks_since_booting
  case waited => exact fun process => readyTicks_since_booting
  case turnaround => exact fun process => turnaround_since_booting
  case reported =>
    intro process ended speaking same
    have member : process ∈ ((booted config format).obeyAll commands).system.everyone :=
      List.mem_append_right _ ended
    have rostered := (steady.obeyAll commands).rostered
    rw [reportFinished, same, rostered.find?_terminated ended, ← readyTicks_since_booting member,
      ← turnaround_since_booting member]
    exact ⟨rfl, rfl, rfl, rfl⟩

end Kernel

end Timeshare
