import Timeshare.Proofs.Kernel.Ticks

/-!
# Priority scheduling

Under the policy of priority the ready queue is in order, and nobody in it is more urgent than the
executing process, except while a context switch is pending.  Since no cycle is run as long as an
interrupt is pending, the process that runs a cycle is always one of the most urgent.
-/

namespace Timeshare

namespace Lineup

variable {lineup next : Lineup} {interrupt : Interrupt} {raised : List Interrupt}

/-- Nobody in the ready queue is more urgent than the executing process. -/
def Urgent (lineup : Lineup) : Prop :=
  ∀ rank, lineup.executing = some rank → ∀ waiting ∈ lineup.ready, rank.priority ≤ waiting.priority

theorem urgent_of_idle (idle : lineup.executing = none) : lineup.Urgent := by
  intro rank executing
  simp [idle] at executing

theorem Sorted.le_of_mem {head waiting : Rank} {rest : List Rank} (sorted : Sorted (head :: rest))
    (member : waiting ∈ head :: rest) : head.priority ≤ waiting.priority := by
  rcases List.mem_cons.mp member with rfl | behind
  · exact Nat.le_refl _
  · exact List.rel_of_pairwise_cons sorted behind

/-- The head of the queue is one of its most urgent processes, so that it is enough to compare it
with the executing one. -/
theorem urgent_of_patient (priority : lineup.policy.ordersByPriority = true)
    (sorted : Sorted lineup.ready) (patient : lineup.shouldPreempt = false) : lineup.Urgent := by
  intro rank executing waiting member
  cases ready : lineup.ready with
  | nil => simp [ready] at member
  | cons head rest =>
      rw [ready] at sorted member
      have least : rank.priority ≤ head.priority := by
        simpa [shouldPreempt, priority, executing, ready] using patient
      exact least.trans (sorted.le_of_mem member)

/-! ## Interrupts -/

theorem Handles.sorted (handles : lineup.Handles interrupt raised next)
    (priority : lineup.policy.ordersByPriority = true) (sorted : Sorted lineup.ready) :
    Sorted next.ready := by
  cases handles with
  | enrolls => exact sorted
  | leaves => exact sorted
  | joins new left queue steady taken queues => exact queues.sorted priority sorted
  | stops => exact sorted
  | withdraws before rank after steady ready =>
      rw [ready] at sorted
      exact sorted.sublist ((List.sublist_cons_self rank after).append_left before)
  | skips => exact sorted
  | switches head rest dispatched switching waiting queues =>
      exact (queues.sorted priority sorted).of_cons

/-- A process that becomes ready asks for the processor if it is more urgent.  A context switch
gives it to the most urgent one. -/
theorem Handles.urgent (handles : lineup.Handles interrupt raised next)
    (priority : lineup.policy.ordersByPriority = true) (sorted : Sorted lineup.ready)
    (urgent : interrupt = .contextSwitch ∨ lineup.Urgent) :
    .contextSwitch ∈ raised ∨ next.Urgent := by
  have sortedNext := handles.sorted priority sorted
  have still (steady : interrupt ≠ .contextSwitch) : lineup.Urgent := urgent.resolve_left steady
  cases handles with
  | enrolls _ steady => exact Or.inr (still steady)
  | leaves _ steady => exact Or.inr (still steady)
  | joins new left queue steady taken queues =>
      rw [preemption]
      split
      · simp
      · rename_i patient
        exact Or.inr (urgent_of_patient priority sortedNext (by simpa using patient))
  | stops => exact Or.inr (urgent_of_idle rfl)
  | withdraws before rank after steady ready =>
      refine Or.inr fun running executing waiting member => ?_
      apply still steady running executing
      rw [ready]
      exact ((List.sublist_cons_self rank after).append_left before).subset member
  | skips switching nobody =>
      refine Or.inr fun running executing waiting member => ?_
      simp [nobody] at member
  | switches head rest dispatched switching waiting queues either =>
      rcases either with rfl | rfl
      · refine Or.inr ?_
        rintro _ ⟨⟩ other member
        have least := queues.sorted priority sorted
        exact least.le_of_mem (List.mem_cons_of_mem head member)
      · exact Or.inr (urgent_of_idle rfl)

/-- Who takes the place of the executing process is at least as urgent as all others. -/
theorem Handles.most_urgent (handles : lineup.Handles .contextSwitch raised next)
    (priority : lineup.policy.ordersByPriority = true) (sorted : Sorted lineup.ready)
    {old new : Rank} (executing : lineup.executing = some old)
    (executes : next.executing = some new) (different : new ≠ old) :
    ∀ other ∈ old :: lineup.ready, new.priority ≤ other.priority := by
  cases handles with
  | enrolls _ steady => exact absurd rfl steady
  | leaves _ steady => exact absurd rfl steady
  | joins _ _ _ steady => exact absurd rfl steady
  | stops _ steady => exact absurd rfl steady
  | withdraws _ _ _ steady => exact absurd rfl steady
  | skips => exact absurd (Option.some.inj (executes.symm.trans executing)) different
  | switches head rest dispatched switching waiting queues either =>
      rcases either with rfl | rfl
      · cases executes
        intro other member
        apply (queues.sorted priority sorted).le_of_mem
        apply queues.members.mem_iff.mpr
        simpa [executing] using member
      · cases executes

theorem Dispatches.urgent (dispatches : lineup.Dispatches next) (sorted : Sorted lineup.ready)
    (urgent : lineup.Urgent) : Sorted next.ready ∧ next.Urgent := by
  cases dispatches with
  | stays => exact ⟨sorted, urgent⟩
  | gives head rest idle ready =>
      rw [ready] at sorted
      refine ⟨sorted.of_cons, ?_⟩
      rintro _ ⟨⟩ waiting member
      exact sorted.le_of_mem (List.mem_cons_of_mem head member)
  | fails head rest idle ready =>
      rw [ready] at sorted
      exact ⟨sorted.of_cons, urgent_of_idle idle⟩

end Lineup

/-! ## Runs -/

/-- The host leaves the schedule as it is, or sets it to priority. -/
def Command.KeepsPriority : Command → Prop
  | .setSchedule schedule => schedule = .priority
  | _ => True

theorem Command.Plain.keepsPriority {command : Command} (plain : command.Plain) :
    command.KeepsPriority := by
  cases command with
  | setSchedule schedule => cases plain
  | _ => trivial

namespace Kernel

open Lineup

variable {kernel next : Kernel} {history : List Cycle}

/-- The schedule is priority, and a more urgent process has already asked for the processor. -/
structure Prioritized (kernel : Kernel) : Prop where
  schedule : kernel.lineup.policy.schedule = .priority
  sorted : Sorted kernel.lineup.ready
  urgent : .contextSwitch ∈ kernel.interrupts ∨ kernel.lineup.Urgent

namespace Prioritized

theorem orders (prioritized : kernel.Prioritized) :
    kernel.lineup.policy.ordersByPriority = true := by
  simp [Policy.ordersByPriority, prioritized.schedule]

/-- The processor goes to the most urgent process. -/
theorem dispatch (prioritized : kernel.Prioritized) (quiet : kernel.interrupts = [])
    {between : Lineup} (dispatches : kernel.lineup.Dispatches between) :
    Sorted between.ready ∧ between.Urgent := by
  apply dispatches.urgent prioritized.sorted
  simpa [quiet] using prioritized.urgent

theorem pulse (prioritized : kernel.Prioritized) (ticks : kernel.Ticks next) :
    next.Prioritized := by
  cases ticks with
  | rests lineup_eq interrupts_eq =>
      constructor
      · rw [lineup_eq]
        exact prioritized.schedule
      · rw [lineup_eq]
        exact prioritized.sorted
      · rw [lineup_eq, interrupts_eq]
        exact prioritized.urgent
  | handles interrupt rest raised queue _ _ interrupts_eq changes =>
      have pending : .contextSwitch ∈ rest ∨ interrupt = .contextSwitch ∨ kernel.lineup.Urgent := by
        rcases prioritized.urgent with asked | urgent
        · rw [queue] at asked
          rcases List.mem_cons.mp asked with rfl | behind
          · exact Or.inr (Or.inl rfl)
          · exact Or.inl behind
        · exact Or.inr (Or.inr urgent)
      refine ⟨changes.schedule.trans prioritized.schedule,
        changes.sorted prioritized.orders prioritized.sorted, ?_⟩
      rw [interrupts_eq, List.mem_append]
      rcases pending with behind | now
      · exact Or.inl (Or.inl behind)
      · rcases changes.urgent prioritized.orders prioritized.sorted now with asked | urgent
        · exact Or.inl (Or.inr asked)
        · exact Or.inr urgent
  | fails head rest quiet _ _ _ idle ready lineup_eq =>
      rcases prioritized.dispatch quiet (.fails head rest idle ready) with ⟨sorted, urgent⟩
      constructor
      · rw [lineup_eq]
        exact prioritized.schedule
      · rw [lineup_eq]
        exact sorted
      · rw [lineup_eq]
        exact Or.inr urgent
  | runs between cycle quiet _ _ dispatches executing _ lineup_eq =>
      rcases prioritized.dispatch quiet dispatches with ⟨sorted, urgent⟩
      constructor
      · rw [lineup_eq]
        exact dispatches.policy ▸ prioritized.schedule
      · rw [lineup_eq]
        exact sorted
      · rw [lineup_eq]
        exact Or.inr urgent

theorem obey (prioritized : kernel.Prioritized) (steady : kernel.Steady history) {command : Command}
    (keeps : command.KeepsPriority) : (kernel.obey command).Prioritized := by
  cases command with
  | pulse => exact prioritized.pulse steady.pulse_ticks
  | enqueue interrupt =>
      refine ⟨prioritized.schedule, prioritized.sorted, ?_⟩
      rcases prioritized.urgent with asked | urgent
      · exact Or.inl (List.mem_append_left _ asked)
      · exact Or.inr urgent
  | setSchedule schedule =>
      rcases System.setSchedule_lineup schedule kernel.system with ⟨queue, lineup_eq, same, ordered⟩
      cases keeps
      have lineup_eq : (kernel.obey (.setSchedule .priority)).lineup = _ := lineup_eq
      constructor
      · rw [lineup_eq]
        rfl
      · rw [lineup_eq]
        exact ordered rfl
      · rw [lineup_eq]
        rcases prioritized.urgent with asked | urgent
        · exact Or.inl asked
        · refine Or.inr fun rank executing waiting member => ?_
          exact urgent rank executing waiting (same.mem_iff.mp member)
  | setQuantum quantum => exact ⟨prioritized.schedule, prioritized.sorted, prioritized.urgent⟩

theorem obeyAll (prioritized : kernel.Prioritized) (steady : kernel.Steady history)
    {commands : List Command} (keeps : ∀ command ∈ commands, command.KeepsPriority) :
    (kernel.obeyAll commands).Prioritized :=
  steady.along (fun kernel _ => kernel.Prioritized) prioritized
    fun command member steady prioritized => prioritized.obey steady (keeps command member)

end Prioritized

/-- The schedule is priority from booting, or was set to priority while nobody executed. -/
inductive Prioritizes (config : Config) : Kernel → Prop
  | boot (format : Bool) (schedule : config.schedule = .priority) :
      Prioritizes config (booted config format)
  | set (format : Bool) (commands : List Command)
      (idle : ((booted config format).obeyAll commands).system.executing = none) :
      Prioritizes config (((booted config format).obeyAll commands).obey (.setSchedule .priority))

theorem Prioritizes.prioritized {config : Config} (prioritizes : Prioritizes config kernel) :
    kernel.Prioritized ∧ ∃ history, kernel.Steady history := by
  cases prioritizes with
  | boot format schedule =>
      refine ⟨⟨?_, ?_, ?_⟩, _, steady_booted config format⟩
      · rw [lineup_booted]
        exact schedule
      · rw [lineup_booted]
        exact List.Pairwise.nil
      · rw [lineup_booted]
        exact Or.inr (urgent_of_idle rfl)
  | set format commands idle =>
      have steady := (steady_obeyAll config format commands).obey (.setSchedule .priority)
      rcases System.setSchedule_lineup .priority
        ((booted config format).obeyAll commands).system with ⟨queue, lineup_eq, _, ordered⟩
      have lineup_eq : (((booted config format).obeyAll commands).obey
        (.setSchedule .priority)).lineup = _ := lineup_eq
      refine ⟨⟨?_, ?_, ?_⟩, _, steady⟩
      · rw [lineup_eq]
        rfl
      · rw [lineup_eq]
        exact ordered rfl
      · rw [lineup_eq]
        exact Or.inr (urgent_of_idle (by simp [System.lineup, idle]))

/-- Whoever runs a cycle is as urgent as all who wait. -/
theorem runs_most_urgent {config : Config} (prioritizes : Prioritizes config kernel)
    {commands : List Command} (keeps : ∀ command ∈ commands, command.KeepsPriority) {cycle : Cycle}
    (runs : (kernel.obeyAll commands).cycle? .pulse = some cycle) :
    ∀ waiting ∈ ((kernel.obeyAll commands).obey .pulse).system.ready,
      cycle.process.priority ≤ waiting.priority := by
  rcases prioritizes.prioritized with ⟨prioritized, history, steady⟩
  have now := prioritized.obeyAll steady keeps
  have ticks := (steady.obeyAll commands).pulse_ticks
  intro waiting member
  have queued : waiting.rank ∈ ((kernel.obeyAll commands).obey .pulse).lineup.ready :=
    List.mem_map_of_mem member
  generalize kernel.obeyAll commands = last at runs now ticks queued
  have next_eq : last.obey .pulse = last.pulse.value := rfl
  rw [next_eq] at queued
  cases ticks with
  | rests _ _ _ none_run => simp [runs] at none_run
  | handles _ _ _ _ _ none_run => simp [runs] at none_run
  | fails _ _ _ _ none_run => simp [runs] at none_run
  | runs between ran quiet _ one_run dispatches executing _ lineup_eq =>
      cases runs.symm.trans one_run
      rw [lineup_eq] at queued
      exact (now.dispatch quiet dispatches).2 _ executing _ queued

/-- Three short segments, and processes in the order of priority. -/
def prioritized : Config :=
  { memorySize := 12, segmentCount := 3, disk := ⟨2, 1, 4⟩, schedule := .priority }

/-- A process has run its first cycle, and one or two more urgent ones are to run. -/
def urgency (pids : List Nat) : List Command :=
  [.enqueue (.loadProgram "EA EA EA 00" (some 5)), .enqueue (.loadProgram "EA 00" (some 2)),
    .enqueue (.loadProgram "EA 00" (some 2)), .enqueue (.runProgram 0)] ++
    List.replicate 5 .pulse ++ pids.map (fun pid => .enqueue (.runProgram pid)) ++
    List.replicate pids.length .pulse

theorem plain_urgency (pids : List Nat) : ∀ command ∈ urgency pids, command.Plain := by
  intro command member
  simp only [urgency, List.mem_append, List.mem_cons, List.mem_replicate, List.mem_map,
    List.not_mem_nil, or_false] at member
  rcases member with (((rfl | rfl | rfl | rfl) | ⟨_, rfl⟩) | ⟨pid, _, rfl⟩) | ⟨_, rfl⟩ <;>
    simp [Command.Plain]

theorem runs_most_urgent_small :
    ∃ cycle, ((booted prioritized true).obeyAll (urgency [1] ++ [.pulse])).cycle? .pulse =
        some cycle ∧ cycle.process.pid = 1 ∧
      (((booted prioritized true).obeyAll (urgency [1] ++ [.pulse])).obey
        .pulse).system.ready.map Process.pid = [0] ∧
      ∀ waiting ∈ (((booted prioritized true).obeyAll (urgency [1] ++ [.pulse])).obey
        .pulse).system.ready, cycle.process.priority ≤ waiting.priority := by
  have runs : ∃ cycle ∈ (((booted prioritized true).obeyAll (urgency [1] ++ [.pulse])).cycle?
      .pulse).toList, cycle.process.pid = 1 ∧
        (((booted prioritized true).obeyAll (urgency [1] ++ [.pulse])).obey
          .pulse).system.ready.map Process.pid = [0] := by
    decide +kernel
  rcases runs with ⟨cycle, ran, pid, waiting⟩
  rw [Option.mem_toList] at ran
  refine ⟨cycle, ran, pid, waiting, runs_most_urgent (.boot true rfl) ?_ ran⟩
  simp [urgency, Command.KeepsPriority]

/-! ## Requests

A context switch is asked for when a process becomes ready, and takes place later.  What it finds
then may be different: the executing process may have given way already, or the more urgent one may
have ended.
-/

/-- A context switch was asked for while `running` executed and the more urgent `urgent` was the
first to wait.  Since then some commands were obeyed, and what was pending before it was handled,
except for the interrupts `ahead`. -/
structure Asked (asked : Kernel) (commands : List Command) (ahead : List Interrupt)
    (running urgent : Process) : Prop where
  pending : asked.interrupts = asked.handledIn commands ++ ahead ++ [.contextSwitch]
  executing : asked.system.executing = some running
  ready : asked.system.ready.head? = some urgent
  urgent : urgent.priority < running.priority

/-- As long as both are there, the one is more urgent than the other. -/
theorem Asked.outranked {since : List Command} {ahead : List Interrupt}
    {running urgent old waiting : Process} (asked : kernel.Asked since ahead running urgent)
    (steady : kernel.Steady history)
    (executing : (kernel.obeyAll since).system.executing = some old) (same : old.pid = running.pid)
    (waits : waiting ∈ (kernel.obeyAll since).system.ready)
    (same_urgent : waiting.pid = urgent.pid) : waiting.priority < old.priority := by
  rcases List.head?_eq_some_iff.mp asked.ready with ⟨others, ready⟩
  have old_eq : old.rank = running.rank := by
    apply @Steady.rank_kept _ _ steady since
    · simp [everyone, lineup, System.lineup, asked.executing]
    · simp [everyone, lineup, System.lineup, executing]
    · exact same
  have waiting_eq : waiting.rank = urgent.rank := by
    apply @Steady.rank_kept _ _ steady since
    · simp [everyone, lineup, System.lineup, ready]
    · exact List.mem_append_left _ (List.mem_append_right _ (List.mem_map_of_mem waits))
    · exact same_urgent
  have old_priority : old.priority = running.priority := congrArg Rank.priority old_eq
  have waiting_priority : waiting.priority = urgent.priority := congrArg Rank.priority waiting_eq
  rw [old_priority, waiting_priority]
  exact asked.urgent

theorem exists_of_shouldPreempt {system : System} (preempts : system.lineup.shouldPreempt = true) :
    ∃ running urgent, system.executing = some running ∧ system.ready.head? = some urgent ∧
      urgent.priority < running.priority := by
  rw [System.shouldPreempt_lineup] at preempts
  unfold System.shouldPreempt at preempts
  split at preempts
  · rename_i running urgent rest executing ready
    simp only [Bool.and_eq_true, decide_eq_true_eq] at preempts
    exact ⟨running, urgent, executing, by simp [ready], preempts.2⟩
  · simp at preempts

/-- A member of two lists, one after the other, is one of the first list or of the second. -/
theorem split_append {α : Type} {first second ahead behind : List α} {member : α}
    (split : first ++ second = ahead ++ member :: behind) :
    (∃ later, first = ahead ++ member :: later) ∨
      ∃ before, ahead = first ++ before ∧ second = before ++ member :: behind := by
  rcases List.append_eq_append_iff.mp split with
    ⟨before, ahead_eq, second_eq⟩ | ⟨between, first_eq, rest⟩
  · exact Or.inr ⟨before, ahead_eq, second_eq⟩
  · cases between with
    | nil => exact Or.inr ⟨[], by simpa using first_eq.symm, rest.symm⟩
    | cons head later =>
        cases rest
        exact Or.inl ⟨later, first_eq⟩

theorem eq_nil_of_singleton {α : Type} {first member : α} {before behind : List α}
    (split : [first] = before ++ member :: behind) : before = [] ∧ first = member := by
  cases before with
  | nil =>
      cases split
      exact ⟨rfl, rfl⟩
  | cons other rest => simp at split

/-- Under priority a cycle asks for no context switch. -/
theorem not_mem_interruptsAfter {cycle : Cycle} {policy : Policy}
    (priority : policy.schedule = .priority) :
    .contextSwitch ∉ interruptsAfter cycle policy [] := by
  have patient : policy.shouldSwitch = false := by simp [Policy.shouldSwitch, priority]
  intro member
  cases raised : cycle.raised with
  | none => simp [interruptsAfter, patient, Cycle.enqueueRaised, raised] at member
  | some interrupt =>
      have same : interrupt = .contextSwitch := by
        simpa [interruptsAfter, patient, Cycle.enqueueRaised, raised, InterruptQueue.enqueue,
          eq_comm] using member
      cases same
      cases Cycle.ended?_of_raised raised

/-- A context switch that is pending after a command was pending before, or the command has made
somebody ready who is more urgent. -/
theorem pending_of_obey (prioritized : kernel.Prioritized) (steady : kernel.Steady history)
    {command : Command} (plain : command.Plain) {ahead behind : List Interrupt}
    (pending : (kernel.obey command).interrupts = ahead ++ .contextSwitch :: behind) :
    (∃ later, kernel.interrupts =
        (kernel.handled? command).toList ++ ahead ++ .contextSwitch :: later) ∨
      (command = .pulse ∧ (kernel.obey command).interrupts = ahead ++ [.contextSwitch] ∧
        (kernel.obey command).lineup.shouldPreempt = true) := by
  cases command with
  | setSchedule schedule => cases plain
  | setQuantum quantum => cases plain
  | enqueue interrupt =>
      have split : kernel.interrupts ++ [interrupt] = ahead ++ .contextSwitch :: behind := pending
      rcases split_append split with ⟨later, before⟩ | ⟨front, _, now⟩
      · exact Or.inl ⟨later, by simpa [handled?] using before⟩
      · exact absurd (eq_nil_of_singleton now).2 plain
  | pulse =>
      have next_eq : kernel.obey .pulse = kernel.pulse.value := rfl
      rw [next_eq] at pending ⊢
      cases steady.pulse_ticks with
      | rests _ interrupts_eq none_handled =>
          exact Or.inl ⟨behind, by simpa [none_handled] using interrupts_eq.symm.trans pending⟩
      | handles interrupt rest raised queue one_handled _ interrupts_eq changes =>
          rcases split_append (interrupts_eq.symm.trans pending) with
            ⟨later, before⟩ | ⟨front, ahead_eq, now⟩
          · refine Or.inl ⟨later, ?_⟩
            rw [queue, one_handled, before]
            simp
          · rcases changes.raises with none_raised | ⟨one_raised, preempts⟩
            · simp [none_raised] at now
            · rw [one_raised] at now interrupts_eq
              rw [(eq_nil_of_singleton now).1, List.append_nil] at ahead_eq
              exact Or.inr ⟨rfl, ahead_eq ▸ interrupts_eq, preempts⟩
      | fails _ _ _ _ _ interrupts_eq => simp [interrupts_eq] at pending
      | runs between cycle quiet _ _ dispatches _ interrupts_eq lineup_eq =>
          have priority : kernel.pulse.value.lineup.policy.schedule = .priority := by
            rw [lineup_eq]
            exact dispatches.policy ▸ prioritized.schedule
          have none_asked := @not_mem_interruptsAfter cycle _ priority
          rw [← interrupts_eq, pending] at none_asked
          simp at none_asked

/-- Every context switch that is pending was asked for by somebody who had become ready. -/
theorem asked_of_pending {start : Kernel} (prioritized : start.Prioritized)
    (steady : start.Steady history) (quiet : start.interrupts = []) {commands : List Command}
    (plain : ∀ command ∈ commands, command.Plain) {ahead behind : List Interrupt}
    (pending : (start.obeyAll commands).interrupts = ahead ++ .contextSwitch :: behind) :
    ∃ before since running urgent, commands = before ++ .pulse :: since ∧
      (start.obeyAll (before ++ [.pulse])).Asked since ahead running urgent := by
  induction commands using List.reverseRecOn generalizing ahead behind with
  | nil => simp [obeyAll, quiet] at pending
  | append_singleton commands command hypothesis =>
      have plainBefore : ∀ command ∈ commands, command.Plain := fun other member =>
        plain other (List.mem_append_left _ member)
      have keeps : ∀ command ∈ commands, command.KeepsPriority := fun other member =>
        (plainBefore other member).keepsPriority
      rw [obeyAll_concat] at pending
      rcases pending_of_obey (prioritized.obeyAll steady keeps) (steady.obeyAll commands)
        (plain command (by simp)) pending with ⟨later, earlier⟩ | ⟨rfl, now, preempts⟩
      · rcases hypothesis plainBefore earlier with
          ⟨before, since, running, urgent, rfl, asked⟩
        refine ⟨before, since ++ [command], running, urgent, by simp, ?_, asked.executing,
          asked.ready, asked.urgent⟩
        rw [asked.pending, handledIn_append, ← obeyAll_append_cons]
        simp [handledIn]
      · rcases exists_of_shouldPreempt preempts with ⟨running, urgent, executing, ready, less⟩
        rw [← obeyAll_concat] at now executing ready
        exact ⟨commands, [], running, urgent, rfl, by simpa [handledIn] using now, executing, ready,
          less⟩

/-- A context switch gives the processor to nobody who is less urgent than the executing process.
It was asked for by a more urgent process, and if the same process still executes and the more urgent
one still waits, the one that takes its place is more urgent as well. -/
theorem gives_way {config : Config} (schedule : config.schedule = .priority) (format : Bool)
    {commands : List Command} (plain : ∀ command ∈ commands, command.Plain) {old new : Process}
    (switches : ((booted config format).obeyAll commands).handled? .pulse = some .contextSwitch)
    (executing : ((booted config format).obeyAll commands).system.executing = some old)
    (executes : (((booted config format).obeyAll commands).obey .pulse).system.executing = some new)
    (different : new.pid ≠ old.pid) :
    new.priority ≤ old.priority ∧
      ∃ before since running urgent, commands = before ++ .pulse :: since ∧
        ((booted config format).obeyAll (before ++ [.pulse])).Asked since [] running urgent ∧
        (running.pid = old.pid →
          urgent.pid ∈ ((booted config format).obeyAll commands).system.ready.map Process.pid →
            new.priority < old.priority) := by
  rcases (Prioritizes.boot format schedule).prioritized with ⟨prioritized, _⟩
  have steady := steady_booted config format
  have quiet : (booted config format).interrupts = [] := interrupts_booted config format
  generalize booted config format = start at *
  have now := prioritized.obeyAll steady fun command member => (plain command member).keepsPriority
  have ticks := (steady.obeyAll commands).pulse_ticks
  have executing_rank : (start.obeyAll commands).lineup.executing = some old.rank := by
    simp [lineup, System.lineup, executing]
  have executes_rank : (start.obeyAll commands).pulse.value.lineup.executing = some new.rank := by
    have executes : (start.obeyAll commands).pulse.value.system.executing = some new := executes
    simp [lineup, System.lineup, executes]
  cases ticks with
  | rests _ _ none_handled => simp [switches] at none_handled
  | fails _ _ _ none_handled => simp [switches] at none_handled
  | runs _ _ _ none_handled => simp [switches] at none_handled
  | handles interrupt rest raised queue one_handled _ _ changes =>
      cases switches.symm.trans one_handled
      have least := changes.most_urgent now.orders now.sorted executing_rank executes_rank
        (mt (congrArg Rank.pid) different)
      refine ⟨least old.rank List.mem_cons_self, ?_⟩
      rcases @asked_of_pending _ _ prioritized steady quiet commands plain [] rest queue with
        ⟨before, since, running, urgent, rfl, asked⟩
      refine ⟨before, since, running, urgent, rfl, asked, fun same waits => ?_⟩
      rw [obeyAll_append_cons] at executing waits least
      rcases List.mem_map.mp waits with ⟨waiting, member, same_urgent⟩
      have outranked := asked.outranked (steady.obeyAll (before ++ [.pulse])) executing same.symm
        member same_urgent
      have below : new.rank.priority ≤ waiting.rank.priority :=
        least waiting.rank (List.mem_cons_of_mem _ (List.mem_map_of_mem member))
      exact Nat.lt_of_le_of_lt below outranked

/-- One process is to run that is more urgent than the executing one. -/
theorem gives_way_small :
    ∃ old new before since running urgent,
      ((booted prioritized true).obeyAll (urgency [1])).handled? .pulse = some .contextSwitch ∧
      ((booted prioritized true).obeyAll (urgency [1])).system.executing = some old ∧
      (((booted prioritized true).obeyAll (urgency [1])).obey .pulse).system.executing = some new ∧
      old.pid = 0 ∧ new.pid = 1 ∧ new.priority ≤ old.priority ∧
      urgency [1] = before ++ .pulse :: since ∧
      ((booted prioritized true).obeyAll (before ++ [.pulse])).Asked since [] running urgent := by
  have switch : ((booted prioritized true).obeyAll (urgency [1])).handled? .pulse =
        some .contextSwitch ∧
      ∃ old ∈ ((booted prioritized true).obeyAll (urgency [1])).system.executing.toList,
        ∃ new ∈ (((booted prioritized true).obeyAll (urgency [1])).obey
          .pulse).system.executing.toList, old.pid = 0 ∧ new.pid = 1 := by
    decide +kernel
  rcases switch with ⟨switches, old, executing, new, executes, pid, pidNew⟩
  rw [Option.mem_toList] at executing executes
  rcases gives_way rfl true (plain_urgency [1]) switches executing executes (by simp [pid, pidNew])
    with ⟨least, before, since, running, urgent, split, asked, _⟩
  exact ⟨old, new, before, since, running, urgent, switches, executing, executes, pid, pidNew,
    least, split, asked⟩

/-- Two processes are to run that are equally urgent, and more urgent than the executing one.  Both
ask for a context switch, and the second one takes place between the two. -/
theorem not_always_more_urgent : ¬ ∀ config : Config, config.validate = .ok () →
    config.schedule = .priority → ∀ (format : Bool) (commands : List Command),
      (∀ command ∈ commands, command.Plain) → ∀ old new : Process,
        ((booted config format).obeyAll commands).handled? .pulse = some .contextSwitch →
        ((booted config format).obeyAll commands).system.executing = some old →
        (((booted config format).obeyAll commands).obey .pulse).system.executing = some new →
        old.pid ∈ (((booted config format).obeyAll commands).obey .pulse).system.ready.map
          Process.pid →
        new.pid ≠ old.pid → new.priority < old.priority := by
  intro strict
  have equal : ((booted prioritized true).obeyAll (urgency [1, 2] ++ [.pulse])).handled? .pulse =
        some .contextSwitch ∧
      ∃ old ∈ ((booted prioritized true).obeyAll (urgency [1, 2] ++ [.pulse])).system.executing.toList,
        ∃ new ∈ (((booted prioritized true).obeyAll (urgency [1, 2] ++ [.pulse])).obey
          .pulse).system.executing.toList,
          old.pid ∈ (((booted prioritized true).obeyAll (urgency [1, 2] ++ [.pulse])).obey
            .pulse).system.ready.map Process.pid ∧
          new.pid ≠ old.pid ∧ ¬ new.priority < old.priority := by
    decide +kernel
  rcases equal with ⟨switches, old, executing, new, executes, requeued, different, equal⟩
  rw [Option.mem_toList] at executing executes
  have plain : ∀ command ∈ urgency [1, 2] ++ [.pulse], command.Plain := by
    intro command member
    rcases List.mem_append.mp member with before | last
    · exact plain_urgency [1, 2] command before
    · rw [List.mem_singleton.mp last]
      trivial
  exact equal (strict prioritized (by decide) rfl true _ plain old new switches executing executes
    requeued different)

end Kernel

end Timeshare
