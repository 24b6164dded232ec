import Timeshare.Proofs.Kernel.Ticks

/-!
# Round robin

Under round robin a process keeps the processor for a quantum of instructions, and for as many
further ones as context switches find nobody else to run.  The turn of a process is spent exactly
when a context switch is pending.  Since no cycle is run while an interrupt is pending, no other
interrupt that comes first makes a difference.
-/

namespace Timeshare

/-! ## Turns -/

/-- The ticks that a process has spent since the last switch. -/
def Policy.turn (pid : Nat) (policy : Policy) : Nat :=
  if policy.lastPid = some pid then policy.spent else 0

namespace Policy

variable {policy : Policy} {pid : Nat}

theorem turn_of_rested (rested : policy.lastPid = none) : policy.turn pid = 0 := by
  simp [turn, rested]

@[simp]
theorem turn_didSwitch : policy.didSwitch.turn pid = 0 :=
  turn_of_rested rfl

@[simp]
theorem turn_didCycle : (policy.didCycle pid).turn pid = policy.turn pid + 1 := by
  unfold turn didCycle
  split
  · simp [*]
  · simp [*]

theorem shouldSwitch_didCycle (schedule : policy.schedule = .roundRobin) :
    (policy.didCycle pid).shouldSwitch = decide (policy.quantum ≤ policy.turn pid + 1) := by
  have spent : (policy.didCycle pid).spent = policy.turn pid + 1 := by
    rw [← turn_didCycle]
    simp [turn, didCycle]
  have same : (policy.didCycle pid).schedule = .roundRobin := schedule
  rw [shouldSwitch, same, spent]
  rfl

end Policy

namespace Kernel

open Lineup

variable {kernel next : Kernel} {history : List Cycle} {quantum pid other : Nat}

/-- After each of the commands the process executes. -/
def Holds (pid : Nat) : List Command → Kernel → Prop
  | [], _ => True
  | command :: rest, kernel =>
    (kernel.obey command).system.executingPid = some pid ∧ Holds pid rest (kernel.obey command)

instance decidableHolds (pid : Nat) :
    (commands : List Command) → (kernel : Kernel) → Decidable (kernel.Holds pid commands)
  | [], _ => .isTrue trivial
  | command :: rest, kernel =>
    have := decidableHolds pid rest (kernel.obey command)
    inferInstanceAs (Decidable ((kernel.obey command).system.executingPid = some pid ∧
      Holds pid rest (kernel.obey command)))

/-- Before and after each of the commands the process is ready. -/
def Waits (pid : Nat) : List Command → Kernel → Prop
  | [], kernel => pid ∈ kernel.system.ready.map Process.pid
  | command :: rest, kernel =>
    pid ∈ kernel.system.ready.map Process.pid ∧ Waits pid rest (kernel.obey command)

/-- The process gets the processor and keeps it. -/
structure Turn (pid : Nat) (commands : List Command) (start : Kernel) : Prop where
  begins : start.system.executingPid ≠ some pid
  taken : commands ≠ []
  holds : start.Holds pid commands

/-- Whether a command makes the kernel handle a context switch that finds nobody ready. -/
def switchesIdly (command : Command) (kernel : Kernel) : Bool :=
  kernel.handled? command = some .contextSwitch && kernel.system.ready.isEmpty

/-- How many context switches find nobody ready under some commands. -/
def idleSwitches : List Command → Kernel → Nat
  | [], _ => 0
  | command :: rest, kernel =>
    (kernel.switchesIdly command).toNat + idleSwitches rest (kernel.obey command)

end Kernel

/-! ## Pace -/

namespace Lineup

variable {lineup next : Lineup} {interrupt : Interrupt} {raised : List Interrupt}
  {quantum asked : Nat}

/-- The ticks that a process has spent of its turn, if it has one. -/
def used (pid : Nat) (lineup : Lineup) : Nat :=
  if lineup.executing.map Rank.pid = some pid then lineup.policy.turn pid else 0

theorem used_of_executing {rank : Rank} (executing : lineup.executing = some rank) :
    lineup.used rank.pid = lineup.policy.turn rank.pid := by
  simp [used, executing]

theorem used_of_not_executing {pid : Nat} (idle : lineup.executing.map Rank.pid ≠ some pid) :
    lineup.used pid = 0 :=
  if_neg idle

theorem not_mem_ready (distinct : (lineup.everyone.map Rank.pid).Nodup) {rank : Rank}
    (executing : lineup.executing = some rank) : rank.pid ∉ lineup.ready.map Rank.pid := by
  simp only [everyone, executing, Option.toList_some, List.cons_append, List.map_cons,
    List.map_append] at distinct
  intro member
  exact (List.nodup_cons.mp distinct).1 (List.mem_append_left _ member)

/-- The turn of the executing process is spent when a context switch was asked for, and not before.
While nobody executes no turn has begun. -/
structure Paced (lineup : Lineup) (quantum asked : Nat) : Prop where
  positive : 0 < quantum
  schedule : lineup.policy.schedule = .roundRobin
  quantum_eq : lineup.policy.quantum = quantum
  rested : lineup.executing = none → lineup.policy.lastPid = none ∧ asked ≤ 1
  turn : ∀ rank, lineup.executing = some rank →
    lineup.policy.turn rank.pid < quantum ∧ asked = 0 ∨
      lineup.policy.turn rank.pid = quantum ∧ asked = 1

namespace Paced

theorem asked_le (paced : lineup.Paced quantum asked) : asked ≤ 1 := by
  cases executing : lineup.executing with
  | none => exact (paced.rested executing).2
  | some rank =>
      have turn := paced.turn rank executing
      omega

theorem first_come (paced : lineup.Paced quantum asked) :
    lineup.policy.ordersByPriority = false := by
  simp [Policy.ordersByPriority, paced.schedule]

/-- Nobody who becomes ready asks for the processor. -/
theorem none_raised (paced : lineup.Paced quantum asked)
    (handles : lineup.Handles interrupt raised next) : raised = [] := by
  rcases handles.raises with none_raised | ⟨_, preempts⟩
  · exact none_raised
  · have schedule := handles.schedule.trans paced.schedule
    simp [shouldPreempt, Policy.ordersByPriority, schedule] at preempts

/-- At the beginning of a turn no context switch is pending. -/
theorem begin (paced : lineup.Paced quantum asked) (executing : Option Rank)
    (ready resident : List Rank) (nextPid : Nat) :
    Paced ⟨executing, ready, resident, nextPid, lineup.policy.didSwitch⟩ quantum 0 where
  positive := paced.positive
  schedule := paced.schedule
  quantum_eq := paced.quantum_eq
  rested _ := ⟨rfl, Nat.zero_le _⟩
  turn rank _ := Or.inl ⟨by simpa using paced.positive, rfl⟩

/-- A context switch is handled when the turn is spent, and begins a new one.  Other interrupts
leave the turn alone or end it for good. -/
theorem handle {rest : InterruptQueue}
    (paced : lineup.Paced quantum ((interrupt :: rest).count .contextSwitch))
    (handles : lineup.Handles interrupt raised next) :
    next.Paced quantum (rest.count .contextSwitch) := by
  have still (steady : interrupt ≠ .contextSwitch) :
      lineup.Paced quantum (rest.count .contextSwitch) := by
    rwa [List.count_cons_of_ne steady] at paced
  have last (switching : interrupt = .contextSwitch) : rest.count .contextSwitch = 0 := by
    have one := paced.asked_le
    rw [switching, List.count_cons_self] at one
    omega
  cases handles with
  | enrolls _ steady =>
      have same := still steady
      exact ⟨same.positive, same.schedule, same.quantum_eq, same.rested, same.turn⟩
  | leaves _ steady =>
      have same := still steady
      exact ⟨same.positive, same.schedule, same.quantum_eq, same.rested, same.turn⟩
  | joins _ _ _ steady =>
      have same := still steady
      exact ⟨same.positive, same.schedule, same.quantum_eq, same.rested, same.turn⟩
  | withdraws _ _ _ steady =>
      have same := still steady
      exact ⟨same.positive, same.schedule, same.quantum_eq, same.rested, same.turn⟩
  | stops rank steady executing =>
      have same := still steady
      refine ⟨same.positive, same.schedule, same.quantum_eq, fun _ => ⟨rfl, same.asked_le⟩, ?_⟩
      rintro _ ⟨⟩
  | skips switching nobody =>
      rw [last switching]
      exact paced.begin _ _ _ _
  | switches head others dispatched switching =>
      rw [last switching]
      exact paced.begin _ _ _ _

/-- A switch that finds nobody ready gives the executing process another quantum. -/
theorem used_handle {rest : InterruptQueue} {pid : Nat}
    (paced : lineup.Paced quantum ((interrupt :: rest).count .contextSwitch))
    (distinct : (lineup.everyone.map Rank.pid).Nodup)
    (handles : lineup.Handles interrupt raised next)
    (executes : next.executing.map Rank.pid = some pid) :
    lineup.used pid = next.used pid +
      quantum * (decide (interrupt = .contextSwitch) && lineup.ready.isEmpty).toNat := by
  cases handles with
  | enrolls _ steady => simp [used, steady]
  | leaves _ steady => simp [used, steady]
  | joins _ _ _ steady => simp [used, steady]
  | withdraws _ _ _ steady => simp [used, steady]
  | stops => simp at executes
  | skips switching nobody =>
      have anew : used pid { lineup with policy := lineup.policy.didSwitch } = 0 := by simp [used]
      rcases Option.map_eq_some_iff.mp executes with ⟨rank, executing, rfl⟩
      have executing : lineup.executing = some rank := executing
      have spent := paced.turn rank executing
      rw [switching, List.count_cons_self] at spent
      rw [anew, used_of_executing executing]
      simp only [switching, nobody, decide_true, List.isEmpty_nil, Bool.and_self, Bool.toNat_true]
      omega
  | switches head others dispatched switching waiting queues either =>
      rcases either with rfl | rfl
      · have was_ready : pid ∈ lineup.ready.map Rank.pid := by
          rcases Option.map_eq_some_iff.mp executes with ⟨rank, same, rfl⟩
          cases same
          have queue := queues.behind paced.first_come
          cases ready : lineup.ready with
          | nil => exact absurd ready waiting
          | cons first behind =>
              rw [ready] at queue
              cases queue
              exact List.mem_cons_self
        have idle : lineup.executing.map Rank.pid ≠ some pid := by
          intro executing
          rcases Option.map_eq_some_iff.mp executing with ⟨rank, held, rfl⟩
          exact not_mem_ready distinct held was_ready
        have nonempty : lineup.ready.isEmpty = false := by simpa using waiting
        rw [used_of_not_executing idle, nonempty]
        simp [used]
      · simp at executes

/-- A process is put back into the ready queue when its turn is spent. -/
theorem spent_of_requeued {rest : InterruptQueue} {rank : Rank}
    (paced : lineup.Paced quantum ((interrupt :: rest).count .contextSwitch))
    (distinct : (lineup.everyone.map Rank.pid).Nodup)
    (distinctNext : (next.everyone.map Rank.pid).Nodup)
    (handles : lineup.Handles interrupt raised next) (executing : lineup.executing = some rank)
    (requeued : rank.pid ∈ next.ready.map Rank.pid) : lineup.policy.turn rank.pid = quantum := by
  cases handles with
  | enrolls => exact absurd requeued (not_mem_ready distinctNext executing)
  | leaves => exact absurd requeued (not_mem_ready distinctNext executing)
  | joins => exact absurd requeued (not_mem_ready distinctNext executing)
  | withdraws => exact absurd requeued (not_mem_ready distinctNext executing)
  | stops => exact absurd requeued (not_mem_ready distinct executing)
  | skips => exact absurd requeued (not_mem_ready distinct executing)
  | switches head others dispatched switching =>
      have spent := paced.turn rank executing
      rw [switching, List.count_cons_self] at spent
      omega

/-- The process that gets the processor has not spent its turn. -/
theorem dispatch (paced : lineup.Paced quantum 0) (dispatches : lineup.Dispatches next) :
    next.Paced quantum 0 := by
  cases dispatches with
  | stays => exact paced
  | gives head rest idle ready =>
      refine ⟨paced.positive, paced.schedule, paced.quantum_eq, by simp, ?_⟩
      rintro rank ⟨⟩
      refine Or.inl ⟨?_, rfl⟩
      exact (Policy.turn_of_rested (paced.rested idle).1).trans_lt paced.positive
  | fails head rest idle ready =>
      refine ⟨paced.positive, paced.schedule, paced.quantum_eq, paced.rested, ?_⟩
      rintro rank executing
      simp [idle] at executing

theorem used_dispatch (paced : lineup.Paced quantum 0) (dispatches : lineup.Dispatches next)
    {rank : Rank} (executing : next.executing = some rank) :
    lineup.used rank.pid = next.policy.turn rank.pid := by
  cases dispatches with
  | stays => exact used_of_executing executing
  | gives head rest idle ready =>
      apply (used_of_not_executing (by simp [idle])).trans
      exact (Policy.turn_of_rested (paced.rested idle).1).symm
  | fails head rest idle => simp [idle] at executing

/-- A cycle asks for a context switch if it is the last one of the turn. -/
theorem cycle (paced : lineup.Paced quantum 0) {rank : Rank}
    (executing : lineup.executing = some rank) :
    Paced { lineup with policy := lineup.policy.didCycle rank.pid } quantum
      (lineup.policy.didCycle rank.pid).shouldSwitch.toNat := by
  refine ⟨paced.positive, paced.schedule, paced.quantum_eq, by simp [executing], ?_⟩
  intro other executes
  have unspent := paced.turn rank executing
  cases executing.symm.trans executes
  rw [Policy.shouldSwitch_didCycle paced.schedule, Policy.turn_didCycle, paced.quantum_eq]
  by_cases spent : quantum ≤ lineup.policy.turn rank.pid + 1
  · refine Or.inr ⟨by omega, by simp [spent]⟩
  · refine Or.inl ⟨by omega, by simp [spent]⟩

end Paced

/-! ## First come, first served

Round robin is fair because the ready queue is: who waits stays in front of those who come later.
-/

/-- Of the two processes `pid` is not the one whose turn comes first, and it is not to become ready
either. -/
structure Yields (lineup : Lineup) (pid other : Nat) : Prop where
  behind : ¬ [pid, other].Sublist (lineup.ready.map Rank.pid)
  resident : pid ∉ lineup.resident.map Rank.pid
  given : pid < lineup.nextPid

theorem sublist_of_append {pid other : Nat} {front back : List Nat} (absent : other ∉ back)
    (before : [pid, other].Sublist (front ++ back)) : [pid, other].Sublist front := by
  rcases List.sublist_append_iff.mp before with ⟨first, second, split, early, late⟩
  rcases List.cons_eq_append_iff.mp split with ⟨rfl, rfl⟩ | ⟨rest, rfl, one⟩
  · exact absurd (late.subset (by simp)) absent
  · rcases List.cons_eq_append_iff.mp one with ⟨rfl, rfl⟩ | ⟨last, rfl, none⟩
    · exact absurd (late.subset (by simp)) absent
    · cases (List.nil_eq_append_iff.mp none).1
      exact early

theorem sublist_of_head {pid other : Nat} {rest : List Nat} (waits : other ∈ rest) :
    [pid, other].Sublist (pid :: rest) :=
  (List.singleton_sublist.mpr waits).cons_cons pid

section Yields

variable {pid other : Nat}

/-- Who waits is not overtaken by anyone who was behind or becomes ready. -/
theorem Handles.yields (handles : lineup.Handles interrupt raised next)
    (first_come : lineup.policy.ordersByPriority = false)
    (distinct : (lineup.everyone.map Rank.pid).Nodup)
    (distinctNext : (next.everyone.map Rank.pid).Nodup) (waits : other ∈ lineup.ready.map Rank.pid)
    (waitsNext : other ∈ next.ready.map Rank.pid) (yields : lineup.Yields pid other) :
    next.Yields pid other ∧ (lineup.executing.map Rank.pid ≠ some pid →
      next.executing.map Rank.pid ≠ some pid) := by
  cases handles with
  | enrolls priority =>
      refine ⟨⟨yields.behind, ?_, Nat.lt_succ_of_lt yields.given⟩, id⟩
      simpa using ⟨by simpa using yields.resident, Nat.ne_of_lt yields.given⟩
  | leaves left steady sublist =>
      refine ⟨⟨yields.behind, fun member => ?_, yields.given⟩, id⟩
      exact yields.resident ((sublist.map Rank.pid).subset member)
  | joins new left queue steady taken queues =>
      have queue_eq := queues.behind first_come
      subst queue_eq
      refine ⟨⟨fun before => yields.behind ?_, fun member => yields.resident ?_, yields.given⟩, id⟩
      · rw [List.map_append] at before
        apply sublist_of_append _ before
        have apart : ((lineup.ready ++ new).map Rank.pid).Nodup := by
          have inner : (lineup.ready ++ new).Sublist
              (lineup.executing.toList ++ (lineup.ready ++ new) ++ left) :=
            (List.sublist_append_right _ _).trans (List.sublist_append_left _ _)
          exact distinctNext.sublist (inner.map Rank.pid)
        rw [List.map_append] at apart
        exact List.disjoint_of_nodup_append apart waits
      · have order := taken.map Rank.pid
        rw [List.map_append] at order
        exact order.mem_iff.mpr (List.mem_append_right _ member)
  | stops => exact ⟨⟨yields.behind, yields.resident, yields.given⟩, fun _ => by simp⟩
  | withdraws before rank after steady ready =>
      have left : (before ++ after).Sublist lineup.ready := by
        rw [ready]
        exact (List.sublist_cons_self rank after).append_left before
      refine ⟨⟨fun overtakes => yields.behind ?_, yields.resident, yields.given⟩, id⟩
      exact overtakes.trans (left.map Rank.pid)
  | skips => exact ⟨⟨yields.behind, yields.resident, yields.given⟩, id⟩
  | switches head rest dispatched switching waiting queues either =>
      have queue_eq := queues.behind first_come
      have absent : other ∉ lineup.executing.toList.map Rank.pid := by
        intro member
        rcases List.mem_map.mp member with ⟨rank, executing, rfl⟩
        exact not_mem_ready distinct (Option.mem_toList.mp executing) waits
      have behind : ¬ [pid, other].Sublist ((head :: rest).map Rank.pid) := by
        rw [queue_eq, List.map_append]
        exact fun before => yields.behind (sublist_of_append absent before)
      refine ⟨⟨fun before => behind (before.cons head.pid), yields.resident, yields.given⟩, ?_⟩
      rintro _ executes
      rcases either with rfl | rfl
      · cases executes
        exact behind (sublist_of_head waitsNext)
      · simp at executes

theorem Dispatches.yields (dispatches : lineup.Dispatches next)
    (waitsNext : other ∈ next.ready.map Rank.pid) (yields : lineup.Yields pid other) :
    next.Yields pid other ∧ (lineup.executing.map Rank.pid ≠ some pid →
      next.executing.map Rank.pid ≠ some pid) := by
  have rest_behind {head : Rank} {rest : List Rank} (ready : lineup.ready = head :: rest) :
      ¬ [pid, other].Sublist ((head :: rest).map Rank.pid) := ready ▸ yields.behind
  cases dispatches with
  | stays => exact ⟨yields, id⟩
  | gives head rest idle ready =>
      refine ⟨⟨fun before => rest_behind ready (before.cons head.pid), yields.resident,
        yields.given⟩, ?_⟩
      rintro _ executes
      cases executes
      exact rest_behind ready (sublist_of_head waitsNext)
  | fails head rest idle ready =>
      exact ⟨⟨fun before => rest_behind ready (before.cons head.pid), yields.resident,
        yields.given⟩, id⟩

end Yields

end Lineup

namespace Kernel

variable {kernel next : Kernel} {history : List Cycle} {quantum pid other : Nat}

/-- The turn of the executing process is spent when a context switch is pending, and not before. -/
def Paced (kernel : Kernel) (quantum : Nat) : Prop :=
  kernel.lineup.Paced quantum (kernel.interrupts.count .contextSwitch)

theorem count_interruptsAfter (cycle : Cycle) (policy : Policy) :
    (interruptsAfter cycle policy []).count .contextSwitch = policy.shouldSwitch.toNat := by
  have raised_other : (cycle.enqueueRaised []).count .contextSwitch = 0 := by
    cases raised : cycle.raised with
    | none => simp [Cycle.enqueueRaised, raised]
    | some interrupt =>
        have different : interrupt ≠ .contextSwitch := by
          rintro rfl
          cases Cycle.ended?_of_raised raised
        simp [Cycle.enqueueRaised, raised, InterruptQueue.enqueue, different]
  cases asks : policy.shouldSwitch with
  | false => simp [interruptsAfter, asks, raised_other]
  | true => simp [interruptsAfter, asks, raised_other, InterruptQueue.enqueue]

namespace Paced

theorem of_quiet (paced : kernel.Paced quantum) (quiet : kernel.interrupts = []) :
    kernel.lineup.Paced quantum 0 := by
  simpa [Paced, quiet] using paced

theorem pulse (paced : kernel.Paced quantum) (ticks : kernel.Ticks next) : next.Paced quantum := by
  cases ticks with
  | rests lineup_eq interrupts_eq => rwa [Paced, lineup_eq, interrupts_eq]
  | handles interrupt rest raised queue _ _ interrupts_eq changes =>
      rw [Paced, queue] at paced
      rw [Paced, interrupts_eq, paced.none_raised changes, List.append_nil]
      exact paced.handle changes
  | fails head rest quiet _ _ interrupts_eq idle ready lineup_eq =>
      rw [Paced, interrupts_eq, lineup_eq]
      exact (paced.of_quiet quiet).dispatch (.fails head rest idle ready)
  | runs between cycle quiet _ _ dispatches executing interrupts_eq lineup_eq =>
      rw [Paced, interrupts_eq, count_interruptsAfter, lineup_eq]
      exact ((paced.of_quiet quiet).dispatch dispatches).cycle executing

theorem obey (paced : kernel.Paced quantum) (steady : kernel.Steady history) {command : Command}
    (plain : command.Plain) : (kernel.obey command).Paced quantum := by
  cases command with
  | pulse => exact paced.pulse steady.pulse_ticks
  | enqueue interrupt =>
      have same : (kernel.obey (.enqueue interrupt)).interrupts.count .contextSwitch =
          kernel.interrupts.count .contextSwitch := by
        have different : interrupt ≠ .contextSwitch := plain
        simp [Kernel.obey, enqueue, InterruptQueue.enqueue, different]
      rw [Paced, same]
      exact paced
  | setSchedule schedule => cases plain
  | setQuantum quantum => cases plain

theorem used_le (paced : kernel.Paced quantum) (pid : Nat) : kernel.lineup.used pid ≤ quantum := by
  by_cases executes : kernel.lineup.executing.map Rank.pid = some pid
  · rcases Option.map_eq_some_iff.mp executes with ⟨rank, executing, rfl⟩
    rw [Lineup.used_of_executing executing]
    have turn := Lineup.Paced.turn paced rank executing
    omega
  · rw [Lineup.used_of_not_executing executes]
    exact Nat.zero_le _

/-- Whatever the processor does under a command is counted: instructions of the executing process
use its turn up, and a context switch that finds nobody ready gives it another one. -/
theorem used_obey (paced : kernel.Paced quantum) (steady : kernel.Steady history)
    {command : Command} (plain : command.Plain)
    (executes : (kernel.obey command).lineup.executing.map Rank.pid = some pid) :
    (∀ cycle ∈ (kernel.cycle? command).toList, cycle.process.pid = pid) ∧
      (kernel.cycle? command).toList.length + kernel.lineup.used pid =
        (kernel.obey command).lineup.used pid +
          quantum * (kernel.switchesIdly command).toNat := by
  cases command with
  | setSchedule schedule => cases plain
  | setQuantum quantum => cases plain
  | enqueue interrupt =>
      refine ⟨by simp [cycle?], ?_⟩
      have same : (kernel.obey (.enqueue interrupt)).lineup = kernel.lineup := rfl
      simp [cycle?, switchesIdly, handled?, same]
  | pulse =>
      have next_eq : kernel.obey .pulse = kernel.pulse.value := rfl
      rw [next_eq] at executes ⊢
      cases steady.pulse_ticks with
      | rests lineup_eq _ none_handled none_run =>
          simp [none_run, switchesIdly, none_handled, lineup_eq]
      | handles interrupt rest raised queue one_handled none_run interrupts_eq changes =>
          rw [Paced, queue] at paced
          refine ⟨by simp [none_run], ?_⟩
          have empty : kernel.lineup.ready.isEmpty = kernel.system.ready.isEmpty := by
            simp [lineup, System.lineup]
          rw [paced.used_handle steady.distinct_everyone changes executes, empty]
          simp [none_run, switchesIdly, one_handled]
      | fails head rest _ _ _ _ idle _ lineup_eq => simp [lineup_eq, idle] at executes
      | runs between cycle quiet none_handled one_run dispatches executing _ lineup_eq =>
          rw [lineup_eq] at executes
          simp only [executing, Option.map_some, Option.some.injEq, Process.pid_rank] at executes
          subst executes
          refine ⟨by simp [one_run], ?_⟩
          have before := (paced.of_quiet quiet).used_dispatch dispatches executing
          have after : kernel.pulse.value.lineup.used cycle.process.pid =
              between.policy.turn cycle.process.pid + 1 := by
            rw [lineup_eq]
            simp [Lineup.used, executing]
          rw [Process.pid_rank] at before
          rw [before, after]
          simp [one_run, switchesIdly, none_handled]
          omega

end Paced

/-! ## Whole turns -/

theorem executingPid_eq (kernel : Kernel) :
    kernel.system.executingPid = kernel.lineup.executing.map Rank.pid := by
  simp [System.executingPid, lineup, System.lineup, Function.comp_def]

theorem used_turn (paced : kernel.Paced quantum) (steady : kernel.Steady history)
    {commands : List Command} (plain : ∀ command ∈ commands, command.Plain)
    (holds : kernel.Holds pid commands) :
    (∀ cycle ∈ kernel.cycles commands, cycle.process.pid = pid) ∧
      (kernel.cycles commands).length + kernel.lineup.used pid =
        (kernel.obeyAll commands).lineup.used pid + quantum * kernel.idleSwitches commands := by
  induction commands generalizing kernel history with
  | nil => simp [cycles, obeyAll, idleSwitches]
  | cons command rest hypothesis =>
      rcases holds with ⟨executes, holds⟩
      rw [executingPid_eq] at executes
      have plainFirst := plain command List.mem_cons_self
      rcases paced.used_obey steady plainFirst executes with ⟨own, used⟩
      rcases hypothesis (paced.obey steady plainFirst) (steady.obey command)
        (fun other member => plain other (List.mem_cons_of_mem command member)) holds with
        ⟨ownRest, usedRest⟩
      constructor
      · intro cycle member
        rcases List.mem_append.mp member with now | later
        · exact own cycle now
        · exact ownRest cycle later
      · have next_eq : kernel.obeyAll (command :: rest) = (kernel.obey command).obeyAll rest := rfl
        rw [next_eq, cycles, List.length_append, idleSwitches, Nat.mul_add]
        omega

/-! ## Turns of others -/

theorem ready_eq (kernel : Kernel) :
    kernel.lineup.ready.map Rank.pid = kernel.system.ready.map Process.pid := by
  simp [lineup, System.lineup, Function.comp_def]

theorem Waits.ready {commands : List Command} (waits : kernel.Waits other commands) :
    other ∈ kernel.lineup.ready.map Rank.pid := by
  rw [ready_eq]
  cases commands with
  | nil => exact waits
  | cons command rest => exact waits.1

theorem yields_of_executing (steady : kernel.Steady history)
    (executes : kernel.lineup.executing.map Rank.pid = some pid) :
    kernel.lineup.Yields pid other := by
  rcases Option.map_eq_some_iff.mp executes with ⟨rank, executing, rfl⟩
  have distinct := steady.distinct_everyone
  refine ⟨fun before => ?_, ?_, ?_⟩
  · exact Lineup.not_mem_ready distinct executing (before.subset (by simp))
  · simp only [Lineup.everyone, executing, Option.toList_some, List.cons_append, List.map_cons,
      List.map_append] at distinct
    intro member
    exact (List.nodup_cons.mp distinct).1 (List.mem_append_right _ member)
  · apply steady.pid_lt_nextPid
    simp [Lineup.everyone, executing]

theorem yields_obey (paced : kernel.Paced quantum) (steady : kernel.Steady history)
    {command : Command} (plain : command.Plain) (waits : other ∈ kernel.lineup.ready.map Rank.pid)
    (waitsNext : other ∈ (kernel.obey command).lineup.ready.map Rank.pid)
    (yields : kernel.lineup.Yields pid other) :
    (kernel.obey command).lineup.Yields pid other ∧
      (kernel.lineup.executing.map Rank.pid ≠ some pid →
        (kernel.obey command).lineup.executing.map Rank.pid ≠ some pid) := by
  cases command with
  | setSchedule schedule => cases plain
  | setQuantum quantum => cases plain
  | enqueue interrupt => exact ⟨yields, id⟩
  | pulse =>
      have distinctNext := (steady.obey .pulse).distinct_everyone
      have next_eq : kernel.obey .pulse = kernel.pulse.value := rfl
      rw [next_eq] at waitsNext distinctNext ⊢
      cases steady.pulse_ticks with
      | rests lineup_eq =>
          rw [lineup_eq]
          exact ⟨yields, id⟩
      | handles interrupt rest raised _ _ _ _ changes =>
          exact changes.yields paced.first_come steady.distinct_everyone distinctNext waits
            waitsNext yields
      | fails head rest _ _ _ _ idle ready lineup_eq =>
          rw [lineup_eq] at waitsNext ⊢
          exact (Lineup.Dispatches.fails head rest idle ready).yields waitsNext yields
      | runs between cycle _ _ _ dispatches _ _ lineup_eq =>
          rw [lineup_eq] at waitsNext ⊢
          rcases dispatches.yields waitsNext yields with ⟨still, idle⟩
          exact ⟨⟨still.behind, still.resident, still.given⟩, idle⟩

/-- While somebody else is ready all cycles that a process runs in a row belong to one turn.  Who
has lost the processor comes behind the one that is ready, and does not get it back before. -/
theorem length_cycles_le (paced : kernel.Paced quantum) (steady : kernel.Steady history)
    {commands : List Command} (plain : ∀ command ∈ commands, command.Plain)
    (waits : kernel.Waits other commands)
    (own : ∀ cycle ∈ kernel.cycles commands, cycle.process.pid = pid) :
    (kernel.cycles commands).length + kernel.lineup.used pid ≤ quantum ∧
      (kernel.lineup.Yields pid other → kernel.lineup.executing.map Rank.pid ≠ some pid →
        kernel.cycles commands = []) := by
  induction commands generalizing kernel history with
  | nil =>
      have bound := paced.used_le pid
      exact ⟨by simpa [cycles] using bound, fun _ _ => rfl⟩
  | cons command rest hypothesis =>
      have here := waits.ready
      have there := waits.2.ready
      have plainFirst := plain command List.mem_cons_self
      rcases hypothesis (paced.obey steady plainFirst) (steady.obey command)
        (fun other member => plain other (List.mem_cons_of_mem command member)) waits.2
        (fun cycle member => own cycle (List.mem_append_right _ member)) with ⟨bound, nobody⟩
      have keeps (yields : kernel.lineup.Yields pid other) :=
        yields_obey paced steady plainFirst here there yields
      by_cases executes : (kernel.obey command).lineup.executing.map Rank.pid = some pid
      · refine ⟨?_, fun yields idle => absurd executes ((keeps yields).2 idle)⟩
        have used := (paced.used_obey steady plainFirst executes).2
        have somebody : kernel.switchesIdly command = false := by
          rw [ready_eq] at here
          have nonempty : kernel.system.ready.isEmpty = false := by
            cases ready : kernel.system.ready with
            | nil => simp [ready] at here
            | cons first others => rfl
          simp [switchesIdly, nonempty]
        rw [somebody, Bool.toNat_false, Nat.mul_zero] at used
        rw [cycles, List.length_append]
        omega
      · have none_run : kernel.cycle? command = none := by
          cases runs : kernel.cycle? command with
          | none => rfl
          | some cycle =>
              have same : cycle.process.pid = pid := own cycle (by simp [cycles, runs])
              refine absurd ?_ executes
              rw [executing_of_cycle? steady runs]
              exact congrArg some same
        have cycles_eq : kernel.cycles (command :: rest) = (kernel.obey command).cycles rest := by
          simp [cycles, none_run]
        rw [cycles_eq]
        refine ⟨?_, fun yields idle => nobody (keeps yields).1 ((keeps yields).2 idle)⟩
        by_cases executed : kernel.lineup.executing.map Rank.pid = some pid
        · rw [nobody (keeps (yields_of_executing steady executed)).1 executes]
          simpa using paced.used_le pid
        · rw [Lineup.used_of_not_executing executed]
          omega

/-! ## Booting -/

theorem paced_booted {config : Config} (schedule : config.schedule = .roundRobin) (format : Bool) :
    (booted config format).Paced (max config.quantum 1) := by
  rw [Paced, lineup_booted, interrupts_booted]
  refine ⟨Nat.le_max_right _ _, schedule, rfl, fun _ => ⟨rfl, Nat.zero_le _⟩, ?_⟩
  rintro rank ⟨⟩

theorem Paced.obeyAll (paced : kernel.Paced quantum) (steady : kernel.Steady history)
    {commands : List Command} (plain : ∀ command ∈ commands, command.Plain) :
    (kernel.obeyAll commands).Paced quantum :=
  steady.along (fun kernel _ => kernel.Paced quantum) paced
    fun command member steady paced => paced.obey steady (plain command member)

theorem Holds.append {first second : List Command} (holds : kernel.Holds pid (first ++ second)) :
    kernel.Holds pid first ∧ (kernel.obeyAll first).Holds pid second := by
  induction first generalizing kernel with
  | nil => exact ⟨trivial, holds⟩
  | cons command rest hypothesis =>
      rcases hypothesis holds.2 with ⟨early, late⟩
      exact ⟨⟨holds.1, early⟩, late⟩

theorem Holds.last {commands : List Command} (holds : kernel.Holds pid commands)
    (taken : commands ≠ []) :
    (kernel.obeyAll commands).lineup.executing.map Rank.pid = some pid := by
  induction commands generalizing kernel with
  | nil => exact absurd rfl taken
  | cons command rest hypothesis =>
      cases rest with
      | nil =>
          rw [← executingPid_eq]
          exact holds.1
      | cons next others => exact hypothesis holds.2 (by simp)

/-- A process that is put back into the ready queue had spent its turn. -/
theorem used_of_requeued (paced : kernel.Paced quantum) (steady : kernel.Steady history)
    {command : Command} (executes : kernel.lineup.executing.map Rank.pid = some pid)
    (plain : command.Plain)
    (requeued : pid ∈ (kernel.obey command).system.ready.map Process.pid) :
    kernel.lineup.used pid = quantum := by
  rcases Option.map_eq_some_iff.mp executes with ⟨rank, executing, rfl⟩
  have distinct := steady.distinct_everyone
  have distinctNext := (steady.obey command).distinct_everyone
  rw [← ready_eq] at requeued
  rw [Lineup.used_of_executing executing]
  cases command with
  | setSchedule schedule => cases plain
  | setQuantum quantum => cases plain
  | enqueue interrupt => exact absurd requeued (Lineup.not_mem_ready distinct executing)
  | pulse =>
      have next_eq : kernel.obey .pulse = kernel.pulse.value := rfl
      rw [next_eq] at requeued distinctNext
      cases steady.pulse_ticks with
      | rests lineup_eq =>
          rw [lineup_eq] at requeued
          exact absurd requeued (Lineup.not_mem_ready distinct executing)
      | handles interrupt rest raised queue _ _ _ changes =>
          rw [Paced, queue] at paced
          exact paced.spent_of_requeued distinct distinctNext changes executing requeued
      | fails head rest _ _ _ _ idle => simp [executing] at idle
      | runs between cycle _ _ _ dispatches held _ lineup_eq =>
          rw [lineup_eq] at requeued
          cases dispatches with
          | stays => exact absurd requeued (Lineup.not_mem_ready distinct executing)
          | gives head rest idle => simp [executing] at idle
          | fails head rest idle => simp [executing] at idle

/-- A turn that ends in the ready queue takes a quantum of instructions, and another one for each
context switch that found nobody ready.  No turn takes more than a quantum without such a switch.  Nor
do all the instructions that a process executes in a row while another one is ready. -/
theorem turn_lengths {config : Config} (schedule : config.schedule = .roundRobin) (format : Bool)
    {before : List Command} (plain : ∀ command ∈ before, command.Plain) :
    (∀ pid turn, (∀ command ∈ turn, command.Plain) →
      ((booted config format).obeyAll before).Turn pid turn →
        (∀ cycle ∈ ((booted config format).obeyAll before).cycles turn, cycle.process.pid = pid) ∧
        (∀ command, command.Plain →
          pid ∈ ((((booted config format).obeyAll before).obeyAll turn).obey
            command).system.ready.map Process.pid →
          (((booted config format).obeyAll before).cycles turn).length =
            max config.quantum 1 *
              (1 + ((booted config format).obeyAll before).idleSwitches turn)) ∧
        ∀ first second, turn = first ++ second →
          (((booted config format).obeyAll before).obeyAll first).idleSwitches second = 0 →
            ((((booted config format).obeyAll before).obeyAll first).cycles second).length ≤
              max config.quantum 1) ∧
    ∀ pid other stretch, (∀ command ∈ stretch, command.Plain) →
      ((booted config format).obeyAll before).Waits other stretch →
      (∀ cycle ∈ ((booted config format).obeyAll before).cycles stretch,
        cycle.process.pid = pid) →
      (((booted config format).obeyAll before).cycles stretch).length ≤ max config.quantum 1 := by
  have steady := steady_obeyAll config format before
  have paced := (paced_booted schedule format).obeyAll (steady_booted config format) plain
  generalize (booted config format).obeyAll before = start at steady paced
  generalize max config.quantum 1 = quantum at paced
  constructor
  · intro pid turn plainTurn taken
    rcases used_turn paced steady plainTurn taken.holds with ⟨own, used⟩
    have begins := taken.begins
    rw [executingPid_eq] at begins
    rw [Lineup.used_of_not_executing begins, Nat.add_zero] at used
    refine ⟨own, ?_, ?_⟩
    · intro command plainLast requeued
      have spent := used_of_requeued (paced.obeyAll steady plainTurn) (steady.obeyAll turn)
        (taken.holds.last taken.taken) plainLast requeued
      rw [used, spent, Nat.mul_add, Nat.mul_one]
    · rintro first second rfl none_idle
      have plainFirst : ∀ command ∈ first, command.Plain := fun command member =>
        plainTurn command (List.mem_append_left _ member)
      have plainSecond : ∀ command ∈ second, command.Plain := fun command member =>
        plainTurn command (List.mem_append_right _ member)
      have pacedFirst := paced.obeyAll steady plainFirst
      have usedSecond := (used_turn pacedFirst (steady.obeyAll first) plainSecond
        taken.holds.append.2).2
      rw [none_idle, Nat.mul_zero] at usedSecond
      have bound := (pacedFirst.obeyAll (steady.obeyAll first) plainSecond).used_le pid
      omega
  · intro pid other stretch plainStretch waits own
    have bound := (length_cycles_le paced steady plainStretch waits own).1
    omega

/-- Two segments, and turns of two instructions. -/
def relay : Config :=
  { memorySize := 14, segmentCount := 2, disk := ⟨2, 1, 4⟩, quantum := 2 }

/-- One of two processes is made ready. -/
def headStart : List Command :=
  [.enqueue (.loadProgram "EA EA EA EA EA EA 00" none), .enqueue (.loadProgram "EA 00" none),
    .enqueue (.runProgram 0), .pulse, .pulse, .pulse]

/-- The other one is made ready when the first has had a turn for itself. -/
def lap : List Command :=
  [.pulse, .pulse, .pulse, .enqueue (.runProgram 1), .pulse, .pulse, .pulse]

/-- The first process has two quanta, the second of them in competition. -/
theorem turn_lengths_small :
    ((booted relay true).obeyAll headStart).Turn 0 lap ∧
      0 ∈ ((((booted relay true).obeyAll headStart).obeyAll lap).obey .pulse).system.ready.map
        Process.pid ∧
      (((booted relay true).obeyAll headStart).cycles lap).length = 2 * (1 + 1) := by
  have run : ((booted relay true).obeyAll headStart).system.executingPid ≠ some 0 ∧
      ((booted relay true).obeyAll headStart).Holds 0 lap ∧
      0 ∈ ((((booted relay true).obeyAll headStart).obeyAll lap).obey .pulse).system.ready.map
        Process.pid ∧ ((booted relay true).obeyAll headStart).idleSwitches lap = 1 := by
    decide +kernel
  rcases run with ⟨begins, holds, requeued, idle⟩
  have turn : ((booted relay true).obeyAll headStart).Turn 0 lap := ⟨begins, by simp [lap], holds⟩
  have plainStart : ∀ command ∈ headStart, command.Plain := by simp [headStart, Command.Plain]
  have plainLap : ∀ command ∈ lap, command.Plain := by simp [lap, Command.Plain]
  have whole := ((turn_lengths rfl true plainStart).1 0 lap plainLap turn).2.1 .pulse trivial requeued
  rw [idle] at whole
  exact ⟨turn, requeued, whole⟩

end Kernel

end Timeshare
