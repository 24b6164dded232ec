import Timeshare.Proofs.Kernel.Census
import Timeshare.Proofs.Kernel.Turns

/-!
# First come, first served

Under the policy of first come, first served only its end takes the processor from a process.  The
executing process and those that wait behind it always stand in the order in which they have become
ready, whoever is ended among them and whatever their images need.  So whoever executes is the
earliest of those that have not ended.
-/

namespace Timeshare

/-- The host raises no context switch, and leaves the schedule at first come, first served. -/
def Command.KeepsOrder : Command → Prop
  | .pulse => True
  | .enqueue interrupt => interrupt ≠ .contextSwitch
  | .setSchedule schedule => schedule = .firstComeFirstServed
  | .setQuantum _ => True

/-! ## Pairs in a list -/

section Pairs

variable {α : Type} {first second : α} {list : List α}

/-- In a list without repetition two members stand in one order only. -/
theorem not_sublist_swap (distinct : list.Nodup) (before : [first, second].Sublist list) :
    ¬ [second, first].Sublist list := by
  intro after
  induction list with
  | nil => cases before
  | cons head rest hypothesis =>
      rw [List.nodup_cons] at distinct
      cases before with
      | cons _ before =>
          cases after with
          | cons _ after => exact hypothesis distinct.2 before after
          | cons_cons _ after => exact distinct.1 (before.subset (by simp))
      | cons_cons _ before =>
          cases after with
          | cons _ after => exact distinct.1 (after.subset (by simp))
          | cons_cons _ after => exact distinct.1 (after.subset (by simp))

theorem sublist_or_swap (member : first ∈ list) (memberSecond : second ∈ list)
    (different : first ≠ second) :
    [first, second].Sublist list ∨ [second, first].Sublist list := by
  rcases List.append_of_mem member with ⟨front, back, rfl⟩
  rcases List.mem_append.mp memberSecond with inFront | inBack
  · refine Or.inr ?_
    exact (List.singleton_sublist.mpr inFront).append
      ((List.nil_sublist back).cons_cons first)
  · refine Or.inl (List.Sublist.trans ?_ (List.sublist_append_right front _))
    have behind := (List.mem_cons.mp inBack).resolve_left different.symm
    exact (List.singleton_sublist.mpr behind).cons_cons first

end Pairs

/-! ## The line -/

namespace Lineup

variable {lineup next : Lineup} {interrupt : Interrupt} {raised : List Interrupt}
  {arrivals : List Nat}

/-- The executing process and behind it the ready ones. -/
def line (lineup : Lineup) : List Nat :=
  (lineup.executing.toList ++ lineup.ready).map Rank.pid

/-- Who is ready in the next lineup and was not before, in the order of the queue. -/
def newcomers (lineup next : Lineup) : List Nat :=
  (next.ready.map Rank.pid).filter fun pid => pid ∉ lineup.ready.map Rank.pid

theorem everyone_line (lineup : Lineup) :
    lineup.everyone.map Rank.pid = lineup.line ++ lineup.resident.map Rank.pid := by
  rw [everyone, List.map_append, line]

theorem newcomers_eq_nil (subset : next.ready ⊆ lineup.ready) : lineup.newcomers next = [] := by
  rw [newcomers, List.filter_eq_nil_iff]
  intro pid member
  simpa using List.map_subset Rank.pid subset member

/-- The line is in the order of arrival, and nobody who has arrived is to arrive again. -/
structure InOrder (lineup : Lineup) (arrivals : List Nat) : Prop where
  schedule : lineup.policy.schedule = .firstComeFirstServed
  line : lineup.line.Sublist arrivals
  distinct : arrivals.Nodup
  given : ∀ pid ∈ arrivals, pid < lineup.nextPid ∧ pid ∉ lineup.resident.map Rank.pid

namespace InOrder

theorem first_come (inOrder : lineup.InOrder arrivals) :
    lineup.policy.ordersByPriority = false := by
  simp [Policy.ordersByPriority, inOrder.schedule]

/-- Some processes have left the line and nobody has joined it. -/
theorem leave (inOrder : lineup.InOrder arrivals)
    (schedule : next.policy.schedule = lineup.policy.schedule)
    (line : next.line.Sublist lineup.line) (ready : next.ready ⊆ lineup.ready)
    (given : ∀ pid ∈ arrivals, pid < next.nextPid ∧ pid ∉ next.resident.map Rank.pid) :
    next.InOrder (arrivals ++ lineup.newcomers next) := by
  rw [newcomers_eq_nil ready, List.append_nil]
  exact ⟨schedule.trans inOrder.schedule, line.trans inOrder.line, inOrder.distinct, given⟩

/-- Who joins the line was resident, so that nobody arrives twice. -/
theorem join (inOrder : lineup.InOrder arrivals)
    (distinct : (lineup.everyone.map Rank.pid).Nodup)
    (known : ∀ rank ∈ lineup.everyone, rank.pid < lineup.nextPid) {new left : List Rank}
    (taken : lineup.resident.Perm (new ++ left)) :
    InOrder { lineup with ready := lineup.ready ++ new, resident := left }
      (arrivals ++ lineup.newcomers { lineup with ready := lineup.ready ++ new, resident := left })
    := by
  have order := taken.map Rank.pid
  rw [List.map_append] at order
  rw [everyone_line] at distinct
  have apart := List.disjoint_of_nodup_append distinct
  have once := order.nodup_iff.mp distinct.of_append_right
  have resident {pid : Nat} (member : pid ∈ new.map Rank.pid) :
      pid ∈ lineup.resident.map Rank.pid :=
    order.mem_iff.mpr (List.mem_append_left _ member)
  have newcomers_eq : lineup.newcomers
      { lineup with ready := lineup.ready ++ new, resident := left } = new.map Rank.pid := by
    rw [newcomers, List.map_append, List.filter_append, List.filter_eq_nil_iff.mpr,
      List.filter_eq_self.mpr, List.nil_append]
    · intro pid member
      refine decide_eq_true fun waits => apart ?_ (resident member)
      rw [Lineup.line, List.map_append]
      exact List.mem_append_right _ waits
    · intro pid member
      simpa using member
  rw [newcomers_eq]
  refine ⟨inOrder.schedule, ?_, ?_, ?_⟩
  · rw [Lineup.line, ← List.append_assoc, List.map_append]
    exact inOrder.line.append (.refl _)
  · refine List.nodup_append.mpr ⟨inOrder.distinct, once.of_append_left, ?_⟩
    rintro pid arrived _ member rfl
    exact (inOrder.given pid arrived).2 (resident member)
  · intro pid member
    rcases List.mem_append.mp member with arrived | joins
    · rcases inOrder.given pid arrived with ⟨below, absent⟩
      exact ⟨below, fun stays => absent (order.mem_iff.mpr (List.mem_append_right _ stays))⟩
    · rcases List.mem_map.mp (resident joins) with ⟨rank, among, rfl⟩
      exact ⟨known rank (List.mem_append_right _ among),
        List.disjoint_of_nodup_append once joins⟩

end InOrder

/-- An interrupt, unless it is a context switch, lets processes leave the line or join its end. -/
theorem Handles.inOrder (handles : lineup.Handles interrupt raised next)
    (steady : interrupt ≠ .contextSwitch) (inOrder : lineup.InOrder arrivals)
    (distinct : (lineup.everyone.map Rank.pid).Nodup)
    (known : ∀ rank ∈ lineup.everyone, rank.pid < lineup.nextPid) :
    raised = [] ∧ next.InOrder (arrivals ++ lineup.newcomers next) := by
  constructor
  · rcases handles.raises with none_raised | ⟨_, preempts⟩
    · exact none_raised
    · have schedule := handles.schedule.trans inOrder.schedule
      simp [shouldPreempt, Policy.ordersByPriority, schedule] at preempts
  cases handles with
  | enrolls priority =>
      refine inOrder.leave rfl (.refl _) (List.Subset.refl _) fun pid arrived => ?_
      rcases inOrder.given pid arrived with ⟨below, absent⟩
      refine ⟨Nat.lt_succ_of_lt below, ?_⟩
      simpa using ⟨by simpa using absent, Nat.ne_of_lt below⟩
  | leaves left _ sublist =>
      refine inOrder.leave rfl (.refl _) (List.Subset.refl _) fun pid arrived => ?_
      rcases inOrder.given pid arrived with ⟨below, absent⟩
      exact ⟨below, fun stays => absent ((sublist.map Rank.pid).subset stays)⟩
  | joins new left queue _ taken queues =>
      rw [queues.behind inOrder.first_come]
      exact inOrder.join distinct known taken
  | stops rank _ executing =>
      refine inOrder.leave rfl ?_ (List.Subset.refl _) inOrder.given
      exact (List.sublist_append_right _ _).map Rank.pid
  | withdraws before rank after _ ready =>
      have left : (before ++ after).Sublist lineup.ready := by
        rw [ready]
        exact (List.sublist_cons_self rank after).append_left before
      exact inOrder.leave rfl ((left.append_left _).map Rank.pid) left.subset inOrder.given
  | skips switching => exact absurd switching steady
  | switches _ _ _ switching => exact absurd switching steady

theorem Dispatches.inOrder (dispatches : lineup.Dispatches next)
    (inOrder : lineup.InOrder arrivals) : next.InOrder (arrivals ++ lineup.newcomers next) := by
  have leaves {head : Rank} {rest : List Rank} (ready : lineup.ready = head :: rest) :
      rest ⊆ lineup.ready := by
    rw [ready]
    exact List.subset_cons_self head rest
  cases dispatches with
  | stays => exact inOrder.leave rfl (.refl _) (List.Subset.refl _) inOrder.given
  | gives head rest idle ready =>
      refine inOrder.leave rfl ?_ (leaves ready) inOrder.given
      simp [line, idle, ready]
  | fails head rest idle ready =>
      refine inOrder.leave rfl ?_ (leaves ready) inOrder.given
      simp [line, idle, ready]

/-- Who is to run is the first of the line. -/
theorem Dispatches.head (dispatches : lineup.Dispatches next) {rank : Rank}
    (executing : next.executing = some rank) : ∃ behind, lineup.line = rank.pid :: behind := by
  cases dispatches with
  | stays => exact ⟨lineup.ready.map Rank.pid, by simp [line, executing]⟩
  | gives head rest idle ready =>
      cases executing
      exact ⟨rest.map Rank.pid, by simp [line, idle, ready]⟩
  | fails head rest idle => simp [idle] at executing

/-- Whoever has arrived before the first of the line has left the line. -/
theorem InOrder.left_of_earlier (inOrder : lineup.InOrder arrivals) {first second : Nat}
    {behind : List Nat} (head : lineup.line = second :: behind)
    (earlier : [first, second].Sublist arrivals) :
    first ∉ lineup.everyone.map Rank.pid := by
  have different : first ≠ second := by
    simpa using inOrder.distinct.sublist earlier
  rw [everyone_line, List.mem_append, not_or]
  refine ⟨fun waits => ?_, (inOrder.given first (earlier.subset (by simp))).2⟩
  rw [head] at waits
  have later : [second, first].Sublist lineup.line := by
    rw [head]
    exact sublist_of_head ((List.mem_cons.mp waits).resolve_left different)
  exact not_sublist_swap inOrder.distinct earlier (later.trans inOrder.line)

end Lineup

namespace Kernel

open Lineup

variable {kernel next : Kernel} {history : List Cycle} {arrived : List Nat} {pid : Nat}

/-! ## Arrivals -/

/-- The processes that a command makes ready, in the order of the queue. -/
def newlyReady (command : Command) (kernel : Kernel) : List Nat :=
  ((kernel.obey command).system.ready.map Process.pid).filter fun pid =>
    pid ∉ kernel.system.ready.map Process.pid

/-- The processes that some commands make ready, the first one first. -/
def arrivals : List Command → Kernel → List Nat
  | [], _ => []
  | command :: rest, kernel => kernel.newlyReady command ++ arrivals rest (kernel.obey command)

theorem arrivals_append (commands further : List Command) (kernel : Kernel) :
    kernel.arrivals (commands ++ further) =
      kernel.arrivals commands ++ (kernel.obeyAll commands).arrivals further := by
  induction commands generalizing kernel with
  | nil => rfl
  | cons command rest hypothesis => simp [arrivals, hypothesis, obeyAll]

theorem newlyReady_eq (command : Command) (kernel : Kernel) :
    kernel.newlyReady command = kernel.lineup.newcomers (kernel.obey command).lineup := by
  rw [newlyReady, newcomers, ready_eq, ready_eq]

/-- Under some commands a process executes an instruction as soon as the first ones are obeyed. -/
def Executes (commands first : List Command) (pid : Nat) (kernel : Kernel) : Prop :=
  ∃ command rest cycle, commands = first ++ command :: rest ∧
    (kernel.obeyAll first).cycle? command = some cycle ∧ cycle.process.pid = pid

def HasEnded (pid : Nat) (kernel : Kernel) : Prop :=
  pid ∈ kernel.system.terminated.map Process.pid

namespace Steady

/-- A number that was given out is that of a process which has ended or has not. -/
theorem ended_of_absent (steady : kernel.Steady history) (given : pid < kernel.lineup.nextPid)
    (absent : pid ∉ kernel.lineup.everyone.map Rank.pid) : kernel.HasEnded pid := by
  have known : pid ∈ kernel.system.everyone.map Process.pid :=
    steady.rostered.numbers.mem_iff.mpr (List.mem_range.mpr given)
  rw [lineup, pids_everyone] at absent
  exact (System.mem_everyone_iff.mp known).resolve_left absent

theorem not_ended (steady : kernel.Steady history)
    (living : pid ∈ kernel.lineup.everyone.map Rank.pid) : ¬ kernel.HasEnded pid := by
  rw [lineup, pids_everyone] at living
  exact steady.rostered.not_ended living

theorem ended_obeyAll (steady : kernel.Steady history) (ended : kernel.HasEnded pid)
    (commands : List Command) : (kernel.obeyAll commands).HasEnded pid :=
  ((steady.upholds_obeyAll commands).terminated.map Process.pid).subset ended

/-- Who runs a cycle is the first of the line. -/
theorem head_of_cycle? (steady : kernel.Steady history) {command : Command} {cycle : Cycle}
    (runs : kernel.cycle? command = some cycle) :
    ∃ behind, kernel.lineup.line = cycle.process.pid :: behind := by
  cases command with
  | enqueue interrupt => cases runs
  | setSchedule schedule => cases runs
  | setQuantum quantum => cases runs
  | pulse =>
      cases steady.pulse_ticks with
      | rests _ _ _ none_run => simp [runs] at none_run
      | handles _ _ _ _ _ none_run => simp [runs] at none_run
      | fails _ _ _ _ none_run => simp [runs] at none_run
      | runs between ran _ _ one_run dispatches executing =>
          cases runs.symm.trans one_run
          exact dispatches.head executing

end Steady

/-! ## Runs -/

/-- The line is in the order of arrival, and nobody is asked to give the processor up. -/
structure Orderly (kernel : Kernel) (arrived : List Nat) : Prop where
  inOrder : kernel.lineup.InOrder arrived
  none_asked : .contextSwitch ∉ kernel.interrupts

namespace Orderly

theorem pulse (orderly : kernel.Orderly arrived) (steady : kernel.Steady history)
    (ticks : kernel.Ticks next) :
    next.Orderly (arrived ++ kernel.lineup.newcomers next.lineup) := by
  cases ticks with
  | rests lineup_eq interrupts_eq =>
      rw [lineup_eq, newcomers_eq_nil (List.Subset.refl _), List.append_nil]
      constructor
      · rw [lineup_eq]
        exact orderly.inOrder
      · rw [interrupts_eq]
        exact orderly.none_asked
  | handles interrupt rest raised queue _ _ interrupts_eq changes =>
      have asked := orderly.none_asked
      rw [queue, List.mem_cons, not_or] at asked
      rcases changes.inOrder (Ne.symm asked.1) orderly.inOrder steady.distinct_everyone
        fun rank member => steady.pid_lt_nextPid member with ⟨none_raised, inOrder⟩
      refine ⟨inOrder, ?_⟩
      rw [interrupts_eq, none_raised, List.append_nil]
      exact asked.2
  | fails head rest _ _ _ interrupts_eq idle ready lineup_eq =>
      refine ⟨?_, by simp [interrupts_eq]⟩
      rw [lineup_eq]
      exact (Dispatches.fails head rest idle ready).inOrder orderly.inOrder
  | runs between cycle quiet _ _ dispatches _ interrupts_eq lineup_eq =>
      have inOrder := dispatches.inOrder orderly.inOrder
      constructor
      · rw [lineup_eq]
        exact ⟨inOrder.schedule, inOrder.line, inOrder.distinct, inOrder.given⟩
      · have patient : next.lineup.policy.shouldSwitch = false := by
          have schedule : next.lineup.policy.schedule = .firstComeFirstServed := by
            rw [lineup_eq]
            exact inOrder.schedule
          simp [Policy.shouldSwitch, schedule]
        rw [interrupts_eq, ← List.count_eq_zero, count_interruptsAfter, patient]
        rfl

theorem obey (orderly : kernel.Orderly arrived) (steady : kernel.Steady history)
    {command : Command} (keeps : command.KeepsOrder) :
    (kernel.obey command).Orderly (arrived ++ kernel.newlyReady command) := by
  have unmoved {next : Kernel} (ready : next.lineup.ready = kernel.lineup.ready)
      (inOrder : next.lineup.InOrder arrived) (none_asked : .contextSwitch ∉ next.interrupts) :
      next.Orderly (arrived ++ kernel.lineup.newcomers next.lineup) := by
    rw [newcomers_eq_nil (by rw [ready]; exact List.Subset.refl _), List.append_nil]
    exact ⟨inOrder, none_asked⟩
  rw [newlyReady_eq]
  cases command with
  | pulse => exact orderly.pulse steady steady.pulse_ticks
  | enqueue interrupt =>
      refine unmoved rfl orderly.inOrder fun asked => ?_
      rcases List.mem_append.mp asked with before | now
      · exact orderly.none_asked before
      · exact keeps (List.mem_singleton.mp now).symm
  | setSchedule schedule =>
      cases keeps
      have same := orderly.inOrder
      exact unmoved rfl ⟨rfl, same.line, same.distinct, same.given⟩ orderly.none_asked
  | setQuantum quantum =>
      have same := orderly.inOrder
      exact unmoved rfl ⟨same.schedule, same.line, same.distinct, same.given⟩ orderly.none_asked

theorem obeyAll (orderly : kernel.Orderly arrived) (steady : kernel.Steady history)
    {commands : List Command} (keeps : ∀ command ∈ commands, command.KeepsOrder) :
    (kernel.obeyAll commands).Orderly (arrived ++ kernel.arrivals commands) := by
  induction commands generalizing kernel history arrived with
  | nil => simpa [Kernel.arrivals, Kernel.obeyAll] using orderly
  | cons command rest hypothesis =>
      have next := hypothesis (orderly.obey steady (keeps command List.mem_cons_self))
        (steady.obey command) fun other member => keeps other (List.mem_cons_of_mem command member)
      rwa [List.append_assoc] at next

end Orderly

theorem orderly_booted {config : Config} (schedule : config.schedule = .firstComeFirstServed)
    (format : Bool) : (booted config format).Orderly [] := by
  refine ⟨?_, by simp [interrupts_booted]⟩
  rw [lineup_booted]
  exact ⟨schedule, .refl _, List.nodup_nil, by simp⟩

section Serving

variable {start : Kernel} {commands : List Command} {before : List Command}

/-- A process that executes has arrived and has not ended. -/
theorem arrived_of_executes (orderly : start.Orderly []) (steady : start.Steady history)
    (keeps : ∀ command ∈ commands, command.KeepsOrder)
    (executes : start.Executes commands before pid) :
    pid ∈ start.arrivals before ∧ ¬ (start.obeyAll before).HasEnded pid := by
  rcases executes with ⟨command, rest, cycle, rfl, runs, rfl⟩
  have here := orderly.obeyAll steady fun other member =>
    keeps other (List.mem_append_left (command :: rest) member)
  rcases (steady.obeyAll before).head_of_cycle? runs with ⟨behind, head⟩
  refine ⟨here.inOrder.line.subset (by simp [head]), ?_⟩
  exact (steady.obeyAll before).not_ended (by simp [everyone_line, head])

/-- Whoever has arrived before a process that executes has ended. -/
theorem ended_of_earlier (orderly : start.Orderly []) (steady : start.Steady history)
    (keeps : ∀ command ∈ commands, command.KeepsOrder) {first second : Nat}
    (earlier : [first, second].Sublist (start.arrivals commands))
    (executes : start.Executes commands before second) :
    (start.obeyAll before).HasEnded first := by
  have arrived := (arrived_of_executes orderly steady keeps executes).1
  rcases executes with ⟨command, rest, cycle, rfl, runs, rfl⟩
  have whole := orderly.obeyAll steady keeps
  have here := orderly.obeyAll steady fun other member =>
    keeps other (List.mem_append_left (command :: rest) member)
  rw [List.nil_append] at whole here
  rw [arrivals_append] at whole earlier
  rcases (steady.obeyAll before).head_of_cycle? runs with ⟨behind, head⟩
  -- The executing process has arrived by now, so whoever arrived before it has as well.
  have earlier := sublist_of_append
    (List.disjoint_of_nodup_append whole.inOrder.distinct arrived) earlier
  exact (steady.obeyAll before).ended_of_absent
    (here.inOrder.given first (earlier.subset (by simp))).1
    (here.inOrder.left_of_earlier head earlier)

end Serving

/-- Processes execute in the order in which they have become ready, each of them to its end before
the next one begins. -/
theorem served_in_order {config : Config} (schedule : config.schedule = .firstComeFirstServed)
    (format : Bool) {commands : List Command} (keeps : ∀ command ∈ commands, command.KeepsOrder) :
    ((booted config format).arrivals commands).Nodup ∧
      (∀ pid before, (booted config format).Executes commands before pid →
        pid ∈ (booted config format).arrivals before) ∧
      (∀ first second before,
        [first, second].Sublist ((booted config format).arrivals commands) →
          (booted config format).Executes commands before second →
            ((booted config format).obeyAll before).HasEnded first) ∧
      ∀ pid other before later, (booted config format).Executes commands before pid →
        (booted config format).Executes commands later other → before <+: later → other ≠ pid →
          ((booted config format).obeyAll later).HasEnded pid := by
  have orderly := orderly_booted schedule format
  have steady := steady_booted config format
  generalize booted config format = start at orderly steady
  have distinct := (orderly.obeyAll steady keeps).inOrder.distinct
  rw [List.nil_append] at distinct
  refine ⟨distinct, fun pid before executes =>
    (arrived_of_executes orderly steady keeps executes).1,
    fun first second before => ended_of_earlier orderly steady keeps, ?_⟩
  rintro pid other before _ executes executesLater ⟨since, rfl⟩ different
  have arrives {pid : Nat} {before : List Command} (executes : start.Executes commands before pid) :
      pid ∈ start.arrivals commands := by
    have arrived := (arrived_of_executes orderly steady keeps executes).1
    rcases executes with ⟨_, _, _, rfl, _, _⟩
    rw [arrivals_append]
    exact List.mem_append_left _ arrived
  rcases sublist_or_swap (arrives executes) (arrives executesLater) different.symm with
    earlier | earlier
  · exact ended_of_earlier orderly steady keeps earlier executesLater
  · -- Who has arrived earlier than an executing process has ended, and does not execute any more.
    have ended := ended_of_earlier orderly steady keeps earlier executes
    have still := (steady.obeyAll before).ended_obeyAll ended since
    rw [← obeyAll_append] at still
    exact absurd still (arrived_of_executes orderly steady keeps executesLater).2

/-- One segment, for one process at a time. -/
def counter : Config :=
  { memorySize := 6, segmentCount := 1, disk := ⟨2, 1, 4⟩, schedule := .firstComeFirstServed }

/-- Two processes become ready, the younger one first. -/
def youngerFirst (pulses : Nat) : List Command :=
  [.enqueue (.loadProgram "EA EA 00" none), .enqueue (.loadProgram "EA 00" none),
    .enqueue (.runProgram 1), .enqueue (.runProgram 0)] ++ List.replicate pulses .pulse

/-- The younger process evicts the older one from the only segment, and has ended when the older one
executes. -/
theorem served_in_order_small :
    (booted counter true).arrivals (youngerFirst 8) = [1, 0] ∧
      (booted counter true).Executes (youngerFirst 8) (youngerFirst 4) 1 ∧
      (booted counter true).Executes (youngerFirst 8) (youngerFirst 7) 0 ∧
      ((booted counter true).obeyAll (youngerFirst 7)).HasEnded 1 := by
  have run : (booted counter true).arrivals (youngerFirst 8) = [1, 0] ∧
      (∃ cycle ∈ (((booted counter true).obeyAll (youngerFirst 4)).cycle? .pulse).toList,
        cycle.process.pid = 1) ∧
      ∃ cycle ∈ (((booted counter true).obeyAll (youngerFirst 7)).cycle? .pulse).toList,
        cycle.process.pid = 0 := by
    decide +kernel
  rcases run with ⟨arrivals, ⟨cycle, ran, pid⟩, cycleLater, ranLater, pidLater⟩
  rw [Option.mem_toList] at ran ranLater
  have younger : (booted counter true).Executes (youngerFirst 8) (youngerFirst 4) 1 :=
    ⟨.pulse, List.replicate 3 .pulse, cycle, rfl, ran, pid⟩
  have older : (booted counter true).Executes (youngerFirst 8) (youngerFirst 7) 0 :=
    ⟨.pulse, [], cycleLater, rfl, ranLater, pidLater⟩
  have keeps : ∀ command ∈ youngerFirst 8, command.KeepsOrder := by
    simp [youngerFirst, List.replicate, Command.KeepsOrder]
  rcases @served_in_order counter rfl true _ keeps with ⟨_, _, _, serves⟩
  exact ⟨arrivals, younger, older,
    serves 1 0 _ _ younger older ⟨List.replicate 3 .pulse, rfl⟩ Nat.zero_ne_one⟩

end Kernel

end Timeshare
