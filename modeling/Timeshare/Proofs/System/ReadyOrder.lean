import Timeshare.Proofs.System.Lineup

/-!
# The order of the ready queue

A log keeps the processes that have entered the ready queue, the first one first.  A process enters
it more than once if it is switched out, and then its last entry counts.  The ready processes stand
in the order of these entries or, if the schedule is that of priority, in the order of priority and
among equals in that of their entries.  Whoever is taken from the queue is the first in this order.
-/

namespace Timeshare

/-- The place in the log at which a process has entered the queue last, counted from 1, or 0 if it
has not entered it. -/
def lastEntry (log : List Nat) (pid : Nat) : Nat :=
  log.length - log.reverse.idxOf pid

section Entries

variable {log later : List Nat} {pid : Nat}

theorem lastEntry_le (log : List Nat) (pid : Nat) : lastEntry log pid ≤ log.length :=
  Nat.sub_le _ _

/-- The entries of others do not matter. -/
theorem lastEntry_append_of_notMem (absent : pid ∉ later) :
    lastEntry (log ++ later) pid = lastEntry log pid := by
  have behind : (later.reverse ++ log.reverse).idxOf pid =
      later.length + log.reverse.idxOf pid := by
    rw [List.idxOf_append_of_notMem (by simpa using absent), List.length_reverse, Nat.add_comm]
  rw [lastEntry, lastEntry, List.reverse_append, behind, List.length_append]
  omega

theorem length_lt_lastEntry (member : pid ∈ later) : log.length < lastEntry (log ++ later) pid := by
  have among : pid ∈ later.reverse := List.mem_reverse.mpr member
  have place : later.reverse.idxOf pid < later.length := by
    simpa using List.idxOf_lt_length_iff.mpr among
  rw [lastEntry, List.reverse_append, List.idxOf_append_of_mem among, List.length_append]
  omega

/-- Those who enter one after the other stand in the order of their entries. -/
theorem pairwise_lastEntry (distinct : later.Nodup) :
    later.Pairwise fun first second =>
      lastEntry (log ++ later) first < lastEntry (log ++ later) second := by
  induction later generalizing log with
  | nil => exact List.Pairwise.nil
  | cons head rest hypothesis =>
      rw [List.nodup_cons] at distinct
      have join : log ++ head :: rest = (log ++ [head]) ++ rest := by simp
      rw [join, List.pairwise_cons]
      refine ⟨fun other member => ?_, hypothesis distinct.2⟩
      rw [lastEntry_append_of_notMem distinct.1]
      exact (lastEntry_le _ _).trans_lt (length_lt_lastEntry member)

end Entries

/-- The first process comes before the second one: it is more urgent, if the schedule is that of
priority, or it has entered the queue earlier. -/
def Rank.Precedes (schedule : Schedule) (log : List Nat) (first second : Rank) : Prop :=
  match schedule with
  | .priority => first.priority < second.priority ∨
      first.priority = second.priority ∧ lastEntry log first.pid < lastEntry log second.pid
  | _ => lastEntry log first.pid < lastEntry log second.pid

namespace Rank.Precedes

variable {schedule : Schedule} {log later : List Nat} {first second : Rank}

theorem eq_of_priority (log : List Nat) : Rank.Precedes .priority log = fun first second =>
    first.priority < second.priority ∨
      first.priority = second.priority ∧ lastEntry log first.pid < lastEntry log second.pid := rfl

theorem eq_of_ne_priority (other : schedule ≠ .priority) (log : List Nat) :
    Rank.Precedes schedule log = fun first second =>
      lastEntry log first.pid < lastEntry log second.pid := by
  cases schedule with
  | priority => exact absurd rfl other
  | roundRobin => rfl
  | firstComeFirstServed => rfl

theorem asymm (precedes : first.Precedes schedule log second) :
    ¬ second.Precedes schedule log first := by
  cases schedule <;> simp only [Precedes] at precedes ⊢ <;> omega

/-- The order of two processes does not change while others enter. -/
theorem append_iff (absent : first.pid ∉ later) (absentSecond : second.pid ∉ later) :
    first.Precedes schedule (log ++ later) second ↔ first.Precedes schedule log second := by
  cases schedule <;>
    simp only [Precedes, lastEntry_append_of_notMem absent, lastEntry_append_of_notMem absentSecond]

end Rank.Precedes

namespace Lineup

/-- The processes that enter the ready queue when an interrupt is handled, in this order: those that
are asked to run and are resident, and the one that is switched out for another one. -/
def entering (interrupt : Interrupt) (lineup : Lineup) : List Rank :=
  match interrupt with
  | .runProgram pid => (lineup.resident.find? fun rank => rank.pid = pid).toList
  | .runAllPrograms => lineup.resident
  | .contextSwitch => if lineup.ready.isEmpty then [] else lineup.executing.toList
  | _ => []

/-- The ready processes stand in the order of the schedule, and every one of them has entered the
queue. -/
structure Waits (schedule : Schedule) (log : List Nat) (lineup : Lineup) : Prop where
  scheduled : lineup.policy.schedule = schedule
  order : lineup.ready.Pairwise (Rank.Precedes schedule log)
  entered : ∀ rank ∈ lineup.ready, rank.pid ∈ log

/-- The process is none of those that have not ended. -/
def Lacks (rank : Rank) (lineup : Lineup) : Prop :=
  rank.pid ∉ lineup.everyone.map Rank.pid

/-- What becomes of a queue that some have entered: everyone stays, or the first one is taken from
it, or one is ended. -/
inductive Serves (ending : Option Nat) (queue : List Rank) (next : Lineup) : Prop
  | stays (ready : next.ready = queue)
  | takes (head : Rank) (rest : List Rank) (queue_eq : queue = head :: rest)
      (ready : next.ready = rest) (taken : next.executing = some head ∨ next.Lacks head)
  | ends (before : List Rank) (rank : Rank) (after : List Rank)
      (queue_eq : queue = before ++ rank :: after) (ready : next.ready = before ++ after)
      (asked : ending = some rank.pid) (ended : next.Lacks rank)

/-- The order of the ready queue is kept when some processes enter it, and whoever leaves it was
asked to end, or goes before everyone who still waits. -/
structure Proceeds (schedule : Schedule) (log : List Nat) (lineup : Lineup) (entering : List Rank)
    (ending : Option Nat) (next : Lineup) : Prop where
  waits : next.Waits schedule log
  /-- Whoever enters the queue has not waited. -/
  distinct : ((lineup.ready ++ entering).map Rank.pid).Nodup
  members : next.ready ⊆ lineup.ready ++ entering
  /-- Nobody gets the processor who has not waited for it. -/
  executing : ∀ rank, next.executing = some rank →
    lineup.executing = some rank ∨ rank ∈ lineup.ready
  leaving : ∀ rank ∈ lineup.ready ++ entering, rank ∉ next.ready →
    (ending = some rank.pid ∧ next.Lacks rank) ∨
    ((next.executing = some rank ∨ next.Lacks rank) ∧
      ∀ waiting ∈ next.ready, rank.Precedes schedule log waiting)

variable {lineup next : Lineup} {interrupt : Interrupt} {raised : List Interrupt}
  {schedule : Schedule} {policy : Policy} {log : List Nat} {ready new queue : List Rank}
  {ending : Option Nat}

/-! ## Entering the queue -/

/-- An order among those of equal priority is an order of every priority's processes. -/
theorem pairwise_equals_iff {relation : Rank → Rank → Prop} :
    (queue.Pairwise fun first second => first.priority = second.priority → relation first second) ↔
      ∀ priority, (queue.filter fun rank => rank.priority = priority).Pairwise relation := by
  simp only [List.pairwise_filter, decide_eq_true_eq]
  constructor
  · exact fun order priority => order.imp fun equals level levelSecond =>
      equals (level.trans levelSecond.symm)
  · intro orders
    refine List.pairwise_of_forall_sublist fun {first second} pair equal => ?_
    have order := (orders second.priority).sublist pair
    simpa [equal] using order

/-- Those who wait have entered before those who enter now. -/
theorem pairwise_entries {related : Rank → Rank → Prop}
    (order : ready.Pairwise fun first second =>
      related first second → lastEntry log first.pid < lastEntry log second.pid)
    (distinct : ((ready ++ new).map Rank.pid).Nodup) :
    (ready ++ new).Pairwise fun first second => related first second →
      lastEntry (log ++ new.map Rank.pid) first.pid <
        lastEntry (log ++ new.map Rank.pid) second.pid := by
  rw [List.map_append] at distinct
  have apart := List.disjoint_of_nodup_append distinct
  have unchanged {rank : Rank} (member : rank ∈ ready) :
      lastEntry (log ++ new.map Rank.pid) rank.pid = lastEntry log rank.pid :=
    lastEntry_append_of_notMem (apart (List.mem_map_of_mem member))
  have entries := @pairwise_lastEntry log _ distinct.of_append_right
  rw [List.pairwise_map] at entries
  refine List.pairwise_append.mpr ⟨?_, ?_, fun first member second memberSecond _ => ?_⟩
  · refine order.imp_of_mem fun member memberSecond earlier => ?_
    rwa [unchanged member, unchanged memberSecond]
  · exact entries.imp fun {first second} earlier (_ : related first second) => earlier
  · rw [unchanged member]
    exact (lastEntry_le _ _).trans_lt (length_lt_lastEntry (List.mem_map_of_mem memberSecond))

theorem sorted_of_order (order : queue.Pairwise (Rank.Precedes .priority log)) : Sorted queue := by
  rw [Rank.Precedes.eq_of_priority] at order
  exact order.imp fun {first second} precedes => by omega

/-- The order is kept by those who enter, wherever the policy puts them. -/
theorem Queues.ordered (queues : Queues policy ready new queue)
    (order : ready.Pairwise (Rank.Precedes policy.schedule log))
    (distinct : ((ready ++ new).map Rank.pid).Nodup) :
    queue.Pairwise (Rank.Precedes policy.schedule (log ++ new.map Rank.pid)) := by
  by_cases scheduled : policy.schedule = .priority
  · rw [scheduled] at order ⊢
    have sorted := sorted_of_order order
    rw [Rank.Precedes.eq_of_priority] at order ⊢
    have entered := order.imp fun {first second} precedes
        (equal : first.priority = second.priority) =>
      (precedes.resolve_left (Nat.not_lt_of_le equal.ge)).2
    have equals := pairwise_entries entered distinct
    -- Among equals the queue is the list of all that have entered, one behind the other.
    have stable : queue.Pairwise fun first second => first.priority = second.priority →
        lastEntry (log ++ new.map Rank.pid) first.pid <
          lastEntry (log ++ new.map Rank.pid) second.pid := by
      rw [pairwise_equals_iff] at equals ⊢
      intro priority
      rw [queues.stable]
      exact equals priority
    have prioritized := queues.sorted (by simp [Policy.ordersByPriority, scheduled]) sorted
    exact (prioritized.and stable).imp fun {first second} ⟨least, equals⟩ =>
      (Nat.lt_or_eq_of_le least).imp_right fun equal => ⟨equal, equals equal⟩
  · rw [Rank.Precedes.eq_of_ne_priority scheduled] at order ⊢
    rw [queues.behind (by simpa [Policy.ordersByPriority] using scheduled)]
    have entered := @pairwise_entries log ready new (fun _ _ => True)
      (order.imp fun precedes _ => precedes) distinct
    exact entered.imp fun precedes => precedes trivial

/-! ## Leaving the queue -/

theorem not_mem_of_nodup {before after : List Rank} {rank : Rank}
    (distinct : ((before ++ rank :: after).map Rank.pid).Nodup) :
    rank.pid ∉ (before ++ after).map Rank.pid := by
  have order := (@List.perm_middle _ rank before after).map Rank.pid
  exact (List.nodup_cons.mp (order.nodup_iff.mp distinct)).1

theorem Serves.sublist (serves : Serves ending queue next) : next.ready.Sublist queue := by
  cases serves with
  | stays ready =>
      rw [ready]
  | takes head rest queue_eq ready =>
      rw [ready, queue_eq]
      exact List.sublist_cons_self head rest
  | ends before rank after queue_eq ready =>
      rw [ready, queue_eq]
      exact (List.sublist_cons_self rank after).append_left before

/-- Whoever leaves an ordered queue was asked to end, or is the first of it. -/
theorem Serves.leaving {relation : Rank → Rank → Prop} (serves : Serves ending queue next)
    (order : queue.Pairwise relation) {rank : Rank} (member : rank ∈ queue)
    (left : rank ∉ next.ready) :
    (ending = some rank.pid ∧ next.Lacks rank) ∨
    ((next.executing = some rank ∨ next.Lacks rank) ∧ ∀ waiting ∈ next.ready, relation rank waiting)
    := by
  cases serves with
  | stays ready =>
      rw [ready] at left
      exact absurd member left
  | takes head rest queue_eq ready taken =>
      rw [queue_eq] at member order
      rw [ready] at left ⊢
      obtain rfl := (List.mem_cons.mp member).resolve_right left
      exact Or.inr ⟨taken, (List.pairwise_cons.mp order).1⟩
  | ends before other after queue_eq ready asked ended =>
      rw [queue_eq] at member
      rw [ready] at left
      obtain rfl : rank = other := by
        simp only [List.mem_append, List.mem_cons, not_or] at member left
        tauto
      exact Or.inl ⟨asked, ended⟩

/-- The order is kept, whoever enters and whoever leaves. -/
theorem Serves.proceeds (serves : Serves ending queue next) (waits : lineup.Waits schedule log)
    (queues : Queues lineup.policy lineup.ready new queue)
    (distinct : ((lineup.ready ++ new).map Rank.pid).Nodup)
    (kept : next.policy.schedule = lineup.policy.schedule)
    (executing : ∀ rank, next.executing = some rank →
      lineup.executing = some rank ∨ rank ∈ lineup.ready) :
    lineup.Proceeds schedule (log ++ new.map Rank.pid) new ending next := by
  have members {rank : Rank} : rank ∈ queue ↔ rank ∈ lineup.ready ++ new := by
    rw [queues.members.mem_iff, List.mem_append, List.mem_append, or_comm]
  have order : queue.Pairwise (Rank.Precedes schedule (log ++ new.map Rank.pid)) := by
    have order := waits.order
    rw [← waits.scheduled] at order ⊢
    exact queues.ordered order distinct
  refine ⟨⟨kept.trans waits.scheduled, order.sublist serves.sublist, fun rank member => ?_⟩,
    distinct, fun rank member => members.mp (serves.sublist.subset member), executing,
    fun rank member left => serves.leaving order (members.mpr member) left⟩
  rcases List.mem_append.mp (members.mp (serves.sublist.subset member)) with waiting | enters
  · exact List.mem_append_left _ (waits.entered rank waiting)
  · exact List.mem_append_right _ (List.mem_map_of_mem enters)

/-! ## Dispatching -/

theorem Dispatches.serves (dispatches : lineup.Dispatches next)
    (distinct : (lineup.everyone.map Rank.pid).Nodup) (policy : Policy) :
    Serves none lineup.ready { next with policy := policy } := by
  cases dispatches with
  | stays => exact .stays rfl
  | gives head rest idle ready => exact .takes head rest ready rfl (Or.inl rfl)
  | fails head rest idle ready =>
      refine .takes head rest ready rfl (Or.inr ?_)
      rw [everyone, idle, ready] at distinct
      rw [Lacks, everyone, idle]
      exact @not_mem_of_nodup [] (rest ++ lineup.resident) head distinct

theorem Dispatches.from_ready (dispatches : lineup.Dispatches next) {rank : Rank}
    (executing : next.executing = some rank) :
    lineup.executing = some rank ∨ rank ∈ lineup.ready := by
  cases dispatches with
  | stays => exact Or.inl executing
  | gives head rest idle ready =>
      cases executing
      exact Or.inr (by simp [ready])
  | fails => exact Or.inl executing

/-! ## Interrupts -/

theorem entering_sublist (interrupt : Interrupt) (lineup : Lineup) :
    (lineup.entering interrupt).Sublist lineup.resident ∨
      (lineup.entering interrupt).Sublist lineup.executing.toList := by
  cases interrupt with
  | runProgram pid =>
      refine Or.inl ?_
      rw [entering]
      cases found : lineup.resident.find? fun rank => rank.pid = pid with
      | none => exact List.nil_sublist _
      | some rank => exact List.singleton_sublist.mpr (List.mem_of_find?_eq_some found)
  | runAllPrograms => exact Or.inl (.refl _)
  | contextSwitch =>
      refine Or.inr ?_
      rw [entering]
      split
      · exact List.nil_sublist _
      · exact .refl _
  | timer => exact Or.inl (List.nil_sublist _)
  | keyboard key => exact Or.inl (List.nil_sublist _)
  | loadProgram text priority => exact Or.inl (List.nil_sublist _)
  | breakProgram pid => exact Or.inl (List.nil_sublist _)
  | errProgram pid => exact Or.inl (List.nil_sublist _)
  | requestClearMemory => exact Or.inl (List.nil_sublist _)
  | killProgram pid => exact Or.inl (List.nil_sublist _)
  | fileSystem request => exact Or.inl (List.nil_sublist _)
  | unrecognized number => exact Or.inl (List.nil_sublist _)

/-- Who enters the queue was not in it. -/
theorem nodup_entering (distinct : (lineup.everyone.map Rank.pid).Nodup) (interrupt : Interrupt) :
    ((lineup.ready ++ lineup.entering interrupt).map Rank.pid).Nodup := by
  rcases entering_sublist interrupt lineup with resident | executing
  · have sublist : (lineup.ready ++ lineup.entering interrupt).Sublist lineup.everyone := by
      rw [everyone, List.append_assoc]
      exact (resident.append_left _).trans (List.sublist_append_right _ _)
    exact distinct.sublist (sublist.map Rank.pid)
  · have order := (@List.perm_append_comm _ (lineup.entering interrupt) lineup.ready).map Rank.pid
    have sublist : (lineup.entering interrupt ++ lineup.ready).Sublist lineup.everyone :=
      (executing.append_right _).trans (List.sublist_append_left _ _)
    exact order.nodup_iff.mp (distinct.sublist (sublist.map Rank.pid))

namespace Handles

theorem from_ready (handles : lineup.Handles interrupt raised next) {rank : Rank}
    (executing : next.executing = some rank) :
    lineup.executing = some rank ∨ rank ∈ lineup.ready := by
  cases handles with
  | switches head rest dispatched switching waiting queues either =>
      rcases either with rfl | rfl
      · cases executing
        have queued := queues.members.mem_iff.mp List.mem_cons_self
        rw [List.mem_append, Option.mem_toList] at queued
        exact queued
      · cases executing
  | enrolls => exact Or.inl executing
  | leaves => exact Or.inl executing
  | joins => exact Or.inl executing
  | stops => cases executing
  | withdraws => exact Or.inl executing
  | skips => exact Or.inl executing

/-- An interrupt that neither asks to run anybody nor is a context switch lets nobody enter the
queue. -/
theorem serves (handles : lineup.Handles interrupt raised next)
    (distinct : (lineup.everyone.map Rank.pid).Nodup) (steady : interrupt ≠ .contextSwitch)
    (unasked : ∀ pid, interrupt.asksFor pid = false) :
    ∃ queue, Queues lineup.policy lineup.ready [] queue ∧ Serves interrupt.ending? queue next := by
  have stays (ready : next.ready = lineup.ready) : ∃ queue,
      Queues lineup.policy lineup.ready [] queue ∧ Serves interrupt.ending? queue next :=
    ⟨lineup.ready, .refl _ _, .stays ready⟩
  cases handles with
  | enrolls => exact stays rfl
  | leaves => exact stays rfl
  | joins new left queue _ taken queues asked =>
      obtain rfl : new = [] := by
        refine List.eq_nil_iff_forall_not_mem.mpr fun rank member => ?_
        simp [unasked] at asked
        exact asked rank member
      exact ⟨queue, queues, .stays rfl⟩
  | stops => exact stays rfl
  | withdraws before rank after _ ready ends =>
      refine ⟨lineup.ready, .refl _ _, .ends before rank after ready rfl ends ?_⟩
      have join : lineup.everyone =
          (lineup.executing.toList ++ before) ++ rank :: (after ++ lineup.resident) := by
        simp [everyone, ready]
      rw [join] at distinct
      simpa [Lacks, everyone] using not_mem_of_nodup distinct
  | skips switching => exact absurd switching steady
  | switches _ _ _ switching => exact absurd switching steady

/-- At a context switch the executing process enters the queue, and the first one is taken from
it. -/
theorem serves_switch (handles : lineup.Handles .contextSwitch raised next)
    (distinct : (lineup.everyone.map Rank.pid).Nodup) :
    ∃ queue, Queues lineup.policy lineup.ready (lineup.entering .contextSwitch) queue ∧
      Serves none queue next := by
  cases handles with
  | skips _ nobody =>
      refine ⟨lineup.ready, ?_, .stays rfl⟩
      rw [entering, if_pos (by simp [nobody])]
      exact .refl _ _
  | switches head rest dispatched _ waiting queues either =>
      refine ⟨head :: rest, ?_, .takes head rest rfl rfl ?_⟩
      · rwa [entering, if_neg (by simpa using waiting)]
      · rcases either with rfl | rfl
        · exact Or.inl rfl
        · refine Or.inr ?_
          have order := ((queues.members.append_right lineup.resident).map Rank.pid)
          exact @not_mem_of_nodup [] (rest ++ lineup.resident) head (order.nodup_iff.mpr distinct)
  | enrolls _ steady => exact absurd rfl steady
  | leaves _ steady => exact absurd rfl steady
  | joins _ _ _ steady => exact absurd rfl steady
  | stops _ steady => exact absurd rfl steady
  | withdraws _ _ _ steady => exact absurd rfl steady

end Handles

end Lineup

namespace System

open Lineup

variable {system next : System} {pid : Nat}

theorem entering_runProgram (pid : Nat) (system : System) :
    system.lineup.entering (.runProgram pid) =
      ((system.resident.find? fun process => process.pid = pid).map Process.rank).toList := by
  rw [entering, lineup, List.find?_map]
  rfl

/-- Whoever is asked to run and is resident enters the queue. -/
theorem activate?_queues (activated : system.activate? pid = some next) :
    Queues system.policy system.lineup.ready (system.lineup.entering (.runProgram pid))
      next.lineup.ready := by
  unfold activate? takeResident? at activated
  rw [entering_runProgram]
  cases found : system.resident.find? fun process => process.pid = pid with
  | none => simp [found] at activated
  | some process =>
      simp only [found] at activated
      rcases enqueueReady_queues process.queued { system with
        resident := system.resident.filter fun other => other.pid ≠ pid } with
        ⟨queue, enqueued, queues⟩
      cases (Option.some.inj activated).symm.trans enqueued
      exact queues

theorem entering_eq_nil (absent : system.activate? pid = none) :
    system.lineup.entering (.runProgram pid) = [] := by
  unfold activate? takeResident? at absent
  rw [entering_runProgram]
  cases found : system.resident.find? fun process => process.pid = pid with
  | none => rfl
  | some process => simp [found] at absent

theorem activateAll_queues (system : System) :
    Queues system.policy system.lineup.ready (system.lineup.entering .runAllPrograms)
      system.activateAll.2.lineup.ready := by
  rcases foldl_enqueueReady_queues system.resident { system with resident := [] } with
    ⟨queue, folded, queues⟩
  have next_eq : system.activateAll.2 = { system with ready := queue, resident := [] } := folded
  rw [next_eq]
  exact queues

/-- Putting an ordered queue in order again does not change it. -/
theorem ready_setSchedule {schedule : Schedule} {log : List Nat}
    (waits : system.lineup.Waits schedule log) :
    (system.setSchedule schedule).lineup.ready = system.lineup.ready := by
  have kept : (system.setSchedule schedule).ready = system.ready := by
    rw [setSchedule]
    split
    · rename_i prioritizes
      obtain rfl : schedule = .priority := of_decide_eq_true prioritizes
      exact sortByPriority_eq_self (sorted_of_order waits.order)
    · rfl
  exact congrArg (List.map Process.rank) kept

/-- Handling an interrupt lets those enter the queue who are asked to, and lets nobody leave it who
is not the first or asked to end. -/
theorem respond_serves (distinct : (system.lineup.everyone.map Rank.pid).Nodup)
    (interrupt : Interrupt) :
    ∃ queue, Queues system.policy system.lineup.ready (system.lineup.entering interrupt) queue ∧
      Serves interrupt.ending? queue (system.respond interrupt).lineup := by
  have numbers : (system.resident.map Process.pid).Nodup := by
    have resident := distinct
    rw [Lineup.everyone, List.map_append] at resident
    simpa [lineup, Function.comp_def] using resident.of_append_right
  have handles (interrupt : Interrupt) := respond_lineup numbers interrupt
  cases interrupt with
  | runProgram pid =>
      rw [respond]
      cases activated : system.activate? pid with
      | none =>
          rw [entering_eq_nil activated]
          exact ⟨_, .refl _ _, .stays rfl⟩
      | some next => exact ⟨_, activate?_queues activated, .stays rfl⟩
  | runAllPrograms =>
      rw [respond]
      split
      · rename_i nobody
        have resident : system.lineup.entering .runAllPrograms = [] := by
          simpa [activateAll, entering, lineup] using nobody
        rw [resident]
        exact ⟨_, .refl _ _, .stays rfl⟩
      · exact ⟨_, activateAll_queues system, .stays rfl⟩
  | contextSwitch => exact (handles .contextSwitch).serves_switch distinct
  | timer => exact (handles _).serves distinct (by simp) fun _ => rfl
  | keyboard key => exact (handles _).serves distinct (by simp) fun _ => rfl
  | loadProgram text priority => exact (handles _).serves distinct (by simp) fun _ => rfl
  | breakProgram pid => exact (handles _).serves distinct (by simp) fun _ => rfl
  | errProgram pid => exact (handles _).serves distinct (by simp) fun _ => rfl
  | requestClearMemory => exact (handles _).serves distinct (by simp) fun _ => rfl
  | killProgram pid => exact (handles _).serves distinct (by simp) fun _ => rfl
  | fileSystem request => exact (handles _).serves distinct (by simp) fun _ => rfl
  | unrecognized number => exact (handles _).serves distinct (by simp) fun _ => rfl

end System

end Timeshare
