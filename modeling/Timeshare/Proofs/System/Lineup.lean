import Timeshare.Proofs.Kernel.Response

/-!
# The lineup of processes

Scheduling depends on little: who executes, who waits in which order, who is resident, and the
policy.  Of a process only its number and its priority count.  `Lineup` is this view of a system,
and `Lineup.Handles` and `Lineup.Dispatches` say once what can become of it, wherever images are and
whatever the storage loses.  In particular a dispatch may fail at any time.
-/

namespace Timeshare

/-- A process as the scheduler sees it. -/
structure Rank where
  pid : Nat
  priority : Nat
deriving DecidableEq

def Process.rank (process : Process) : Rank :=
  ⟨process.pid, process.priority⟩

@[simp]
theorem Process.pid_rank (process : Process) : process.rank.pid = process.pid := rfl

@[simp]
theorem Process.priority_rank (process : Process) : process.rank.priority = process.priority := rfl

/-- The interrupt asks to run the process, if it is resident. -/
def Interrupt.asksFor (pid : Nat) : Interrupt → Bool
  | .runProgram asked => asked = pid
  | .runAllPrograms => true
  | _ => false

/-- The process that the interrupt asks to end, at its own request or at the user's. -/
def Interrupt.ending? : Interrupt → Option Nat
  | .breakProgram pid => some pid
  | .errProgram pid => some pid
  | .killProgram pid => some pid
  | _ => none

/-- What scheduling depends on. -/
structure Lineup where
  executing : Option Rank
  ready : List Rank
  resident : List Rank
  nextPid : Nat
  policy : Policy

def System.lineup (system : System) : Lineup where
  executing := system.executing.map Process.rank
  ready := system.ready.map Process.rank
  resident := system.resident.map Process.rank
  nextPid := system.nextPid
  policy := system.policy

namespace Lineup

/-- The processes that have not ended. -/
def everyone (lineup : Lineup) : List Rank :=
  lineup.executing.toList ++ lineup.ready ++ lineup.resident

/-- The more urgent ones come first. -/
def Sorted (queue : List Rank) : Prop :=
  queue.Pairwise fun first second => first.priority ≤ second.priority

/-- The new processes have joined the ready ones: each in its place if the policy keeps the order of
priority, and behind all others if it does not. -/
structure Queues (policy : Policy) (ready new queue : List Rank) : Prop where
  members : queue.Perm (new ++ ready)
  sorted : policy.ordersByPriority = true → Sorted ready → Sorted queue
  behind : policy.ordersByPriority = false → queue = ready ++ new
  /-- Those of equal priority stand in the order in which they have joined. -/
  stable : ∀ priority, (queue.filter fun rank => rank.priority = priority) =
    (ready ++ new).filter fun rank => rank.priority = priority

def shouldPreempt (lineup : Lineup) : Bool :=
  lineup.policy.ordersByPriority &&
    match lineup.executing, lineup.ready with
    | some executing, head :: _ => head.priority < executing.priority
    | _, _ => false

/-- The context switch that a more urgent process asks for. -/
def preemption (lineup : Lineup) : List Interrupt :=
  if lineup.shouldPreempt then [.contextSwitch] else []

/-- What handling an interrupt can do to the lineup, and the interrupts that it raises. -/
inductive Handles (lineup : Lineup) (interrupt : Interrupt) : List Interrupt → Lineup → Prop
  | enrolls (priority : Nat) (steady : interrupt ≠ .contextSwitch) :
      Handles lineup interrupt [] { lineup with
        nextPid := lineup.nextPid + 1
        resident := lineup.resident ++ [⟨lineup.nextPid, priority⟩] }
  | leaves (left : List Rank) (steady : interrupt ≠ .contextSwitch)
      (sublist : left.Sublist lineup.resident) :
      Handles lineup interrupt [] { lineup with resident := left }
  | joins (new left queue : List Rank) (steady : interrupt ≠ .contextSwitch)
      (taken : lineup.resident.Perm (new ++ left))
      (queues : Queues lineup.policy lineup.ready new queue)
      (asked : ∀ rank ∈ new, interrupt.asksFor rank.pid = true) :
      Handles lineup interrupt { lineup with ready := queue, resident := left }.preemption
        { lineup with ready := queue, resident := left }
  | stops (rank : Rank) (steady : interrupt ≠ .contextSwitch)
      (executing : lineup.executing = some rank) (ends : interrupt.ending? = some rank.pid) :
      Handles lineup interrupt []
        { lineup with executing := none, policy := lineup.policy.didSwitch }
  | withdraws (before : List Rank) (rank : Rank) (after : List Rank)
      (steady : interrupt ≠ .contextSwitch) (ready : lineup.ready = before ++ rank :: after)
      (ends : interrupt.ending? = some rank.pid) :
      Handles lineup interrupt [] { lineup with ready := before ++ after }
  | skips (switching : interrupt = .contextSwitch) (nobody : lineup.ready = []) :
      Handles lineup interrupt [] { lineup with policy := lineup.policy.didSwitch }
  | switches (head : Rank) (rest : List Rank) (dispatched : Option Rank)
      (switching : interrupt = .contextSwitch) (waiting : lineup.ready ≠ [])
      (queues : Queues lineup.policy lineup.ready lineup.executing.toList (head :: rest))
      (either : dispatched = some head ∨ dispatched = none) :
      Handles lineup interrupt [] { lineup with
        executing := dispatched
        ready := rest
        policy := lineup.policy.didSwitch }

/-- What becomes of the lineup when the next ready process is to get the processor. -/
inductive Dispatches (lineup : Lineup) : Lineup → Prop
  | stays (needless : lineup.executing ≠ none ∨ lineup.ready = []) : Dispatches lineup lineup
  | gives (head : Rank) (rest : List Rank) (idle : lineup.executing = none)
      (ready : lineup.ready = head :: rest) :
      Dispatches lineup { lineup with executing := some head, ready := rest }
  | fails (head : Rank) (rest : List Rank) (idle : lineup.executing = none)
      (ready : lineup.ready = head :: rest) : Dispatches lineup { lineup with ready := rest }

/-! ## Numbers and priorities -/

/-- Every process keeps its priority, nobody is brought back, and new processes have new numbers. -/
structure Continues (lineup next : Lineup) : Prop where
  nextPid : lineup.nextPid ≤ next.nextPid
  everyone : ∀ rank ∈ next.everyone, rank ∈ lineup.everyone ∨ lineup.nextPid ≤ rank.pid

section Continues

variable {lineup next last : Lineup} {interrupt : Interrupt} {raised : List Interrupt}

theorem Continues.of_eq (nextPid : next.nextPid = lineup.nextPid)
    (everyone : next.everyone = lineup.everyone) : lineup.Continues next := by
  refine ⟨Nat.le_of_eq nextPid.symm, fun rank member => Or.inl ?_⟩
  rwa [← everyone]

theorem Continues.of_subset (nextPid : next.nextPid = lineup.nextPid)
    (everyone : next.everyone ⊆ lineup.everyone) : lineup.Continues next :=
  ⟨Nat.le_of_eq nextPid.symm, fun _ member => Or.inl (everyone member)⟩

theorem Continues.trans (first : lineup.Continues next) (second : next.Continues last) :
    lineup.Continues last := by
  refine ⟨first.nextPid.trans second.nextPid, fun rank member => ?_⟩
  rcases second.everyone rank member with before | new
  · exact first.everyone rank before
  · exact Or.inr (first.nextPid.trans new)

/-- A context switch is raised only for somebody who is more urgent than the executing process. -/
theorem Handles.raises (handles : lineup.Handles interrupt raised next) :
    raised = [] ∨ (raised = [.contextSwitch] ∧ next.shouldPreempt = true) := by
  cases handles with
  | joins new left queue steady taken queues =>
      rw [preemption]
      split
      · rename_i preempts
        exact Or.inr ⟨rfl, preempts⟩
      · exact Or.inl rfl
  | enrolls => exact Or.inl rfl
  | leaves => exact Or.inl rfl
  | stops => exact Or.inl rfl
  | withdraws => exact Or.inl rfl
  | skips => exact Or.inl rfl
  | switches => exact Or.inl rfl

theorem Handles.schedule (handles : lineup.Handles interrupt raised next) :
    next.policy.schedule = lineup.policy.schedule := by
  cases handles <;> rfl

theorem Handles.quantum (handles : lineup.Handles interrupt raised next) :
    next.policy.quantum = lineup.policy.quantum := by
  cases handles <;> rfl

theorem Dispatches.policy (dispatches : lineup.Dispatches next) : next.policy = lineup.policy := by
  cases dispatches <;> rfl

theorem Handles.continues (handles : lineup.Handles interrupt raised next) :
    lineup.Continues next := by
  cases handles with
  | enrolls priority =>
      refine ⟨Nat.le_succ _, fun rank member => ?_⟩
      simp only [everyone, List.mem_append, List.mem_singleton] at member ⊢
      rcases member with member | before | rfl
      · exact Or.inl (Or.inl member)
      · exact Or.inl (Or.inr before)
      · exact Or.inr (Nat.le_refl _)
  | leaves left steady sublist =>
      exact .of_subset rfl (sublist.append_left _).subset
  | joins new left queue steady taken queues =>
      refine .of_subset rfl fun rank member => ?_
      simp only [everyone, List.mem_append, queues.members.mem_iff, taken.mem_iff] at member ⊢
      tauto
  | stops rank steady executing =>
      refine .of_subset rfl fun other member => ?_
      simp only [everyone, Option.toList_none, List.nil_append, List.mem_append] at member ⊢
      tauto
  | withdraws before rank after steady ready =>
      refine .of_subset rfl fun other member => ?_
      simp only [everyone, ready, List.mem_append, List.mem_cons] at member ⊢
      tauto
  | skips => exact .of_eq rfl rfl
  | switches head rest dispatched switching waiting queues either =>
      have moved : ∀ other ∈ dispatched.toList ++ rest, other ∈ head :: rest := by
        rcases either with rfl | rfl
        · simp
        · simpa using fun other member => Or.inr member
      refine .of_subset rfl fun other member => ?_
      simp only [everyone, List.mem_append] at member ⊢
      rcases member with among | resident
      · have queued := queues.members.mem_iff.mp (moved other (List.mem_append.mpr among))
        exact Or.inl (List.mem_append.mp queued)
      · exact Or.inr resident

theorem Dispatches.continues (dispatches : lineup.Dispatches next) : lineup.Continues next := by
  cases dispatches with
  | stays => exact .of_eq rfl rfl
  | gives head rest idle ready => exact .of_eq rfl (by simp [everyone, idle, ready])
  | fails head rest idle ready =>
      refine .of_subset rfl fun other member => ?_
      simp only [everyone, ready, List.mem_append, List.mem_cons] at member ⊢
      tauto

end Continues

/-! ## Queueing -/

namespace Queues

variable {policy : Policy} {ready new queue : List Rank}

theorem refl (policy : Policy) (ready : List Rank) : Queues policy ready [] ready :=
  ⟨.rfl, fun _ sorted => sorted, fun _ => by simp, fun _ => by simp⟩

theorem cons {first : Rank} {rest between : List Rank} (one : Queues policy ready [first] between)
    (others : Queues policy between rest queue) : Queues policy ready (first :: rest) queue where
  members := by
    apply others.members.trans
    apply (one.members.append_left rest).trans
    simp
  sorted priority sorted := others.sorted priority (one.sorted priority sorted)
  behind first_come := by
    simp [others.behind first_come, one.behind first_come]
  stable priority := by
    rw [others.stable, List.filter_append, one.stable, ← List.filter_append, List.append_assoc]
    rfl

end Queues

end Lineup

namespace System

open Lineup

variable {system next : System} {process : Process} {pid : Nat}

theorem shouldPreempt_lineup (system : System) :
    system.lineup.shouldPreempt = system.shouldPreempt := by
  unfold Lineup.shouldPreempt System.shouldPreempt lineup
  cases system.executing with
  | none => rfl
  | some executing =>
      cases system.ready with
      | nil => rfl
      | cons head rest => rfl

theorem sorted_insertByPriority {queue : List Process} (sorted : Sorted (queue.map Process.rank))
    (process : Process) : Sorted ((insertByPriority process queue).map Process.rank) := by
  induction queue with
  | nil => simp [insertByPriority, Sorted]
  | cons first rest hypothesis =>
      rcases List.pairwise_cons.mp sorted with ⟨least, sortedRest⟩
      rw [insertByPriority]
      split
      · rename_i urgent
        apply List.pairwise_cons.mpr
        refine ⟨?_, sorted⟩
        intro other member
        rcases List.mem_cons.mp member with rfl | among
        · exact Nat.le_of_lt urgent
        · exact (Nat.le_of_lt urgent).trans (least other among)
      · rename_i patient
        apply List.pairwise_cons.mpr
        refine ⟨?_, hypothesis sortedRest⟩
        intro other member
        have members := (insertByPriority_perm process rest).map Process.rank
        rcases List.mem_cons.mp (members.mem_iff.mp member) with rfl | among
        · exact Nat.le_of_not_lt patient
        · exact least other among

theorem sorted_sortByPriority (queue : List Process) :
    Sorted ((sortByPriority queue).map Process.rank) := by
  have inserted {start : List Process} (sorted : Sorted (start.map Process.rank)) :
      Sorted ((queue.foldl (fun sorted process => insertByPriority process sorted) start).map
        Process.rank) := by
    induction queue generalizing start with
    | nil => exact sorted
    | cons first rest hypothesis => exact hypothesis (sorted_insertByPriority sorted first)
  exact inserted List.Pairwise.nil

theorem sortByPriority_append (queue : List Process) (process : Process) :
    sortByPriority (queue ++ [process]) = insertByPriority process (sortByPriority queue) := by
  simp [sortByPriority]

/-- A process that is put into its place comes behind those that are as urgent. -/
theorem filter_insertByPriority {queue : List Process} (sorted : Sorted (queue.map Process.rank))
    (process : Process) (priority : Nat) :
    ((insertByPriority process queue).filter fun other => other.priority = priority) =
      (queue ++ [process]).filter fun other => other.priority = priority := by
  induction queue with
  | nil => rfl
  | cons first rest hypothesis =>
      rcases List.pairwise_cons.mp sorted with ⟨least, sortedRest⟩
      rw [insertByPriority]
      split
      · rename_i urgent
        by_cases equal : process.priority = priority
        · have patient : ((first :: rest).filter fun other => other.priority = priority) = [] := by
            refine List.filter_eq_nil_iff.mpr fun other member => ?_
            have above : process.priority < other.priority := by
              rcases List.mem_cons.mp member with rfl | among
              · exact urgent
              · exact urgent.trans_le (least other.rank (List.mem_map_of_mem among))
            simpa using equal ▸ Nat.ne_of_gt above
          rw [List.filter_cons, List.filter_append, patient]
          simp [equal]
        · rw [List.filter_cons, List.filter_append]
          simp [equal]
      · rw [List.filter_cons, hypothesis sortedRest, List.cons_append, List.filter_cons]

/-- Putting processes in the order of priority keeps the order of those that are equally urgent. -/
theorem filter_sortByPriority (queue : List Process) (priority : Nat) :
    ((sortByPriority queue).filter fun process => process.priority = priority) =
      queue.filter fun process => process.priority = priority := by
  induction queue using List.reverseRecOn with
  | nil => rfl
  | append_singleton front last hypothesis =>
      rw [sortByPriority_append, filter_insertByPriority (sorted_sortByPriority front),
        List.filter_append, hypothesis, List.filter_append]

/-- A process that is not more urgent than any other one comes last. -/
theorem insertByPriority_eq_append {queue : List Process}
    (least : ∀ other ∈ queue, other.priority ≤ process.priority) :
    insertByPriority process queue = queue ++ [process] := by
  induction queue with
  | nil => rfl
  | cons first rest hypothesis =>
      have patient : ¬ process.priority < first.priority :=
        Nat.not_lt_of_le (least first List.mem_cons_self)
      rw [insertByPriority, if_neg patient,
        hypothesis fun other member => least other (List.mem_cons_of_mem first member)]
      rfl

/-- A queue in the order of priority is not changed by putting it in order. -/
theorem sortByPriority_eq_self {queue : List Process}
    (sorted : Sorted (queue.map Process.rank)) : sortByPriority queue = queue := by
  induction queue using List.reverseRecOn with
  | nil => rfl
  | append_singleton front last hypothesis =>
      rw [List.map_append] at sorted
      rcases List.pairwise_append.mp sorted with ⟨sortedFront, _, least⟩
      rw [sortByPriority_append, hypothesis sortedFront]
      apply insertByPriority_eq_append
      intro other member
      exact least other.rank (List.mem_map_of_mem member) last.rank (by simp)

theorem enqueueReady_queues (process : Process) (system : System) :
    ∃ queue, system.enqueueReady process = { system with ready := queue } ∧
      Queues system.policy (system.ready.map Process.rank) [process.rank]
        (queue.map Process.rank) := by
  rcases enqueueReady_eq process system with ⟨queue, enqueued, order⟩
  have queue_eq : queue = (system.enqueueReady process).ready := by rw [enqueued]
  refine ⟨queue, enqueued, order.map Process.rank, ?_, ?_, fun level => ?_⟩
  · intro priority _
    rw [queue_eq, enqueueReady, if_pos priority]
    exact sorted_sortByPriority _
  · intro first_come
    simp [queue_eq, enqueueReady, first_come]
  · have kept : (queue.filter fun other => other.priority = level) =
        (system.ready ++ [process]).filter fun other => other.priority = level := by
      rw [queue_eq, enqueueReady]
      split
      · exact filter_sortByPriority _ level
      · rfl
    have ranks (list : List Process) :
        ((list.map Process.rank).filter fun rank => rank.priority = level) =
          (list.filter fun other => other.priority = level).map Process.rank := by
      rw [List.filter_map]
      rfl
    rw [ranks, kept, ← ranks, List.map_append]
    rfl

theorem foldl_enqueueReady_queues (joining : List Process) (system : System) :
    ∃ queue, joining.foldl (fun system process => system.enqueueReady process.queued) system =
        { system with ready := queue } ∧
      Queues system.policy (system.ready.map Process.rank) (joining.map Process.rank)
        (queue.map Process.rank) := by
  induction joining generalizing system with
  | nil => exact ⟨system.ready, rfl, .refl _ _⟩
  | cons first rest hypothesis =>
      rcases enqueueReady_queues first.queued system with ⟨between, enqueued, one⟩
      rcases hypothesis { system with ready := between } with ⟨queue, folded, others⟩
      exact ⟨queue, by simp [enqueued, folded], one.cons others⟩

/-- Only images were moved. -/
theorem Relocates.lineup_eq (relocates : system.Relocates next) : next.lineup = system.lineup := by
  simp only [lineup, relocates.executing, relocates.nextPid, relocates.policy,
    Process.map_of_unplaced Process.rank (fun _ => rfl) relocates.ready,
    Process.map_of_unplaced Process.rank (fun _ => rfl) relocates.resident]

/-! ## Dispatching and switching -/

theorem dispatch_lineup (system : System) :
    ∃ result next, system.dispatch.value = (result, next) ∧
      system.lineup.Dispatches next.lineup ∧
      ∀ failure, result = .error failure → next.executing = none := by
  cases executing : system.executing with
  | some running =>
      refine ⟨.ok (), system, by simp [dispatch, executing], .stays (Or.inl ?_), by simp⟩
      simp [lineup, executing]
  | none =>
      cases ready : system.ready with
      | nil =>
          refine ⟨.ok (), system, by simp [dispatch, executing, ready], .stays (Or.inr ?_), by simp⟩
          simp [lineup, ready]
      | cons first rest =>
          have idle : system.lineup.executing = none := by simp [lineup, executing]
          have waiting : system.lineup.ready = first.rank :: rest.map Process.rank := by
            simp [lineup, ready]
          rcases rollIn_relocates first { system with ready := rest } with
            ⟨brought, between, rolled, relocates, same⟩
          have between_eq : between.lineup =
              { system.lineup with ready := rest.map Process.rank } := relocates.lineup_eq
          have between_idle : between.executing = none := relocates.executing.trans executing
          simp only [executing] at rolled
          cases brought with
          | error cause =>
              rcases reclaim_relocates first between with ⟨memory, files, reclaimed, _⟩
              refine ⟨.error ⟨first.pid, cause⟩,
                ({ between with memory, files } : System).retire first, ?_, ?_,
                fun _ _ => between_idle⟩
              · simp [dispatch, executing, ready, rolled, reclaimed]
              · have last_eq : (({ between with memory, files } : System).retire first).lineup =
                    between.lineup := rfl
                rw [last_eq, between_eq]
                exact .fails first.rank _ idle waiting
          | ok process =>
              have rank : process.rank = first.rank :=
                Process.eq_of_unplaced Process.rank (fun _ => rfl) (same process rfl)
              refine ⟨.ok (), { between with executing := some { process with phase := .running } },
                ?_, ?_, by simp⟩
              · simp [dispatch, executing, ready, rolled]
              · have last_eq :
                    ({ between with executing := some { process with phase := .running } } :
                      System).lineup = { between.lineup with executing := some process.rank } := rfl
                rw [last_eq, between_eq, rank]
                exact .gives first.rank _ idle waiting

theorem switchOut_lineup (system : System) :
    ∃ queue, system.switchOut.value.lineup =
        { system.lineup with executing := none, ready := queue } ∧
      Queues system.policy system.lineup.ready system.lineup.executing.toList queue := by
  cases executing : system.executing with
  | none =>
      refine ⟨system.lineup.ready, ?_, ?_⟩
      · simp [switchOut, lineup, executing]
      · simp only [lineup, executing, Option.map_none, Option.toList_none]
        exact .refl _ _
  | some running =>
      rcases enqueueReady_queues { system.cpu.saveInto running with fresh := true, phase := .ready }
        { system with executing := none } with ⟨queue, enqueued, queues⟩
      refine ⟨queue.map Process.rank, ?_, ?_⟩
      · simp [switchOut, lineup, executing, enqueued]
      · simp only [lineup, executing, Option.map_some, Option.toList_some]
        exact queues

theorem resume_lineup (system : System) : system.resume.lineup = system.lineup := by
  cases executing : system.executing with
  | none => simp [resume, executing]
  | some running =>
      simp only [resume, executing, lineup]
      rfl

/-- Beginning a turn does not reorder anything. -/
theorem contextSwitch_lineup (system : System) :
    system.lineup.Handles .contextSwitch [] system.contextSwitch.value.2.lineup := by
  cases none_ready : system.ready.isEmpty with
  | true =>
      have skipped : system.contextSwitch.value.2.lineup =
          { system.lineup with policy := system.lineup.policy.didSwitch } := by
        simp [contextSwitch, none_ready, lineup]
      rw [skipped]
      apply Handles.skips rfl
      simpa [lineup] using none_ready
  | false =>
      rcases switchOut_lineup { system with policy := system.policy.didSwitch } with
        ⟨queue, out_eq, queues⟩
      rcases dispatch_lineup
        (switchOut { system with policy := system.policy.didSwitch }).value with
        ⟨result, next, dispatched, dispatches, _⟩
      have next_eq : system.contextSwitch.value.2.lineup = next.lineup := by
        cases result with
        | error failure => simp [contextSwitch, none_ready, dispatched]
        | ok _ => simp [contextSwitch, none_ready, dispatched, resume_lineup]
      have waiting : system.lineup.ready ≠ [] := by
        intro nobody
        simp [List.map_eq_nil_iff.mp nobody] at none_ready
      have queued : queue ≠ [] := by
        rintro rfl
        exact waiting (List.append_eq_nil_iff.mp queues.members.symm.eq_nil).2
      have joined : Queues system.policy system.lineup.ready system.lineup.executing.toList queue :=
        ⟨queues.members, queues.sorted, queues.behind, queues.stable⟩
      rw [next_eq]
      rw [out_eq] at dispatches
      generalize next.lineup = last at dispatches ⊢
      cases dispatches with
      | stays needless => simp [queued] at needless
      | gives head rest idle ready =>
          cases ready
          exact .switches head rest (some head) rfl waiting joined (Or.inl rfl)
      | fails head rest idle ready =>
          cases ready
          exact .switches head rest none rfl waiting joined (Or.inr rfl)

/-! ## Ending processes -/

theorem terminate_lineup (distinct : (system.resident.map Process.pid).Nodup)
    {interrupt : Interrupt} (steady : interrupt ≠ .contextSwitch)
    (ends : interrupt.ending? = some pid) :
    system.lineup.Handles interrupt [] (terminate pid system).value.2.lineup := by
  have removes := remove?_removes distinct pid
  generalize removed : (remove? pid system).value = outcome at removes
  have next_eq (process : Process) (without : System) (taken : outcome = some (process, without)) :
      (terminate pid system).value.2.lineup = without.lineup := by
    rcases reclaim_relocates process without with ⟨memory, files, reclaimed, _⟩
    simp only [terminate, Journaled.value_bind, removed, taken, reclaimed]
    rfl
  cases removes with
  | executes process executing same =>
      rw [next_eq _ _ rfl]
      exact .stops process.rank steady (by simp [lineup, executing])
        (ends.trans (congrArg some same.symm))
  | waits before process after ready same =>
      rw [next_eq _ _ rfl]
      have left : lineup { system with ready := before ++ after } = { system.lineup with
          ready := before.map Process.rank ++ after.map Process.rank } := by
        simp [lineup]
      rw [left]
      exact .withdraws _ process.rank _ steady (by simp [lineup, ready])
        (ends.trans (congrArg some same.symm))
  | rests before process after resident same =>
      rw [next_eq _ _ rfl]
      refine .leaves ((before ++ after).map Process.rank) steady ?_
      rw [lineup, resident]
      exact ((List.sublist_cons_self process after).append_left before).map Process.rank
  | absent absent =>
      have same : (terminate pid system).value.2 = system := by simp [terminate, removed]
      rw [same]
      exact .leaves system.lineup.resident steady (.refl _)

theorem clearMemory?_lineup {interrupt : Interrupt} (steady : interrupt ≠ .contextSwitch)
    {pids : List Nat} (cleared : system.clearMemory? = some (pids, next)) :
    system.lineup.Handles interrupt [] next.lineup := by
  rcases clearMemory?_eq_some cleared with ⟨_, _, rfl⟩
  refine .leaves _ steady ?_
  exact List.filter_sublist.map Process.rank

/-! ## Queueing and admission -/

theorem activate?_lineup (distinct : (system.resident.map Process.pid).Nodup)
    (activated : system.activate? pid = some next) :
    system.lineup.Handles (.runProgram pid) next.lineup.preemption next.lineup := by
  unfold activate? at activated
  split at activated
  · rename_i process without taken
    rcases takeResident?_eq_some distinct taken with ⟨before, after, join, same, rfl⟩
    rcases enqueueReady_queues process.queued { system with resident := before ++ after } with
      ⟨queue, enqueued, queues⟩
    cases (Option.some.inj activated).symm.trans enqueued
    refine .joins [process.rank] ((before ++ after).map Process.rank) _ (by simp) ?_ queues ?_
    · rw [lineup, join]
      exact List.perm_middle.map Process.rank
    · intro rank member
      rw [List.mem_singleton.mp member]
      exact decide_eq_true same.symm
  · cases activated

theorem activateAll_lineup : system.lineup.Handles .runAllPrograms
    system.activateAll.2.lineup.preemption system.activateAll.2.lineup := by
  rcases foldl_enqueueReady_queues system.resident { system with resident := [] } with
    ⟨queue, folded, queues⟩
  have next_eq : system.activateAll.2 = { system with ready := queue, resident := [] } := folded
  rw [next_eq]
  exact .joins (system.resident.map Process.rank) [] _ (by simp) (by simp [lineup]) queues
    fun _ _ => rfl

theorem enroll_lineup {interrupt : Interrupt} (steady : interrupt ≠ .contextSwitch)
    (program : List UInt8) (priority : Nat) :
    system.lineup.Handles interrupt [] (enroll program priority system).value.2.lineup := by
  have registers {process : Process} (rank : process.rank = ⟨system.nextPid, priority⟩)
      (memory : Memory) (files : FileSystem) : system.lineup.Handles interrupt []
        (register process { system with memory, files }).value.2.lineup := by
    have next_eq : (register process { system with memory, files }).value.2.lineup =
        { system.lineup with
          nextPid := system.lineup.nextPid + 1
          resident := system.lineup.resident ++ [⟨system.lineup.nextPid, priority⟩] } := by
      have resident : ({ process with phase := .resident } : Process).rank = process.rank := rfl
      simp [register, lineup, resident, rank]
    rw [next_eq]
    exact .enrolls priority steady
  have same (files : FileSystem) :
      system.lineup.Handles interrupt [] (lineup { system with files }) :=
    .leaves system.lineup.resident steady (.refl _)
  cases full : system.memory.isFull with
  | true =>
      cases stores : FileSystem.perform (FileSystem.storeSwap system.nextPid
        (program.take system.memory.segmentSize)) system.files with
      | mk outcome files =>
          cases outcome with
          | error error => simpa [enroll, full, stores] using same files
          | ok stored =>
              simpa [enroll, full, stores] using @registers
                { Process.create system.nextPid priority with residence := some .disk } rfl
                system.memory files
  | false =>
      cases loaded : system.memory.load program system.nextPid priority with
      | error error => simpa [enroll, full, loaded] using same system.files
      | ok placement =>
          have rank : placement.process.rank = ⟨system.nextPid, priority⟩ :=
            Process.eq_of_unplaced Process.rank (fun _ => rfl) (Memory.unplaced_of_place loaded)
          simpa [enroll, full, loaded] using registers rank placement.memory system.files

/-- Under another policy the queue stays as it is or is put in order. -/
theorem setSchedule_lineup (schedule : Schedule) (system : System) :
    ∃ queue, (system.setSchedule schedule).lineup = { system.lineup with
        ready := queue
        policy := system.lineup.policy.setSchedule schedule } ∧
      queue.Perm system.lineup.ready ∧ (schedule = .priority → Sorted queue) := by
  refine ⟨(system.setSchedule schedule).ready.map Process.rank, rfl,
    (ready_setSchedule_perm schedule system).map Process.rank, ?_⟩
  rintro rfl
  exact sorted_sortByPriority system.ready

/-! ## Cycles and interrupts -/

theorem afterCycle_lineup (cycle : Cycle) (policy : Policy) (system : System) :
    (system.afterCycle cycle policy).lineup =
      { system.lineup with executing := some cycle.process.rank, policy := policy } := by
  have waited := map_waited_append Process.rank (fun _ => rfl) system.ready []
  simp only [List.append_nil] at waited
  exact congrArg (fun ready => Lineup.mk (some cycle.process.rank) ready
    (system.resident.map Process.rank) system.nextPid policy) waited

/-- The interrupts that handling an interrupt raises. -/
def raised (interrupt : Interrupt) (system : System) : List Interrupt :=
  match interrupt with
  | .runProgram pid =>
    match system.activate? pid with
    | some activated => activated.lineup.preemption
    | none => []
  | .runAllPrograms =>
    if system.activateAll.1.isEmpty then [] else system.activateAll.2.lineup.preemption
  | _ => []

/-- Every interrupt does one of the things that can become of the lineup. -/
theorem respond_lineup (distinct : (system.resident.map Process.pid).Nodup)
    (interrupt : Interrupt) :
    system.lineup.Handles interrupt (system.raised interrupt)
      (system.respond interrupt).lineup := by
  have unchanged {interrupt : Interrupt} (steady : interrupt ≠ .contextSwitch) :
      system.lineup.Handles interrupt [] system.lineup :=
    .leaves system.lineup.resident steady (.refl _)
  cases interrupt with
  | timer => exact unchanged (by simp)
  | keyboard key => exact unchanged (by simp)
  | loadProgram text priority =>
      change system.lineup.Handles _ [] _
      rw [respond]
      cases ProgramText.parse text with
      | error error => exact unchanged (by simp)
      | ok program => exact enroll_lineup (by simp) program _
  | runProgram pid =>
      rw [respond, raised]
      cases activated : system.activate? pid with
      | none => exact unchanged (by simp)
      | some next => exact activate?_lineup distinct activated
  | breakProgram pid => exact terminate_lineup distinct (by simp) rfl
  | errProgram pid => exact terminate_lineup distinct (by simp) rfl
  | requestClearMemory =>
      change system.lineup.Handles _ [] _
      rw [respond]
      cases cleared : system.clearMemory? with
      | none => exact unchanged (by simp)
      | some outcome => exact clearMemory?_lineup (by simp) cleared
  | contextSwitch => exact contextSwitch_lineup system
  | runAllPrograms =>
      rw [respond, raised]
      split
      · exact unchanged (by simp)
      · exact activateAll_lineup
  | killProgram pid => exact terminate_lineup distinct (by simp) rfl
  | fileSystem request => exact unchanged (by simp)
  | unrecognized number => exact unchanged (by simp)

end System

end Timeshare
