import Mathlib.Algebra.GroupWithZero.Nat
import Timeshare.Proofs.System.Lineup

/-!
# The ticks of processes

How long a process has run and how long it has waited is counted with the process, wherever it is.
`System.tally` looks a count up by the number of the process, so that it can be followed while the
process is moved about.  Only a cycle changes it: the executing process has run for one tick more, and
those in the ready queue have waited for one tick more.
-/

namespace Timeshare

/-! ## Counts by number -/

/-- A count of the processes that have the number, taken together. -/
def tally (measure : Career → Nat) (pid : Nat) (careers : List Career) : Nat :=
  ((careers.filter fun career => career.pid = pid).map measure).sum

section Tally

variable {measure : Career → Nat} {pid : Nat} {careers others : List Career}

theorem tally_cons (measure : Career → Nat) (pid : Nat) (career : Career) (careers : List Career) :
    tally measure pid (career :: careers) =
      (if career.pid = pid then measure career else 0) + tally measure pid careers := by
  by_cases same : career.pid = pid
  · simp [tally, same]
  · simp [tally, same]

theorem tally_append (measure : Career → Nat) (pid : Nat) (careers others : List Career) :
    tally measure pid (careers ++ others) =
      tally measure pid careers + tally measure pid others := by
  simp [tally]

theorem tally_perm (order : careers.Perm others) :
    tally measure pid careers = tally measure pid others :=
  ((order.filter _).map measure).sum_eq

theorem tally_absent (absent : pid ∉ careers.map fun career => career.pid) :
    tally measure pid careers = 0 := by
  have none_left : careers.filter (fun career => career.pid = pid) = [] := by
    apply List.filter_eq_nil_iff.mpr
    intro career member same
    apply absent
    rw [← of_decide_eq_true same]
    exact List.mem_map_of_mem (f := fun career : Career => career.pid) member
  rw [tally, none_left]
  rfl

/-- Waiting for a tick is not counted as running. -/
theorem tally_ticks_waited (pid : Nat) (processes : List Process) :
    tally (fun career => career.ticks) pid
        ((processes.map Process.waited).map Process.career) =
      tally (fun career => career.ticks) pid (processes.map Process.career) := by
  induction processes with
  | nil => rfl
  | cons process rest hypothesis =>
      rw [List.map_cons, List.map_cons, List.map_cons, tally_cons, tally_cons, hypothesis]
      rfl

/-- After a tick in the queue every process in it has waited for one tick more. -/
theorem tally_waited_waited (pid : Nat) (processes : List Process) :
    tally Career.waited pid ((processes.map Process.waited).map Process.career) =
      tally Career.waited pid (processes.map Process.career) +
        (processes.map Process.pid).count pid := by
  induction processes with
  | nil => rfl
  | cons process rest hypothesis =>
      have career : process.waited.career.pid = process.pid := rfl
      have before : process.career.pid = process.pid := rfl
      have more : process.waited.career.waited = process.career.waited + 1 := rfl
      rw [List.map_cons, List.map_cons, List.map_cons, List.map_cons, tally_cons, tally_cons,
        List.count_cons, hypothesis, career, before, more]
      by_cases same : process.pid = pid
      · simp only [same, if_true, beq_self_eq_true]
        omega
      · simp only [same, if_false, beq_iff_eq]
        omega

end Tally

namespace System

variable {system next : System} {process : Process}

/-- A count of the process that has the number. -/
def tally (measure : Career → Nat) (pid : Nat) (system : System) : Nat :=
  Timeshare.tally measure pid (system.everyone.map Process.career)

/-- The turnaround time of the process that has the number. -/
def turnaroundOf (pid : Nat) (system : System) : Nat :=
  system.tally Career.waited pid + system.tally (fun career => career.ticks) pid

theorem Retains.tally_eq (retains : system.Retains next) (measure : Career → Nat) (pid : Nat) :
    next.tally measure pid = system.tally measure pid :=
  tally_perm retains.careers

/-- A process that was just admitted has neither run nor waited. -/
theorem Enrolls.tally_eq (enrolls : system.Enrolls next) {measure : Career → Nat}
    (starts : measure (.start system.nextPid) = 0) (pid : Nat) :
    next.tally measure pid = system.tally measure pid := by
  rw [tally, tally_perm enrolls.careers, tally_cons, starts]
  simp [tally]

theorem Rostered.tally_eq (rostered : system.Rostered) (member : process ∈ system.everyone)
    (measure : Career → Nat) : system.tally measure process.pid = measure process.career := by
  rcases List.append_of_mem member with ⟨before, after, split⟩
  have distinct := rostered.distinct
  rw [split, List.map_append, List.map_cons, List.nodup_middle, List.nodup_cons,
    ← List.map_append] at distinct
  have order : (system.everyone.map Process.career).Perm
      (process.career :: (before ++ after).map Process.career) := by
    rw [split]
    exact List.perm_middle.map Process.career
  have others : process.pid ∉
      ((before ++ after).map Process.career).map fun career => career.pid := by
    rw [List.map_map]
    exact distinct.1
  have number : process.career.pid = process.pid := rfl
  rw [tally, tally_perm order, tally_cons, tally_absent others, number, if_pos rfl, Nat.add_zero]

/-- The process that has ended under a number is found by it. -/
theorem Rostered.find?_terminated (rostered : system.Rostered)
    (ended : process ∈ system.terminated) :
    system.terminated.reverse.find? (fun other => other.pid = process.pid) = some process := by
  have distinct := rostered.distinct
  rw [everyone, List.map_append] at distinct
  cases found : system.terminated.reverse.find? fun other => other.pid = process.pid with
  | none =>
      have unlike := List.find?_eq_none.mp found process (List.mem_reverse.mpr ended)
      exact absurd (decide_eq_true rfl) unlike
  | some other =>
      have member := List.mem_reverse.mp (List.mem_of_find?_eq_some found)
      have same : other.pid = process.pid := by simpa using List.find?_some found
      rw [List.inj_on_of_nodup_map distinct.of_append_right member ended same]

/-! ## One cycle -/

section Cycle

variable {cpu : Cpu} {cycle : Cycle} {policy : Policy}

theorem everyone_of_executing (executing : system.executing = some process) :
    system.everyone = process :: (system.ready ++ (system.resident ++ system.terminated)) := by
  simp [everyone, processes, executing]

theorem everyone_afterCycle (cycle : Cycle) (policy : Policy) (system : System) :
    (system.afterCycle cycle policy).everyone = cycle.process.ticked ::
      (system.ready.map Process.waited ++ (system.resident ++ system.terminated)) := by
  rw [everyone, processes_afterCycle, List.cons_append, List.append_assoc]
  rfl

theorem career_ticked (ran : cycle = cpu.cycle process system.memory) :
    cycle.process.ticked.career.pid = process.pid ∧
      cycle.process.ticked.career.ticks = process.career.ticks + 1 ∧
      cycle.process.ticked.career.waited = process.career.waited := by
  rcases Cpu.cycle_process cpu process system.memory with ⟨registers, last, process_eq⟩
  rw [← ran] at process_eq
  rw [process_eq]
  exact ⟨rfl, rfl, rfl⟩

/-- The executing process has run for one tick more. -/
theorem ticks_afterCycle (executing : system.executing = some process)
    (ran : cycle = cpu.cycle process system.memory) (policy : Policy) (pid : Nat) :
    (system.afterCycle cycle policy).tally (fun career => career.ticks) pid =
      system.tally (fun career => career.ticks) pid + if process.pid = pid then 1 else 0 := by
  rcases career_ticked ran with ⟨number, ticks, _⟩
  have before : process.career.pid = process.pid := rfl
  rw [tally, tally, everyone_afterCycle, everyone_of_executing executing]
  simp only [List.map_cons, List.map_append, tally_cons, tally_append, tally_ticks_waited, number,
    ticks, before]
  by_cases same : process.pid = pid
  · simp only [same, if_true]
    omega
  · simp only [same, if_false]
    omega

/-- The processes in the ready queue have waited for one tick more. -/
theorem waited_afterCycle (executing : system.executing = some process)
    (ran : cycle = cpu.cycle process system.memory) (policy : Policy) (pid : Nat) :
    (system.afterCycle cycle policy).tally Career.waited pid =
      system.tally Career.waited pid + (system.ready.map Process.pid).count pid := by
  rcases career_ticked ran with ⟨number, _, waited⟩
  have before : process.career.pid = process.pid := rfl
  rw [tally, tally, everyone_afterCycle, everyone_of_executing executing]
  simp only [List.map_cons, List.map_append, tally_cons, tally_append, tally_waited_waited, number,
    waited, before]
  omega

/-- All processes together have run for one tick more. -/
theorem sum_afterCycle (executing : system.executing = some process)
    (ran : cycle = cpu.cycle process system.memory) (policy : Policy) :
    ((system.afterCycle cycle policy).everyone.map Process.runningTicks).sum =
      (system.everyone.map Process.runningTicks).sum + 1 := by
  have ticks : cycle.process.ticked.runningTicks = process.runningTicks + 1 :=
    (career_ticked ran).2.1
  have waited := map_waited_append Process.runningTicks (fun _ => rfl) system.ready
    (system.resident ++ system.terminated)
  rw [everyone_afterCycle, everyone_of_executing executing, List.map_cons, List.map_cons, waited,
    ticks, List.sum_cons, List.sum_cons]
  omega

end Cycle

theorem Retains.sum_eq (retains : system.Retains next) :
    (next.everyone.map Process.runningTicks).sum =
      (system.everyone.map Process.runningTicks).sum := by
  have order := retains.progress.map Progress.ticks
  rw [List.map_map, List.map_map] at order
  exact order.sum_eq

theorem Enrolls.sum_eq (enrolls : system.Enrolls next) :
    (next.everyone.map Process.runningTicks).sum =
      (system.everyone.map Process.runningTicks).sum := by
  have order := enrolls.progress.map Progress.ticks
  rw [List.map_cons, List.map_map, List.map_map] at order
  exact order.sum_eq.trans (Nat.zero_add _)

end System

/-! ## Who is asked to run -/

namespace Lineup

variable {lineup next : Lineup} {interrupt : Interrupt} {raised : List Interrupt} {pid : Nat}

/-- The processes that execute or wait for the processor. -/
def active (lineup : Lineup) : List Nat :=
  (lineup.executing.toList ++ lineup.ready).map Rank.pid

/-- Nobody comes to wait for the processor but the resident processes that the interrupt asks to
run. -/
theorem Handles.active (handles : lineup.Handles interrupt raised next)
    (member : pid ∈ next.active) : pid ∈ lineup.active ∨
      (interrupt.asksFor pid = true ∧ pid ∈ lineup.resident.map Rank.pid) := by
  rcases List.mem_map.mp member with ⟨rank, among, rfl⟩
  have stays (before : rank ∈ lineup.executing.toList ++ lineup.ready) : rank.pid ∈ lineup.active :=
    List.mem_map_of_mem before
  cases handles with
  | enrolls => exact Or.inl (stays among)
  | leaves => exact Or.inl (stays among)
  | joins new left queue steady taken queues asked =>
      rcases List.mem_append.mp among with executing | queued
      · exact Or.inl (stays (List.mem_append_left _ executing))
      · rcases List.mem_append.mp (queues.members.mem_iff.mp queued) with joined | before
        · refine Or.inr ⟨asked rank joined, List.mem_map_of_mem ?_⟩
          exact taken.mem_iff.mpr (List.mem_append_left _ joined)
        · exact Or.inl (stays (List.mem_append_right _ before))
  | stops => exact Or.inl (stays (List.mem_append_right _ among))
  | withdraws before other after steady ready =>
      refine Or.inl (stays ?_)
      rw [ready]
      exact ((List.sublist_cons_self other after).append_left before).append_left
        lineup.executing.toList |>.subset among
  | skips => exact Or.inl (stays among)
  | switches head rest dispatched switching waiting queues either =>
      have moved : rank ∈ head :: rest := by
        rcases either with rfl | rfl
        · exact among
        · exact List.mem_cons_of_mem head among
      exact Or.inl (stays (queues.members.mem_iff.mp moved))

theorem Dispatches.active (dispatches : lineup.Dispatches next) (member : pid ∈ next.active) :
    pid ∈ lineup.active := by
  rcases List.mem_map.mp member with ⟨rank, among, rfl⟩
  apply List.mem_map_of_mem
  cases dispatches with
  | stays => exact among
  | gives head rest idle ready =>
      rw [idle, ready]
      exact among
  | fails head rest idle ready =>
      rw [ready]
      rcases List.mem_append.mp among with executing | queued
      · exact List.mem_append_left _ executing
      · exact List.mem_append_right _ (List.mem_cons_of_mem head queued)

/-- The resident processes were resident before, except for one that is new. -/
theorem Handles.resident (handles : lineup.Handles interrupt raised next)
    (member : pid ∈ next.resident.map Rank.pid) :
    pid ∈ lineup.resident.map Rank.pid ∨ pid = lineup.nextPid := by
  cases handles with
  | enrolls priority =>
      rw [List.map_append, List.mem_append] at member
      rcases member with before | new
      · exact Or.inl before
      · exact Or.inr (List.mem_singleton.mp new)
  | leaves left steady sublist => exact Or.inl ((sublist.map Rank.pid).subset member)
  | joins new left queue steady taken =>
      refine Or.inl ((taken.map Rank.pid).mem_iff.mpr ?_)
      rw [List.map_append]
      exact List.mem_append_right _ member
  | stops => exact Or.inl member
  | withdraws => exact Or.inl member
  | skips => exact Or.inl member
  | switches => exact Or.inl member

end Lineup

namespace System

variable {system : System} {interrupt : Interrupt} {pid : Nat}

/-- A resident process that is asked to run is no longer resident. -/
theorem not_resident_of_asksFor (asked : interrupt.asksFor pid = true)
    (resident : pid ∈ system.resident.map Process.pid) :
    pid ∉ (system.respond interrupt).resident.map Process.pid := by
  cases interrupt with
  | runProgram number =>
      have same : number = pid := of_decide_eq_true asked
      subst same
      have found : (system.resident.find? fun process => process.pid = number).isSome = true := by
        rcases List.mem_map.mp resident with ⟨process, member, number_eq⟩
        rw [List.find?_isSome]
        exact ⟨process, member, decide_eq_true number_eq⟩
      rcases Option.isSome_iff_exists.mp found with ⟨process, first⟩
      have left : (system.respond (.runProgram number)).resident =
          system.resident.filter fun other => other.pid ≠ number := by
        simp only [respond, activate?, takeResident?, first]
        rfl
      rw [left]
      intro member
      rcases List.mem_map.mp member with ⟨other, among, number_eq⟩
      exact of_decide_eq_true (List.mem_filter.mp among).2 number_eq
  | runAllPrograms =>
      have some_resident : system.activateAll.1.isEmpty = false := by
        rw [← Bool.not_eq_true, List.isEmpty_iff]
        intro none_resident
        have nobody : system.resident.map Process.pid = [] := none_resident
        rw [nobody] at resident
        exact List.not_mem_nil resident
      rcases activateAll_eq system with ⟨queue, next_eq, _⟩
      rw [respond, some_resident, next_eq]
      exact List.not_mem_nil
  | timer => cases asked
  | keyboard key => cases asked
  | loadProgram text priority => cases asked
  | breakProgram number => cases asked
  | errProgram number => cases asked
  | requestClearMemory => cases asked
  | contextSwitch => cases asked
  | killProgram number => cases asked
  | fileSystem request => cases asked
  | unrecognized number => cases asked

end System

end Timeshare
