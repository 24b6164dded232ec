import Timeshare.Proofs.System.Execution
import Timeshare.Proofs.System.Moving

/-!
# The roster of processes

Every number that was given out is that of one process, and the process is as the place is that it
is in.  Unlike what the storage keeps, this does not depend on anyone sparing the disk: an operation
that fails for want of an image moves its process all the same.

`System.Retains` compares two states between which no program was admitted and no process has run.
It is what every operation does that only moves processes from place to place.
-/

namespace Timeshare

/-- What a process has done and how long it has waited. -/
structure Career extends Progress where
  waited : Nat

/-- The career of a process that was just admitted. -/
def Career.start (pid : Nat) : Career where
  pid := pid
  registers := .cleared
  lastInstruction := none
  ticks := 0
  waited := 0

def Process.career (process : Process) : Career where
  toProgress := process.progress
  waited := process.readyTicks

/-- The phase of a process, and whether its registers are yet to be brought into the processor. -/
def Process.standing (process : Process) : Phase × Bool :=
  (process.phase, process.fresh)

namespace System

/-- The processes are as the places are that they are in. -/
structure InPlace (system : System) : Prop where
  executing : ∀ process, system.executing = some process → process.phase = .running
  ready : ∀ standing ∈ system.ready.map Process.standing, standing = (.ready, true)
  resident : ∀ standing ∈ system.resident.map Process.standing, standing = (.resident, true)
  terminated : ∀ process ∈ system.terminated, process.phase = .terminated
  ascending : (system.resident.map Process.pid).Pairwise (· < ·)

/-- Besides, each number that was given out is that of one process. -/
structure Rostered (system : System) : Prop extends InPlace system where
  numbers : (system.everyone.map Process.pid).Perm (List.range system.nextPid)

/-- No program was admitted and no process has run.  The processes that had ended are left as they
were. -/
structure Retains (system next : System) : Prop where
  nextPid : next.nextPid = system.nextPid
  careers : (next.everyone.map Process.career).Perm (system.everyone.map Process.career)
  terminated : system.terminated <+: next.terminated
  serviceable : system.files.Serviceable → next.files.Serviceable

/-- The executing process need not bring its registers into the processor. -/
def Awake (system : System) : Prop :=
  ∀ process, system.executing = some process → process.fresh = false

/-- The executing process has not lost the processor to another one. -/
def Undisturbed (system next : System) : Prop :=
  next.executing = none ∨ (next.executing = system.executing ∧
    next.cpu.registers = system.cpu.registers ∧
    next.cpu.lastInstruction = system.cpu.lastInstruction)

variable {system next : System} {process : Process} {pid : Nat}

theorem mem_everyone_iff : pid ∈ system.everyone.map Process.pid ↔
    pid ∈ system.processes.map Process.pid ∨ pid ∈ system.terminated.map Process.pid := by
  rw [everyone, List.map_append, List.mem_append]

namespace Retains

theorem refl (system : System) : system.Retains system :=
  ⟨rfl, .rfl, List.prefix_rfl, id⟩

theorem trans {last : System} (first : system.Retains next) (second : next.Retains last) :
    system.Retains last where
  nextPid := second.nextPid.trans first.nextPid
  careers := second.careers.trans first.careers
  terminated := first.terminated.trans second.terminated
  serviceable usable := second.serviceable (first.serviceable usable)

theorem progress (retains : system.Retains next) :
    (next.everyone.map Process.progress).Perm (system.everyone.map Process.progress) := by
  simpa [List.map_map, Function.comp_def, Process.career] using
    retains.careers.map Career.toProgress

theorem pids (retains : system.Retains next) :
    (next.everyone.map Process.pid).Perm (system.everyone.map Process.pid) := by
  simpa [List.map_map, Function.comp_def] using retains.progress.map Progress.pid

/-- Processes were moved among the places of those that have not ended. -/
theorem of_processes (nextPid : next.nextPid = system.nextPid)
    (careers : (next.processes.map Process.career).Perm (system.processes.map Process.career))
    (terminated : next.terminated = system.terminated) (files : next.files = system.files) :
    system.Retains next where
  nextPid := nextPid
  careers := by simpa [everyone, terminated] using careers.append_right _
  terminated := by rw [terminated]
  serviceable := by rw [files]; exact id

end Retains

namespace Rostered

theorem retain (rostered : system.Rostered) (retains : system.Retains next)
    (inPlace : next.InPlace) : next.Rostered where
  toInPlace := inPlace
  numbers := by
    rw [retains.nextPid]
    exact retains.pids.trans rostered.numbers

theorem distinct (rostered : system.Rostered) : (system.everyone.map Process.pid).Nodup :=
  rostered.numbers.nodup_iff.mpr List.nodup_range

/-- Nobody else has the number of the executing process. -/
theorem not_mem_others (rostered : system.Rostered) (executing : system.executing = some process) :
    process.pid ∉ (system.ready ++ system.resident ++ system.terminated).map Process.pid := by
  have parts : system.everyone.map Process.pid =
      process.pid :: (system.ready ++ system.resident ++ system.terminated).map Process.pid := by
    simp [everyone, processes, executing]
  have distinct := rostered.distinct
  rw [parts] at distinct
  exact (List.nodup_cons.mp distinct).1

theorem pid_lt_nextPid (rostered : system.Rostered) (member : process ∈ system.everyone) :
    process.pid < system.nextPid := by
  have given := rostered.numbers.mem_iff.mp (List.mem_map_of_mem member)
  exact List.mem_range.mp given

theorem not_ended (rostered : system.Rostered)
    (living : pid ∈ system.processes.map Process.pid) :
    pid ∉ system.terminated.map Process.pid := by
  have distinct := rostered.distinct
  rw [everyone, List.map_append] at distinct
  exact List.disjoint_of_nodup_append distinct living

/-- Nobody is brought back: who has not ended now had not ended before. -/
theorem living_of_retains (rostered : next.Rostered) (retains : system.Retains next)
    (member : pid ∈ next.processes.map Process.pid) : pid ∈ system.processes.map Process.pid := by
  have before := retains.pids.mem_iff.mp (mem_everyone_iff.mpr (Or.inl member))
  rcases mem_everyone_iff.mp before with living | ended
  · exact living
  · have stays := (retains.terminated.map Process.pid).subset ended
    exact absurd stays (rostered.not_ended member)

end Rostered

theorem Awake.of_undisturbed (awake : system.Awake) (undisturbed : system.Undisturbed next) :
    next.Awake := by
  intro process executes
  rcases undisturbed with idle | ⟨same, _⟩
  · simp [idle] at executes
  · exact awake process (same ▸ executes)

theorem Settled.of_undisturbed (settled : system.Settled) (undisturbed : system.Undisturbed next) :
    next.Settled := by
  intro process executes
  rcases undisturbed with idle | ⟨same, registers, last⟩
  · simp [idle] at executes
  · rw [registers, last]
    exact settled process (same ▸ executes)

/-! ## Moving images -/

namespace Relocates

theorem map_everyone {α : Type} (relocates : system.Relocates next) (view : Process → α)
    (blind : ∀ process, view process.unplaced = view process) :
    next.everyone.map view = system.everyone.map view := by
  simp only [everyone, processes, relocates.executing, relocates.terminated, List.map_append,
    Process.map_of_unplaced view blind relocates.ready,
    Process.map_of_unplaced view blind relocates.resident]

theorem retains (relocates : system.Relocates next) : system.Retains next where
  nextPid := relocates.nextPid
  careers := by rw [relocates.map_everyone Process.career fun _ => rfl]
  terminated := by rw [relocates.terminated]
  serviceable := relocates.serviceable

theorem inPlace (relocates : system.Relocates next) (inPlace : system.InPlace) : next.InPlace where
  executing := relocates.executing ▸ inPlace.executing
  ready := by
    rw [Process.map_of_unplaced Process.standing (fun _ => rfl) relocates.ready]
    exact inPlace.ready
  resident := by
    rw [Process.map_of_unplaced Process.standing (fun _ => rfl) relocates.resident]
    exact inPlace.resident
  terminated := relocates.terminated ▸ inPlace.terminated
  ascending := by
    rw [Process.map_of_unplaced Process.pid (fun _ => rfl) relocates.resident]
    exact inPlace.ascending

end Relocates

/-- The process that is ended joins those that have ended, whatever becomes of its image. -/
theorem retire_retains (process : Process) {without : System} (inPlace : without.InPlace)
    (nextPid : without.nextPid = system.nextPid)
    (terminated : without.terminated = system.terminated)
    (usable : system.files.Serviceable → without.files.Serviceable)
    (taken : (system.processes.map Process.career).Perm
      (process.career :: without.processes.map Process.career)) :
    ∃ next, (reclaim process without).value.retire process = next ∧ next.InPlace ∧
      system.Retains next ∧ next.cpu = without.cpu ∧ next.executing = without.executing ∧
      next.processes = without.processes := by
  rcases reclaim_relocates process without with ⟨memory, disk, reclaimed, serviceable⟩
  have ended : ∀ other ∈ without.terminated ++
      [{ process with phase := .terminated, segment := none, residence := none }],
      other.phase = .terminated := by
    intro other member
    rcases List.mem_append.mp member with before | now
    · exact inPlace.terminated other before
    · rw [List.mem_singleton.mp now]
  refine ⟨_, congrArg (retire process) reclaimed, ⟨inPlace.executing, inPlace.ready,
    inPlace.resident, ended, inPlace.ascending⟩, ?_, rfl, rfl, rfl⟩
  refine ⟨nextPid, ?_, ?_, fun disk => serviceable (usable disk)⟩
  · have moved : (without.processes.map Process.career ++
        (system.terminated.map Process.career ++ [process.career])).Perm
          (process.career :: without.processes.map Process.career ++
            system.terminated.map Process.career) := by
      simpa using @List.perm_middle _ process.career
        (without.processes.map Process.career ++ system.terminated.map Process.career) []
    have order := moved.trans (taken.symm.append_right (system.terminated.map Process.career))
    simpa [everyone, retire, processes, terminated, Process.career, Process.progress] using order
  · rw [retire, terminated]
    exact List.prefix_append _ _

/-! ## Dispatching and switching -/

/-- The next ready process gets the processor or is ended, or nothing happens. -/
theorem dispatch_retains (inPlace : system.InPlace) :
    ∃ result next, system.dispatch.value = (result, next) ∧ next.InPlace ∧ system.Retains next ∧
      ∀ failure, result = .error failure → next.executing = none := by
  cases executing : system.executing with
  | some running =>
      refine ⟨.ok (), system, ?_, inPlace, .refl system, by simp⟩
      simp [dispatch, executing]
  | none =>
      cases ready : system.ready with
      | nil =>
          refine ⟨.ok (), system, ?_, inPlace, .refl system, by simp⟩
          simp [dispatch, executing, ready]
      | cons first rest =>
          have inPlaceRest : InPlace { system with ready := rest } := by
            refine ⟨inPlace.executing, fun other member => ?_, inPlace.resident,
              inPlace.terminated, inPlace.ascending⟩
            apply inPlace.ready other
            rw [ready, List.map_cons]
            exact List.mem_cons_of_mem _ member
          rcases rollIn_relocates first { system with ready := rest } with
            ⟨brought, between, rolled, relocates, same⟩
          have inPlaceBetween := relocates.inPlace inPlaceRest
          have idle : between.executing = none := relocates.executing.trans executing
          have waited : system.processes.map Process.career =
              first.career :: between.processes.map Process.career := by
            simp [processes, executing, ready, idle,
              Process.map_of_unplaced Process.career (fun _ => rfl) relocates.ready,
              Process.map_of_unplaced Process.career (fun _ => rfl) relocates.resident]
          simp only [executing] at rolled
          cases brought with
          | error cause =>
              rcases @retire_retains system first between inPlaceBetween relocates.nextPid
                relocates.terminated relocates.serviceable (.of_eq waited) with
                ⟨next, retired, inPlaceNext, retains, _, executing_eq, _⟩
              refine ⟨.error ⟨first.pid, cause⟩, next, ?_, inPlaceNext, retains,
                fun _ _ => executing_eq.trans idle⟩
              simp [dispatch, executing, ready, rolled, ← retired]
          | ok process =>
              have career : process.career = first.career :=
                Process.eq_of_unplaced Process.career (fun _ => rfl) (same process rfl)
              refine ⟨.ok (), { between with executing := some { process with phase := .running } },
                ?_, ⟨?_, inPlaceBetween.ready, inPlaceBetween.resident, inPlaceBetween.terminated,
                  inPlaceBetween.ascending⟩, ?_, by simp⟩
              · simp [dispatch, executing, ready, rolled]
              · rintro other ⟨⟩
                rfl
              · refine ⟨relocates.nextPid, .of_eq ?_, by rw [relocates.terminated],
                  relocates.serviceable⟩
                rw [everyone, everyone, List.map_append, List.map_append, waited,
                  relocates.terminated, ← career]
                simp [processes, idle, Process.career, Process.progress]

theorem switchOut_retains (inPlace : system.InPlace) (settled : system.Settled) :
    ∃ next, system.switchOut.value = next ∧ next.InPlace ∧ system.Retains next := by
  cases executing : system.executing with
  | none =>
      refine ⟨system, ?_, inPlace, .refl system⟩
      simp [switchOut, executing]
  | some running =>
      rcases settled running executing with ⟨registers, last⟩
      rcases enqueueReady_eq { system.cpu.saveInto running with fresh := true, phase := .ready }
        { system with executing := none } with ⟨queue, enqueued, order⟩
      refine ⟨{ system with executing := none, ready := queue }, ?_, ⟨by simp, ?_, inPlace.resident,
        inPlace.terminated, inPlace.ascending⟩, .of_processes rfl ?_ rfl rfl⟩
      · simp [switchOut, executing, enqueued]
      · intro standing member
        rcases List.mem_cons.mp ((order.map Process.standing).mem_iff.mp member) with rfl | before
        · rfl
        · exact inPlace.ready standing before
      · have careers := (order.map Process.career).append_right
          (system.resident.map Process.career)
        simpa [processes, executing, Process.career, Process.progress, Cpu.saveInto, registers,
          last] using careers

theorem resume_retains (inPlace : system.InPlace) :
    system.resume.InPlace ∧ system.Retains system.resume ∧ system.resume.Settled ∧
      system.resume.Awake := by
  cases executing : system.executing with
  | none =>
      have same : system.resume = system := by simp [resume, executing]
      rw [same]
      exact ⟨inPlace, .refl system, by simp [Settled, executing], by simp [Awake, executing]⟩
  | some running =>
      have same : system.resume = { system with
          cpu := (system.cpu.restoreFrom running).setExecuting true
          executing := some { running with fresh := false } } := by
        simp [resume, executing]
      rw [same]
      refine ⟨⟨?_, inPlace.ready, inPlace.resident, inPlace.terminated, inPlace.ascending⟩,
        .of_processes rfl ?_ rfl rfl, ?_, ?_⟩
      · rintro process ⟨⟩
        exact inPlace.executing running executing
      · simp [processes, executing, Process.career, Process.progress]
      · rintro process ⟨⟩
        exact ⟨rfl, rfl⟩
      · rintro process ⟨⟩
        rfl

theorem contextSwitch_retains (inPlace : system.InPlace) (settled : system.Settled)
    (awake : system.Awake) :
    ∃ result next, system.contextSwitch.value = (result, next) ∧ next.InPlace ∧
      system.Retains next ∧ next.Settled ∧ next.Awake := by
  have inPlaceTurn : InPlace { system with policy := system.policy.didSwitch } :=
    ⟨inPlace.executing, inPlace.ready, inPlace.resident, inPlace.terminated, inPlace.ascending⟩
  have retainsTurn : system.Retains { system with policy := system.policy.didSwitch } :=
    .of_processes rfl .rfl rfl rfl
  cases none_ready : system.ready.isEmpty with
  | true =>
      refine ⟨.ok false, { system with policy := system.policy.didSwitch }, ?_, inPlaceTurn,
        retainsTurn, settled, awake⟩
      simp [contextSwitch, none_ready]
  | false =>
      rcases switchOut_retains inPlaceTurn settled with ⟨out, switched, inPlaceOut, retainsOut⟩
      rcases dispatch_retains inPlaceOut with
        ⟨result, next, dispatched, inPlaceNext, retainsNext, failed⟩
      have retains := (retainsTurn.trans retainsOut).trans retainsNext
      cases result with
      | error failure =>
          have idle := failed failure rfl
          refine ⟨.error failure, next, ?_, inPlaceNext, retains, ?_, ?_⟩
          · simp [contextSwitch, none_ready, switched, dispatched]
          · simp [Settled, idle]
          · simp [Awake, idle]
      | ok _ =>
          rcases resume_retains inPlaceNext with
            ⟨inPlaceLast, retainsLast, settledLast, awakeLast⟩
          refine ⟨.ok true, next.resume, ?_, inPlaceLast, retains.trans retainsLast, settledLast,
            awakeLast⟩
          simp [contextSwitch, none_ready, switched, dispatched]

/-! ## Ending processes -/

theorem terminate_retains (rostered : system.Rostered) (pid : Nat) :
    ∃ result next, (terminate pid system).value = (result, next) ∧ next.InPlace ∧
      system.Retains next ∧ pid ∉ next.processes.map Process.pid ∧ system.Undisturbed next := by
  have distinctAll := rostered.distinct
  rw [everyone, List.map_append] at distinctAll
  have distinctResident : (system.resident.map Process.pid).Nodup :=
    rostered.ascending.imp fun below => Nat.ne_of_lt below
  rcases remove?_spec distinctResident pid with
    ⟨none_removed, absent⟩ | ⟨process, without, removed, same, storage, nextPid, terminated, taken,
      ready, resident, executing⟩
  · refine ⟨false, system, ?_, rostered.toInPlace, .refl system, absent, Or.inr ⟨rfl, rfl, rfl⟩⟩
    simp [terminate, none_removed]
  · have inPlaceWithout : without.InPlace := by
      refine ⟨?_, ?_, ?_, terminated ▸ rostered.terminated, ?_⟩
      · intro other executes
        rcases executing with idle | ⟨unchanged, _⟩
        · simp [idle] at executes
        · exact rostered.executing other (unchanged ▸ executes)
      · intro standing member
        exact rostered.ready standing ((ready.map Process.standing).subset member)
      · intro standing member
        exact rostered.resident standing ((resident.map Process.standing).subset member)
      · exact rostered.ascending.sublist (resident.map Process.pid)
    have files : without.files = system.files := congrArg Storage.files storage
    rcases @retire_retains system process without inPlaceWithout nextPid terminated
      (by rw [files]; exact id) (by simpa using taken.map Process.career) with
      ⟨next, retired, inPlaceNext, retains, cpu, executing_eq, processes_eq⟩
    refine ⟨true, next, ?_, inPlaceNext, retains, ?_, ?_⟩
    · simp [terminate, removed, retired]
    · have distinct := (taken.map Process.pid).nodup_iff.mp distinctAll.of_append_left
      rw [processes_eq, ← same]
      exact (List.nodup_cons.mp distinct).1
    · rw [Undisturbed, cpu, executing_eq]
      rcases executing with idle | ⟨unchanged, cpu_eq⟩
      · exact Or.inl idle
      · exact Or.inr ⟨unchanged, by rw [cpu_eq], by rw [cpu_eq]⟩

theorem clearMemory?_retains {pids : List Nat} (inPlace : system.InPlace)
    (cleared : system.clearMemory? = some (pids, next)) :
    next.InPlace ∧ system.Retains next ∧ next.executing = none := by
  rcases clearMemory?_eq_some cleared with ⟨executing, ready, rfl⟩
  have kept := @List.filter_sublist _ (fun process => !process.isInMemory) system.resident
  refine ⟨⟨inPlace.executing, inPlace.ready, ?_, ?_, ?_⟩, ⟨rfl, ?_, List.prefix_append _ _, id⟩,
    executing⟩
  · intro standing member
    exact inPlace.resident standing ((kept.map Process.standing).subset member)
  · intro process member
    rcases List.mem_append.mp member with before | dropped
    · exact inPlace.terminated process before
    · rcases List.mem_map.mp dropped with ⟨other, _, rfl⟩
      rfl
  · exact inPlace.ascending.sublist (kept.map Process.pid)
  · have parts := (List.filter_append_perm Process.isInMemory system.resident).map Process.career
    rw [List.map_append] at parts
    have order := (List.perm_append_comm.trans parts).append_right
      (system.terminated.map Process.career)
    simp only [everyone, processes, executing, ready, Option.toList_none, List.nil_append,
      List.map_append, List.map_map, Function.comp_def]
    refine List.Perm.trans ?_ order
    rw [List.append_assoc]
    exact List.perm_append_comm.append_left _

/-! ## Queueing processes -/

/-- Processes may be queued, and the queue ordered anew. -/
theorem Retains.of_queues (nextPid : next.nextPid = system.nextPid)
    (executing : next.executing = system.executing) (terminated : next.terminated = system.terminated)
    (files : next.files = system.files)
    (queues : ((next.ready ++ next.resident).map Process.queued).Perm
      ((system.ready ++ system.resident).map Process.queued)) : system.Retains next := by
  have blind (process : Process) : process.queued.career = process.career := rfl
  have order : ((next.ready ++ next.resident).map Process.career).Perm
      ((system.ready ++ system.resident).map Process.career) := by
    simpa only [List.map_map, Function.comp_def, blind] using queues.map Process.career
  apply Retains.of_processes nextPid _ terminated files
  have whole := order.append_left (system.executing.toList.map Process.career)
  simpa [processes, executing] using whole

theorem standing_queued {process : Process} (waited : process.standing = (.resident, true)) :
    process.queued.standing = (.ready, true) :=
  congrArg (fun standing => (Phase.ready, standing.2)) waited

theorem activate?_retains (inPlace : system.InPlace)
    (activated : system.activate? pid = some next) :
    next.InPlace ∧ system.Retains next ∧ next.executing = system.executing ∧
      next.cpu = system.cpu := by
  have distinct : (system.resident.map Process.pid).Nodup :=
    inPlace.ascending.imp fun below => Nat.ne_of_lt below
  rcases activate?_eq_some distinct activated with
    ⟨process, before, after, queue, join, order, rfl⟩
  have rest : (before ++ after).Sublist system.resident := by
    rw [join]
    exact (List.sublist_cons_self process after).append_left before
  refine ⟨⟨inPlace.executing, ?_, ?_, inPlace.terminated, ?_⟩,
    .of_queues rfl rfl rfl rfl (queued_perm join order), rfl, rfl⟩
  · intro standing member
    rcases List.mem_cons.mp ((order.map Process.standing).mem_iff.mp member) with rfl | queued
    · apply standing_queued
      apply inPlace.resident
      simp [join]
    · exact inPlace.ready standing queued
  · intro standing member
    exact inPlace.resident standing ((rest.map Process.standing).subset member)
  · exact inPlace.ascending.sublist (rest.map Process.pid)

theorem activateAll_retains (inPlace : system.InPlace) :
    system.activateAll.2.InPlace ∧ system.Retains system.activateAll.2 ∧
      system.activateAll.2.executing = system.executing ∧
      system.activateAll.2.cpu = system.cpu := by
  rcases activateAll_eq system with ⟨queue, next_eq, order⟩
  rw [next_eq]
  refine ⟨⟨inPlace.executing, ?_, by simp, inPlace.terminated, List.Pairwise.nil⟩,
    .of_queues rfl rfl rfl rfl ?_, rfl, rfl⟩
  · intro standing member
    have queued := (order.map Process.standing).mem_iff.mp member
    rw [List.map_append, List.mem_append] at queued
    rcases queued with before | new
    · exact inPlace.ready standing before
    · simp only [List.map_map, List.mem_map, Function.comp_apply] at new
      rcases new with ⟨process, among, rfl⟩
      apply standing_queued
      apply inPlace.resident
      exact List.mem_map_of_mem among
  · simpa [Function.comp_def] using order.map Process.queued

theorem ready_setSchedule_perm (schedule : Schedule) (system : System) :
    (system.setSchedule schedule).ready.Perm system.ready := by
  rw [setSchedule]
  dsimp only
  split
  · exact sortByPriority_perm system.ready
  · exact .rfl

theorem setSchedule_retains (inPlace : system.InPlace) (schedule : Schedule) :
    (system.setSchedule schedule).InPlace ∧ system.Retains (system.setSchedule schedule) := by
  have order := ready_setSchedule_perm schedule system
  refine ⟨⟨inPlace.executing, ?_, inPlace.resident, inPlace.terminated, inPlace.ascending⟩,
    .of_queues rfl rfl rfl rfl ((order.append_right system.resident).map Process.queued)⟩
  intro standing member
  exact inPlace.ready standing ((order.map Process.standing).mem_iff.mp member)

/-! ## Admission -/

/-- A program was admitted as the process of the next number, and nothing else happened. -/
structure Enrolls (system next : System) : Prop where
  nextPid : next.nextPid = system.nextPid + 1
  careers : (next.everyone.map Process.career).Perm
    (.start system.nextPid :: system.everyone.map Process.career)
  terminated : next.terminated = system.terminated
  serviceable : system.files.Serviceable → next.files.Serviceable

theorem Enrolls.progress (enrolls : system.Enrolls next) :
    (next.everyone.map Process.progress).Perm
      (⟨system.nextPid, .cleared, none, 0⟩ :: system.everyone.map Process.progress) := by
  simpa [List.map_map, Function.comp_def, Process.career, Career.start] using
    enrolls.careers.map Career.toProgress

theorem Enrolls.pids (enrolls : system.Enrolls next) :
    (next.everyone.map Process.pid).Perm (system.nextPid :: system.everyone.map Process.pid) := by
  simpa [List.map_map, Function.comp_def] using enrolls.progress.map Progress.pid

theorem Rostered.enroll (rostered : system.Rostered) (enrolls : system.Enrolls next)
    (inPlace : next.InPlace) : next.Rostered where
  toInPlace := inPlace
  numbers := by
    rw [enrolls.nextPid, List.range_succ]
    apply enrolls.pids.trans
    apply (rostered.numbers.cons system.nextPid).trans
    exact (List.perm_append_singleton system.nextPid (List.range system.nextPid)).symm

theorem register_enrolls (rostered : system.Rostered) {process : Process} {priority : Nat}
    (new : process.unplaced = Process.create system.nextPid priority) (memory : Memory)
    {files : FileSystem} (serviceable : system.files.Serviceable → files.Serviceable) :
    ∃ next, (register process { system with memory, files }).value =
        (.ok system.nextPid, next) ∧ next.InPlace ∧ system.Enrolls next ∧
      system.Undisturbed next := by
  have pid : process.pid = system.nextPid := congrArg Process.pid new
  have career : ({ process with phase := .resident } : Process).career =
      .start system.nextPid := congrArg Process.career new
  have standing : ({ process with phase := .resident } : Process).standing = (.resident, true) :=
    congrArg (fun process => (Phase.resident, process.fresh)) new
  refine ⟨{ system with
    memory, files, nextPid := system.nextPid + 1
    resident := system.resident ++ [{ process with phase := .resident }] }, ?_,
    ⟨rostered.executing, rostered.ready, ?_, rostered.terminated, ?_⟩,
    ⟨rfl, ?_, rfl, serviceable⟩, Or.inr ⟨rfl, rfl, rfl⟩⟩
  · simp [register, pid]
  · intro other member
    rw [List.map_append] at member
    rcases List.mem_append.mp member with before | now
    · exact rostered.resident other before
    · rw [List.mem_singleton.mp now, standing]
  · rw [List.map_append, List.pairwise_append]
    refine ⟨rostered.ascending, List.pairwise_singleton _ _, ?_⟩
    intro before among now last
    rcases List.mem_map.mp among with ⟨other, resident, rfl⟩
    rw [List.mem_singleton.mp last]
    have given : other ∈ system.everyone := by simp [everyone, processes, resident]
    exact pid ▸ rostered.pid_lt_nextPid given
  · have order := (@List.perm_middle _ { process with phase := .resident } system.processes
      system.terminated).map Process.career
    rw [List.map_cons, career] at order
    simpa [everyone, processes] using order

/-- A program is admitted, or it gets no number and at most the disk has changed. -/
theorem enroll_enrolls (rostered : system.Rostered) (program : List UInt8) (priority : Nat) :
    (∃ error next, (enroll program priority system).value = (.error error, next) ∧
      system.Relocates next) ∨
    ∃ next, (enroll program priority system).value = (.ok system.nextPid, next) ∧ next.InPlace ∧
      system.Enrolls next ∧ system.Undisturbed next := by
  cases full : system.memory.isFull with
  | true =>
      have serviceable (usable : system.files.Serviceable) :=
        usable.after_storeSwap system.nextPid (program.take system.memory.segmentSize)
      cases stores : FileSystem.perform (FileSystem.storeSwap system.nextPid
        (program.take system.memory.segmentSize)) system.files with
      | mk outcome files =>
          rw [stores] at serviceable
          cases outcome with
          | error error =>
              exact Or.inl ⟨.files error, { system with files }, by simp [enroll, full, stores],
                .of_storage system system.memory serviceable⟩
          | ok stored =>
              rcases @register_enrolls system rostered
                { Process.create system.nextPid priority with residence := some .disk } priority rfl
                system.memory files serviceable with ⟨next, registered, enrolled⟩
              exact Or.inr ⟨next, by simp [enroll, full, stores, registered], enrolled⟩
  | false =>
      cases loaded : system.memory.load program system.nextPid priority with
      | error error =>
          exact Or.inl ⟨.memory error, system, by simp [enroll, full, loaded], .refl system⟩
      | ok placement =>
          rcases register_enrolls rostered (Memory.unplaced_of_place loaded) placement.memory id with
            ⟨next, registered, enrolled⟩
          exact Or.inr ⟨next, by simp [enroll, full, loaded, registered], enrolled⟩

/-! ## Cycles -/

theorem cycle_rostered (rostered : system.Rostered) (executing : system.executing = some process)
    (cpu : Cpu) (policy : Policy) {cycle : Cycle} (ran : cycle = cpu.cycle process system.memory) :
    (system.afterCycle cycle policy).Rostered ∧ (system.afterCycle cycle policy).Awake := by
  rcases Cpu.cycle_process cpu process system.memory with ⟨registers, last, process_eq⟩
  rw [← ran] at process_eq
  have waited := map_waited_append Process.standing (fun _ => rfl) system.ready []
  simp only [List.append_nil] at waited
  refine ⟨⟨⟨?_, ?_, rostered.resident, rostered.terminated, rostered.ascending⟩, ?_⟩, ?_⟩
  · rintro other ⟨⟩
    rw [process_eq]
    exact rostered.executing process executing
  · intro standing member
    exact rostered.ready standing (waited ▸ member)
  · have pids : (system.afterCycle cycle policy).everyone.map Process.pid =
        system.everyone.map Process.pid := by
      rw [everyone, everyone, List.map_append, List.map_append, pids_afterCycle executing ran policy]
      rfl
    rw [pids]
    exact rostered.numbers
  · rintro other ⟨⟩
    rw [process_eq]

end System

end Timeshare
