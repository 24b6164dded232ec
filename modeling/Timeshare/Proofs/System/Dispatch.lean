import Timeshare.Proofs.System.Sound

/-!
# Dispatching and ending processes keep the system in order

One lemma for each operation of the system on its processes.  Each says that the system stays sound
and carries its processes, on success and on failure, and what becomes of the process that executes.
-/

namespace Timeshare

namespace System

variable {system next : System} {process : Process} {pid : Nat}

/-! ## Dispatching -/

/-- A process that gets the processor is fresh. -/
theorem dispatch_spec (sound : system.Sound) :
    ∃ result next, system.dispatch.value = (result, next) ∧ next.Sound ∧ system.Carries next ∧
      next.cpu = system.cpu ∧
      (next.executing = system.executing ∨
        ∀ process, next.executing = some process → process.fresh = true) ∧
      (∀ failure, result = .error failure → next.executing = none) ∧
      ∀ pid ∈ next.processes.map Process.pid, system.storage.Moves next.storage pid := by
  have stays : ∀ pid ∈ system.processes.map Process.pid,
      system.storage.Moves system.storage pid := fun pid _ => .spared (.refl system.storage pid)
  cases executing : system.executing with
  | some running =>
      refine ⟨.ok (), system, ?_, sound, Carries.refl system, rfl, Or.inl executing, by simp, stays⟩
      simp [dispatch, executing]
  | none =>
      cases ready : system.ready with
      | nil =>
          refine ⟨.ok (), system, ?_, sound, Carries.refl system, rfl, Or.inl executing, by simp,
            stays⟩
          simp [dispatch, executing, ready]
      | cons first rest =>
          have fresh : first.fresh = true := sound.waiting _ (by simp [ready])
          have owns : ({ system with ready := rest } : System).storage.Owns
              (first :: (rest ++ system.resident)) := by
            simpa [processes, executing, ready] using sound.owns
          rcases rollIn_spec owns with
            ⟨brought, between, rolled, ownsNext, same, inMemory, rearranges, moves⟩ |
              ⟨cause, between, rolled, ownsNext, rearranges, moves⟩
          · -- Between the two steps the process is in memory and still the first one ready.
            have between_executing : between.executing = none := rearranges.executing.trans executing
            have moved : system.Rearranges { between with ready := brought :: between.ready } :=
              { rearranges with ready := by simp [ready, same, rearranges.ready] }
            rcases sound.rearrange moved (by
              simpa [processes, between_executing] using ownsNext) with ⟨soundMoved, carriesMoved⟩
            have broughtFresh : brought.fresh = true :=
              (Process.eq_of_unplaced Process.fresh (fun _ => rfl) same).trans fresh
            have carries : Carries { between with ready := brought :: between.ready }
                { between with executing := some { brought with phase := .running } } := by
              refine Carries.of_storage rfl rfl rfl ?_ rfl
              simp [processes, between_executing, Process.progress]
            refine ⟨.ok (), { between with executing := some { brought with phase := .running } }, ?_,
              ?_, carriesMoved.trans carries, rearranges.cpu, Or.inr ?_, by simp,
              fun pid _ => moves pid⟩
            · simp only [executing] at rolled
              simp [dispatch, executing, ready, rolled]
            · refine soundMoved.requeue rfl rfl rfl ?_ ?_ ?_ rfl
              · simp [processes, between_executing, Process.place]
              · rintro process ⟨⟩
                exact inMemory
              · intro other member
                exact soundMoved.waiting other (by simpa using Or.inr member)
            · rintro process ⟨⟩
              exact broughtFresh
          · have between_executing : between.executing = none := rearranges.executing.trans executing
            have moved : system.Rearranges { between with ready := first :: between.ready } :=
              { rearranges with ready := by simp [ready, rearranges.ready] }
            rcases sound.rearrange moved (by
              simpa [processes, between_executing] using ownsNext) with ⟨soundMoved, carriesMoved⟩
            rcases @retire_spec _ first soundMoved between rfl rfl rfl
              (by simp [processes, between_executing]) (by simp [between_executing])
              (fun other member => soundMoved.waiting other (by simpa using Or.inr member)) with
              ⟨next, retired, soundNext, carries, cpu, executing_eq, _, spares⟩
            refine ⟨.error ⟨first.pid, cause⟩, next, ?_, soundNext, carriesMoved.trans carries,
              cpu.trans rearranges.cpu, Or.inl (executing_eq.trans between_executing),
              fun _ _ => executing_eq.trans between_executing, ?_⟩
            · simp only [executing] at rolled
              simp [dispatch, executing, ready, rolled, ← retired]
            · intro pid member
              exact (moves pid).spare (spares pid member) rearranges.segments carries.segments

/-! ## Context switches -/

/-- The process that executes as it goes back to the ready queue: with the registers of the
processor. -/
def saved (system : System) : Option Process :=
  system.executing.map fun process =>
    { system.cpu.saveInto process with fresh := true, phase := .ready }

theorem map_place_saved (system : System) :
    system.saved.toList.map Process.place = system.executing.toList.map Process.place := by
  unfold saved
  cases system.executing with
  | none => rfl
  | some running => rfl

theorem switchOut_eq (system : System) :
    ∃ queue, system.switchOut.value = { system with executing := none, ready := queue } ∧
      queue.Perm (system.saved.toList ++ system.ready) := by
  cases executing : system.executing with
  | none =>
      have idle : system = { system with executing := none } := by rw [← executing]
      refine ⟨system.ready, ?_, by simp [saved, executing]⟩
      simpa [switchOut, executing] using idle
  | some running =>
      rcases enqueueReady_eq { system.cpu.saveInto running with fresh := true, phase := .ready }
        { system with executing := none } with ⟨queue, enqueued, members⟩
      exact ⟨queue, by simp [switchOut, executing, enqueued],
        by simpa [saved, executing] using members⟩

/-- What the processor has in its registers is of no account here. -/
theorem switchOut_sound (sound : system.Sound) : system.switchOut.value.Sound := by
  rcases switchOut_eq system with ⟨queue, switched, members⟩
  rw [switched]
  refine sound.requeue rfl rfl rfl ?_ (by simp) ?_ rfl
  · have places := (members.map Process.place).append_right (system.resident.map Process.place)
    rw [List.map_append, map_place_saved] at places
    simpa [processes] using places.symm
  · intro fresh member
    rcases List.mem_map.mp member with ⟨process, among, rfl⟩
    rcases List.mem_append.mp among with queued | resident
    · rcases List.mem_append.mp (members.mem_iff.mp queued) with now | before
      · rcases Option.map_eq_some_iff.mp (Option.mem_toList.mp now) with ⟨running, _, rfl⟩
        rfl
      · exact sound.waiting _ (List.mem_map_of_mem (List.mem_append_left _ before))
    · exact sound.waiting _ (List.mem_map_of_mem (List.mem_append_right _ resident))

theorem switchOut_spec (sound : system.Sound) (settled : system.Settled) :
    ∃ next, system.switchOut.value = next ∧ next.Sound ∧ system.Carries next ∧
      next.executing = none ∧ next.storage = system.storage := by
  refine ⟨_, rfl, switchOut_sound sound, ?_⟩
  rcases switchOut_eq system with ⟨queue, switched, members⟩
  rw [switched]
  refine ⟨Carries.of_storage rfl rfl rfl ?_ rfl, rfl, rfl⟩
  have progress := (members.map Process.progress).append_right (system.resident.map Process.progress)
  cases executing : system.executing with
  | none => simpa [processes, saved, executing] using progress
  | some running =>
      rcases settled running executing with ⟨registers, last⟩
      simpa [processes, saved, executing, Process.progress, Cpu.saveInto, registers, last]
        using progress

theorem resume_spec (sound : system.Sound) :
    system.resume.Sound ∧ system.Carries system.resume ∧ system.resume.Settled ∧
      system.resume.storage = system.storage := by
  cases executing : system.executing with
  | none =>
      have same : system.resume = system := by simp [resume, executing]
      rw [same]
      exact ⟨sound, Carries.refl system, by simp [Settled, executing], rfl⟩
  | some running =>
      have same : system.resume = { system with
          cpu := (system.cpu.restoreFrom running).setExecuting true
          executing := some { running with fresh := false } } := by
        simp [resume, executing]
      have carries : system.Carries system.resume := by
        rw [same]
        refine Carries.of_storage rfl rfl rfl ?_ rfl
        simp [processes, executing, Process.progress]
      refine ⟨?_, carries, ?_, by rw [same]⟩
      · rw [same] at carries ⊢
        refine sound.requeue rfl rfl rfl ?_ ?_ sound.waiting rfl
        · simp [processes, executing, Process.place]
        · rintro process ⟨⟩
          exact sound.running running executing
      · rw [same]
        rintro process ⟨⟩
        exact ⟨rfl, rfl⟩

/-- After a context switch the processor has the registers of the process that executes. -/
theorem contextSwitch_spec (sound : system.Sound) (settled : system.Settled) :
    ∃ result next, system.contextSwitch.value = (result, next) ∧ next.Sound ∧ system.Carries next ∧
      next.Settled ∧
      ∀ pid ∈ next.processes.map Process.pid, system.storage.Moves next.storage pid := by
  rcases sound.machine system.cpu system.policy.didSwitch with ⟨soundTurn, carriesTurn⟩
  cases none_ready : system.ready.isEmpty with
  | true =>
      refine ⟨.ok false, { system with policy := system.policy.didSwitch }, ?_, soundTurn,
        carriesTurn, settled, fun pid _ => .spared (.refl system.storage pid)⟩
      simp [contextSwitch, none_ready]
  | false =>
      rcases switchOut_spec soundTurn settled with
        ⟨out, switched, soundOut, carriesOut, idle, storage⟩
      rcases dispatch_spec soundOut with
        ⟨result, next, dispatched, soundNext, carriesNext, _, _, failed, moves⟩
      have carries := (carriesTurn.trans carriesOut).trans carriesNext
      rw [storage] at moves
      cases result with
      | error failure =>
          refine ⟨.error failure, next, ?_, soundNext, carries, ?_, moves⟩
          · simp [contextSwitch, none_ready, switched, dispatched]
          · simp [Settled, failed failure rfl]
      | ok _ =>
          rcases resume_spec soundNext with ⟨soundLast, carriesLast, settledLast, storageLast⟩
          refine ⟨.ok true, next.resume, ?_, soundLast, carries.trans carriesLast, settledLast, ?_⟩
          · simp [contextSwitch, none_ready, switched, dispatched]
          · intro pid member
            rw [storageLast]
            exact moves pid (carriesLast.living pid member)

/-! ## Ending processes -/

/-- From where a process is taken out. -/
inductive Removes (system : System) (pid : Nat) : Option (Process × System) → Prop
  | executes (process : Process) (executing : system.executing = some process)
      (same : process.pid = pid) :
      Removes system pid (some (process, { system with
        cpu := (system.cpu.setExecuting false).reset
        policy := system.policy.didSwitch
        executing := none }))
  | waits (before : List Process) (process : Process) (after : List Process)
      (ready : system.ready = before ++ process :: after) (same : process.pid = pid) :
      Removes system pid (some (process, { system with ready := before ++ after }))
  | rests (before : List Process) (process : Process) (after : List Process)
      (resident : system.resident = before ++ process :: after) (same : process.pid = pid) :
      Removes system pid (some (process, { system with resident := before ++ after }))
  | absent (absent : pid ∉ system.processes.map Process.pid) : Removes system pid none

theorem remove?_removes (distinct : (system.resident.map Process.pid).Nodup) (pid : Nat) :
    system.Removes pid (remove? pid system).value := by
  cases running : system.executing.filter fun process => process.pid = pid with
  | some process =>
      rcases Option.filter_eq_some_iff.mp running with ⟨executing, same⟩
      simpa [remove?, running] using Removes.executes process executing (of_decide_eq_true same)
  | none =>
      cases queued : system.ready.find? fun process => process.pid = pid with
      | some process =>
          rcases List.find?_eq_some_iff_append.mp queued with ⟨same, before, after, join, others⟩
          have erased : (system.ready.eraseP fun other => other.pid = pid) = before ++ after := by
            rw [join, List.eraseP_append_right _ (by simpa using others)]
            simp only [List.eraseP_cons, same, cond_true]
          simpa [remove?, running, queued, erased] using
            Removes.waits before process after join (of_decide_eq_true same)
      | none =>
          cases taken : system.takeResident? pid with
          | some parts =>
              rcases parts with ⟨process, without⟩
              rcases takeResident?_eq_some distinct taken with ⟨before, after, join, same, rfl⟩
              simpa [remove?, running, queued, taken] using
                Removes.rests before process after join same
          | none =>
              have absent : ∀ process ∈ system.resident, process.pid ≠ pid := by
                unfold takeResident? at taken
                split at taken
                · cases taken
                · rename_i unfound
                  simpa using unfound
              have gone : pid ∉ system.processes.map Process.pid := by
                intro member
                rcases List.mem_map.mp member with ⟨process, among, same⟩
                rcases List.mem_append.mp among with early | resident
                · rcases List.mem_append.mp early with executing | ready
                  · have executes := Option.mem_toList.mp executing
                    simp [Option.mem_def.mp executes, same] at running
                  · have unfound := List.find?_eq_none.mp queued process ready
                    simp [same] at unfound
                · exact absent process resident same
              simpa [remove?, running, queued, taken] using Removes.absent gone

/-- A process of the number is taken out of its queue; if there is none, none has the number. -/
theorem remove?_spec (distinct : (system.resident.map Process.pid).Nodup) (pid : Nat) :
    ((remove? pid system).value = none ∧ pid ∉ system.processes.map Process.pid) ∨
    ∃ process without, (remove? pid system).value = some (process, without) ∧ process.pid = pid ∧
      without.storage = system.storage ∧ without.nextPid = system.nextPid ∧
      without.terminated = system.terminated ∧
      system.processes.Perm (process :: without.processes) ∧
      without.ready.Sublist system.ready ∧ without.resident.Sublist system.resident ∧
      (without.executing = none ∨
        (without.executing = system.executing ∧ without.cpu = system.cpu)) := by
  have removes := remove?_removes distinct pid
  generalize (remove? pid system).value = removed at removes ⊢
  cases removes with
  | executes process executing same =>
      refine Or.inr ⟨process, _, rfl, same, rfl, rfl, rfl, ?_, .refl _, .refl _, Or.inl rfl⟩
      simp [processes, executing]
  | waits before process after ready same =>
      refine Or.inr ⟨process, _, rfl, same, rfl, rfl, rfl, ?_, ?_, .refl _, Or.inr ⟨rfl, rfl⟩⟩
      · simpa [processes, ready] using @List.perm_middle _ process
          (system.executing.toList ++ before) (after ++ system.resident)
      · rw [ready]
        exact (List.sublist_cons_self process after).append_left before
  | rests before process after resident same =>
      refine Or.inr ⟨process, _, rfl, same, rfl, rfl, rfl, ?_, .refl _, ?_, Or.inr ⟨rfl, rfl⟩⟩
      · simpa [processes, resident] using @List.perm_middle _ process
          (system.executing.toList ++ system.ready ++ before) after
      · rw [resident]
        exact (List.sublist_cons_self process after).append_left before
  | absent absent => exact Or.inl ⟨rfl, absent⟩

/-- Afterwards no process of the number is left. -/
theorem terminate_spec (sound : system.Sound) (pid : Nat) :
    ∃ result next, (terminate pid system).value = (result, next) ∧ next.Sound ∧
      system.Carries next ∧ pid ∉ next.processes.map Process.pid ∧
      (next.executing = none ∨ (next.executing = system.executing ∧ next.cpu = system.cpu)) ∧
      ∀ other ∈ next.processes.map Process.pid, system.storage.Spares next.storage other := by
  rcases remove?_spec sound.distinct_resident pid with
    ⟨none_removed, absent⟩ | ⟨process, without, removed, same, storage, nextPid, terminated, taken,
      ready, resident, executing⟩
  · refine ⟨false, system, ?_, sound, Carries.refl system, absent, Or.inr ⟨rfl, rfl⟩,
      fun other _ => .refl system.storage other⟩
    simp [terminate, none_removed]
  · have distinct := (taken.map Process.pid).nodup_iff.mp sound.owns.distinct
    rcases retire_spec sound storage nextPid terminated taken (by
        intro other executes
        rcases executing with idle | ⟨unchanged, _⟩
        · simp [idle] at executes
        · exact sound.running other (unchanged ▸ executes))
      (fun fresh member =>
        sound.waiting fresh (((ready.append resident).map Process.fresh).subset member)) with
      ⟨next, retired, soundNext, carries, cpu, executing_eq, processes_eq, spares⟩
    refine ⟨true, next, ?_, soundNext, carries, ?_, ?_, spares⟩
    · simp [terminate, removed, retired]
    · rw [processes_eq, ← same]
      exact (List.nodup_cons.mp distinct).1
    · rw [cpu, executing_eq]
      exact executing

/-! ## Clearing memory -/

theorem foldl_retire (dropped : List Process) (system : System) :
    dropped.foldl (fun system process => system.retire process) system =
      { system with terminated := system.terminated ++ dropped.map fun process =>
          { process with phase := .terminated, segment := none, residence := none } } := by
  induction dropped generalizing system with
  | nil => simp
  | cons first rest hypothesis =>
      rw [List.foldl_cons, hypothesis]
      simp [retire]

/-- The processes on disk are left, with nobody in memory. -/
theorem owns_evacuateAll {processes : List Process} {storage : Storage}
    (owns : storage.Owns processes) :
    Storage.Owns ⟨storage.memory.evacuateAll, storage.files⟩
      (processes.filter fun process => !process.isInMemory) := by
  rcases owns.tidy.evacuateAll with ⟨tidy, _, nobody⟩
  have onDisk : ∀ process ∈ processes.filter (fun process => !process.isInMemory),
      process ∈ processes ∧ process.isInMemory = false := by
    intro process member
    simpa using member
  refine ⟨tidy, owns.serviceable, ?_, ?_, ?_, ?_⟩
  · exact owns.distinct.sublist (List.filter_sublist.map Process.pid)
  · intro process member
    rcases onDisk process member with ⟨among, outside⟩
    cases owns.keeps process among with
    | inMemory _ _ residence segment_eq =>
        simp [Process.isInMemory, residence, segment_eq] at outside
    | onDisk image residence segment_eq _ swapped =>
        exact .onDisk image residence segment_eq (nobody _) swapped
  · intro pid index held
    simp [nobody] at held
  · intro pid image swapped
    rcases List.mem_map.mp (owns.swapped pid image swapped) with ⟨process, among, rfl⟩
    apply List.mem_map_of_mem
    cases owns.keeps process among with
    | inMemory _ _ _ _ _ _ unswapped => simp [swapped] at unswapped
    | onDisk _ residence => simpa [Process.isInMemory, residence] using among

theorem clearMemory?_eq_some {pids : List Nat} (cleared : system.clearMemory? = some (pids, next)) :
    system.executing = none ∧ system.ready = [] ∧ next = { system with
      memory := system.memory.evacuateAll
      resident := system.resident.filter fun process => !process.isInMemory
      terminated := system.terminated ++ (system.resident.filter Process.isInMemory).map
        fun process => { process with phase := .terminated, segment := none, residence := none } } := by
  unfold clearMemory? at cleared
  split at cleared
  · rename_i idle
    simp only [isIdle, Bool.and_eq_true, Option.isNone_iff_eq_none, List.isEmpty_iff] at idle
    simp only [drainInMemory, foldl_retire, Option.some.injEq, Prod.mk.injEq] at cleared
    exact ⟨idle.1, idle.2, cleared.2.symm⟩
  · cases cleared

theorem clearMemory?_spec (sound : system.Sound) {pids : List Nat}
    (cleared : system.clearMemory? = some (pids, next)) :
    next.Sound ∧ system.Carries next ∧ next.executing = none := by
  rcases clearMemory?_eq_some cleared with ⟨executing, ready, next_eq⟩
  have all : system.processes = system.resident := by simp [processes, executing, ready]
  have left : next.processes = system.resident.filter fun process => !process.isInMemory := by
    simp [next_eq, processes, executing, ready]
  have owns := all ▸ sound.owns
  have ownsNext : next.storage.Owns next.processes := by
    rw [left, next_eq]
    exact owns_evacuateAll owns
  rcases owns.tidy.evacuateAll with ⟨_, segments, nobody⟩
  have carries : system.Carries next := by
    refine ⟨by rw [next_eq], ?_, ?_, by rw [next_eq, segments], ?_⟩
    · have parts := (List.filter_append_perm Process.isInMemory system.resident).map Process.progress
      rw [List.map_append] at parts
      have order := (List.perm_append_comm.trans parts).append_right
        (system.terminated.map Process.progress)
      simp only [everyone, left, all, List.map_append]
      refine List.Perm.trans ?_ order
      simp only [next_eq, List.map_append, List.map_map, Function.comp_def, List.append_assoc]
      exact List.perm_append_comm.append_left _
    · intro pid member
      rw [left] at member
      rcases List.mem_map.mp member with ⟨process, among, rfl⟩
      rw [all]
      exact List.mem_map_of_mem (List.mem_of_mem_filter among)
    · intro length _ pid member
      rcases List.mem_map.mp member with ⟨process, among, rfl⟩
      have kept := ownsNext.keeps process among
      rw [left] at among
      cases owns.keeps process (List.mem_of_mem_filter among) with
      | inMemory _ _ residence segment_eq =>
          simp [Process.isInMemory, residence, segment_eq] at among
      | onDisk _ _ _ homeless =>
          simp [next_eq, Storage.image?, nobody, homeless]
  have idle : next.executing = none := by rw [next_eq, executing]
  refine ⟨?_, carries, idle⟩
  apply sound.carry carries ownsNext
  · simp [idle]
  · intro fresh member
    apply sound.waiting
    rw [next_eq] at member
    exact ((List.filter_sublist.append_left system.ready).map Process.fresh).subset member
  · intro process member
    rw [next_eq] at member
    rcases List.mem_append.mp member with before | dropped
    · exact sound.ended process before
    · rcases List.mem_map.mp dropped with ⟨other, _, rfl⟩
      exact ⟨rfl, rfl⟩

end System

/-! ## Queueing processes -/

/-- The process in the phase it has in the ready queue. -/
def Process.queued (process : Process) : Process :=
  { process with phase := .ready }

@[simp]
theorem Process.queued_queued (process : Process) : process.queued.queued = process.queued := rfl

namespace System

variable {system next : System} {pid : Nat}

/-- Resident processes may be made ready, and the queues ordered anew. -/
theorem queue_spec (sound : system.Sound) (memory : next.memory = system.memory)
    (files : next.files = system.files) (nextPid : next.nextPid = system.nextPid)
    (executing : next.executing = system.executing)
    (terminated : next.terminated = system.terminated)
    (queues : ((next.ready ++ next.resident).map Process.queued).Perm
      ((system.ready ++ system.resident).map Process.queued)) :
    next.Sound ∧ system.Carries next := by
  have viewed {α : Type} (view : Process → α) (blind : ∀ process, view process.queued = view process) :
      ((next.ready ++ next.resident).map view).Perm ((system.ready ++ system.resident).map view) := by
    simpa only [List.map_map, Function.comp_def, blind] using queues.map view
  have whole {α : Type} (view : Process → α) (blind : ∀ process, view process.queued = view process) :
      (next.processes.map view).Perm (system.processes.map view) := by
    have order := (viewed view blind).append_left (system.executing.toList.map view)
    simpa [processes, executing] using order
  have carries : system.Carries next :=
    Carries.of_storage nextPid memory files (whole Process.progress fun _ => rfl) terminated
  refine ⟨sound.requeue carries.nextPid memory files (whole Process.place fun _ => rfl).symm ?_ ?_ terminated,
    carries⟩
  · rw [executing]
    exact sound.running
  · intro fresh member
    exact sound.waiting fresh ((viewed Process.fresh fun _ => rfl).mem_iff.mp member)

theorem activate?_eq_some (distinct : (system.resident.map Process.pid).Nodup)
    (activated : system.activate? pid = some next) :
    ∃ process before after queue, system.resident = before ++ process :: after ∧
      queue.Perm (process.queued :: system.ready) ∧
      next = { system with ready := queue, resident := before ++ after } := by
  unfold activate? at activated
  split at activated
  · rename_i process without taken
    rcases takeResident?_eq_some distinct taken with ⟨before, after, join, same, rfl⟩
    rcases enqueueReady_eq process.queued { system with resident := before ++ after } with
      ⟨queue, enqueued, order⟩
    exact ⟨process, before, after, queue, join, order,
      (Option.some.inj activated).symm.trans enqueued⟩
  · cases activated

/-- A resident process that is queued is the same process in another queue. -/
theorem queued_perm {process : Process} {before after queue : List Process}
    (join : system.resident = before ++ process :: after)
    (order : queue.Perm (process.queued :: system.ready)) :
    ((queue ++ (before ++ after)).map Process.queued).Perm
      ((system.ready ++ system.resident).map Process.queued) := by
  have moved := (@List.perm_middle _ process (system.ready ++ before) after).map Process.queued
  rw [join]
  apply ((order.append_right (before ++ after)).map Process.queued).trans
  simpa using moved.symm

theorem activate?_spec (sound : system.Sound) (activated : system.activate? pid = some next) :
    next.Sound ∧ system.Carries next ∧ next.executing = system.executing ∧
      next.cpu = system.cpu := by
  rcases activate?_eq_some sound.distinct_resident activated with
    ⟨process, before, after, queue, join, order, rfl⟩
  have carried : Sound { system with ready := queue, resident := before ++ after } ∧
      system.Carries { system with ready := queue, resident := before ++ after } :=
    queue_spec sound rfl rfl rfl rfl rfl (queued_perm join order)
  exact ⟨carried.1, carried.2, rfl, rfl⟩

theorem foldl_enqueueReady (queued : List Process) (system : System) :
    ∃ queue, queued.foldl (fun system process => system.enqueueReady process.queued) system =
        { system with ready := queue } ∧
      queue.Perm (system.ready ++ queued.map Process.queued) := by
  induction queued generalizing system with
  | nil => exact ⟨system.ready, rfl, by simp⟩
  | cons first rest hypothesis =>
      rcases enqueueReady_eq first.queued system with ⟨between, enqueued, order⟩
      rcases hypothesis { system with ready := between } with ⟨queue, folded, orderRest⟩
      refine ⟨queue, by simp [enqueued, folded], ?_⟩
      apply orderRest.trans
      apply (order.append_right _).trans
      simpa using (@List.perm_middle _ first.queued system.ready (rest.map Process.queued)).symm

theorem activateAll_eq (system : System) :
    ∃ queue, system.activateAll.2 = { system with ready := queue, resident := [] } ∧
      queue.Perm (system.ready ++ system.resident.map Process.queued) :=
  foldl_enqueueReady system.resident { system with resident := [] }

theorem activateAll_spec (sound : system.Sound) :
    system.activateAll.2.Sound ∧ system.Carries system.activateAll.2 ∧
      system.activateAll.2.executing = system.executing ∧
      system.activateAll.2.cpu = system.cpu := by
  rcases activateAll_eq system with ⟨queue, next_eq, order⟩
  have carried : system.activateAll.2.Sound ∧ system.Carries system.activateAll.2 := by
    rw [next_eq]
    refine queue_spec sound rfl rfl rfl rfl rfl ?_
    simpa [Function.comp_def] using order.map Process.queued
  exact ⟨carried.1, carried.2, by rw [next_eq], by rw [next_eq]⟩

theorem setSchedule_spec (sound : system.Sound) (schedule : Schedule) :
    (system.setSchedule schedule).Sound ∧ system.Carries (system.setSchedule schedule) := by
  refine queue_spec sound rfl rfl rfl rfl rfl ?_
  apply List.Perm.map
  apply List.Perm.append_right
  rw [setSchedule]
  dsimp only
  split
  · exact sortByPriority_perm system.ready
  · exact .rfl

end System

end Timeshare
