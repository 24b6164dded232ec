import Timeshare.Proofs.Kernel.Response

/-!
# Memory and the processes of the system

`Storage.Owns` says where every image is, but only as long as the disk is spared: when it is
formatted, the images of the processes that lie there are lost.  What memory has to do with the
processes never depends on the disk, so `System.Housed` is kept by every interrupt and by every
cycle.
-/

namespace Timeshare

namespace System

variable {system next : System} {process victim : Process} {others : List Process}

/-- Whether the disk takes the image or not, the process is where it says to be. -/
theorem rollOut_houses (tidy : system.memory.Tidy) (houses : system.memory.Houses victim)
    (inMemory : victim.isInMemory = true) :
    ∃ result moved memory files,
      (rollOut victim system).value = (result, moved, { system with memory, files }) ∧
      moved.pid = victim.pid ∧ system.memory.Rehouses memory victim.pid ∧ memory.Houses moved ∧
      (result = .ok () → memory.isFull = false) := by
  rcases houses.partition tidy inMemory with ⟨index, segment, segment_eq, found⟩
  rcases tidy.moveOut found with ⟨leaves, homeless, vacant⟩
  cases stores : FileSystem.perform
    (FileSystem.storeSwap victim.pid (system.memory.bytes segment)) system.files with
  | mk outcome files =>
      cases outcome with
      | ok stored =>
          refine ⟨.ok (), { victim with segment := none, residence := some .disk },
            system.memory.vacate victim.pid index, files, ?_, rfl, leaves, .outside rfl rfl homeless,
            fun _ => vacant⟩
          simp [rollOut, tidy.withdraw found, stores]
      | error error =>
          rcases @Memory.Tidy.moveIn _ { victim with segment := none, residence := none }
            leaves.tidy vacant homeless (system.memory.bytes segment) with
            ⟨placement, placed, pid, _, enters, housed⟩
          refine ⟨.error (.files error), placement.process, placement.memory, files, ?_, pid,
            leaves.trans enters, housed, by simp⟩
          simp [rollOut, tidy.withdraw found, stores, placed]

/-- One of the processes in memory moves to disk, and all others stay. -/
theorem rollOut_lodges {before after : List Process}
    (lodges : system.memory.Lodges (before ++ victim :: after))
    (inMemory : victim.isInMemory = true) :
    ∃ result moved memory files,
      (rollOut victim system).value = (result, moved, { system with memory, files }) ∧
      memory.Lodges (before ++ moved :: after) ∧ (result = .ok () → memory.isFull = false) := by
  have head := lodges.perm List.perm_middle
  rcases rollOut_houses lodges.tidy (head.houses victim List.mem_cons_self) inMemory with
    ⟨result, moved, memory, files, rolled, pid, rehouses, houses, room⟩
  have lodgesNext := head.replace rehouses pid houses
  exact ⟨result, moved, memory, files, rolled, lodgesNext.perm List.perm_middle.symm, room⟩

theorem makeRoom_lodges
    (lodges : system.memory.Lodges (process :: (system.ready ++ system.resident))) :
    ∃ result next, system.makeRoom.value = (result, next) ∧ next.executing = system.executing ∧
      next.memory.Lodges (process :: (next.ready ++ next.resident)) ∧
      (result = .ok () → next.memory.isFull = false) := by
  unfold makeRoom
  cases split : splitLast? Process.isInMemory system.ready with
  | some parts =>
      rcases parts with ⟨before, victim, after⟩
      rw [splitLast?_join split] at lodges
      rcases @rollOut_lodges system victim (process :: before) (after ++ system.resident)
        (by simpa using lodges) (splitLast?_fits split) with
        ⟨result, moved, memory, files, rolled, lodgesNext, room⟩
      refine ⟨result, { system with memory, files, ready := before ++ moved :: after }, ?_, rfl, ?_,
        room⟩
      · simp [rolled]
      · simpa using lodgesNext
  | none =>
      cases splitResident : splitLast? Process.isInMemory system.resident with
      | some parts =>
          rcases parts with ⟨before, victim, after⟩
          rw [splitLast?_join splitResident] at lodges
          rcases @rollOut_lodges system victim (process :: (system.ready ++ before)) after
            (by simpa using lodges) (splitLast?_fits splitResident) with
            ⟨result, moved, memory, files, rolled, lodgesNext, room⟩
          refine ⟨result, { system with memory, files, resident := before ++ moved :: after }, ?_,
            rfl, ?_, room⟩
          · simp [rolled]
          · simpa using lodgesNext
      | none => exact ⟨_, system, rfl, rfl, lodges, by simp⟩

/-- A process on disk gets a segment, unless its swap file is lost. -/
theorem fetchImage_lodges (lodges : system.memory.Lodges (process :: others))
    (onDisk : process.isOnDisk = true) (vacant : system.memory.isFull = false) :
    ∃ result memory files, (fetchImage process system).value =
        (result, { system with memory, files }) ∧
      memory.Lodges (result.toOption.getD process :: others) ∧
      ∀ brought, result = .ok brought → brought.isInMemory = true := by
  cases lodges.houses process List.mem_cons_self with
  | inside _ _ residence => simp [Process.isOnDisk, residence] at onDisk
  | outside residence segment_eq homeless =>
      cases deleted : FileSystem.perform (FileSystem.deleteSwap process.pid) system.files with
      | mk outcome files =>
          cases outcome with
          | error error =>
              exact ⟨.error (.files error), system.memory, files, by simp [fetchImage, deleted],
                lodges, by simp⟩
          | ok fetched =>
              rcases lodges.tidy.moveIn vacant homeless fetched.image with
                ⟨placement, placed, pid, inMemory, enters, houses⟩
              refine ⟨.ok placement.process, placement.memory, files, ?_,
                lodges.replace enters pid houses, ?_⟩
              · simp [fetchImage, deleted, placed]
              · rintro brought ⟨⟩
                exact inMemory

theorem rollIn_lodges
    (lodges : system.memory.Lodges (process :: (system.ready ++ system.resident))) :
    ∃ result next, (rollIn process system).value = (result, next) ∧
      next.executing = system.executing ∧
      next.memory.Lodges (result.toOption.getD process :: (next.ready ++ next.resident)) ∧
      ∀ brought, result = .ok brought → brought.isInMemory = true := by
  cases onDisk : process.isOnDisk with
  | false =>
      refine ⟨.ok process, system, by simp [rollIn, onDisk], rfl, lodges, ?_⟩
      rintro brought ⟨⟩
      simp [(lodges.houses process List.mem_cons_self).isInMemory, onDisk]
  | true =>
      cases full : system.memory.isFull with
      | false =>
          rcases fetchImage_lodges lodges onDisk full with
            ⟨result, memory, files, fetched, lodgesNext, inMemory⟩
          exact ⟨result, { system with memory, files }, by simp [rollIn, onDisk, full, fetched],
            rfl, lodgesNext, inMemory⟩
      | true =>
          rcases makeRoom_lodges lodges with
            ⟨room, between, made, executing, lodgesBetween, vacant⟩
          cases room with
          | error cause =>
              exact ⟨.error cause, between, by simp [rollIn, onDisk, full, made], executing,
                lodgesBetween, by simp⟩
          | ok _ =>
              rcases fetchImage_lodges lodgesBetween onDisk (vacant rfl) with
                ⟨result, memory, files, fetched, lodgesNext, inMemory⟩
              exact ⟨result, { between with memory, files },
                by simp [rollIn, onDisk, full, made, fetched], executing, lodgesNext, inMemory⟩

/-- A process that gives back its place leaves no segment held. -/
theorem reclaim_lodges (lodges : system.memory.Lodges (process :: others)) :
    ∃ memory files, (reclaim process system).value = { system with memory, files } ∧
      memory.Lodges others := by
  have houses := lodges.houses process List.mem_cons_self
  cases inMemory : process.isInMemory with
  | true =>
      rcases houses.partition lodges.tidy inMemory with ⟨index, segment, segment_eq, found⟩
      rcases lodges.tidy.moveOut found with ⟨leaves, homeless, _⟩
      refine ⟨system.memory.vacate process.pid index, system.files, ?_, lodges.remove leaves homeless⟩
      simp [reclaim, inMemory, lodges.tidy.evacuate found]
  | false =>
      cases houses with
      | inside _ _ residence segment_eq =>
          simp [Process.isInMemory, residence, segment_eq] at inMemory
      | outside residence segment_eq homeless =>
          have stays := lodges.remove (.refl lodges.tidy process.pid) homeless
          cases active : system.files.hasSwap process.pid with
          | false => exact ⟨system.memory, system.files, by simp [reclaim, inMemory, active], stays⟩
          | true =>
              refine ⟨system.memory,
                (FileSystem.perform (FileSystem.deleteSwap process.pid) system.files).2, ?_, stays⟩
              cases deleted : FileSystem.perform (FileSystem.deleteSwap process.pid)
                system.files with
              | mk outcome files =>
                  cases outcome with
                  | error error => simp [reclaim, inMemory, active, deleted]
                  | ok fetched => simp [reclaim, inMemory, active, deleted]

/-! ## The system -/

/-- Memory has a segment for each process that is not on disk, and the executing process is not. -/
structure Housed (system : System) : Prop where
  lodges : system.memory.Lodges system.processes
  running : ∀ process, system.executing = some process → process.isInMemory = true

namespace Housed

/-- Processes may change queues, and what is not their place. -/
theorem requeue (housed : system.Housed) (memory : next.memory = system.memory)
    (places : (system.processes.map Process.place).Perm (next.processes.map Process.place))
    (running : ∀ process, next.executing = some process → process.isInMemory = true) :
    next.Housed := by
  refine ⟨?_, running⟩
  rw [memory]
  exact housed.lodges.congr places

theorem distinct_resident (housed : system.Housed) : (system.resident.map Process.pid).Nodup := by
  have all := housed.lodges.distinct
  rw [processes, List.map_append] at all
  exact all.of_append_right

/-- A process that was taken out of its queue gives back its place and ends. -/
theorem retire {without : System} (housed : system.Housed)
    (memory : without.memory = system.memory)
    (taken : system.processes.Perm (process :: without.processes))
    (running : ∀ process, without.executing = some process → process.isInMemory = true) :
    ((reclaim process without).value.retire process).Housed := by
  have lodges : without.memory.Lodges (process :: without.processes) := by
    rw [memory]
    exact housed.lodges.perm taken
  rcases reclaim_lodges lodges with ⟨memory, files, reclaimed, lodgesNext⟩
  rw [reclaimed]
  exact ⟨lodgesNext, running⟩

theorem dispatch (housed : system.Housed) : system.dispatch.value.2.Housed := by
  cases executing : system.executing with
  | some running => simpa [System.dispatch, executing] using housed
  | none =>
      cases ready : system.ready with
      | nil => simpa [System.dispatch, executing, ready] using housed
      | cons first rest =>
          have lodges : ({ system with ready := rest } : System).memory.Lodges
              (first :: (rest ++ system.resident)) := by
            simpa [processes, executing, ready] using housed.lodges
          rcases rollIn_lodges lodges with
            ⟨brought, between, rolled, executing_eq, lodgesNext, inMemory⟩
          have idle : between.executing = none := executing_eq.trans executing
          simp only [executing] at rolled
          cases brought with
          | ok process =>
              have housedNext :
                  Housed { between with executing := some { process with phase := .running } } := by
                refine ⟨lodgesNext.congr ?_, ?_⟩
                · simp [processes, Process.place, Except.toOption]
                · rintro other ⟨⟩
                  exact inMemory process rfl
              simpa [System.dispatch, executing, ready, rolled] using housedNext
          | error cause =>
              have housedBetween : Housed { between with ready := first :: between.ready } := by
                refine ⟨?_, by simp [idle]⟩
                simpa [processes, idle, Except.toOption] using lodgesNext
              have housedNext := @retire _ first between housedBetween rfl
                (by simp [processes, idle]) (by simp [idle])
              simpa [System.dispatch, executing, ready, rolled] using housedNext

theorem switchOut (housed : system.Housed) : system.switchOut.value.Housed := by
  cases executing : system.executing with
  | none => simpa [System.switchOut, executing] using housed
  | some running =>
      rcases enqueueReady_eq { system.cpu.saveInto running with fresh := true, phase := .ready }
        { system with executing := none } with ⟨queue, enqueued, order⟩
      have housedNext : Housed { system with executing := none, ready := queue } := by
        refine housed.requeue rfl ?_ (by simp)
        have places := (order.map Process.place).append_right (system.resident.map Process.place)
        simpa [processes, executing, Process.place, Cpu.saveInto] using places.symm
      simpa [System.switchOut, executing, enqueued] using housedNext

theorem resume (housed : system.Housed) : system.resume.Housed := by
  cases executing : system.executing with
  | none => simpa [System.resume, executing] using housed
  | some running =>
      have housedNext : Housed { system with
          cpu := (system.cpu.restoreFrom running).setExecuting true
          executing := some { running with fresh := false } } := by
        refine housed.requeue rfl ?_ ?_
        · simp [processes, executing, Process.place]
        · rintro process ⟨⟩
          exact housed.running running executing
      simpa [System.resume, executing] using housedNext

theorem contextSwitch (housed : system.Housed) : system.contextSwitch.value.2.Housed := by
  have housedTurn : Housed { system with policy := system.policy.didSwitch } :=
    ⟨housed.lodges, housed.running⟩
  cases none_ready : system.ready.isEmpty with
  | true => simpa [System.contextSwitch, none_ready] using housedTurn
  | false =>
      have housedNext := housedTurn.switchOut.dispatch
      cases dispatched : ({ system with
          policy := system.policy.didSwitch } : System).switchOut.value.dispatch.value with
      | mk result next =>
          rw [dispatched] at housedNext
          cases result with
          | error failure => simpa [System.contextSwitch, none_ready, dispatched] using housedNext
          | ok _ => simpa [System.contextSwitch, none_ready, dispatched] using housedNext.resume

theorem terminate (housed : system.Housed) (pid : Nat) :
    (system.terminate pid).value.2.Housed := by
  rcases remove?_spec housed.distinct_resident pid with
    ⟨none_removed, _⟩ | ⟨process, without, removed, _, storage, _, _, taken, _, _, executing⟩
  · simpa [System.terminate, none_removed] using housed
  · have housedNext : ((reclaim process without).value.retire process).Housed := by
      apply housed.retire (congrArg Storage.memory storage) taken
      intro other executes
      rcases executing with idle | ⟨unchanged, _⟩
      · simp [idle] at executes
      · exact housed.running other (unchanged ▸ executes)
    simpa [System.terminate, removed] using housedNext

theorem clearMemory {pids : List Nat} (housed : system.Housed)
    (cleared : system.clearMemory? = some (pids, next)) : next.Housed := by
  rcases clearMemory?_eq_some cleared with ⟨executing, ready, rfl⟩
  refine ⟨?_, by simp [executing]⟩
  simpa [processes, executing, ready] using housed.lodges.evacuateAll

theorem activate {pid : Nat} (housed : system.Housed)
    (activated : system.activate? pid = some next) : next.Housed := by
  rcases activate?_eq_some housed.distinct_resident activated with
    ⟨process, before, after, queue, join, order, rfl⟩
  refine housed.requeue rfl ?_ housed.running
  have blind (process : Process) : process.queued.place = process.place := rfl
  have places := (queued_perm join order).map Process.place
  simp only [List.map_map, Function.comp_def, blind] at places
  simpa [processes] using (places.symm.append_left (system.executing.toList.map Process.place))

theorem activateAll (housed : system.Housed) : system.activateAll.2.Housed := by
  rcases activateAll_eq system with ⟨queue, next_eq, order⟩
  rw [next_eq]
  refine housed.requeue rfl ?_ housed.running
  have blind (process : Process) : process.queued.place = process.place := rfl
  have places := order.map Process.place
  simp only [List.map_append, List.map_map, Function.comp_def, blind] at places
  simpa [processes] using (places.symm.append_left (system.executing.toList.map Process.place))

theorem setSchedule (housed : system.Housed) (schedule : Schedule) :
    (system.setSchedule schedule).Housed := by
  refine housed.requeue rfl ?_ housed.running
  have order := (ready_setSchedule_perm schedule system).append_right system.resident
  have whole : (system.setSchedule schedule).processes.Perm system.processes := by
    rw [processes, processes, List.append_assoc, List.append_assoc]
    exact order.append_left system.executing.toList
  exact (whole.map Process.place).symm

/-- What is new is where it says to be, in memory or on disk. -/
theorem enroll (housed : system.Housed) (new : system.nextPid ∉ system.processes.map Process.pid)
    (program : List UInt8) (priority : Nat) :
    (System.enroll program priority system).value.2.Housed := by
  have homeless := housed.lodges.homeless new
  have registers {process : Process} {memory : Memory} {files : FileSystem}
      (pid : process.pid = system.nextPid)
      (rehouses : system.memory.Rehouses memory system.nextPid)
      (houses : memory.Houses process) :
      (register process { system with memory, files }).value.2.Housed := by
    refine ⟨?_, housed.running⟩
    have lodges := housed.lodges.add (pid ▸ new) (pid ▸ rehouses) houses
    apply lodges.congr
    have order := (@List.perm_middle _ process system.processes []).map Process.place
    simpa [register, processes, Process.place] using order.symm
  cases full : system.memory.isFull with
  | true =>
      cases stores : FileSystem.perform (FileSystem.storeSwap system.nextPid
        (program.take system.memory.segmentSize)) system.files with
      | mk outcome files =>
          cases outcome with
          | error error =>
              have refused : Housed { system with files } := ⟨housed.lodges, housed.running⟩
              simpa [System.enroll, full, stores] using refused
          | ok stored =>
              have housedNext := @registers
                { Process.create system.nextPid priority with residence := some .disk }
                system.memory files rfl (.refl housed.lodges.tidy _) (.outside rfl rfl homeless)
              simpa [System.enroll, full, stores] using housedNext
  | false =>
      rcases @Memory.Tidy.moveIn _ (Process.create system.nextPid priority) housed.lodges.tidy full
        homeless program with ⟨placement, placed, pid, _, enters, houses⟩
      have loaded : system.memory.load program system.nextPid priority = .ok placement := placed
      have housedNext :=
        @registers placement.process placement.memory system.files pid enters houses
      simpa [System.enroll, full, loaded] using housedNext

/-- What a cycle writes stays in the segment of its process. -/
theorem afterCycle (housed : system.Housed) (executing : system.executing = some process)
    (cpu : Cpu) (policy : Policy) {cycle : Cycle} (ran : cycle = cpu.cycle process system.memory) :
    (system.afterCycle cycle policy).Housed := by
  rcases Cpu.cycle_process cpu process system.memory with ⟨registers, last, process_eq⟩
  rw [← ran] at process_eq
  have place : cycle.process.ticked.place = process.place := by rw [process_eq]; rfl
  have inMemory := housed.running process executing
  have lodges := housed.lodges
  have all : system.processes = process :: (system.ready ++ system.resident) := by
    simp [processes, executing]
  rw [all] at lodges
  have houses := lodges.houses process List.mem_cons_self
  rcases houses.partition lodges.tidy inMemory with ⟨index, segment, segment_eq, found⟩
  have within : system.memory.WithinSegment cycle.memory segment := by
    rw [ran]
    exact Cpu.cycle_within segment_eq (lodges.tidy.inside_of_getElem? found) cpu
  refine ⟨?_, ?_⟩
  · rw [processes_afterCycle]
    apply (lodges.within within found).congr
    rw [List.map_cons, List.map_cons, place, map_waited_append Process.place fun _ => rfl]
  · rintro other ⟨⟩
    have same : cycle.process.ticked.isInMemory = process.isInMemory := by rw [process_eq]; rfl
    exact same.trans inMemory

theorem respond (housed : system.Housed) (new : system.nextPid ∉ system.processes.map Process.pid)
    (interrupt : Interrupt) : (system.respond interrupt).Housed := by
  have woken {awake : System} (housed : awake.Housed) : awake.wake.Housed :=
    ⟨housed.lodges, housed.running⟩
  cases interrupt with
  | timer => exact housed
  | keyboard key => exact housed
  | loadProgram text priority =>
      rw [System.respond]
      split
      · exact housed
      · exact housed.enroll new _ _
  | runProgram pid =>
      rw [System.respond]
      split
      · rename_i activated
        exact woken (housed.activate activated)
      · exact housed
  | breakProgram pid => exact housed.terminate pid
  | errProgram pid => exact housed.terminate pid
  | requestClearMemory =>
      rw [System.respond]
      split
      · rename_i cleared
        exact housed.clearMemory cleared
      · exact housed
  | contextSwitch => exact housed.contextSwitch
  | runAllPrograms =>
      rw [System.respond]
      split
      · exact housed
      · exact woken housed.activateAll
  | killProgram pid => exact housed.terminate pid
  | fileSystem request => exact ⟨housed.lodges, housed.running⟩
  | unrecognized number => exact ⟨housed.lodges, housed.running⟩

end Housed

end System

end Timeshare
