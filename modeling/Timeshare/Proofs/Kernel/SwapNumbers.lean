import Timeshare.Proofs.Kernel.Reach

/-!
# Whose swap files there are

Swap files are stored for processes that wait and for programs that are admitted, and for nobody
else.  So none is ever active under a number that was not given out yet, even when the disk was
formatted while processes lay there: formatting only takes swap files away.
-/

namespace Timeshare

namespace FileSystem

variable {files : FileSystem} {allowed : Nat → Prop} {pid : Nat}

/-- The disk is usable, and all swap files are those of processes that may have one. -/
structure SwapsFor (files : FileSystem) (allowed : Nat → Prop) : Prop where
  serviceable : files.Serviceable
  swapped : ∀ pid image, files.swapImage pid = some image → allowed pid

namespace SwapsFor

theorem imp {further : Nat → Prop} (swaps : files.SwapsFor allowed)
    (implies : ∀ pid, allowed pid → further pid) : files.SwapsFor further :=
  ⟨swaps.serviceable, fun pid image found => implies pid (swaps.swapped pid image found)⟩

theorem storeSwap (swaps : files.SwapsFor allowed) (own : allowed pid) (image : List UInt8) :
    (perform (FileSystem.storeSwap pid image) files).2.SwapsFor allowed := by
  rcases swaps.serviceable.storeSwap pid image with
    ⟨error, refused⟩ | ⟨stored, next, succeeded, serviceable, swapped⟩
  · rw [refused]
    exact swaps
  · rw [succeeded]
    refine ⟨serviceable, ?_⟩
    intro other found kept
    rw [swapped] at kept
    split at kept
    · rename_i same
      exact same ▸ own
    · exact swaps.swapped other found kept

theorem deleteSwap (swaps : files.SwapsFor allowed) (pid : Nat) :
    (perform (FileSystem.deleteSwap pid) files).2.SwapsFor allowed := by
  cases present : files.swapImage pid with
  | none =>
      have inactive : files.hasSwap pid = false := by
        rw [swaps.serviceable.hasSwap_eq, present, Option.isSome_none]
      rw [Catalogues.deleteSwap_inactive inactive]
      exact swaps
  | some image =>
      rcases swaps.serviceable.deleteSwap present with
        ⟨fetched, next, succeeded, _, serviceable, swapped⟩
      rw [succeeded]
      refine ⟨serviceable, ?_⟩
      intro other found kept
      rw [swapped] at kept
      split at kept
      · cases kept
      · exact swaps.swapped other found kept

theorem serve (swaps : files.SwapsFor allowed) (request : FileRequest) :
    (perform (FileSystem.serve request) files).2.SwapsFor allowed := by
  by_cases format : request = .format
  · rcases swaps.serviceable.serve_format with ⟨report, next, served, serviceable, dropped⟩
    rw [format, served]
    refine ⟨serviceable, ?_⟩
    intro other found kept
    simp [dropped] at kept
  · rcases swaps.serviceable.serve format with ⟨serviceable, kept⟩
    refine ⟨serviceable, ?_⟩
    intro other found present
    exact swaps.swapped other found (kept other ▸ present)

end SwapsFor

end FileSystem

namespace System

variable {system next : System} {allowed : Nat → Prop} {process : Process} {pid : Nat}

/-! ## Swapping -/

theorem rollOut_swapsFor (swaps : system.files.SwapsFor allowed) {victim : Process}
    (own : allowed victim.pid) : (rollOut victim system).value.2.2.files.SwapsFor allowed := by
  cases withdrawn : system.memory.withdraw victim with
  | error error => simpa [rollOut, withdrawn] using swaps
  | ok withdrawal =>
      have tried := swaps.storeSwap own withdrawal.image
      rcases stores : FileSystem.perform (FileSystem.storeSwap victim.pid withdrawal.image)
        system.files with ⟨error | stored, files⟩
      · rw [stores] at tried
        cases placed : withdrawal.memory.place withdrawal.process withdrawal.image with
        | error failure => simpa [rollOut, withdrawn, stores, placed] using tried
        | ok placement => simpa [rollOut, withdrawn, stores, placed] using tried
      · rw [stores] at tried
        simpa [rollOut, withdrawn, stores] using tried

theorem makeRoom_swapsFor (swaps : system.files.SwapsFor allowed)
    (own : ∀ process ∈ system.ready ++ system.resident, allowed process.pid) :
    system.makeRoom.value.2.files.SwapsFor allowed := by
  unfold makeRoom
  split
  · rename_i before victim after found
    have member : victim ∈ system.ready := by simp [splitLast?_join found]
    simpa using rollOut_swapsFor swaps (own victim (List.mem_append_left _ member))
  · split
    · rename_i before victim after found
      have member : victim ∈ system.resident := by simp [splitLast?_join found]
      simpa using rollOut_swapsFor swaps (own victim (List.mem_append_right _ member))
    · exact swaps

theorem fetchImage_swapsFor (swaps : system.files.SwapsFor allowed) (process : Process) :
    (fetchImage process system).value.2.files.SwapsFor allowed := by
  have tried := swaps.deleteSwap process.pid
  rcases deletes : FileSystem.perform (FileSystem.deleteSwap process.pid) system.files with
    ⟨error | fetched, files⟩
  · rw [deletes] at tried
    simpa [fetchImage, deletes] using tried
  · rw [deletes] at tried
    cases placed : system.memory.place process fetched.image with
    | error error => simpa [fetchImage, deletes, placed] using tried
    | ok placement => simpa [fetchImage, deletes, placed] using tried

theorem rollIn_swapsFor (swaps : system.files.SwapsFor allowed)
    (own : ∀ process ∈ system.ready ++ system.resident, allowed process.pid) (process : Process) :
    (rollIn process system).value.2.files.SwapsFor allowed := by
  unfold rollIn
  split
  · exact swaps
  · split
    · have made := makeRoom_swapsFor swaps own
      simp only [Journaled.value_bind]
      split
      · exact made
      · exact fetchImage_swapsFor made process
    · exact fetchImage_swapsFor swaps process

theorem reclaim_swapsFor (swaps : system.files.SwapsFor allowed) (process : Process) :
    (reclaim process system).value.files.SwapsFor allowed := by
  cases inMemory : process.isInMemory with
  | true => simpa [reclaim, inMemory] using swaps
  | false =>
      cases active : system.files.hasSwap process.pid with
      | false => simpa [reclaim, inMemory, active] using swaps
      | true =>
          have tried := swaps.deleteSwap process.pid
          rcases deletes : FileSystem.perform (FileSystem.deleteSwap process.pid) system.files with
            ⟨error | fetched, files⟩
          · rw [deletes] at tried
            simpa [reclaim, inMemory, active, deletes] using tried
          · rw [deletes] at tried
            simpa [reclaim, inMemory, active, deletes] using tried

/-! ## Interrupts -/

theorem dispatch_swapsFor (swaps : system.files.SwapsFor allowed)
    (own : ∀ process ∈ system.ready ++ system.resident, allowed process.pid) :
    system.dispatch.value.2.files.SwapsFor allowed := by
  unfold dispatch
  split
  · rename_i first rest executing ready
    have others : ∀ process ∈ rest ++ system.resident, allowed process.pid := by
      intro process member
      apply own
      rw [ready]
      exact List.mem_cons_of_mem first member
    have brought := @rollIn_swapsFor { system with ready := rest } allowed swaps others first
    simp only [Journaled.value_bind]
    split
    · exact brought
    · simp only [Journaled.value_bind]
      exact reclaim_swapsFor brought first
  · exact swaps

theorem pids_of_switchOut {queue : List Process}
    (order : queue.Perm (system.saved.toList ++ system.ready))
    (own : ∀ process ∈ system.processes, allowed process.pid) :
    ∀ process ∈ queue ++ system.resident, allowed process.pid := by
  intro process member
  rcases List.mem_append.mp member with queued | resident
  · rcases List.mem_append.mp (order.mem_iff.mp queued) with saved | before
    · cases executing : system.executing with
      | none => simp [System.saved, executing] at saved
      | some running =>
          obtain rfl : process = _ := by simpa [System.saved, executing] using saved
          exact own running (by simp [processes, executing])
    · exact own process (by simp [processes, before])
  · exact own process (by simp [processes, resident])

theorem files_resume (system : System) : system.resume.files = system.files :=
  congrArg Storage.files (storage_resume system)

theorem contextSwitch_swapsFor (swaps : system.files.SwapsFor allowed)
    (own : ∀ process ∈ system.processes, allowed process.pid) :
    system.contextSwitch.value.2.files.SwapsFor allowed := by
  unfold contextSwitch
  dsimp only
  split
  · exact swaps
  · rcases switchOut_eq { system with policy := system.policy.didSwitch } with
      ⟨queue, switched, order⟩
    have others := pids_of_switchOut order own
    have given := @dispatch_swapsFor { system with
      policy := system.policy.didSwitch, executing := none, ready := queue } allowed swaps others
    simp only [Journaled.value_bind, switched]
    split
    · exact given
    · simpa [files_resume] using given

theorem terminate_swapsFor (swaps : system.files.SwapsFor allowed) (pid : Nat) :
    (terminate pid system).value.2.files.SwapsFor allowed := by
  unfold terminate
  simp only [Journaled.value_bind]
  split
  · exact swaps
  · rename_i process without removed
    apply reclaim_swapsFor
    rw [show without.files = system.files from congrArg Storage.files (remove?_storage removed)]
    exact swaps

theorem enroll_swapsFor (swaps : system.files.SwapsFor (· < system.nextPid)) (program : List UInt8)
    (priority : Nat) : (enroll program priority system).value.2.files.SwapsFor
      (· < (enroll program priority system).value.2.nextPid) := by
  cases full : system.memory.isFull with
  | false =>
      cases loaded : system.memory.load program system.nextPid priority with
      | error error => simpa [enroll, full, loaded] using swaps
      | ok placement =>
          simpa [enroll, full, loaded, register] using swaps.imp fun _ => Nat.lt_succ_of_lt
  | true =>
      rcases swaps.serviceable.storeSwap system.nextPid
        (program.take system.memory.segmentSize) with
        ⟨error, refused⟩ | ⟨stored, files, succeeded, _⟩
      · simpa [enroll, full, refused] using swaps
      · have tried := (swaps.imp fun _ => Nat.lt_succ_of_lt).storeSwap
          (Nat.lt_succ_self system.nextPid) (program.take system.memory.segmentSize)
        rw [succeeded] at tried
        simpa [enroll, full, succeeded, register] using tried

/-- What an interrupt does to the swap files. -/
theorem respond_swapsFor {interrupt : Interrupt} (rostered : system.Rostered)
    (swaps : system.files.SwapsFor (· < system.nextPid))
    (responds : system.Responds interrupt (system.respond interrupt)) :
    (system.respond interrupt).files.SwapsFor (· < (system.respond interrupt).nextPid) := by
  have own : ∀ process ∈ system.processes, process.pid < system.nextPid := by
    intro process member
    exact rostered.pid_lt_nextPid (List.mem_append_left _ member)
  have given : ∀ pid, pid < system.nextPid → pid < (system.respond interrupt).nextPid := by
    intro pid small
    rcases responds.change with retains | enrolls
    · exact retains.nextPid ▸ small
    · rw [enrolls.nextPid]
      exact Nat.lt_succ_of_lt small
  cases interrupt with
  | timer => exact swaps
  | keyboard key => exact swaps
  | loadProgram text priority =>
      rw [respond]
      cases ProgramText.parse text with
      | error error => exact swaps
      | ok program => exact enroll_swapsFor swaps program (priority.getD defaultPriority)
  | runProgram pid =>
      refine FileSystem.SwapsFor.imp ?_ given
      rw [respond]
      cases activated : system.activate? pid with
      | none => exact swaps
      | some next =>
          change next.files.SwapsFor _
          rw [show next.files = system.files from congrArg Storage.files (activate?_storage activated)]
          exact swaps
  | breakProgram pid => exact (terminate_swapsFor swaps pid).imp given
  | errProgram pid => exact (terminate_swapsFor swaps pid).imp given
  | requestClearMemory =>
      refine FileSystem.SwapsFor.imp ?_ given
      rw [respond]
      cases cleared : system.clearMemory? with
      | none => exact swaps
      | some outcome =>
          rcases clearMemory?_eq_some cleared with ⟨_, _, next_eq⟩
          dsimp only
          rw [next_eq]
          exact swaps
  | contextSwitch => exact (contextSwitch_swapsFor swaps own).imp given
  | runAllPrograms =>
      refine FileSystem.SwapsFor.imp ?_ given
      rw [respond]
      split
      · exact swaps
      · rcases activateAll_eq system with ⟨queue, activated, _⟩
        rw [activated]
        exact swaps
  | killProgram pid => exact (terminate_swapsFor swaps pid).imp given
  | fileSystem request => exact swaps.serve request
  | unrecognized number => exact swaps

end System

namespace Kernel

variable {config : Config} {kernel : Kernel} {history : List Cycle}

namespace Steady

theorem swapsFor_pulse (steady : kernel.Steady history)
    (swaps : kernel.system.files.SwapsFor (· < kernel.system.nextPid)) :
    kernel.pulse.value.system.files.SwapsFor (· < kernel.pulse.value.system.nextPid) := by
  have pulses := kernel.pulse_pulses
  generalize kernel.pulse.value = next at pulses ⊢
  cases pulses with
  | stopped => exact swaps
  | idles => exact swaps
  | handles interrupt rest running queue =>
      have responds := steady.responds queue
      rw [system_handle] at responds ⊢
      exact System.respond_swapsFor steady.rostered swaps responds
  | executes running quiet busy =>
      have own : ∀ process ∈ kernel.system.ready ++ kernel.system.resident,
          process.pid < kernel.system.nextPid := by
        intro process member
        apply steady.rostered.pid_lt_nextPid
        apply List.mem_append_left
        rw [System.processes, List.append_assoc]
        exact List.mem_append_right _ member
      have dispatchedSwaps := System.dispatch_swapsFor swaps own
      rcases System.dispatch_retains steady.rostered.toInPlace with
        ⟨result, system, dispatched, _, retains, failed⟩
      rw [dispatched, ← retains.nextPid] at dispatchedSwaps
      rcases execute_cases running quiet busy dispatched failed with
        ⟨_, _, next_eq⟩ | ⟨process, _, _, next_eq⟩
      · rw [next_eq]
        exact dispatchedSwaps
      · rw [next_eq]
        exact dispatchedSwaps

theorem swapsFor_obey (steady : kernel.Steady history)
    (swaps : kernel.system.files.SwapsFor (· < kernel.system.nextPid)) (command : Command) :
    (kernel.obey command).system.files.SwapsFor (· < (kernel.obey command).system.nextPid) := by
  cases command with
  | pulse => exact steady.swapsFor_pulse swaps
  | enqueue interrupt => exact swaps
  | setSchedule schedule => exact swaps
  | setQuantum quantum => exact swaps

end Steady

theorem swapsFor_booted (valid : config.validate = .ok ()) (format : Bool) :
    (booted config format).system.files.SwapsFor (· < (booted config format).system.nextPid) := by
  have sound := (booted_spec valid format).1.sound
  have nobody := (booted_spec valid format).2.1
  refine ⟨sound.owns.serviceable, ?_⟩
  intro pid image found
  have member := sound.owns.swapped pid image found
  simp [(List.append_eq_nil_iff.mp nobody).1] at member

/-- In every state that can be reached swap files are active under numbers that were given out. -/
theorem Reached.swapsFor (valid : config.validate = .ok ()) (reached : kernel.Reached config) :
    kernel.system.files.SwapsFor (· < kernel.system.nextPid) := by
  rcases reached with ⟨format, commands, rfl⟩
  exact (steady_booted config format).along
    (fun kernel _ => kernel.system.files.SwapsFor (· < kernel.system.nextPid))
    (swapsFor_booted valid format) fun command _ steady swaps => steady.swapsFor_obey swaps command

/-- No swap file is active for the process that is admitted next. -/
theorem Reached.unswapped_nextPid (valid : config.validate = .ok ())
    (reached : kernel.Reached config) : kernel.system.files.swapImage kernel.system.nextPid = none := by
  cases found : kernel.system.files.swapImage kernel.system.nextPid with
  | none => rfl
  | some image =>
      have given := (reached.swapsFor valid).swapped _ image found
      exact absurd given (Nat.lt_irrefl _)

end Kernel

end Timeshare
