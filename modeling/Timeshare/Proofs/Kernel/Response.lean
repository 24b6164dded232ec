import Timeshare.Proofs.Kernel.Run
import Timeshare.Proofs.System.Roster

/-!
# Responding to interrupts

`System.respond` is what becomes of the system when an interrupt is handled; the rest of handling it
is talk.  Every interrupt keeps the roster of processes, formatting the disk included: at most it
admits one more process, and it brings nobody back who has ended.
-/

namespace Timeshare

/-! ## The effect of an interrupt on the system -/

namespace System

/-- Puts the processor to work. -/
def wake (system : System) : System :=
  { system with cpu := system.cpu.setExecuting true }

/-- The system after an interrupt was handled. -/
def respond (interrupt : Interrupt) (system : System) : System :=
  match interrupt with
  | .timer => system
  | .keyboard _ => system
  | .loadProgram text priority =>
    match ProgramText.parse text with
    | .error _ => system
    | .ok program => (system.enroll program (priority.getD defaultPriority)).value.2
  | .runProgram pid =>
    match system.activate? pid with
    | some activated => activated.wake
    | none => system
  | .breakProgram pid => (system.terminate pid).value.2
  | .errProgram pid => (system.terminate pid).value.2
  | .requestClearMemory =>
    match system.clearMemory? with
    | some (_, cleared) => cleared
    | none => system
  | .contextSwitch => system.contextSwitch.value.2
  | .runAllPrograms =>
    if system.activateAll.1.isEmpty then system else system.activateAll.2.wake
  | .killProgram pid => (system.terminate pid).value.2
  | .fileSystem request =>
    { system with files := (FileSystem.perform (FileSystem.serve request) system.files).2 }
  | .unrecognized _ => { system with cpu := system.cpu.setExecuting false }

end System

namespace Kernel

theorem system_terminate (pid : Nat) (kernel : Kernel) :
    (kernel.terminate pid).value.2.system = (kernel.system.terminate pid).value.2 := by
  simp only [terminate, Journaled.value_bind]
  split
  · exact system_reportFinished pid _
  · rfl

theorem system_serveFiles (request : FileRequest) (kernel : Kernel) :
    (kernel.serveFiles request).value.system = kernel.system.respond (.fileSystem request) := by
  rw [System.respond, serveFiles]
  split
  · rename_i served
    rw [served]
    rfl
  · rename_i served
    rw [served]
    rfl

theorem system_contextSwitch (kernel : Kernel) :
    kernel.contextSwitch.value.system = kernel.system.contextSwitch.value.2 := by
  simp only [contextSwitch, Journaled.value_bind]
  split
  · rfl
  · rfl
  · exact system_dispatchFailed _ _

theorem system_handle (interrupt : Interrupt) (kernel : Kernel) :
    (kernel.handle interrupt).value.system = kernel.system.respond interrupt := by
  cases interrupt with
  | timer => rfl
  | keyboard key => rfl
  | loadProgram text priority =>
      simp only [handle, Journaled.value_bind, loadProgram, System.respond]
      cases ProgramText.parse text with
      | error error => rfl
      | ok program =>
          simp only [Journaled.value_bind]
          split
          · rfl
          · rfl
  | runProgram pid =>
      simp only [handle, Journaled.value_bind, runProgram, System.respond]
      cases kernel.system.activate? pid with
      | none => rfl
      | some activated => exact system_didActivate _
  | breakProgram pid => exact (system_endProgram pid kernel).trans (system_terminate pid kernel)
  | errProgram pid => exact (system_endProgram pid kernel).trans (system_terminate pid kernel)
  | requestClearMemory =>
      simp only [handle, Journaled.value_bind, clearMemory, System.respond]
      cases kernel.system.clearMemory? with
      | none => rfl
      | some cleared => rfl
  | contextSwitch => exact system_contextSwitch kernel
  | runAllPrograms =>
      simp only [handle, Journaled.value_bind, runAllPrograms, System.respond]
      cases kernel.system.activateAll.1.isEmpty with
      | true => rfl
      | false => exact system_didActivate _
  | killProgram pid => exact (system_killProgram pid kernel).trans (system_terminate pid kernel)
  | fileSystem request => exact system_serveFiles request kernel
  | unrecognized number => rfl

end Kernel

/-! ## What an interrupt does to the roster -/

namespace System

variable {system next : System} {interrupt : Interrupt}

/-- The roster is kept after an interrupt, and the processor has the registers of the process that
executes. -/
structure Responds (system : System) (interrupt : Interrupt) (next : System) : Prop where
  rostered : next.Rostered
  settled : next.Settled
  awake : next.Awake
  ended : ∀ pid, interrupt.ended? = some pid → pid ∉ next.processes.map Process.pid
  change : system.Retains next ∨ system.Enrolls next

theorem Responds.of_retains (rostered : system.Rostered) (settled : system.Settled)
    (awake : system.Awake) (endless : interrupt.ended? = none) (inPlace : next.InPlace)
    (retains : system.Retains next) (undisturbed : system.Undisturbed next) :
    system.Responds interrupt next where
  rostered := rostered.retain retains inPlace
  settled := settled.of_undisturbed undisturbed
  awake := awake.of_undisturbed undisturbed
  ended := by simp [endless]
  change := Or.inl retains

/-- Waking the processor changes nothing that matters. -/
theorem Responds.wake (responds : system.Responds interrupt next) :
    system.Responds interrupt next.wake := by
  refine ⟨⟨⟨responds.rostered.executing, responds.rostered.ready, responds.rostered.resident,
    responds.rostered.terminated, responds.rostered.ascending⟩, responds.rostered.numbers⟩,
    responds.settled, responds.awake, responds.ended, ?_⟩
  rcases responds.change with retains | enrolls
  · exact Or.inl (retains.trans (.of_processes rfl .rfl rfl rfl))
  · exact Or.inr ⟨enrolls.nextPid, enrolls.careers, enrolls.terminated, enrolls.serviceable⟩

theorem terminate_responds {pid : Nat} (rostered : system.Rostered) (awake : system.Awake)
    (settled : system.Settled ∨ ∃ process, system.executing = some process ∧ process.pid = pid)
    (ends : ∀ other, interrupt.ended? = some other → other = pid) :
    system.Responds interrupt (terminate pid system).value.2 := by
  rcases terminate_retains rostered pid with
    ⟨result, next, terminated, inPlace, retains, gone, undisturbed⟩
  rw [terminated]
  refine ⟨rostered.retain retains inPlace, ?_, awake.of_undisturbed undisturbed, ?_, Or.inl retains⟩
  · rcases settled with settled | ⟨process, executes, rfl⟩
    · exact settled.of_undisturbed undisturbed
    · rcases undisturbed with idle | ⟨same, _⟩
      · exact .of_idle idle
      · apply absurd _ gone
        apply List.mem_map_of_mem
        simp [processes, same, executes]
  · intro other ending
    rw [ends other ending]
    exact gone

/-- If the processor has lost the registers of the executing process, the interrupt has to be the end
of it. -/
theorem respond_responds (interrupt : Interrupt) (rostered : system.Rostered) (awake : system.Awake)
    (settled : system.Settled ∨ ∃ process,
      system.executing = some process ∧ interrupt.ended? = some process.pid) :
    system.Responds interrupt (system.respond interrupt) := by
  have settled_of_endless (endless : interrupt.ended? = none) : system.Settled := by
    rcases settled with settled | ⟨process, _, ends⟩
    · exact settled
    · simp [endless] at ends
  have settled_of_ended {pid : Nat} (ends : interrupt.ended? = some pid) :
      system.Settled ∨ ∃ process, system.executing = some process ∧ process.pid = pid := by
    rcases settled with settled | ⟨process, executing, same⟩
    · exact Or.inl settled
    · exact Or.inr ⟨process, executing, Option.some.inj (same.symm.trans ends)⟩
  have unchanged (endless : interrupt.ended? = none) : system.Responds interrupt system :=
    .of_retains rostered (settled_of_endless endless) awake endless rostered.toInPlace (.refl system)
      (Or.inr ⟨rfl, rfl, rfl⟩)
  cases interrupt with
  | timer => exact unchanged rfl
  | keyboard key => exact unchanged rfl
  | loadProgram text priority =>
      rw [respond]
      cases ProgramText.parse text with
      | error error => exact unchanged rfl
      | ok program =>
          rcases enroll_enrolls rostered program (priority.getD defaultPriority) with
            ⟨error, next, refused, relocates⟩ | ⟨next, enrolled, inPlace, enrolls, undisturbed⟩
          · simp only [refused]
            exact .of_retains rostered (settled_of_endless rfl) awake rfl
              (relocates.inPlace rostered.toInPlace) relocates.retains
              (Or.inr ⟨relocates.executing, by rw [relocates.cpu], by rw [relocates.cpu]⟩)
          · simp only [enrolled]
            exact ⟨rostered.enroll enrolls inPlace,
              (settled_of_endless rfl).of_undisturbed undisturbed,
              awake.of_undisturbed undisturbed, by simp [Interrupt.ended?], Or.inr enrolls⟩
  | runProgram pid =>
      rw [respond]
      cases activated : system.activate? pid with
      | none => exact unchanged rfl
      | some next =>
          rcases activate?_retains rostered.toInPlace activated with
            ⟨inPlace, retains, executing, cpu⟩
          apply Responds.wake
          exact .of_retains rostered (settled_of_endless rfl) awake rfl inPlace retains
            (Or.inr ⟨executing, by rw [cpu], by rw [cpu]⟩)
  | breakProgram pid =>
      exact terminate_responds rostered awake (settled_of_ended rfl) (by simp [Interrupt.ended?])
  | errProgram pid =>
      exact terminate_responds rostered awake (settled_of_ended rfl) (by simp [Interrupt.ended?])
  | requestClearMemory =>
      rw [respond]
      cases cleared : system.clearMemory? with
      | none => exact unchanged rfl
      | some outcome =>
          rcases clearMemory?_retains rostered.toInPlace cleared with ⟨inPlace, retains, idle⟩
          exact .of_retains rostered (settled_of_endless rfl) awake rfl inPlace retains (Or.inl idle)
  | contextSwitch =>
      rcases contextSwitch_retains rostered.toInPlace (settled_of_endless rfl) awake with
        ⟨result, next, switched, inPlace, retains, settledNext, awakeNext⟩
      rw [respond, switched]
      exact ⟨rostered.retain retains inPlace, settledNext, awakeNext, by simp [Interrupt.ended?],
        Or.inl retains⟩
  | runAllPrograms =>
      rcases activateAll_retains rostered.toInPlace with ⟨inPlace, retains, executing, cpu⟩
      rw [respond]
      split
      · exact unchanged rfl
      · apply Responds.wake
        exact .of_retains rostered (settled_of_endless rfl) awake rfl inPlace retains
          (Or.inr ⟨executing, by rw [cpu], by rw [cpu]⟩)
  | killProgram pid =>
      exact terminate_responds rostered awake (Or.inl (settled_of_endless rfl))
        (by simp [Interrupt.ended?])
  | fileSystem request =>
      have relocates : system.Relocates (system.respond (.fileSystem request)) :=
        .of_storage system system.memory fun usable => usable.after_serve request
      exact .of_retains rostered (settled_of_endless rfl) awake rfl
        (relocates.inPlace rostered.toInPlace) relocates.retains (Or.inr ⟨rfl, rfl, rfl⟩)
  | unrecognized number =>
      exact .of_retains rostered (settled_of_endless rfl) awake rfl
        ⟨rostered.executing, rostered.ready, rostered.resident, rostered.terminated,
          rostered.ascending⟩ (.of_processes rfl .rfl rfl rfl) (Or.inr ⟨rfl, rfl, rfl⟩)

/-- Nobody is brought back, and the one who is new has the next number. -/
theorem Responds.living (responds : system.Responds interrupt next) {pid : Nat}
    (member : pid ∈ next.processes.map Process.pid) :
    pid = system.nextPid ∨ pid ∈ system.processes.map Process.pid := by
  rcases responds.change with retains | enrolls
  · exact Or.inr (responds.rostered.living_of_retains retains member)
  · have before := enrolls.pids.mem_iff.mp (mem_everyone_iff.mpr (Or.inl member))
    rcases List.mem_cons.mp before with rfl | given
    · exact Or.inl rfl
    · rcases mem_everyone_iff.mp given with living | ended
      · exact Or.inr living
      · rw [← enrolls.terminated] at ended
        exact absurd ended (responds.rostered.not_ended member)

end System

end Timeshare
