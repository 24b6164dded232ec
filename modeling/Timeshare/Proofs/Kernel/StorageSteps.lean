import Mathlib.Logic.Relation
import Timeshare.Proofs.FileSystem.SwapsOnly
import Timeshare.Proofs.Kernel.Response

/-!
# Memory and disk step by step

All that the kernel ever does to memory and disk, requests of users and formatting apart, is to
place images, clear segments, write bytes for a process, and store and fetch swap files.  Whatever
each of these keeps is therefore kept by every pulse of the clock.
-/

namespace Timeshare

open FileSystem (perform)

namespace Storage

/-- One thing is done to memory or to disk.  Swap files are stored and fetched, or refused. -/
inductive Step (storage : Storage) : Storage → Prop
  | place {process : Process} {image : List UInt8} {placement : Placement}
      (placed : storage.memory.place process image = .ok placement) :
      Step storage ⟨placement.memory, storage.files⟩
  | vacate (pid index : Nat) : Step storage ⟨storage.memory.vacate pid index, storage.files⟩
  | write {memory : Memory} {segment : Segment}
      (within : storage.memory.WithinSegment memory segment) : Step storage ⟨memory, storage.files⟩
  | storeSwap (pid : Nat) (image : List UInt8) :
      Step storage ⟨storage.memory, (perform (FileSystem.storeSwap pid image) storage.files).2⟩
  | deleteSwap (pid : Nat) :
      Step storage ⟨storage.memory, (perform (FileSystem.deleteSwap pid) storage.files).2⟩

abbrev Evolves : Storage → Storage → Prop :=
  Relation.ReflTransGen Step

/-! ## What the steps keep -/

theorem Step.size {storage next : Storage} (step : storage.Step next) :
    next.memory.store.size = storage.memory.store.size := by
  cases step with
  | storeSwap => rfl
  | deleteSwap => rfl
  | vacate pid index => exact Memory.size_vacate storage.memory pid index
  | write within => exact within.size
  | place placed => exact Memory.size_of_place placed

/-- A disk on which there are only swap files stays one. -/
theorem Step.holdsSwaps {storage next : Storage} {geometry : Geometry} {formatted : Bool}
    (step : storage.Step next) (holds : storage.files.HoldsSwaps geometry formatted) :
    next.files.HoldsSwaps geometry formatted := by
  cases step with
  | place => exact holds
  | vacate => exact holds
  | write => exact holds
  | storeSwap pid image => exact holds.storeSwap pid image
  | deleteSwap pid => exact holds.deleteSwap pid

namespace Evolves

variable {storage next : Storage}

theorem size (evolves : storage.Evolves next) :
    next.memory.store.size = storage.memory.store.size := by
  induction evolves with
  | refl => rfl
  | tail _ step hypothesis => exact step.size.trans hypothesis

theorem holdsSwaps (evolves : storage.Evolves next) {geometry : Geometry} {formatted : Bool}
    (holds : storage.files.HoldsSwaps geometry formatted) :
    next.files.HoldsSwaps geometry formatted := by
  induction evolves with
  | refl => exact holds
  | tail _ step hypothesis => exact step.holdsSwaps hypothesis

end Evolves

end Storage

/-! ## Memory -/

namespace Memory

variable {memory : Memory}

theorem evacuate_evolves (memory : Memory) (pid : Nat) (files : FileSystem) :
    Storage.Evolves ⟨memory, files⟩ ⟨memory.evacuate pid, files⟩ := by
  unfold evacuate
  split
  · rename_i index _
    exact .single (.vacate pid index)
  · exact .refl

theorem evacuateAll_evolves (memory : Memory) (files : FileSystem) :
    Storage.Evolves ⟨memory, files⟩ ⟨memory.evacuateAll, files⟩ := by
  have each (pids : List Nat) (memory : Memory) :
      Storage.Evolves ⟨memory, files⟩ ⟨pids.foldl evacuate memory, files⟩ := by
    induction pids generalizing memory with
    | nil => exact .refl
    | cons pid rest hypothesis =>
        exact (memory.evacuate_evolves pid files).trans (hypothesis (memory.evacuate pid))
  exact each memory.residentPids memory

end Memory

/-! ## Operations of the system -/

namespace System

theorem rollOut_evolves (victim : Process) (system : System) :
    system.storage.Evolves (rollOut victim system).value.2.2.storage := by
  cases withdrawn : system.memory.withdraw victim with
  | error error =>
      simp only [rollOut, withdrawn]
      exact .refl
  | ok withdrawal =>
      have cleared : system.storage.Evolves ⟨withdrawal.memory, system.files⟩ := by
        rcases Memory.withdraw_eq_ok withdrawn with ⟨index, image, rfl⟩
        exact .single (.vacate victim.pid index)
      have tried := cleared.tail (.storeSwap victim.pid withdrawal.image)
      rcases stores : perform (FileSystem.storeSwap victim.pid withdrawal.image) system.files with
        ⟨error | stored, files⟩
      · simp only [stores] at tried
        cases placed : withdrawal.memory.place withdrawal.process withdrawal.image with
        | error failure => simpa [rollOut, withdrawn, stores, placed] using tried
        | ok placement =>
            have restored := tried.tail (.place placed)
            simpa [rollOut, withdrawn, stores, placed] using restored
      · simpa [rollOut, withdrawn, stores] using tried

theorem makeRoom_evolves (system : System) :
    system.storage.Evolves system.makeRoom.value.2.storage := by
  unfold makeRoom
  split
  · rename_i before victim after _
    simpa using rollOut_evolves victim system
  · split
    · rename_i before victim after _
      simpa using rollOut_evolves victim system
    · exact .refl

theorem fetchImage_evolves (process : Process) (system : System) :
    system.storage.Evolves (fetchImage process system).value.2.storage := by
  have tried : system.storage.Evolves _ := .single (.deleteSwap process.pid)
  rcases deletes : perform (FileSystem.deleteSwap process.pid) system.files with
    ⟨error | fetched, files⟩
  · simp only [deletes] at tried
    simpa [fetchImage, deletes] using tried
  · simp only [deletes] at tried
    cases placed : system.memory.place process fetched.image with
    | error error => simpa [fetchImage, deletes, placed] using tried
    | ok placement =>
        have brought := tried.tail (.place placed)
        simpa [fetchImage, deletes, placed] using brought

theorem rollIn_evolves (process : Process) (system : System) :
    system.storage.Evolves (rollIn process system).value.2.storage := by
  unfold rollIn
  split
  · exact .refl
  · split
    · have made := makeRoom_evolves system
      simp only [Journaled.value_bind]
      split
      · exact made
      · exact made.trans (fetchImage_evolves process _)
    · exact fetchImage_evolves process system

theorem enroll_evolves (program : List UInt8) (priority : Nat) (system : System) :
    system.storage.Evolves (enroll program priority system).value.2.storage := by
  cases full : system.memory.isFull with
  | true =>
      have tried : system.storage.Evolves _ :=
        .single (.storeSwap system.nextPid (program.take system.memory.segmentSize))
      rcases stores : perform (FileSystem.storeSwap system.nextPid
        (program.take system.memory.segmentSize)) system.files with ⟨error | stored, files⟩
      · simp only [stores] at tried
        simpa [enroll, full, stores] using tried
      · simp only [stores] at tried
        simpa [enroll, full, stores, register] using tried
  | false =>
      cases loaded : system.memory.load program system.nextPid priority with
      | error error =>
          simp only [enroll, full, loaded]
          exact .refl
      | ok placement =>
          have placed : system.storage.Evolves _ := .single (.place loaded)
          simpa [enroll, full, loaded, register] using placed

theorem reclaim_evolves (process : Process) (system : System) :
    system.storage.Evolves (reclaim process system).value.storage := by
  cases inMemory : process.isInMemory with
  | true => simpa [reclaim, inMemory] using system.memory.evacuate_evolves process.pid system.files
  | false =>
      cases active : system.files.hasSwap process.pid with
      | false =>
          simp only [reclaim, inMemory, active]
          exact .refl
      | true =>
          have tried : system.storage.Evolves _ := .single (.deleteSwap process.pid)
          rcases deletes : perform (FileSystem.deleteSwap process.pid) system.files with
            ⟨error | fetched, files⟩
          · simp only [deletes] at tried
            simpa [reclaim, inMemory, active, deletes] using tried
          · simp only [deletes] at tried
            simpa [reclaim, inMemory, active, deletes] using tried

theorem dispatch_evolves (system : System) :
    system.storage.Evolves system.dispatch.value.2.storage := by
  unfold dispatch
  split
  · rename_i next rest executing ready
    have brought := rollIn_evolves next { system with ready := rest }
    simp only [Journaled.value_bind]
    split
    · exact brought
    · simp only [Journaled.value_bind]
      exact brought.trans (reclaim_evolves next _)
  · exact .refl

theorem storage_resume (system : System) : system.resume.storage = system.storage := by
  unfold resume
  split
  · rfl
  · rfl

theorem contextSwitch_evolves (system : System) :
    system.storage.Evolves system.contextSwitch.value.2.storage := by
  unfold contextSwitch
  dsimp only
  split
  · exact .refl
  · rcases switchOut_eq { system with policy := system.policy.didSwitch } with
      ⟨queue, switched, _⟩
    simp only [Journaled.value_bind, switched]
    have given := dispatch_evolves { system with
      policy := system.policy.didSwitch, executing := none, ready := queue }
    split
    · exact given
    · simpa [storage_resume] using given

theorem remove?_storage {pid : Nat} {system next : System} {process : Process}
    (removed : (remove? pid system).value = some (process, next)) :
    next.storage = system.storage := by
  unfold remove? at removed
  split at removed
  · simp only [Journaled.value_bind] at removed
    cases removed
    rfl
  · split at removed
    · cases removed
      rfl
    · unfold takeResident? at removed
      split at removed
      · cases removed
        rfl
      · cases removed

theorem terminate_evolves (pid : Nat) (system : System) :
    system.storage.Evolves (terminate pid system).value.2.storage := by
  unfold terminate
  simp only [Journaled.value_bind]
  split
  · exact .refl
  · rename_i process without removed
    have reclaimed := reclaim_evolves process without
    rw [remove?_storage removed] at reclaimed
    exact reclaimed

theorem clearMemory?_evolves {pids : List Nat} {system next : System}
    (cleared : system.clearMemory? = some (pids, next)) : system.storage.Evolves next.storage := by
  rcases clearMemory?_eq_some cleared with ⟨_, _, rfl⟩
  exact system.memory.evacuateAll_evolves system.files

theorem activate?_storage {pid : Nat} {system next : System}
    (activated : system.activate? pid = some next) : next.storage = system.storage := by
  unfold activate? takeResident? at activated
  split at activated
  · rename_i process without taken
    cases activated
    split at taken
    · cases taken
      rfl
    · cases taken
  · cases activated

/-- What an interrupt does to memory and disk, requests of users apart. -/
theorem respond_evolves {interrupt : Interrupt} (system : System)
    (own : ∀ request, interrupt ≠ .fileSystem request) :
    system.storage.Evolves (system.respond interrupt).storage := by
  cases interrupt with
  | timer => exact .refl
  | keyboard key => exact .refl
  | loadProgram text priority =>
      rw [respond]
      cases ProgramText.parse text with
      | error error => exact .refl
      | ok program => exact enroll_evolves program (priority.getD defaultPriority) system
  | runProgram pid =>
      rw [respond]
      cases activated : system.activate? pid with
      | none => exact .refl
      | some next =>
          change system.storage.Evolves next.storage
          rw [activate?_storage activated]
  | breakProgram pid => exact terminate_evolves pid system
  | errProgram pid => exact terminate_evolves pid system
  | requestClearMemory =>
      rw [respond]
      cases cleared : system.clearMemory? with
      | none => exact .refl
      | some outcome => exact clearMemory?_evolves cleared
  | contextSwitch => exact contextSwitch_evolves system
  | runAllPrograms =>
      rw [respond]
      split
      · exact .refl
      · rcases activateAll_eq system with ⟨queue, activated, _⟩
        rw [activated]
        exact .refl
  | killProgram pid => exact terminate_evolves pid system
  | fileSystem request => exact absurd rfl (own request)
  | unrecognized number => exact .refl

end System

/-! ## Pulses -/

namespace Kernel

variable {kernel : Kernel}

theorem execute_evolves (order : kernel.InOrder) (running : kernel.running = true)
    (quiet : kernel.interrupts = []) (busy : kernel.system.isIdle = false) :
    kernel.system.storage.Evolves
      ({ kernel with clock := kernel.clock + 1 }.execute).value.system.storage := by
  rcases System.dispatch_spec order.sound with
    ⟨result, system, dispatched, sound, _, _, _, failed, _⟩
  have given := System.dispatch_evolves kernel.system
  rw [dispatched] at given
  rcases execute_cases running quiet busy dispatched failed with
    ⟨_, _, next_eq⟩ | ⟨process, executing, _, next_eq⟩
  · rw [next_eq]
    exact given
  · -- The process that runs has a segment, and its cycle keeps to it.
    have inMemory := sound.running process executing
    have member : process ∈ system.processes := by simp [System.processes, executing]
    cases sound.owns.keeps process member with
    | onDisk _ residence => simp [Process.isInMemory, residence] at inMemory
    | inMemory index segment residence segment_eq held located unswapped =>
        have within := Cpu.cycle_within segment_eq (sound.owns.inside located)
          (system.cpu.setExecuting true)
        rw [next_eq]
        exact given.tail (.write within)

theorem pulse_evolves (order : kernel.InOrder)
    (own : ∀ request, kernel.handled? .pulse ≠ some (.fileSystem request)) :
    kernel.system.storage.Evolves kernel.pulse.value.system.storage := by
  have pulses := kernel.pulse_pulses
  generalize kernel.pulse.value = next at pulses ⊢
  cases pulses with
  | stopped => exact .refl
  | idles => exact .refl
  | handles interrupt rest running queue =>
      rw [system_handle]
      apply System.respond_evolves
      rintro request rfl
      exact own request (by simp [handled?, running, queue])
  | executes running quiet busy => exact execute_evolves order running quiet busy

end Kernel

end Timeshare
