import Timeshare.Kernel.Clock
import Timeshare.Proofs.FileSystem.Perform
import Timeshare.Proofs.System.Dispatch

/-!
# Admission, file requests and cycles keep the system in order

What remains besides the operations on queues: a program is admitted, a user's request is served,
and the executing process runs a cycle.  `System.Admits` and `System.Runs` say what the last and the
first of them do to the progress of the processes and to their images.
-/

namespace Timeshare

/-! ## Memory changed inside a segment -/

namespace Memory.WithinSegment

variable {memory next : Memory} {segment : Segment} {index pid : Nat}

theorem spares (within : memory.WithinSegment next segment) (tidy : memory.Tidy)
    (found : memory.partitions[index]? = some ⟨segment, .heldBy pid⟩) {other : Nat}
    (different : other ≠ pid) (files : FileSystem) :
    Storage.Spares ⟨memory, files⟩ ⟨next, files⟩ other where
  held := within.held
  bytes := by
    intro place there held located
    apply within.bytes tidy (Memory.located_of_partition found) (fun equal => ?_) located
    exact different (tidy.single other pid index (equal ▸ held) (tidy.held_of_partition found))
  swapped := rfl

end Memory.WithinSegment

namespace System

variable {system next : System} {process : Process}

/-! ## Admission -/

/-- A program was admitted as the process of the next number, and nothing else happened. -/
structure Admits (system next : System) (program : List UInt8) : Prop where
  nextPid : next.nextPid = system.nextPid + 1
  progress : (next.everyone.map Process.progress).Perm
    (⟨system.nextPid, .cleared, none, 0⟩ :: system.everyone.map Process.progress)
  living : ∀ pid ∈ next.processes.map Process.pid,
    pid = system.nextPid ∨ pid ∈ system.processes.map Process.pid
  segments : next.memory.segments = system.memory.segments
  images : ∀ length, system.memory.Uniform length → ∀ pid, pid ≠ system.nextPid →
    next.storage.image? length pid = system.storage.image? length pid
  image : ∀ length, system.memory.Uniform length →
    next.storage.image? length system.nextPid = some (padded length program)

/-- The next number is that of no process yet. -/
theorem Sound.nextPid_not_mem (sound : system.Sound) :
    system.nextPid ∉ system.everyone.map Process.pid := by
  intro member
  exact absurd (sound.numbered _ member) (Nat.lt_irrefl _)

theorem Sound.nextPid_not_living (sound : system.Sound) :
    system.nextPid ∉ system.processes.map Process.pid := by
  intro member
  apply sound.nextPid_not_mem
  rw [everyone, List.map_append]
  exact List.mem_append_left _ member

theorem admit_spec (sound : system.Sound) (program : List UInt8) (priority : Nat) :
    (∃ error, (enroll program priority system).value = (.error error, system)) ∨
    ∃ next, (enroll program priority system).value = (.ok system.nextPid, next) ∧ next.Sound ∧
      system.Admits next program ∧ next.executing = system.executing ∧ next.cpu = system.cpu := by
  rcases enroll_spec sound.owns sound.nextPid_not_living program priority with
    refused | ⟨process, memory, files, enrolled, same, owns, segments, spares, image⟩
  · exact Or.inl refused
  · have pid : process.pid = system.nextPid := congrArg Process.pid same
    have progress : process.progress = ⟨system.nextPid, .cleared, none, 0⟩ :=
      congrArg Process.progress same
    have fresh : process.fresh = true := congrArg Process.fresh same
    let next : System := { system with
      memory, files, nextPid := system.nextPid + 1, resident := system.resident ++ [process] }
    have order : next.processes.Perm (process :: system.processes) := by
      rw [processes, ← List.append_assoc]
      exact List.perm_append_singleton process system.processes
    have orderAll : next.everyone.Perm (process :: system.everyone) :=
      order.append_right system.terminated
    refine Or.inr ⟨next, enrolled, ?_, ?_, rfl, rfl⟩
    · refine ⟨owns.perm order.symm, sound.running, ?_, sound.ended, ?_, ?_⟩
      · intro flag member
        simp only [next, ← List.append_assoc, List.map_append, List.mem_append, List.map_cons,
          List.map_nil, List.mem_singleton] at member
        rcases member with queued | rfl
        · exact sound.waiting flag (by simpa using queued)
        · exact fresh
      · rw [(orderAll.map Process.pid).nodup_iff, List.map_cons, List.nodup_cons, pid]
        exact ⟨sound.nextPid_not_mem, sound.distinct⟩
      · intro number member
        rcases List.mem_cons.mp ((orderAll.map Process.pid).mem_iff.mp member) with rfl | before
        · rw [pid]
          exact Nat.lt_succ_self _
        · exact Nat.lt_succ_of_lt (sound.numbered number before)
    · refine ⟨rfl, ?_, ?_, segments, ?_, image⟩
      · rw [← progress]
        exact orderAll.map Process.progress
      · intro number member
        rcases List.mem_cons.mp ((order.map Process.pid).mem_iff.mp member) with rfl | before
        · exact Or.inl pid
        · exact Or.inr before
      · intro length _ number different
        exact (spares number different).image? segments length

/-! ## File requests -/

theorem files_spec (sound : system.Sound) {files : FileSystem} (serviceable : files.Serviceable)
    (swapped : ∀ pid, files.swapImage pid = system.files.swapImage pid) :
    Sound { system with files } ∧ system.Carries { system with files } := by
  have spares (pid : Nat) : system.storage.Spares ⟨system.memory, files⟩ pid :=
    ⟨rfl, fun _ _ _ _ => rfl, swapped pid⟩
  have carries : system.Carries { system with files } :=
    ⟨rfl, .rfl, fun _ member => member, rfl, fun length _ pid _ => (spares pid).image? rfl length⟩
  refine ⟨?_, carries⟩
  apply sound.carry carries _ sound.running sound.waiting sound.ended
  refine ⟨sound.owns.tidy, serviceable, sound.owns.distinct, ?_, sound.owns.held, ?_⟩
  · intro process member
    exact (spares process.pid).keeps rfl (sound.owns.keeps process member)
  · intro pid image found
    exact sound.owns.swapped pid image (swapped pid ▸ found)

theorem Sound.unswapped_of_nobody (sound : system.Sound)
    (nobody : ∀ process ∈ system.processes, process.isOnDisk = false) (pid : Nat) :
    system.files.swapImage pid = none := by
  cases kept : system.files.swapImage pid with
  | none => rfl
  | some image =>
      rcases List.mem_map.mp (sound.owns.swapped pid image kept) with ⟨process, member, rfl⟩
      have inMemory := nobody process member
      cases sound.owns.keeps process member with
      | inMemory _ _ _ _ _ _ unswapped => simp [kept] at unswapped
      | onDisk _ residence => simp [Process.isOnDisk, residence] at inMemory

/-- While no process lies on disk the disk may be formatted. -/
theorem format_spec (sound : system.Sound)
    (nobody : ∀ process ∈ system.processes, process.isOnDisk = false) :
    ∃ report files, FileSystem.perform FileSystem.format system.files = (.ok report, files) ∧
      Sound { system with files } ∧ system.Carries { system with files } := by
  rcases sound.owns.serviceable.format with ⟨report, files, formatted, serviceable, dropped⟩
  refine ⟨report, files, formatted, ?_⟩
  apply files_spec sound serviceable
  intro pid
  rw [dropped, sound.unswapped_of_nobody nobody]

theorem serve_spec (sound : system.Sound) (request : FileRequest)
    (careful : request = .format → ∀ process ∈ system.processes, process.isOnDisk = false) :
    Sound { system with files := (FileSystem.perform (FileSystem.serve request) system.files).2 } ∧
      system.Carries { system with
        files := (FileSystem.perform (FileSystem.serve request) system.files).2 } := by
  by_cases format : request = .format
  · rcases format_spec sound (careful format) with ⟨report, files, formatted, kept⟩
    have served : FileSystem.perform (FileSystem.serve request) system.files =
        (.ok (.formatted report), files) := by
      rw [format]
      exact FileSystem.perform_bind_ok _ formatted
    rw [served]
    exact kept
  · rcases sound.owns.serviceable.serve format with ⟨serviceable, swapped⟩
    exact files_spec sound serviceable swapped

end System

/-! ## Cycles -/

/-- The process after a tick in the ready queue. -/
def Process.waited (process : Process) : Process :=
  { process with readyTicks := process.readyTicks + 1 }

/-- The process after a tick in which it ran. -/
def Process.ticked (process : Process) : Process :=
  { process with runningTicks := process.runningTicks + 1 }

@[simp]
theorem Process.pid_ticked (process : Process) : process.ticked.pid = process.pid := rfl

namespace System

variable {system next : System} {process : Process}

/-- The system after a cycle of the executing process that took a tick. -/
def afterCycle (cycle : Cycle) (policy : Policy) (system : System) : System :=
  { system with
    cpu := cycle.cpu
    memory := cycle.memory
    executing := some cycle.process
    policy }.countTick

/-- The executing process has run a cycle, and nothing else happened. -/
structure Runs (system next : System) (process : Process) (cycle : Cycle) : Prop where
  nextPid : next.nextPid = system.nextPid
  before : (system.everyone.map Process.progress).Perm
    (process.progress :: (system.ready ++ system.resident ++ system.terminated).map Process.progress)
  after : (next.everyone.map Process.progress).Perm
    (⟨process.pid, cycle.process.registers, cycle.process.lastInstruction, process.runningTicks + 1⟩ ::
      (system.ready ++ system.resident ++ system.terminated).map Process.progress)
  living : next.processes.map Process.pid = system.processes.map Process.pid
  segments : next.memory.segments = system.memory.segments
  images : ∀ length pid, pid ≠ process.pid →
    next.storage.image? length pid = system.storage.image? length pid
  image : ∀ length segment, process.segment = some segment →
    next.storage.image? length process.pid = some (cycle.memory.bytes segment)

theorem processes_afterCycle (cycle : Cycle) (policy : Policy) (system : System) :
    (system.afterCycle cycle policy).processes =
      cycle.process.ticked :: (system.ready.map Process.waited ++ system.resident) := by
  simp [processes, afterCycle, countTick, Process.ticked, Process.waited]

/-- The other processes have done nothing but wait. -/
theorem map_waited_append {α : Type} (view : Process → α)
    (blind : ∀ process, view process.waited = view process) (ready others : List Process) :
    (ready.map Process.waited ++ others).map view = (ready ++ others).map view := by
  simp [List.map_map, Function.comp_def, blind]

/-- Of all processes the one that ran has come further. -/
theorem progress_afterCycle (executing : system.executing = some process) {cpu : Cpu}
    {memory : Memory} {cycle : Cycle} (ran : cycle = cpu.cycle process memory) (policy : Policy) :
    system.everyone.map Process.progress =
        process.progress ::
          (system.ready ++ system.resident ++ system.terminated).map Process.progress ∧
      (system.afterCycle cycle policy).everyone.map Process.progress =
        ⟨process.pid, cycle.process.registers, cycle.process.lastInstruction,
            process.runningTicks + 1⟩ ::
          (system.ready ++ system.resident ++ system.terminated).map Process.progress := by
  constructor
  · simp [everyone, processes, executing]
  · rcases Cpu.cycle_process cpu process memory with ⟨registers, last, process_eq⟩
    rw [← ran] at process_eq
    have progress : cycle.process.ticked.progress = ⟨process.pid, cycle.process.registers,
        cycle.process.lastInstruction, process.runningTicks + 1⟩ := by
      rw [process_eq]
      rfl
    have rest := map_waited_append Process.progress (fun _ => rfl) system.ready
      (system.resident ++ system.terminated)
    rw [everyone, processes_afterCycle]
    simp only [List.cons_append, List.map_cons, List.append_assoc, progress]
    rw [← rest]
    rfl

theorem pids_afterCycle (executing : system.executing = some process) {cpu : Cpu}
    {memory : Memory} {cycle : Cycle} (ran : cycle = cpu.cycle process memory) (policy : Policy) :
    (system.afterCycle cycle policy).processes.map Process.pid =
      system.processes.map Process.pid := by
  have pid : cycle.process.ticked.pid = process.pid := by rw [ran, Process.ticked, Cpu.cycle_pid]
  rw [processes_afterCycle, List.map_cons, pid, map_waited_append Process.pid fun _ => rfl]
  simp [processes, executing]

theorem cycle_spec (sound : system.Sound) (executing : system.executing = some process)
    (cpu : Cpu) (policy : Policy) {cycle : Cycle} (ran : cycle = cpu.cycle process system.memory) :
    (system.afterCycle cycle policy).Sound ∧
      system.Runs (system.afterCycle cycle policy) process cycle := by
  rcases Cpu.cycle_process cpu process system.memory with ⟨registers, last, process_eq⟩
  rw [← ran] at process_eq
  have place : cycle.process.ticked.place = process.place := by rw [process_eq]; rfl
  have all : system.processes = process :: (system.ready ++ system.resident) := by
    simp [processes, executing]
  have owns := sound.owns
  rw [all] at owns
  have inMemory := sound.running process executing
  cases owns.keeps_head with
  | onDisk _ residence => simp [Process.isInMemory, residence] at inMemory
  | inMemory index segment residence segment_eq held located unswapped =>
      have found := owns.partition held located
      have within : system.memory.WithinSegment cycle.memory segment := by
        rw [ran]
        exact Cpu.cycle_within segment_eq (owns.inside located) cpu
      have spares (number : Nat) (different : number ≠ process.pid) :
          system.storage.Spares ⟨cycle.memory, system.files⟩ number :=
        within.spares owns.tidy found different system.files
      have heldNext : cycle.memory.holding? process.pid = some index := within.held.trans held
      have locatedNext : cycle.memory.segments[index]? = some segment := by
        rw [within.segments]
        exact located
      have keeps : Storage.Keeps ⟨cycle.memory, system.files⟩ process :=
        .inMemory index segment residence segment_eq heldNext locatedNext unswapped
      have runs : system.Runs (system.afterCycle cycle policy) process cycle := by
        rcases progress_afterCycle executing ran policy with ⟨before, after⟩
        refine ⟨rfl, .of_eq before, .of_eq after, pids_afterCycle executing ran policy,
          within.segments, ?_, ?_⟩
        · intro length number different
          exact (spares number different).image? within.segments length
        · intro length other located_other
          rw [segment_eq, Option.some.injEq] at located_other
          subst located_other
          exact Storage.image?_eq_bytes length heldNext locatedNext
      have pids : (system.afterCycle cycle policy).everyone.map Process.pid =
          system.everyone.map Process.pid := by
        rw [everyone, everyone, List.map_append, List.map_append, runs.living]
        rfl
      refine ⟨⟨?_, ?_, ?_, sound.ended, pids ▸ sound.distinct, ?_⟩, runs⟩
      · have kept := @Storage.Owns.replace _ _ process _ owns ⟨cycle.memory, system.files⟩
          (within.tidy owns.tidy found) owns.serviceable rfl within.segments spares keeps
        rw [processes_afterCycle]
        apply kept.congr
        rw [List.map_cons, List.map_cons, place, map_waited_append Process.place fun _ => rfl]
      · intro other executes
        cases executes
        have same : cycle.process.ticked.isInMemory = process.isInMemory := by
          rw [process_eq]
          rfl
        exact same.trans inMemory
      · intro fresh member
        have queued := map_waited_append Process.fresh (fun _ => rfl) system.ready system.resident
        exact sound.waiting fresh (queued ▸ member)
      · rw [pids]
        exact sound.numbered

end System

end Timeshare
