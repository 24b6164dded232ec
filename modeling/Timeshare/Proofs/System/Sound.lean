import Timeshare.Proofs.System.Swapping

/-!
# Processes between admission and end

`System.Sound` is what holds of the system whenever the kernel is at rest: the storage owns the
processes that have not ended, and the processes that have ended own nothing.  `System.Carries`
compares two states between which no process has run: each process has kept its registers and, if it
has not ended, its image.  Whatever the kernel does, except for admitting a program, formatting the
disk and running a cycle, keeps the one and has the other.
-/

namespace Timeshare

/-- How far a process has come. -/
structure Progress where
  pid : Nat
  registers : Registers
  lastInstruction : Option UInt8
  ticks : Nat

namespace Process

/-- The progress that is kept with a process. -/
def progress (process : Process) : Progress :=
  ⟨process.pid, process.registers, process.lastInstruction, process.runningTicks⟩

@[simp]
theorem pid_progress (process : Process) : process.progress.pid = process.pid := rfl

/-- What does not depend on the places of processes is the same for processes moved. -/
theorem map_of_unplaced {α : Type} (view : Process → α)
    (blind : ∀ process, view process.unplaced = view process) {first second : List Process}
    (same : first.map unplaced = second.map unplaced) : first.map view = second.map view := by
  have views := congrArg (List.map view) same
  simpa [List.map_map, Function.comp_def, blind] using views

theorem eq_of_unplaced {α : Type} (view : Process → α)
    (blind : ∀ process, view process.unplaced = view process) {first second : Process}
    (same : first.unplaced = second.unplaced) : view first = view second := by
  rw [← blind first, same, blind]

end Process

namespace System

/-- All processes that were ever admitted. -/
def everyone (system : System) : List Process :=
  system.processes ++ system.terminated

/-- The system is in order. -/
structure Sound (system : System) : Prop where
  owns : system.storage.Owns system.processes
  running : ∀ process, system.executing = some process → process.isInMemory = true
  waiting : ∀ fresh ∈ (system.ready ++ system.resident).map Process.fresh, fresh = true
  ended : ∀ process ∈ system.terminated, process.residence = none ∧ process.segment = none
  distinct : (system.everyone.map Process.pid).Nodup
  numbered : ∀ pid ∈ system.everyone.map Process.pid, pid < system.nextPid

/-- The processor has the registers of the process that executes. -/
def Settled (system : System) : Prop :=
  ∀ process, system.executing = some process →
    system.cpu.registers = process.registers ∧ system.cpu.lastInstruction = process.lastInstruction

/-- No process has run, and those that have not ended have kept their images. -/
structure Carries (system next : System) : Prop where
  nextPid : next.nextPid = system.nextPid
  progress : (next.everyone.map Process.progress).Perm (system.everyone.map Process.progress)
  living : ∀ pid ∈ next.processes.map Process.pid, pid ∈ system.processes.map Process.pid
  segments : next.memory.segments = system.memory.segments
  images : ∀ length, system.memory.Uniform length → ∀ pid ∈ next.processes.map Process.pid,
    next.storage.image? length pid = system.storage.image? length pid

variable {system next : System} {process : Process} {pid : Nat}

namespace Carries

theorem refl (system : System) : system.Carries system :=
  ⟨rfl, .rfl, fun _ member => member, rfl, fun _ _ _ _ => rfl⟩

theorem trans {last : System} (first : system.Carries next) (second : next.Carries last) :
    system.Carries last where
  nextPid := second.nextPid.trans first.nextPid
  progress := second.progress.trans first.progress
  living pid member := first.living pid (second.living pid member)
  segments := second.segments.trans first.segments
  images := by
    intro length uniform pid member
    rw [second.images length (uniform.of_segments first.segments) pid member]
    exact first.images length uniform pid (second.living pid member)

theorem pids (carries : system.Carries next) :
    (next.everyone.map Process.pid).Perm (system.everyone.map Process.pid) := by
  simpa [List.map_map, Function.comp_def] using carries.progress.map Progress.pid

/-- A change of the queues and of what is kept with the processes besides their progress. -/
theorem of_storage (nextPid : next.nextPid = system.nextPid) (memory : next.memory = system.memory)
    (files : next.files = system.files)
    (progress : (next.processes.map Process.progress).Perm (system.processes.map Process.progress))
    (terminated : next.terminated = system.terminated) : system.Carries next where
  nextPid := nextPid
  progress := by
    simpa [everyone, terminated] using progress.append_right _
  living := by
    have pids := progress.map Progress.pid
    simp only [List.map_map, Function.comp_def, Process.pid_progress] at pids
    intro pid member
    exact pids.mem_iff.mp member
  segments := by rw [memory]
  images := by
    intro length uniform pid member
    rw [storage, memory, files]

end Carries

namespace Sound

/-- Numbers stay in order while no process is admitted. -/
theorem carry (sound : system.Sound) (carries : system.Carries next)
    (owns : next.storage.Owns next.processes)
    (running : ∀ process, next.executing = some process → process.isInMemory = true)
    (waiting : ∀ fresh ∈ (next.ready ++ next.resident).map Process.fresh, fresh = true)
    (ended : ∀ process ∈ next.terminated, process.residence = none ∧ process.segment = none) :
    next.Sound where
  owns := owns
  running := running
  waiting := waiting
  ended := ended
  distinct := carries.pids.nodup_iff.mpr sound.distinct
  numbered := by
    intro pid member
    rw [carries.nextPid]
    exact sound.numbered pid (carries.pids.mem_iff.mp member)

theorem distinct_resident (sound : system.Sound) : (system.resident.map Process.pid).Nodup := by
  have all := sound.owns.distinct
  rw [processes, List.map_append] at all
  exact all.of_append_right

/-- Processes may change queues, and what is not their place. -/
theorem requeue (sound : system.Sound) (nextPid : next.nextPid = system.nextPid)
    (memory : next.memory = system.memory) (files : next.files = system.files)
    (places : (system.processes.map Process.place).Perm (next.processes.map Process.place))
    (running : ∀ process, next.executing = some process → process.isInMemory = true)
    (waiting : ∀ fresh ∈ (next.ready ++ next.resident).map Process.fresh, fresh = true)
    (terminated : next.terminated = system.terminated) : next.Sound := by
  have living := places.map Prod.fst
  have pids : (next.everyone.map Process.pid).Perm (system.everyone.map Process.pid) := by
    have everyone := (living.symm.append_right (system.terminated.map Process.pid))
    simpa [System.everyone, terminated, Process.place, Function.comp_def] using everyone
  constructor
  case owns =>
    rw [storage, memory, files]
    exact sound.owns.congr places
  case running => exact running
  case waiting => exact waiting
  case ended =>
    rw [terminated]
    exact sound.ended
  case distinct => exact pids.nodup_iff.mpr sound.distinct
  case numbered =>
    intro pid member
    rw [nextPid]
    exact sound.numbered pid (pids.mem_iff.mp member)

end Sound

/-- Sound systems stay sound and carry their processes when images are moved. -/
theorem Sound.rearrange (sound : system.Sound) (rearranges : system.Rearranges next)
    (owns : next.storage.Owns next.processes) : next.Sound ∧ system.Carries next := by
  have viewed {α : Type} (view : Process → α)
      (blind : ∀ process, view process.unplaced = view process) :
      next.everyone.map view = system.everyone.map view := by
    simp only [everyone, processes, rearranges.executing, rearranges.terminated, List.map_append,
      Process.map_of_unplaced view blind rearranges.ready,
      Process.map_of_unplaced view blind rearranges.resident]
  have pids : next.processes.map Process.pid = system.processes.map Process.pid := by
    simp only [processes, rearranges.executing, List.map_append,
      Process.map_of_unplaced Process.pid (fun _ => rfl) rearranges.ready,
      Process.map_of_unplaced Process.pid (fun _ => rfl) rearranges.resident]
  have carries : system.Carries next := by
    refine ⟨rearranges.nextPid, ?_, ?_, rearranges.segments, ?_⟩
    · rw [viewed Process.progress fun _ => rfl]
    · rw [pids]
      exact fun _ member => member
    · intro length uniform pid _
      exact rearranges.images length uniform pid
  refine ⟨?_, carries⟩
  apply sound.carry carries owns
  · rw [rearranges.executing]
    exact sound.running
  · rw [List.map_append, Process.map_of_unplaced Process.fresh (fun _ => rfl) rearranges.ready,
      Process.map_of_unplaced Process.fresh (fun _ => rfl) rearranges.resident, ← List.map_append]
    exact sound.waiting
  · rw [rearranges.terminated]
    exact sound.ended

/-- What the processor and the policy do is of no account. -/
theorem Sound.machine (sound : system.Sound) (cpu : Cpu) (policy : Policy) :
    Sound { system with cpu, policy } ∧ system.Carries { system with cpu, policy } :=
  ⟨⟨sound.owns, sound.running, sound.waiting, sound.ended, sound.distinct, sound.numbered⟩,
    ⟨rfl, .rfl, fun _ member => member, rfl, fun _ _ _ _ => rfl⟩⟩

/-! ## Ending a process -/

/-- Giving back the place of a process that was taken out of its queue ends the process. -/
theorem retire_spec (sound : system.Sound) {without : System}
    (storage : without.storage = system.storage) (nextPid : without.nextPid = system.nextPid)
    (terminated : without.terminated = system.terminated)
    (taken : system.processes.Perm (process :: without.processes))
    (running : ∀ process, without.executing = some process → process.isInMemory = true)
    (waiting : ∀ fresh ∈ (without.ready ++ without.resident).map Process.fresh, fresh = true) :
    ∃ next, (reclaim process without).value.retire process = next ∧ next.Sound ∧
      system.Carries next ∧ next.cpu = without.cpu ∧ next.executing = without.executing ∧
      next.processes = without.processes ∧
      ∀ pid ∈ next.processes.map Process.pid, system.storage.Spares next.storage pid := by
  have owns : without.storage.Owns (process :: without.processes) := by
    rw [storage]
    exact sound.owns.perm taken
  rcases reclaim_spec owns with ⟨memory, files, reclaimed, ownsNext, segments, spares⟩
  have spared : ∀ pid ∈ without.processes.map Process.pid,
      system.storage.Spares ⟨memory, files⟩ pid := by
    intro pid member
    have different : pid ≠ process.pid := by
      rintro rfl
      exact owns.not_mem member
    exact storage ▸ spares pid different
  have carries : system.Carries
      (({ without with memory, files } : System).retire process) := by
    refine ⟨nextPid, ?_, ?_, ?_, ?_⟩
    · have moved : (without.processes ++ (system.terminated ++ [process])).Perm
          (process :: without.processes ++ system.terminated) := by
        simpa using @List.perm_middle _ process (without.processes ++ system.terminated) []
      have order := moved.trans (taken.symm.append_right system.terminated)
      have progress := order.map Process.progress
      simp only [List.map_append, List.map_cons, List.map_nil] at progress
      simpa [everyone, retire, processes, terminated, Process.progress] using progress
    · intro pid member
      have present := List.mem_cons_of_mem process.pid member
      exact (taken.map Process.pid).mem_iff.mpr present
    · exact segments.trans (congrArg (fun storage => storage.memory.segments) storage)
    · intro length _ pid member
      have segments_eq := segments.trans (congrArg (fun storage => storage.memory.segments) storage)
      exact (spared pid member).image? segments_eq length
  refine ⟨_, congrArg (retire process) reclaimed, ?_, carries, rfl, rfl, rfl, spared⟩
  apply sound.carry carries ownsNext running waiting
  intro other member
  rcases List.mem_append.mp member with before | now
  · exact sound.ended other (terminated ▸ before)
  · rw [List.mem_singleton.mp now]
    exact ⟨rfl, rfl⟩

/-! ## Queues -/

theorem insertByPriority_perm (process : Process) (queue : List Process) :
    (insertByPriority process queue).Perm (process :: queue) := by
  induction queue with
  | nil => exact .rfl
  | cons first rest hypothesis =>
      rw [insertByPriority]
      split
      · exact .rfl
      · exact (hypothesis.cons first).trans (.swap process first rest)

theorem sortByPriority_perm (queue : List Process) : (sortByPriority queue).Perm queue := by
  have inserted (sorted : List Process) :
      (queue.foldl (fun sorted process => insertByPriority process sorted) sorted).Perm
        (queue ++ sorted) := by
    induction queue generalizing sorted with
    | nil => exact .rfl
    | cons first rest hypothesis =>
        rw [List.foldl_cons]
        apply (hypothesis _).trans
        apply ((insertByPriority_perm first sorted).append_left rest).trans
        exact List.perm_middle
  simpa [sortByPriority] using inserted []

theorem enqueueReady_eq (process : Process) (system : System) :
    ∃ queue, system.enqueueReady process = { system with ready := queue } ∧
      queue.Perm (process :: system.ready) := by
  have behind : (system.ready ++ [process]).Perm (process :: system.ready) := by
    simp
  refine ⟨_, rfl, ?_⟩
  split
  · exact (sortByPriority_perm _).trans behind
  · exact behind

/-- Where numbers are distinct, the other numbers are those of the other processes. -/
theorem filter_ne_pid {before after : List Process}
    (distinct : ((before ++ process :: after).map Process.pid).Nodup) :
    ((before ++ process :: after).filter fun other => other.pid ≠ process.pid) = before ++ after := by
  have apart : (process :: (before ++ after)).Pairwise fun first second => first.pid ≠ second.pid := by
    have order := (@List.perm_middle _ process before after).map Process.pid
    exact List.pairwise_map.mp (order.nodup_iff.mp distinct)
  have others : ∀ other ∈ before ++ after, other.pid ≠ process.pid := by
    intro other member
    exact (List.rel_of_pairwise_cons apart member).symm
  have kept : (before ++ after).filter (fun other => other.pid ≠ process.pid) = before ++ after := by
    rw [List.filter_eq_self]
    simpa using others
  simpa using kept

/-- The process of the number is taken out of the resident ones, and only that. -/
theorem takeResident?_eq_some (distinct : (system.resident.map Process.pid).Nodup) {found : Process}
    (taken : system.takeResident? pid = some (found, next)) :
    ∃ before after, system.resident = before ++ found :: after ∧ found.pid = pid ∧
      next = { system with resident := before ++ after } := by
  unfold takeResident? at taken
  split at taken
  · rename_i process first
    cases taken
    rcases List.find?_eq_some_iff_append.mp first with ⟨same, before, after, join, _⟩
    have number := of_decide_eq_true same
    rw [join] at distinct
    refine ⟨before, after, join, number, ?_⟩
    rw [join, ← number, filter_ne_pid distinct]
  · cases taken

end System

end Timeshare
