import Timeshare.Proofs.FileSystem.SwapRelease
import Timeshare.Proofs.System.Dispatch
import Timeshare.Proofs.System.Lineup

/-!
# Dispatches that fail

A process that lies on disk cannot be brought into memory only if memory is full and the disk has no
room for the image of any other process.  That image was already taken out of its segment when the
disk refuses it, and it goes back to where it was.  So a dispatch that fails costs the process that
was to run, and nothing else.
-/

namespace Timeshare

open FileSystem (swapName)

/-- A dispatch has failed, and one process was lost by it.  `requeued` is the process that had the
processor before, if there was one. -/
structure System.LosesOnly (system : System) (failure : DispatchFailure)
    (requeued : Option Process) (next : System) : Prop where
  cause : failure.cause = .files .noAvailableSpace
  ended : ∃ lost ∈ system.ready, lost.pid = failure.pid ∧ next.terminated = system.terminated ++
    [{ lost with phase := .terminated, segment := none, residence := none }]
  released : system.files.ReleasesSwap failure.pid next.files
  memory : next.memory = system.memory
  idle : next.executing = none
  resident : next.resident = system.resident
  /-- The other processes, unchanged, are still there. -/
  ready : next.ready.Perm
    (requeued.toList ++ system.ready.filter fun process => process.pid ≠ failure.pid)
  /-- They are in the order they were in. -/
  order : (system.ready.filter fun process => process.pid ≠ failure.pid).Sublist next.ready

/-! ## Looking for a victim -/

namespace Storage.Owns

variable {storage : Storage} {processes : List Process}

/-- In full memory somebody holds the first segment. -/
theorem exists_isInMemory (owns : storage.Owns processes) (full : storage.memory.isFull = true)
    (divided : storage.memory.segments ≠ []) :
    ∃ process ∈ processes, process.isInMemory = true := by
  have small : 0 < storage.memory.occupied.length := by
    rw [owns.tidy.counted]
    exact List.length_pos_of_ne_nil divided
  rcases (owns.tidy.occupied 0).mp (Memory.isOccupied_of_isFull full small) with ⟨pid, held⟩
  rcases List.mem_map.mp (owns.held pid 0 held) with ⟨process, among, same⟩
  refine ⟨process, among, ?_⟩
  cases owns.keeps process among with
  | inMemory index there residence segment_eq =>
      simp [Process.isInMemory, residence, segment_eq]
  | onDisk image residence segment_eq homeless =>
      rw [same, held] at homeless
      cases homeless

end Storage.Owns

namespace System

variable {system next : System} {process victim moved : Process} {others : List Process}
  {cause : TransferError} {failure : DispatchFailure}

/-! ## Swapping -/

/-- An image that the disk does not take is where it was before. -/
theorem rollOut_eq_error (owns : system.storage.Owns (victim :: others))
    (inMemory : victim.isInMemory = true) (full : system.memory.isFull = true) {pid : Nat}
    (active : system.files.hasSwap pid = true)
    (short : (Text.utf8Bytes (swapName victim.pid)).length ≤ contentSize)
    (refused : (rollOut victim system).value = (.error cause, moved, next)) :
    cause = .files .noAvailableSpace ∧ moved = victim ∧ next = system := by
  cases owns.keeps_head with
  | onDisk _ residence =>
      simp [Process.isInMemory, residence] at inMemory
  | inMemory index segment residence segment_eq held located unswapped =>
      have found := owns.partition held located
      simp only [rollOut, owns.tidy.withdraw found] at refused
      split at refused
      · simp at refused
      · rename_i error files stored
        rcases owns.serviceable.storeSwap_eq_error active unswapped short stored with
          ⟨rfl, rfl⟩
        rcases @Memory.Tidy.place_vacate _ { victim with segment := none, residence := none } _ _
          owns.tidy full found with ⟨placement, placed, process_eq, memory_eq⟩
        have restored : placement.process = victim := by
          rw [process_eq, ← segment_eq, ← residence]
        simp only [placed, memory_eq, restored, Journaled.value_bind] at refused
        cases refused
        exact ⟨rfl, rfl, rfl⟩

/-- Memory that no room is made in is as it was before. -/
theorem makeRoom_eq_error
    (owns : system.storage.Owns (process :: (system.ready ++ system.resident)))
    (onDisk : process.isOnDisk = true) (full : system.memory.isFull = true)
    (divided : system.memory.segments ≠ [])
    (short : ∀ other ∈ system.ready ++ system.resident,
      (Text.utf8Bytes (swapName other.pid)).length ≤ contentSize)
    (refused : system.makeRoom.value = (.error cause, next)) :
    cause = .files .noAvailableSpace ∧ next = system := by
  have active : system.files.hasSwap process.pid = true := by
    cases owns.keeps_head with
    | inMemory _ _ residence => simp [Process.isOnDisk, residence] at onDisk
    | onDisk image _ _ _ swapped => simp [owns.serviceable.hasSwap_eq, swapped]
  -- Whoever is chosen, refusing its image leaves the queue that it was taken from as it was.
  have refuses {victim : Process} (among : victim ∈ system.ready ++ system.resident)
      (inMemory : victim.isInMemory = true) {moved : Process} {left : System}
      (rolled : (rollOut victim system).value = (.error cause, moved, left)) :
      cause = .files .noAvailableSpace ∧ moved = victim ∧ left = system := by
    rcases List.append_of_mem among with ⟨before, after, join⟩
    have order : (process :: (before ++ victim :: after)).Perm
        (victim :: (process :: (before ++ after))) := by
      simpa using @List.perm_middle _ victim (process :: before) after
    exact rollOut_eq_error (owns.perm (join ▸ order)) inMemory full active (short victim among)
      rolled
  unfold makeRoom at refused
  split at refused
  · rename_i before victim after split
    have join := splitLast?_join split
    rcases rolled : (rollOut victim system).value with ⟨result, moved, left⟩
    simp only [Journaled.value_bind, rolled] at refused
    cases refused
    rcases refuses (by simp [join]) (splitLast?_fits split) rolled with ⟨cause_eq, rfl, rfl⟩
    exact ⟨cause_eq, by rw [← join]⟩
  · rename_i nobody_ready
    split at refused
    · rename_i before victim after split
      have join := splitLast?_join split
      rcases rolled : (rollOut victim system).value with ⟨result, moved, left⟩
      simp only [Journaled.value_bind, rolled] at refused
      cases refused
      rcases refuses (by simp [join]) (splitLast?_fits split) rolled with ⟨cause_eq, rfl, rfl⟩
      exact ⟨cause_eq, by rw [← join]⟩
    · rename_i nobody_resident
      rcases owns.exists_isInMemory full divided with ⟨holder, among, inMemory⟩
      rcases List.mem_cons.mp among with rfl | waiting
      · rw [owns.keeps_head.isInMemory, onDisk] at inMemory
        cases inMemory
      · rcases List.mem_append.mp waiting with ready | resident
        · exact absurd inMemory (by simp [splitLast?_eq_none nobody_ready holder ready])
        · exact absurd inMemory (by simp [splitLast?_eq_none nobody_resident holder resident])

/-- A process that cannot be brought into memory stays on disk, and nothing has changed. -/
theorem rollIn_eq_error (owns : system.storage.Owns (process :: (system.ready ++ system.resident)))
    (divided : system.memory.segments ≠ [])
    (short : ∀ other ∈ system.ready ++ system.resident,
      (Text.utf8Bytes (swapName other.pid)).length ≤ contentSize)
    (refused : (rollIn process system).value = (.error cause, next)) :
    cause = .files .noAvailableSpace ∧ next = system ∧ process.isOnDisk = true := by
  cases onDisk : process.isOnDisk with
  | false => simp [rollIn, onDisk] at refused
  | true =>
      cases full : system.memory.isFull with
      | false =>
          rcases fetchImage_spec owns onDisk full with ⟨brought, next, fetched, _⟩
          simp [rollIn, onDisk, full, fetched] at refused
      | true =>
          rcases makeRoom_spec owns with ⟨result, between, made, ownsBetween, _, _, _, room⟩
          cases result with
          | error reason =>
              have outcome : reason = cause ∧ between = next := by
                simpa [rollIn, onDisk, full, made] using refused
              rcases outcome with ⟨rfl, rfl⟩
              rcases makeRoom_eq_error owns onDisk full divided short made with ⟨cause_eq, rfl⟩
              exact ⟨cause_eq, rfl, rfl⟩
          | ok _ =>
              rcases fetchImage_spec ownsBetween onDisk (room rfl) with ⟨brought, next, fetched, _⟩
              simp [rollIn, onDisk, full, made, fetched] at refused

/-! ## Dispatching -/

/-- The process that was to run is the only one that a failed dispatch ends. -/
theorem dispatch_eq_error (sound : system.Sound) (divided : system.memory.segments ≠ [])
    (short : ∀ pid < system.nextPid, (Text.utf8Bytes (swapName pid)).length ≤ contentSize)
    (failed : system.dispatch.value = (.error failure, next)) :
    ∃ lost rest files, system.executing = none ∧ system.ready = lost :: rest ∧
      lost.isOnDisk = true ∧ failure = ⟨lost.pid, .files .noAvailableSpace⟩ ∧
      next = ({ system with executing := none, ready := rest, files } : System).retire lost ∧
      system.files.ReleasesSwap lost.pid files := by
  cases executing : system.executing with
  | some running => simp [dispatch, executing] at failed
  | none =>
      cases ready : system.ready with
      | nil => simp [dispatch, executing, ready] at failed
      | cons lost rest =>
          have owns : ({ system with ready := rest } : System).storage.Owns
              (lost :: (rest ++ system.resident)) := by
            simpa [processes, executing, ready] using sound.owns
          have shortOthers : ∀ other ∈ rest ++ system.resident,
              (Text.utf8Bytes (swapName other.pid)).length ≤ contentSize := by
            intro other member
            apply short
            apply sound.numbered
            apply List.mem_map_of_mem
            simp only [everyone, processes, ready, List.mem_append, List.mem_cons] at member ⊢
            tauto
          rcases rolled : (rollIn lost { system with ready := rest }).value with
            ⟨_ | brought, left⟩
          · rename_i cause
            rcases @rollIn_eq_error { system with ready := rest } _ _ _ owns divided shortOthers
              rolled with ⟨rfl, rfl, onDisk⟩
            cases owns.keeps_head with
            | inMemory _ _ residence => simp [Process.isOnDisk, residence] at onDisk
            | onDisk image residence segment_eq homeless swapped =>
                have active : system.files.hasSwap lost.pid = true := by
                  simp [owns.serviceable.hasSwap_eq, swapped]
                rcases owns.serviceable.exists_represents active with ⟨contents, represents⟩
                rcases owns.serviceable.deleteSwap swapped with ⟨fetched, files, deleted, _⟩
                have releases := represents.releasesSwap active
                rw [deleted] at releases
                have outcome : failure = ⟨lost.pid, .files .noAvailableSpace⟩ ∧
                    next = retire lost { system with
                      executing := none, ready := rest, files } := by
                  simp only [executing] at rolled
                  simp [dispatch, executing, ready, rolled, reclaim, Process.isInMemory, residence,
                    active, deleted] at failed
                  exact ⟨failed.1.symm, failed.2.symm⟩
                exact ⟨lost, rest, files, rfl, rfl, onDisk, outcome.1, outcome.2, releases⟩
          · simp only [executing] at rolled
            simp [dispatch, executing, ready, rolled] at failed

/-- A dispatch fails after the processes in `queue` were put there in place of the ready ones. -/
theorem losesOnly_of_dispatch {queue : List Process} {requeued : Option Process} {policy : Policy}
    (sound : Sound { system with policy, executing := none, ready := queue })
    (divided : system.memory.segments ≠ [])
    (short : ∀ pid < system.nextPid, (Text.utf8Bytes (swapName pid)).length ≤ contentSize)
    (members : queue.Perm (requeued.toList ++ system.ready)) (order : system.ready.Sublist queue)
    (inMemory : ∀ process, requeued = some process → process.isOnDisk = false)
    (failed : (dispatch { system with policy, executing := none, ready := queue }).value =
      (.error failure, next)) :
    system.LosesOnly failure requeued next := by
  rcases dispatch_eq_error sound divided short failed with
    ⟨lost, rest, files, _, queue_eq, onDisk, rfl, rfl, releases⟩
  have queue_eq : queue = lost :: rest := queue_eq
  subst queue_eq
  have distinct : ((lost :: rest).map Process.pid).Nodup := by
    have all := sound.owns.distinct
    rw [processes, List.map_append] at all
    exact all.of_append_left
  have others : ((lost :: rest).filter fun process => process.pid ≠ lost.pid) = rest :=
    @filter_ne_pid lost [] rest distinct
  have apart : ∀ process ∈ requeued.toList, process.pid ≠ lost.pid := by
    intro process member same
    have among : process ∈ lost :: rest := members.mem_iff.mpr (List.mem_append_left _ member)
    have equal : process = lost :=
      List.inj_on_of_nodup_map distinct among List.mem_cons_self same
    have resident := inMemory process (Option.mem_toList.mp member)
    rw [equal, onDisk] at resident
    cases resident
  have waiting : lost ∈ system.ready := by
    rcases List.mem_append.mp (members.mem_iff.mp List.mem_cons_self) with now | before
    · exact absurd rfl (apart lost now)
    · exact before
  have kept : (requeued.toList.filter fun process => process.pid ≠ lost.pid) = requeued.toList := by
    rw [List.filter_eq_self]
    simpa using apart
  refine ⟨rfl, ⟨lost, waiting, rfl, rfl⟩, releases, rfl, rfl, rfl, ?_, ?_⟩
  · have same := members.filter fun process => process.pid ≠ lost.pid
    rwa [others, List.filter_append, kept] at same
  · have same := order.filter fun process => process.pid ≠ lost.pid
    rwa [others] at same

/-- What a failed dispatch costs when the processor is given to the next ready process. -/
theorem dispatch_losesOnly (sound : system.Sound) (divided : system.memory.segments ≠ [])
    (short : ∀ pid < system.nextPid, (Text.utf8Bytes (swapName pid)).length ≤ contentSize)
    (failed : system.dispatch.value = (.error failure, next)) :
    system.LosesOnly failure none next := by
  rcases dispatch_eq_error sound divided short failed with ⟨lost, rest, files, executing, _⟩
  have idle : system = { system with executing := none } := by rw [← executing]
  rw [idle] at sound failed
  exact losesOnly_of_dispatch sound divided short (.refl _) (.refl _) (by simp) failed

/-! ## Context switches -/

theorem insertByPriority_sublist (process : Process) (queue : List Process) :
    queue.Sublist (insertByPriority process queue) := by
  induction queue with
  | nil => exact List.nil_sublist _
  | cons first rest hypothesis =>
      rw [insertByPriority]
      split
      · exact List.sublist_cons_self process (first :: rest)
      · exact hypothesis.cons_cons first

/-- The ready processes keep their order when another one joins them. -/
theorem enqueueReady_sublist (ordered : system.policy.ordersByPriority = true →
    Lineup.Sorted (system.ready.map Process.rank)) (process : Process) :
    system.ready.Sublist (system.enqueueReady process).ready := by
  cases priority : system.policy.ordersByPriority with
  | false =>
      simp only [enqueueReady, priority]
      exact List.sublist_append_left _ _
  | true =>
      simp only [enqueueReady, priority, if_true, sortByPriority_append,
        sortByPriority_eq_self (ordered priority)]
      exact insertByPriority_sublist process system.ready

theorem switchOut_sublist (ordered : system.policy.ordersByPriority = true →
    Lineup.Sorted (system.ready.map Process.rank)) :
    system.ready.Sublist system.switchOut.value.ready := by
  cases executing : system.executing with
  | none =>
      have unchanged : system.switchOut.value = system := by simp [switchOut, executing]
      rw [unchanged]
  | some running =>
      simpa [switchOut, executing] using @enqueueReady_sublist { system with executing := none }
        ordered { system.cpu.saveInto running with fresh := true, phase := .ready }

/-- What a failed dispatch costs in a context switch.  The process that gave up the processor is
ready, with its registers saved. -/
theorem contextSwitch_losesOnly (sound : system.Sound) (divided : system.memory.segments ≠ [])
    (short : ∀ pid < system.nextPid, (Text.utf8Bytes (swapName pid)).length ≤ contentSize)
    (ordered : system.policy.ordersByPriority = true →
      Lineup.Sorted (system.ready.map Process.rank))
    (failed : system.contextSwitch.value = (.error failure, next)) :
    system.LosesOnly failure system.saved next := by
  rcases switchOut_eq { system with policy := system.policy.didSwitch } with
    ⟨queue, switched, members⟩
  have soundOut := switchOut_sound (sound.machine system.cpu system.policy.didSwitch).1
  have order := @switchOut_sublist { system with policy := system.policy.didSwitch } ordered
  rw [switched] at soundOut order
  have inMemory : ∀ process, system.saved = some process → process.isOnDisk = false := by
    intro process requeued
    rcases Option.map_eq_some_iff.mp requeued with ⟨running, executing, rfl⟩
    have resident := sound.running running executing
    simp only [Process.isInMemory, Bool.and_eq_true, decide_eq_true_eq] at resident
    simp [Process.isOnDisk, Cpu.saveInto, resident.1]
  cases none_ready : system.ready.isEmpty with
  | true => simp [contextSwitch, none_ready] at failed
  | false =>
      rcases dispatched : (dispatch { system with
        policy := system.policy.didSwitch, executing := none, ready := queue }).value with
        ⟨reason | done, left⟩
      · have outcome : reason = failure ∧ left = next := by
          simpa [contextSwitch, none_ready, switched, dispatched] using failed
        rcases outcome with ⟨rfl, rfl⟩
        exact losesOnly_of_dispatch soundOut divided short members order inMemory dispatched
      · simp [contextSwitch, none_ready, switched, dispatched] at failed

end System

end Timeshare
