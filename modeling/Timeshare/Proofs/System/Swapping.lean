import Timeshare.Proofs.System.Storage
import Timeshare.System.Dispatch

/-!
# Admission and swapping keep the records

One lemma for each operation that gives an image a place or takes one away.  Each says that the
storage owns the processes as they are afterwards, on success and on failure, and which images it
leaves as they were.  Images survive a move as far as the segments are of one length.
-/

namespace Timeshare

/-- The process without the place of its image. -/
def Process.unplaced (process : Process) : Process :=
  { process with segment := none, residence := none }

namespace System

/-- Images may have been moved.  Nothing else has changed, and no image if all segments are of one
length. -/
structure Rearranges (system next : System) : Prop where
  cpu : next.cpu = system.cpu
  policy : next.policy = system.policy
  nextPid : next.nextPid = system.nextPid
  executing : next.executing = system.executing
  terminated : next.terminated = system.terminated
  ready : next.ready.map Process.unplaced = system.ready.map Process.unplaced
  resident : next.resident.map Process.unplaced = system.resident.map Process.unplaced
  segments : next.memory.segments = system.memory.segments
  images : ∀ length, system.memory.Uniform length → ∀ pid,
    next.storage.image? length pid = system.storage.image? length pid

namespace Rearranges

theorem refl (system : System) : system.Rearranges system :=
  ⟨rfl, rfl, rfl, rfl, rfl, rfl, rfl, rfl, fun _ _ _ => rfl⟩

theorem trans {system next last : System} (first : system.Rearranges next)
    (second : next.Rearranges last) : system.Rearranges last where
  cpu := second.cpu.trans first.cpu
  policy := second.policy.trans first.policy
  nextPid := second.nextPid.trans first.nextPid
  executing := second.executing.trans first.executing
  terminated := second.terminated.trans first.terminated
  ready := second.ready.trans first.ready
  resident := second.resident.trans first.resident
  segments := second.segments.trans first.segments
  images := by
    intro length uniform pid
    rw [second.images length (uniform.of_segments first.segments) pid, first.images length uniform pid]

/-- A change of storage that moves images and nothing else. -/
theorem of_storage {system next : System} {memory : Memory} {files : FileSystem}
    (same : next = { system with memory, files }) (tidy : system.memory.Tidy)
    (segments : memory.segments = system.memory.segments)
    (moves : ∀ pid, system.storage.Moves next.storage pid) : system.Rearranges next := by
  subst same
  refine ⟨rfl, rfl, rfl, rfl, rfl, rfl, rfl, segments, ?_⟩
  intro length uniform pid
  exact (moves pid).image? tidy segments uniform

end Rearranges

variable {system : System} {process victim : Process} {others : List Process}

/-- One image was moved, and those of other processes were spared. -/
theorem moves_of_spares {storage next : Storage} {pid : Nat}
    (spares : ∀ other, other ≠ pid → storage.Spares next other) (moves : storage.Moves next pid)
    (other : Nat) : storage.Moves next other := by
  by_cases moved : other = pid
  · exact moved ▸ moves
  · exact .spared (spares other moved)

/-! ## Rolling out -/

/-- The image is stored in the swap area, or put back into memory. -/
theorem rollOut_spec (owns : system.storage.Owns (victim :: others))
    (inMemory : victim.isInMemory = true) :
    ∃ result moved next, (rollOut victim system).value = (result, moved, next) ∧
      next.storage.Owns (moved :: others) ∧ moved.unplaced = victim.unplaced ∧
      system.Rearranges next ∧ next.ready = system.ready ∧ next.resident = system.resident ∧
      (∀ pid, pid ≠ victim.pid → system.storage.Spares next.storage pid) ∧
      system.storage.Moves next.storage victim.pid ∧
      (result = .ok () → next.memory.isFull = false) := by
  cases owns.keeps_head with
  | onDisk _ residence =>
      simp [Process.isInMemory, residence] at inMemory
  | inMemory index segment residence segment_eq held located unswapped =>
      have found := owns.partition held located
      rcases owns.tidy.vacate found with ⟨leaves, tidyLeft⟩
      have homeless := leaves.holding?_of_left owns.tidy rfl
      have sparesLeft (pid : Nat) (different : pid ≠ victim.pid) {files : FileSystem}
          (swapped : files.swapImage pid = system.files.swapImage pid) :
          system.storage.Spares ⟨system.memory.vacate victim.pid index, files⟩ pid :=
        leaves.spares owns.tidy (by simpa using Ne.symm different) (by simp) swapped
      simp only [rollOut, owns.tidy.withdraw found]
      rcases owns.serviceable.storeSwap victim.pid (system.memory.bytes segment) with
        ⟨error, refused⟩ | ⟨stored, files, succeeded, serviceable, swapped⟩
      · -- The disk refused the image, so it goes into a vacant segment again.
        rw [refused]
        rcases @Memory.Tidy.place _ { victim with segment := none, residence := none } tidyLeft
          (leaves.isFull_eq_false owns.tidy) homeless (system.memory.bytes segment) with
          ⟨placement, placed, process_eq, enters, tidy, bytes⟩
        rcases enters.held with ⟨heldAgain, locatedAgain⟩
        have segments := enters.segments.trans leaves.segments
        have spares (pid : Nat) (different : pid ≠ victim.pid) :
            system.storage.Spares ⟨placement.memory, system.files⟩ pid :=
          (sparesLeft pid different rfl).trans
            (enters.spares tidyLeft (by simp) (by simpa using Ne.symm different) rfl)
            leaves.segments
        have moves : system.storage.Moves ⟨placement.memory, system.files⟩ victim.pid :=
          .again index _ segment _ held located heldAgain locatedAgain bytes
        simp only [placed]
        refine ⟨_, _, _, rfl, ?_, ?_, ?_, rfl, rfl, spares, moves, by simp⟩
        · apply owns.replace ⟨placement.memory, system.files⟩ tidy owns.serviceable
            (by rw [process_eq]) segments spares
          rw [process_eq]
          exact .inMemory _ _ rfl rfl heldAgain locatedAgain unswapped
        · rw [process_eq]
          rfl
        · exact .of_storage rfl owns.tidy segments (moves_of_spares spares moves)
      · rw [succeeded]
        have spares (pid : Nat) (different : pid ≠ victim.pid) :
            system.storage.Spares ⟨system.memory.vacate victim.pid index, files⟩ pid :=
          sparesLeft pid different (by rw [swapped, if_neg different])
        have swappedOut : files.swapImage victim.pid = some (system.memory.bytes segment) := by
          rw [swapped, if_pos rfl]
        have moves : system.storage.Moves ⟨system.memory.vacate victim.pid index, files⟩ victim.pid :=
          .out index segment held located homeless swappedOut
        refine ⟨_, _, _, rfl, ?_, rfl, ?_, rfl, rfl, spares, moves,
          fun _ => leaves.isFull_eq_false owns.tidy⟩
        · exact owns.replace _ tidyLeft serviceable rfl leaves.segments spares
            (.onDisk _ rfl rfl homeless swappedOut)
        · exact .of_storage rfl owns.tidy leaves.segments (moves_of_spares spares moves)

/-- Either some process has left memory, or nobody could. -/
theorem makeRoom_spec (owns : system.storage.Owns (process :: (system.ready ++ system.resident))) :
    ∃ result next, system.makeRoom.value = (result, next) ∧
      next.storage.Owns (process :: (next.ready ++ next.resident)) ∧ system.Rearranges next ∧
      system.storage.Spares next.storage process.pid ∧
      (∀ pid, system.storage.Moves next.storage pid) ∧
      (result = .ok () → next.memory.isFull = false) := by
  unfold makeRoom
  cases split : splitLast? Process.isInMemory system.ready with
  | some parts =>
      rcases parts with ⟨before, victim, after⟩
      have join := splitLast?_join split
      have order (member : Process) : (process :: (before ++ member :: after ++ system.resident)).Perm
          (member :: (process :: (before ++ (after ++ system.resident)))) := by
        simpa using @List.perm_middle _ member (process :: before) (after ++ system.resident)
      rcases rollOut_spec (owns.perm (join ▸ order victim)) (splitLast?_fits split) with
        ⟨result, moved, next, rolled, ownsNext, same, rearranges, ready, resident, spares, moves, room⟩
      have different : process.pid ≠ victim.pid := by
        apply owns.ne_of_mem (List.mem_append_left _ _) |>.symm
        simp [join]
      refine ⟨result, { next with ready := before ++ moved :: after }, ?_, ?_, ?_,
        spares _ different, moves_of_spares spares moves, room⟩
      · simp [rolled]
      · exact ownsNext.perm (resident ▸ (order moved).symm)
      · exact { rearranges with ready := by simp [join, same] }
  | none =>
      cases splitResident : splitLast? Process.isInMemory system.resident with
      | some parts =>
          rcases parts with ⟨before, victim, after⟩
          have join := splitLast?_join splitResident
          have order (member : Process) :
              (process :: (system.ready ++ (before ++ member :: after))).Perm
                (member :: (process :: (system.ready ++ (before ++ after)))) := by
            simpa using @List.perm_middle _ member (process :: (system.ready ++ before)) after
          rcases rollOut_spec (owns.perm (join ▸ order victim)) (splitLast?_fits splitResident) with
            ⟨result, moved, next, rolled, ownsNext, same, rearranges, ready, resident, spares, moves,
              room⟩
          have different : process.pid ≠ victim.pid := by
            apply owns.ne_of_mem (List.mem_append_right _ _) |>.symm
            simp [join]
          refine ⟨result, { next with resident := before ++ moved :: after }, ?_, ?_, ?_,
            spares _ different, moves_of_spares spares moves, room⟩
          · simp [rolled]
          · exact ownsNext.perm (ready ▸ (order moved).symm)
          · exact { rearranges with resident := by simp [join, same] }
      | none =>
          exact ⟨_, system, rfl, owns, Rearranges.refl system, .refl _ _,
            fun pid => .spared (.refl _ pid), by simp⟩

/-! ## Rolling in -/

/-- A process on disk gets a vacant segment. -/
theorem fetchImage_spec (owns : system.storage.Owns (process :: others))
    (onDisk : process.isOnDisk = true) (vacant : system.memory.isFull = false) :
    ∃ brought next, (fetchImage process system).value = (.ok brought, next) ∧
      next.storage.Owns (brought :: others) ∧ brought.unplaced = process.unplaced ∧
      brought.isInMemory = true ∧ system.Rearranges next ∧ next.ready = system.ready ∧
      next.resident = system.resident ∧
      (∀ pid, pid ≠ process.pid → system.storage.Spares next.storage pid) ∧
      system.storage.Moves next.storage process.pid := by
  cases owns.keeps_head with
  | inMemory _ _ residence =>
      simp [Process.isOnDisk, residence] at onDisk
  | onDisk image residence segment_eq homeless swapped =>
      rcases owns.serviceable.deleteSwap swapped with
        ⟨fetched, files, succeeded, image_eq, serviceable, swappedNext⟩
      rcases owns.tidy.place vacant homeless fetched.image with
        ⟨placement, placed, process_eq, enters, tidy, bytes⟩
      rcases enters.held with ⟨held, located⟩
      have spares (pid : Nat) (different : pid ≠ process.pid) :
          system.storage.Spares ⟨placement.memory, files⟩ pid := by
        apply enters.spares owns.tidy (by simp) (by simpa using Ne.symm different)
        rw [swappedNext, if_neg different]
      have unswapped : files.swapImage process.pid = none := by
        rw [swappedNext, if_pos rfl]
      have moves : system.storage.Moves ⟨placement.memory, files⟩ process.pid :=
        .back image _ _ homeless swapped held located (image_eq ▸ bytes)
      refine ⟨placement.process, { system with memory := placement.memory, files }, ?_, ?_, ?_, ?_,
        .of_storage rfl owns.tidy enters.segments (moves_of_spares spares moves), rfl, rfl, spares,
        moves⟩
      · simp [fetchImage, succeeded, placed]
      · apply owns.replace ⟨placement.memory, files⟩ tidy serviceable (by rw [process_eq])
          enters.segments spares
        rw [process_eq]
        exact .inMemory _ _ rfl rfl held located unswapped
      · simp [process_eq, Process.unplaced]
      · simp [process_eq, Process.isInMemory]

/-- A process is in memory afterwards, or it is where it was. -/
theorem rollIn_spec (owns : system.storage.Owns (process :: (system.ready ++ system.resident))) :
    (∃ brought next, (rollIn process system).value = (.ok brought, next) ∧
      next.storage.Owns (brought :: (next.ready ++ next.resident)) ∧
      brought.unplaced = process.unplaced ∧ brought.isInMemory = true ∧ system.Rearranges next ∧
      ∀ pid, system.storage.Moves next.storage pid) ∨
    ∃ cause next, (rollIn process system).value = (.error cause, next) ∧
      next.storage.Owns (process :: (next.ready ++ next.resident)) ∧ system.Rearranges next ∧
      ∀ pid, system.storage.Moves next.storage pid := by
  cases onDisk : process.isOnDisk with
  | false =>
      refine Or.inl ⟨process, system, ?_, owns, rfl, ?_, Rearranges.refl system,
        fun pid => .spared (.refl _ pid)⟩
      · simp [rollIn, onDisk]
      · simp [owns.keeps_head.isInMemory, onDisk]
  | true =>
      cases full : system.memory.isFull with
      | false =>
          rcases fetchImage_spec owns onDisk full with
            ⟨brought, next, fetched, ownsNext, same, inMemory, rearranges, ready, resident, spares,
              moves⟩
          refine Or.inl ⟨brought, next, ?_, ?_, same, inMemory, rearranges,
            moves_of_spares spares moves⟩
          · simp [rollIn, onDisk, full, fetched]
          · rw [ready, resident]
            exact ownsNext
      | true =>
          rcases makeRoom_spec owns with
            ⟨result, between, made, ownsBetween, rearranges, spared, movesRoom, room⟩
          cases result with
          | error cause =>
              refine Or.inr ⟨cause, between, ?_, ownsBetween, rearranges, movesRoom⟩
              simp [rollIn, onDisk, full, made]
          | ok _ =>
              rcases fetchImage_spec ownsBetween onDisk (room rfl) with
                ⟨brought, next, fetched, ownsNext, same, inMemory, rearrangesNext, ready, resident,
                  spares, moves⟩
              refine Or.inl ⟨brought, next, ?_, ?_, same, inMemory, rearranges.trans rearrangesNext,
                ?_⟩
              · simp [rollIn, onDisk, full, made, fetched]
              · rw [ready, resident]
                exact ownsNext
              · -- The victim and the process that is brought in are different ones.
                intro pid
                by_cases brought : pid = process.pid
                · exact brought ▸ .spared_before spared moves rearranges.segments
                · exact (movesRoom pid).spare (spares pid brought) rearranges.segments
                    rearrangesNext.segments

/-! ## Admission and release -/

/-- A program gets a place as a process of the next number, or nothing changes. -/
theorem enroll_spec (owns : system.storage.Owns others)
    (new : system.nextPid ∉ others.map Process.pid) (program : List UInt8) (priority : Nat) :
    (∃ error, (enroll program priority system).value = (.error error, system)) ∨
    ∃ process memory files, (enroll program priority system).value =
        (.ok system.nextPid, { system with
          memory, files, nextPid := system.nextPid + 1, resident := system.resident ++ [process] }) ∧
      process.unplaced = { Process.create system.nextPid priority with phase := .resident } ∧
      Storage.Owns ⟨memory, files⟩ (process :: others) ∧
      memory.segments = system.memory.segments ∧
      (∀ pid, pid ≠ system.nextPid → system.storage.Spares ⟨memory, files⟩ pid) ∧
      ∀ length, system.memory.Uniform length →
        Storage.image? ⟨memory, files⟩ length system.nextPid = some (padded length program) := by
  have homeless : system.memory.holding? system.nextPid = none := owns.homeless new
  have unswapped : system.files.swapImage system.nextPid = none := owns.unswapped new
  cases full : system.memory.isFull with
  | true =>
      rcases owns.serviceable.storeSwap system.nextPid
          (program.take system.memory.segmentSize) with
        ⟨error, refused⟩ | ⟨stored, files, succeeded, serviceable, swapped⟩
      · exact Or.inl ⟨.files error, by simp [enroll, full, refused]⟩
      · have spares (pid : Nat) (different : pid ≠ system.nextPid) :
            system.storage.Spares ⟨system.memory, files⟩ pid :=
          ⟨rfl, fun _ _ _ _ => rfl, by rw [swapped, if_neg different]⟩
        have swappedOut : files.swapImage system.nextPid =
            some (program.take system.memory.segmentSize) := by
          rw [swapped, if_pos rfl]
        refine Or.inr ⟨{ Process.create system.nextPid priority with
          residence := some .disk, phase := .resident }, system.memory, files, ?_, rfl, ?_, rfl,
          spares, ?_⟩
        · simp [enroll, full, succeeded, register, Process.create]
        · exact owns.add ⟨system.memory, files⟩ owns.tidy serviceable new rfl spares
            (.onDisk _ rfl rfl homeless swappedOut)
        · intro length uniform
          rw [Storage.image?_eq_padded length homeless swappedOut, uniform.segmentSize, padded_take]
  | false =>
      rcases @Memory.Tidy.place _ (Process.create system.nextPid priority) owns.tidy full homeless
        program with ⟨placement, placed, process_eq, enters, tidy, bytes⟩
      rcases enters.held with ⟨held, located⟩
      have spares (pid : Nat) (different : pid ≠ system.nextPid) :
          system.storage.Spares ⟨placement.memory, system.files⟩ pid :=
        enters.spares owns.tidy (by simp)
          (by simpa [Process.create] using Ne.symm different) rfl
      refine Or.inr ⟨{ placement.process with phase := .resident }, placement.memory, system.files,
        ?_, ?_, ?_, enters.segments, spares, ?_⟩
      · have loaded : system.memory.load program system.nextPid priority = .ok placement := placed
        simp only [enroll, full, loaded]
        simp [register, process_eq, Process.create]
      · rw [process_eq]
        rfl
      · rw [process_eq]
        exact owns.add ⟨placement.memory, system.files⟩ tidy owns.serviceable new enters.segments
          spares (.inMemory _ _ rfl rfl held located unswapped)
      · intro length uniform
        have width : placement.segment.length = length :=
          (uniform.of_segments enters.segments).each _ (List.mem_of_getElem? located)
        exact (Storage.image?_eq_bytes length held located).trans (by rw [bytes, width])

/-- The place of a process is given back, and no other one. -/
theorem reclaim_spec (owns : system.storage.Owns (process :: others)) :
    ∃ memory files, (reclaim process system).value = { system with memory, files } ∧
      Storage.Owns ⟨memory, files⟩ others ∧ memory.segments = system.memory.segments ∧
      ∀ pid, pid ≠ process.pid → system.storage.Spares ⟨memory, files⟩ pid := by
  cases owns.keeps_head with
  | inMemory index segment residence segment_eq held located unswapped =>
      have found := owns.partition held located
      rcases owns.tidy.vacate found with ⟨leaves, tidy⟩
      have homeless := leaves.holding?_of_left owns.tidy rfl
      have spares (pid : Nat) (different : pid ≠ process.pid) :
          system.storage.Spares ⟨system.memory.vacate process.pid index, system.files⟩ pid :=
        leaves.spares owns.tidy (by simpa using Ne.symm different) (by simp) rfl
      refine ⟨system.memory.vacate process.pid index, system.files, ?_, ?_, leaves.segments, spares⟩
      · simp [reclaim, Process.isInMemory, residence, segment_eq, owns.tidy.evacuate found]
      · exact owns.remove ⟨_, system.files⟩ tidy owns.serviceable leaves.segments spares homeless
          unswapped
  | onDisk image residence segment_eq homeless swapped =>
      rcases owns.serviceable.deleteSwap swapped with
        ⟨fetched, files, succeeded, _, serviceable, swappedNext⟩
      have active : system.files.hasSwap process.pid = true := by
        simp [owns.serviceable.hasSwap_eq, swapped]
      have spares (pid : Nat) (different : pid ≠ process.pid) :
          system.storage.Spares ⟨system.memory, files⟩ pid :=
        ⟨rfl, fun _ _ _ _ => rfl, by rw [swappedNext, if_neg different]⟩
      refine ⟨system.memory, files, ?_, ?_, rfl, spares⟩
      · simp [reclaim, Process.isInMemory, residence, active, succeeded]
      · exact owns.remove ⟨system.memory, files⟩ owns.tidy serviceable rfl spares homeless
          (by rw [swappedNext, if_pos rfl])

end System

end Timeshare
