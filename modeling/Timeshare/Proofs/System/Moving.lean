import Timeshare.Proofs.System.Sound

/-!
# Moving images in any storage

What swapping does to the processes, whatever the storage keeps for them.  When the disk was
formatted while processes lay there, images are lost and operations fail that otherwise succeed, but
a process that is moved, or is not, stays the same process in the same queue.
-/

namespace Timeshare

/-! ## Memory -/

namespace Memory

variable {memory : Memory} {process : Process}

theorem unplaced_of_place {image : List UInt8} {placement : Placement}
    (placed : memory.place process image = .ok placement) :
    placement.process.unplaced = process.unplaced := by
  rcases place_eq_ok placed with ⟨index, segment, store, _, _, rfl⟩
  rfl

theorem unplaced_of_withdraw {withdrawal : Withdrawal}
    (withdrawn : memory.withdraw process = .ok withdrawal) :
    withdrawal.process.unplaced = process.unplaced := by
  rcases withdraw_eq_ok withdrawn with ⟨index, image, rfl⟩
  rfl

end Memory

/-! ## Disk -/

namespace FileSystem.Serviceable

variable {files : FileSystem}

theorem after_storeSwap (serviceable : files.Serviceable) (pid : Nat) (image : List UInt8) :
    (perform (FileSystem.storeSwap pid image) files).2.Serviceable := by
  rcases serviceable.storeSwap pid image with ⟨error, refused⟩ | ⟨stored, next, succeeded, kept, _⟩
  · rw [refused]
    exact serviceable
  · rw [succeeded]
    exact kept

theorem after_deleteSwap (serviceable : files.Serviceable) (pid : Nat) :
    (perform (FileSystem.deleteSwap pid) files).2.Serviceable := by
  cases swapped : files.swapImage pid with
  | some image =>
      rcases serviceable.deleteSwap swapped with ⟨fetched, next, succeeded, _, kept, _⟩
      rw [succeeded]
      exact kept
  | none =>
      have inactive : files.hasSwap pid = false := by
        rw [serviceable.hasSwap_eq, swapped, Option.isSome_none]
      rw [Catalogues.deleteSwap_inactive inactive]
      exact serviceable

theorem serve_format (serviceable : files.Serviceable) :
    ∃ report next, perform (FileSystem.serve .format) files = (.ok (.formatted report), next) ∧
      next.Serviceable ∧ ∀ pid, next.swapImage pid = none := by
  rcases serviceable.format with ⟨report, next, formatted, kept, dropped⟩
  exact ⟨report, next, perform_bind_ok _ formatted, kept, dropped⟩

theorem after_serve (serviceable : files.Serviceable) (request : FileRequest) :
    (perform (FileSystem.serve request) files).2.Serviceable := by
  by_cases format : request = .format
  · rcases serviceable.serve_format with ⟨report, next, served, kept, _⟩
    rw [format, served]
    exact kept
  · exact (serviceable.serve format).1

end FileSystem.Serviceable

/-! ## Swapping -/

namespace System

/-- Images may have been moved or lost.  Nothing else has changed. -/
structure Relocates (system next : System) : Prop where
  cpu : next.cpu = system.cpu
  policy : next.policy = system.policy
  nextPid : next.nextPid = system.nextPid
  executing : next.executing = system.executing
  terminated : next.terminated = system.terminated
  ready : next.ready.map Process.unplaced = system.ready.map Process.unplaced
  resident : next.resident.map Process.unplaced = system.resident.map Process.unplaced
  serviceable : system.files.Serviceable → next.files.Serviceable

namespace Relocates

theorem refl (system : System) : system.Relocates system :=
  ⟨rfl, rfl, rfl, rfl, rfl, rfl, rfl, id⟩

theorem trans {system next last : System} (first : system.Relocates next)
    (second : next.Relocates last) : system.Relocates last where
  cpu := second.cpu.trans first.cpu
  policy := second.policy.trans first.policy
  nextPid := second.nextPid.trans first.nextPid
  executing := second.executing.trans first.executing
  terminated := second.terminated.trans first.terminated
  ready := second.ready.trans first.ready
  resident := second.resident.trans first.resident
  serviceable usable := second.serviceable (first.serviceable usable)

theorem of_storage (system : System) (memory : Memory) {files : FileSystem}
    (serviceable : system.files.Serviceable → files.Serviceable) :
    system.Relocates { system with memory, files } :=
  ⟨rfl, rfl, rfl, rfl, rfl, rfl, rfl, serviceable⟩

end Relocates

variable {system : System} {process : Process}

theorem rollOut_relocates (victim : Process) (system : System) :
    ∃ result moved next, (rollOut victim system).value = (result, moved, next) ∧
      moved.unplaced = victim.unplaced ∧ system.Relocates next := by
  cases withdrawn : system.memory.withdraw victim with
  | error error =>
      exact ⟨.error (.memory error), victim, system, by simp [rollOut, withdrawn], rfl,
        .refl system⟩
  | ok withdrawal =>
      have same := Memory.unplaced_of_withdraw withdrawn
      have serviceable (usable : system.files.Serviceable) :=
        usable.after_storeSwap victim.pid withdrawal.image
      cases stores : FileSystem.perform (FileSystem.storeSwap victim.pid withdrawal.image)
        system.files with
      | mk outcome files =>
          rw [stores] at serviceable
          cases outcome with
          | ok stored =>
              exact ⟨.ok (), { withdrawal.process with residence := some .disk },
                { system with memory := withdrawal.memory, files },
                by simp [rollOut, withdrawn, stores], same, .of_storage system _ serviceable⟩
          | error error =>
              cases placed : withdrawal.memory.place withdrawal.process withdrawal.image with
              | error failure =>
                  exact ⟨.error (.memory failure), withdrawal.process,
                    { system with memory := withdrawal.memory, files },
                    by simp [rollOut, withdrawn, stores, placed], same,
                    .of_storage system _ serviceable⟩
              | ok placement =>
                  exact ⟨.error (.files error), placement.process,
                    { system with memory := placement.memory, files },
                    by simp [rollOut, withdrawn, stores, placed],
                    (Memory.unplaced_of_place placed).trans same,
                    .of_storage system _ serviceable⟩

theorem makeRoom_relocates (system : System) :
    ∃ result next, system.makeRoom.value = (result, next) ∧ system.Relocates next := by
  unfold makeRoom
  cases split : splitLast? Process.isInMemory system.ready with
  | some parts =>
      rcases parts with ⟨before, victim, after⟩
      rcases rollOut_relocates victim system with ⟨result, moved, next, rolled, same, relocates⟩
      refine ⟨result, { next with ready := before ++ moved :: after }, by simp [rolled], ?_⟩
      exact { relocates with ready := by simp [splitLast?_join split, same] }
  | none =>
      cases splitResident : splitLast? Process.isInMemory system.resident with
      | some parts =>
          rcases parts with ⟨before, victim, after⟩
          rcases rollOut_relocates victim system with
            ⟨result, moved, next, rolled, same, relocates⟩
          refine ⟨result, { next with resident := before ++ moved :: after }, by simp [rolled], ?_⟩
          exact { relocates with resident := by simp [splitLast?_join splitResident, same] }
      | none => exact ⟨_, system, rfl, .refl system⟩

theorem fetchImage_relocates (process : Process) (system : System) :
    ∃ result next, (fetchImage process system).value = (result, next) ∧ system.Relocates next ∧
      ∀ brought, result = .ok brought → brought.unplaced = process.unplaced := by
  have serviceable (usable : system.files.Serviceable) := usable.after_deleteSwap process.pid
  cases deleted : FileSystem.perform (FileSystem.deleteSwap process.pid) system.files with
  | mk outcome files =>
      rw [deleted] at serviceable
      cases outcome with
      | error error =>
          exact ⟨.error (.files error), { system with files }, by simp [fetchImage, deleted],
            .of_storage system system.memory serviceable, by simp⟩
      | ok fetched =>
          cases placed : system.memory.place process fetched.image with
          | error error =>
              exact ⟨.error (.memory error), { system with files },
                by simp [fetchImage, deleted, placed],
                .of_storage system system.memory serviceable, by simp⟩
          | ok placement =>
              refine ⟨.ok placement.process, { system with memory := placement.memory, files },
                by simp [fetchImage, deleted, placed],
                .of_storage system placement.memory serviceable, ?_⟩
              rintro brought ⟨⟩
              exact Memory.unplaced_of_place placed

theorem rollIn_relocates (process : Process) (system : System) :
    ∃ result next, (rollIn process system).value = (result, next) ∧ system.Relocates next ∧
      ∀ brought, result = .ok brought → brought.unplaced = process.unplaced := by
  cases onDisk : process.isOnDisk with
  | false =>
      refine ⟨.ok process, system, by simp [rollIn, onDisk], .refl system, ?_⟩
      rintro brought ⟨⟩
      rfl
  | true =>
      cases full : system.memory.isFull with
      | false =>
          rcases fetchImage_relocates process system with ⟨result, next, fetched, moved⟩
          exact ⟨result, next, by simp [rollIn, onDisk, full, fetched], moved⟩
      | true =>
          rcases makeRoom_relocates system with ⟨room, between, made, relocates⟩
          cases room with
          | error cause =>
              exact ⟨.error cause, between, by simp [rollIn, onDisk, full, made], relocates, by simp⟩
          | ok _ =>
              rcases fetchImage_relocates process between with
                ⟨result, next, fetched, relocatesNext, same⟩
              exact ⟨result, next, by simp [rollIn, onDisk, full, made, fetched],
                relocates.trans relocatesNext, same⟩

theorem reclaim_relocates (process : Process) (system : System) :
    ∃ memory files, (reclaim process system).value = { system with memory, files } ∧
      (system.files.Serviceable → files.Serviceable) := by
  cases inMemory : process.isInMemory with
  | true =>
      exact ⟨system.memory.evacuate process.pid, system.files, by simp [reclaim, inMemory], id⟩
  | false =>
      cases active : system.files.hasSwap process.pid with
      | false => exact ⟨system.memory, system.files, by simp [reclaim, inMemory, active], id⟩
      | true =>
          have serviceable (usable : system.files.Serviceable) := usable.after_deleteSwap process.pid
          cases deleted : FileSystem.perform (FileSystem.deleteSwap process.pid) system.files with
          | mk outcome files =>
              rw [deleted] at serviceable
              refine ⟨system.memory, files, ?_, serviceable⟩
              cases outcome with
              | error error => simp [reclaim, inMemory, active, deleted]
              | ok fetched => simp [reclaim, inMemory, active, deleted]

end System

end Timeshare
