import Timeshare.Proofs.FileSystem.SwapSpace
import Timeshare.Proofs.System.Swapping

/-!
# Rolling in

What a process that is brought into memory finds there, and what that costs another one.  While some
segment is vacant nobody else is touched.  When memory is full the image of one process is stored and
that of the other one fetched into the same segment, and everything else is left as it was.
-/

namespace Timeshare

/-- The process after its image was moved to disk. -/
def Process.evicted (process : Process) : Process :=
  { process with segment := none, residence := some .disk }

namespace System

/-- The process that makes room, with the ready queue and the resident processes once it lies on
disk: the one in memory that is closest to the end of the ready queue or, if the queue has none, the
resident one in memory with the highest number. -/
inductive MakesRoom (system : System) (victim : Process) : List Process → List Process → Prop
  | ready (before after : List Process) (queue : system.ready = before ++ victim :: after)
      (inMemory : victim.isInMemory = true) (last : ∀ other ∈ after, other.isInMemory = false) :
      MakesRoom system victim (before ++ victim.evicted :: after) system.resident
  | resident (before after : List Process) (queued : ∀ other ∈ system.ready, other.isInMemory = false)
      (listed : system.resident = before ++ victim :: after) (inMemory : victim.isInMemory = true)
      (highest : ∀ other ∈ system.resident, other.isInMemory = true → other.pid ≤ victim.pid) :
      MakesRoom system victim system.ready (before ++ victim.evicted :: after)

/-- A process whose swap file held `image` was brought into memory.  It is in the first segment that
was vacant or, if none was, in that of one other process, which lies on disk now.  Nothing else has
changed. -/
inductive RollsIn (system : System) (process : Process) (image : List UInt8) :
    Process → System → Prop
  | vacant (memory : Memory) (files : FileSystem) (index : Nat) (segment : Segment)
      (first : system.memory.FirstVacant index segment)
      (changes : system.memory.Changes memory index segment .vacant (.heldBy process.pid))
      (bytes : memory.bytes segment = padded segment.length image)
      (releases : system.files.ReleasesSwap process.pid files) :
      RollsIn system process image
        { process with segment := some segment, residence := some .memory }
        { system with memory, files }
  | exchange (memory : Memory) (files : FileSystem) (ready resident : List Process)
      (victim : Process) (index : Nat) (segment : Segment) (full : system.memory.isFull = true)
      (room : system.MakesRoom victim ready resident) (left : victim.segment = some segment)
      (changes : system.memory.Changes memory index segment (.heldBy victim.pid)
        (.heldBy process.pid))
      (bytes : memory.bytes segment = padded segment.length image)
      (exchanges : system.files.Exchanges victim.pid (system.memory.bytes segment) process.pid
        files) :
      RollsIn system process image
        { process with segment := some segment, residence := some .memory }
        { system with memory, files, ready, resident }

variable {system next : System} {process victim : Process} {others : List Process}

namespace MakesRoom

variable {ready resident : List Process}

theorem mem (room : system.MakesRoom victim ready resident) :
    victim ∈ system.ready ++ system.resident := by
  cases room with
  | ready before after queue => simp [queue]
  | resident before after _ listed => simp [listed]

/-- Nobody leaves the queues, and their orders stay. -/
theorem pids (room : system.MakesRoom victim ready resident) :
    ready.map Process.pid = system.ready.map Process.pid ∧
      resident.map Process.pid = system.resident.map Process.pid := by
  cases room with
  | ready before after queue => simp [queue, Process.evicted]
  | resident before after _ listed => simp [listed, Process.evicted]

end MakesRoom

theorem RollsIn.pids {image : List UInt8} {brought : Process}
    (rollsIn : system.RollsIn process image brought next) :
    next.ready.map Process.pid = system.ready.map Process.pid ∧
      next.resident.map Process.pid = system.resident.map Process.pid := by
  cases rollsIn with
  | vacant => exact ⟨rfl, rfl⟩
  | exchange _ _ _ _ _ _ _ _ room => exact room.pids

/-! ## Making room -/

/-- An image that is taken out of memory is stored as a whole. -/
theorem rollOut_eq_ok (owns : system.storage.Owns others) (member : victim ∈ others)
    (inMemory : victim.isInMemory = true) {moved : Process}
    (rolled : (rollOut victim system).value = (.ok (), moved, next)) :
    ∃ (index : Nat) (segment : Segment) (files : FileSystem),
      victim.segment = some segment ∧
      system.memory.partitions[index]? = some ⟨segment, .heldBy victim.pid⟩ ∧
      system.files.StoresSwap victim.pid (system.memory.bytes segment) files ∧
      files.Serviceable ∧ moved = victim.evicted ∧
      next = { system with memory := system.memory.vacate victim.pid index, files } := by
  cases owns.keeps victim member with
  | onDisk _ residence => simp [Process.isInMemory, residence] at inMemory
  | inMemory index segment residence segment_eq held located unswapped =>
      have found := owns.partition held located
      simp only [rollOut, owns.tidy.withdraw found] at rolled
      rcases owns.serviceable.storeSwap victim.pid (system.memory.bytes segment) with
        ⟨error, refused⟩ | ⟨stored, files, succeeded, serviceable, _⟩
      · rw [refused] at rolled
        simp only at rolled
        split at rolled
        · simp at rolled
        · simp at rolled
      · rw [succeeded] at rolled
        simp only [Journaled.value_bind, Journaled.value_pure, Prod.mk.injEq, true_and] at rolled
        rcases rolled with ⟨rfl, rfl⟩
        exact ⟨index, segment, files, segment_eq, found,
          owns.serviceable.storesSwap_of_ok unswapped succeeded, serviceable, rfl, rfl⟩

theorem makeRoom_eq_ok (owns : system.storage.Owns others)
    (waiting : ∀ other ∈ system.ready ++ system.resident, other ∈ others)
    (ascending : (system.resident.map Process.pid).Pairwise (· < ·))
    (made : system.makeRoom.value = (.ok (), next)) :
    ∃ (victim : Process) (ready resident : List Process) (index : Nat) (segment : Segment)
      (files : FileSystem), system.MakesRoom victim ready resident ∧
      victim.segment = some segment ∧
      system.memory.partitions[index]? = some ⟨segment, .heldBy victim.pid⟩ ∧
      system.files.StoresSwap victim.pid (system.memory.bytes segment) files ∧
      files.Serviceable ∧
      next = { system with memory := system.memory.vacate victim.pid index, files, ready, resident } := by
  unfold makeRoom at made
  cases split : splitLast? Process.isInMemory system.ready with
  | some parts =>
      rcases parts with ⟨before, victim, after⟩
      have queue := splitLast?_join split
      have inMemory := splitLast?_fits split
      have member : victim ∈ others := waiting victim (by simp [queue])
      rcases rolled : (rollOut victim system).value with ⟨result, moved, between⟩
      simp only [split, Journaled.value_bind, rolled, Journaled.value_pure, Prod.mk.injEq] at made
      rcases made with ⟨rfl, rfl⟩
      rcases rollOut_eq_ok owns member inMemory rolled with
        ⟨index, segment, files, left, found, stores, serviceable, rfl, rfl⟩
      exact ⟨victim, _, _, index, segment, files,
        .ready before after queue inMemory (splitLast?_last split), left, found, stores,
        serviceable, rfl⟩
  | none =>
      cases splitResident : splitLast? Process.isInMemory system.resident with
      | none => simp [split, splitResident] at made
      | some parts =>
          rcases parts with ⟨before, victim, after⟩
          have listed := splitLast?_join splitResident
          have inMemory := splitLast?_fits splitResident
          have member : victim ∈ others := waiting victim (by simp [listed])
          have highest : ∀ other ∈ system.resident, other.isInMemory = true →
              other.pid ≤ victim.pid := by
            intro other among resident
            rw [listed, List.map_append, List.map_cons, List.pairwise_append] at ascending
            rw [listed] at among
            rcases List.mem_append.mp among with earlier | here
            · exact Nat.le_of_lt (ascending.2.2 _ (List.mem_map_of_mem earlier) _
                List.mem_cons_self)
            · rcases List.mem_cons.mp here with rfl | later
              · exact Nat.le_refl _
              · simp [splitLast?_last splitResident other later] at resident
          rcases rolled : (rollOut victim system).value with ⟨result, moved, between⟩
          simp only [split, splitResident, Journaled.value_bind, rolled, Journaled.value_pure,
            Prod.mk.injEq] at made
          rcases made with ⟨rfl, rfl⟩
          rcases rollOut_eq_ok owns member inMemory rolled with
            ⟨index, segment, files, left, found, stores, serviceable, rfl, rfl⟩
          exact ⟨victim, _, _, index, segment, files,
            .resident before after (splitLast?_eq_none split) listed inMemory highest, left, found,
            stores, serviceable, rfl⟩

/-! ## Fetching an image -/

/-- An image is fetched into the first vacant segment. -/
theorem fetchImage_eq_ok (tidy : system.memory.Tidy) (serviceable : system.files.Serviceable)
    (homeless : system.memory.holding? process.pid = none) {image : List UInt8}
    (swapped : system.files.swapImage process.pid = some image)
    (vacant : system.memory.isFull = false) {brought : Process}
    (fetched : (fetchImage process system).value = (.ok brought, next)) :
    ∃ (index : Nat) (segment : Segment) (memory : Memory) (files : FileSystem),
      system.memory.FirstVacant index segment ∧
      system.memory.Changes memory index segment .vacant (.heldBy process.pid) ∧
      memory.bytes segment = padded segment.length image ∧
      system.files.ReleasesSwap process.pid files ∧
      brought = { process with segment := some segment, residence := some .memory } ∧
      next = { system with memory, files } := by
  rcases serviceable.fetchSwap swapped with ⟨swap, files, deleted, rfl, releases⟩
  rcases tidy.place vacant homeless swap.image with
    ⟨placement, placed, process_eq, changes, _, bytes⟩
  simp only [fetchImage, deleted, placed, Journaled.value_bind, Journaled.value_pure,
    Prod.mk.injEq, Except.ok.injEq] at fetched
  rcases fetched with ⟨rfl, rfl⟩
  exact ⟨placement.index, placement.segment, placement.memory, files,
    Memory.firstVacant_of_place placed, changes, bytes, releases, process_eq, rfl⟩

/-! ## Rolling in -/

/-- A process on disk that is brought into memory finds its image there. -/
theorem rollIn_rollsIn (owns : system.storage.Owns (process :: others))
    (waiting : ∀ other ∈ system.ready ++ system.resident, other ∈ others)
    (ascending : (system.resident.map Process.pid).Pairwise (· < ·))
    (onDisk : process.isOnDisk = true) {image : List UInt8}
    (swapped : system.files.swapImage process.pid = some image) {brought : Process}
    (rolled : (rollIn process system).value = (.ok brought, next)) :
    system.RollsIn process image brought next := by
  have homeless : system.memory.holding? process.pid = none := by
    cases owns.keeps_head with
    | inMemory _ _ residence => simp [Process.isOnDisk, residence] at onDisk
    | onDisk _ _ _ homeless => exact homeless
  cases full : system.memory.isFull with
  | false =>
      simp only [rollIn, onDisk, full, Bool.not_true, Bool.false_eq_true, if_false] at rolled
      rcases fetchImage_eq_ok owns.tidy owns.serviceable homeless swapped full rolled with
        ⟨index, segment, memory, files, first, changes, bytes, releases, rfl, rfl⟩
      exact .vacant memory files index segment first changes bytes releases
  | true =>
      simp only [rollIn, onDisk, full, Bool.not_true, Bool.false_eq_true, if_false, if_true,
        Journaled.value_bind] at rolled
      rcases made : system.makeRoom.value with ⟨error | _, between⟩
      · simp [made] at rolled
      · simp only [made] at rolled
        rcases makeRoom_eq_ok owns (fun other member => List.mem_cons_of_mem _ (waiting other member))
          ascending made with
          ⟨victim, ready, resident, index, segment, stored, room, left, found, stores, serviceable,
            rfl⟩
        have different : process.pid ≠ victim.pid :=
          (owns.ne_of_mem (waiting victim room.mem)).symm
        rcases owns.tidy.vacate found with ⟨leaves, tidyLeft⟩
        have homelessLeft : (system.memory.vacate victim.pid index).holding? process.pid = none := by
          rw [leaves.holding?_of_ne owns.tidy (by simpa using Ne.symm different) (by simp)]
          exact homeless
        rcases @fetchImage_eq_ok
          { system with memory := system.memory.vacate victim.pid index, files := stored, ready, resident } next
          process tidyLeft serviceable homelessLeft image
          ((stores.swapImage different).trans swapped) (leaves.isFull_eq_false owns.tidy) brought rolled with
          ⟨other, there, memory, files, _, enters, bytes, releases, rfl, rfl⟩
        -- No other segment was vacant, so the image goes where the victim was.
        obtain ⟨rfl, rfl⟩ := leaves.eq_of_vacant owns.tidy full enters.before
        exact .exchange memory files ready resident victim other there full room left
          (leaves.trans enters) bytes (stores.exchanges releases (Ne.symm different))

end System

end Timeshare
