import Timeshare.Proofs.FileSystem.SwapArea
import Timeshare.Proofs.Machine.Relocation
import Timeshare.Proofs.Memory.Lodging
import Timeshare.System.State

/-!
# Where images are

The image of a process is in a segment of memory or in a swap file.  Four records tell which: the
process itself, the tenants of the segments, the active swap files, and the directory of the disk.
`Storage.Keeps` says that they agree about a process, `Storage.Owns` that they agree about all
processes and that nothing is kept for anyone else.

An operation on one process changes the records of that process and spares those of the others, so
that `Owns` has to be looked at for one process only.
-/

namespace Timeshare

/-- Memory and disk together. -/
structure Storage where
  memory : Memory
  files : FileSystem

/-- The memory and the disk of a system. -/
abbrev System.storage (system : System) : Storage :=
  ⟨system.memory, system.files⟩

namespace Storage

/-- The image of the process `pid`.  One in a swap file is cut or filled up to `length` bytes, as
bringing it into a segment of this length does. -/
def image? (storage : Storage) (length pid : Nat) : Option (List UInt8) :=
  match storage.memory.holding? pid with
  | some index => storage.memory.segments[index]?.map storage.memory.bytes
  | none => (storage.files.swapImage pid).map (padded length)

/-- A process and the storage agree about where its image is. -/
inductive Keeps (storage : Storage) (process : Process) : Prop
  | inMemory (index : Nat) (segment : Segment)
      (residence : process.residence = some .memory) (segment_eq : process.segment = some segment)
      (held : storage.memory.holding? process.pid = some index)
      (located : storage.memory.segments[index]? = some segment)
      (unswapped : storage.files.swapImage process.pid = none)
  | onDisk (image : List UInt8)
      (residence : process.residence = some .disk) (segment_eq : process.segment = none)
      (homeless : storage.memory.holding? process.pid = none)
      (swapped : storage.files.swapImage process.pid = some image)

/-- The storage keeps an image for each of the processes, and none for anyone else. -/
structure Owns (storage : Storage) (processes : List Process) : Prop where
  tidy : storage.memory.Tidy
  serviceable : storage.files.Serviceable
  distinct : (processes.map Process.pid).Nodup
  keeps : ∀ process ∈ processes, storage.Keeps process
  held : ∀ pid index, storage.memory.holding? pid = some index → pid ∈ processes.map Process.pid
  swapped : ∀ pid image, storage.files.swapImage pid = some image → pid ∈ processes.map Process.pid

/-- Nothing that is kept for the process `pid` has changed. -/
structure Spares (storage next : Storage) (pid : Nat) : Prop where
  held : next.memory.holding? pid = storage.memory.holding? pid
  bytes : ∀ index segment, storage.memory.holding? pid = some index →
    storage.memory.segments[index]? = some segment →
      next.memory.bytes segment = storage.memory.bytes segment
  swapped : next.files.swapImage pid = storage.files.swapImage pid

/-- The image of the process `pid` was moved, as a whole or cut and filled to its new segment, or
nothing that is kept for the process has changed. -/
inductive Moves (storage next : Storage) (pid : Nat) : Prop
  | spared (spares : storage.Spares next pid)
  | out (index : Nat) (segment : Segment) (held : storage.memory.holding? pid = some index)
      (located : storage.memory.segments[index]? = some segment)
      (homeless : next.memory.holding? pid = none)
      (swapped : next.files.swapImage pid = some (storage.memory.bytes segment))
  | back (image : List UInt8) (index : Nat) (segment : Segment)
      (homeless : storage.memory.holding? pid = none)
      (swapped : storage.files.swapImage pid = some image)
      (held : next.memory.holding? pid = some index)
      (located : next.memory.segments[index]? = some segment)
      (bytes : next.memory.bytes segment = padded segment.length image)
  | again (index other : Nat) (segment there : Segment)
      (held : storage.memory.holding? pid = some index)
      (located : storage.memory.segments[index]? = some segment)
      (heldNext : next.memory.holding? pid = some other)
      (locatedNext : next.memory.segments[other]? = some there)
      (bytes : next.memory.bytes there = padded there.length (storage.memory.bytes segment))

variable {storage next : Storage} {process moved : Process} {others : List Process}

theorem image?_eq_bytes {index pid : Nat} {segment : Segment} (length : Nat)
    (held : storage.memory.holding? pid = some index)
    (located : storage.memory.segments[index]? = some segment) :
    storage.image? length pid = some (storage.memory.bytes segment) := by
  simp [image?, held, located]

theorem image?_eq_padded {pid : Nat} {image : List UInt8} (length : Nat)
    (homeless : storage.memory.holding? pid = none)
    (swapped : storage.files.swapImage pid = some image) :
    storage.image? length pid = some (padded length image) := by
  simp [image?, homeless, swapped]

namespace Keeps

theorem houses (keeps : storage.Keeps process) : storage.memory.Houses process := by
  cases keeps with
  | inMemory index segment residence segment_eq held located =>
      exact .inside index segment residence segment_eq held located
  | onDisk _ residence segment_eq homeless => exact .outside residence segment_eq homeless

theorem isInMemory (keeps : storage.Keeps process) :
    process.isInMemory = !process.isOnDisk :=
  keeps.houses.isInMemory

/-- What a process has besides its place does not matter. -/
theorem of_place (keeps : storage.Keeps process) (same : moved.place = process.place) :
    storage.Keeps moved := by
  simp only [Process.place, Prod.mk.injEq] at same
  rcases same with ⟨pid, residence, segment⟩
  cases keeps with
  | inMemory index there resident segment_eq held located unswapped =>
      exact .inMemory index there (residence.trans resident) (segment.trans segment_eq)
        (pid ▸ held) located (pid ▸ unswapped)
  | onDisk image resident segment_eq homeless swapped =>
      exact .onDisk image (residence.trans resident) (segment.trans segment_eq)
        (pid ▸ homeless) (pid ▸ swapped)

end Keeps

namespace Spares

variable {pid : Nat}

theorem refl (storage : Storage) (pid : Nat) : storage.Spares storage pid :=
  ⟨rfl, fun _ _ _ _ => rfl, rfl⟩

theorem trans {last : Storage} (first : storage.Spares next pid) (second : next.Spares last pid)
    (segments : next.memory.segments = storage.memory.segments) : storage.Spares last pid where
  held := second.held.trans first.held
  bytes := by
    intro index segment held located
    rw [second.bytes index segment (first.held.trans held) (segments ▸ located)]
    exact first.bytes index segment held located
  swapped := second.swapped.trans first.swapped

theorem image? (spares : storage.Spares next pid)
    (segments : next.memory.segments = storage.memory.segments) (length : Nat) :
    next.image? length pid = storage.image? length pid := by
  simp only [Storage.image?, spares.held, spares.swapped, segments]
  cases held : storage.memory.holding? pid with
  | none => rfl
  | some index =>
      apply Option.map_congr
      intro segment located
      exact spares.bytes index segment held located

/-- In memory nobody has moved but the process whose image was moved. -/
theorem rehouses {pid : Nat} (spares : ∀ other, other ≠ pid → storage.Spares next other)
    (tidy : next.memory.Tidy) (segments : next.memory.segments = storage.memory.segments) :
    storage.memory.Rehouses next.memory pid :=
  ⟨tidy, segments, fun other different => (spares other different).held⟩

theorem keeps (spares : storage.Spares next process.pid)
    (segments : next.memory.segments = storage.memory.segments) (keeps : storage.Keeps process) :
    next.Keeps process := by
  cases keeps with
  | inMemory index segment residence segment_eq held located unswapped =>
      exact .inMemory index segment residence segment_eq (spares.held.trans held)
        (segments ▸ located) (spares.swapped.trans unswapped)
  | onDisk image residence segment_eq homeless swapped =>
      exact .onDisk image residence segment_eq (spares.held.trans homeless)
        (spares.swapped.trans swapped)

end Spares

namespace Moves

variable {pid : Nat}

/-- Between segments of one length images are moved as a whole. -/
theorem image? (moves : storage.Moves next pid) (tidy : storage.memory.Tidy)
    (segments : next.memory.segments = storage.memory.segments) {length : Nat}
    (uniform : storage.memory.Uniform length) :
    next.image? length pid = storage.image? length pid := by
  have width {index : Nat} {segment : Segment}
      (located : next.memory.segments[index]? = some segment) : segment.length = length :=
    (uniform.of_segments segments).each segment (List.mem_of_getElem? located)
  have whole {index : Nat} {segment : Segment}
      (located : storage.memory.segments[index]? = some segment) :
      (storage.memory.bytes segment).length = length := by
    have member := List.mem_of_getElem? located
    rw [Memory.length_bytes (tidy.inside segment member), uniform.each segment member]
  cases moves with
  | spared spares => exact spares.image? segments length
  | out index segment held located homeless swapped =>
      rw [image?_eq_padded length homeless swapped, image?_eq_bytes length held located,
        padded_of_length (whole located)]
  | back image index segment homeless swapped held located bytes =>
      rw [image?_eq_bytes length held located, image?_eq_padded length homeless swapped, bytes,
        width located]
  | again index other segment there held located heldNext locatedNext bytes =>
      rw [image?_eq_bytes length heldNext locatedNext, image?_eq_bytes length held located, bytes,
        width locatedNext, padded_of_length (whole located)]

/-- What comes after does not matter to a process that it spares. -/
theorem spare {last : Storage} (moves : storage.Moves next pid) (spares : next.Spares last pid)
    (segments : next.memory.segments = storage.memory.segments)
    (segmentsLast : last.memory.segments = next.memory.segments) : storage.Moves last pid := by
  cases moves with
  | spared first => exact .spared (first.trans spares segments)
  | out index segment held located homeless swapped =>
      exact .out index segment held located (spares.held.trans homeless)
        (spares.swapped.trans swapped)
  | back image index segment homeless swapped held located bytes =>
      exact .back image index segment homeless swapped (spares.held.trans held)
        (by rw [segmentsLast, located]) ((spares.bytes index segment held located).trans bytes)
  | again index other segment there held located heldNext locatedNext bytes =>
      exact .again index other segment there held located (spares.held.trans heldNext)
        (by rw [segmentsLast, locatedNext])
        ((spares.bytes other there heldNext locatedNext).trans bytes)

/-- What came before does not matter to a process that it spared. -/
theorem spared_before {last : Storage} (spares : storage.Spares next pid)
    (moves : next.Moves last pid)
    (segments : next.memory.segments = storage.memory.segments) : storage.Moves last pid := by
  cases moves with
  | spared second => exact .spared (spares.trans second segments)
  | out index segment held located homeless swapped =>
      rw [segments] at located
      rw [spares.held] at held
      rw [spares.bytes index segment held located] at swapped
      exact .out index segment held located homeless swapped
  | back image index segment homeless swapped held located bytes =>
      exact .back image index segment (spares.held ▸ homeless) (spares.swapped ▸ swapped) held
        located bytes
  | again index other segment there held located heldNext locatedNext bytes =>
      rw [segments] at located
      rw [spares.held] at held
      rw [spares.bytes index segment held located] at bytes
      exact .again index other segment there held located heldNext locatedNext bytes

end Moves

namespace Owns

theorem lodges {processes : List Process} (owns : storage.Owns processes) :
    storage.memory.Lodges processes :=
  ⟨owns.tidy, owns.distinct, fun process member => (owns.keeps process member).houses, owns.held⟩

/-- Neither the order of the processes matters nor what they have besides their places. -/
theorem congr {processes : List Process} (owns : storage.Owns others)
    (same : (others.map Process.place).Perm (processes.map Process.place)) :
    storage.Owns processes := by
  have pids : (others.map Process.pid).Perm (processes.map Process.pid) := by
    simpa [List.map_map, Function.comp_def, Process.place] using same.map Prod.fst
  have lodges := owns.lodges.congr same
  refine ⟨owns.tidy, owns.serviceable, lodges.distinct, ?_, lodges.held, ?_⟩
  · intro process member
    rcases List.mem_map.mp (same.mem_iff.mpr (List.mem_map_of_mem member)) with
      ⟨other, among, equal⟩
    exact (owns.keeps other among).of_place equal.symm
  · intro pid image found
    exact pids.mem_iff.mp (owns.swapped pid image found)

theorem perm {processes : List Process} (owns : storage.Owns others)
    (order : others.Perm processes) : storage.Owns processes :=
  owns.congr (order.map Process.place)

theorem inside (owns : storage.Owns others) {index : Nat} {segment : Segment}
    (located : storage.memory.segments[index]? = some segment) :
    segment.Inside storage.memory.store :=
  owns.tidy.inside segment (List.mem_of_getElem? located)

theorem partition (owns : storage.Owns others) {index pid : Nat} {segment : Segment}
    (held : storage.memory.holding? pid = some index)
    (located : storage.memory.segments[index]? = some segment) :
    storage.memory.partitions[index]? = some ⟨segment, .heldBy pid⟩ :=
  owns.tidy.partition_of_held held located

/-- Nothing is kept for a number that no process has. -/
theorem homeless (owns : storage.Owns others) {pid : Nat} (absent : pid ∉ others.map Process.pid) :
    storage.memory.holding? pid = none :=
  owns.lodges.homeless absent

theorem unswapped (owns : storage.Owns others) {pid : Nat} (absent : pid ∉ others.map Process.pid) :
    storage.files.swapImage pid = none := by
  cases kept : storage.files.swapImage pid with
  | none => rfl
  | some image => exact absurd (owns.swapped pid image kept) absent

theorem not_mem (owns : storage.Owns (process :: others)) : process.pid ∉ others.map Process.pid :=
  (List.nodup_cons.mp owns.distinct).1

theorem keeps_head (owns : storage.Owns (process :: others)) : storage.Keeps process :=
  owns.keeps process List.mem_cons_self

theorem ne_of_mem (owns : storage.Owns (process :: others)) {other : Process}
    (member : other ∈ others) : other.pid ≠ process.pid :=
  owns.lodges.ne_of_mem member

/-- A process has got another place, and the others were spared. -/
theorem replace (owns : storage.Owns (process :: others)) (next : Storage)
    (tidy : next.memory.Tidy) (serviceable : next.files.Serviceable) (pid : moved.pid = process.pid)
    (segments : next.memory.segments = storage.memory.segments)
    (spares : ∀ other, other ≠ process.pid → storage.Spares next other)
    (keeps : next.Keeps moved) : next.Owns (moved :: others) := by
  have lodges := owns.lodges.replace (Spares.rehouses spares tidy segments) pid keeps.houses
  refine ⟨tidy, serviceable, lodges.distinct, ?_, lodges.held, ?_⟩
  · intro other member
    rcases List.mem_cons.mp member with rfl | among
    · exact keeps
    · exact (spares other.pid (owns.ne_of_mem among)).keeps segments
        (owns.keeps other (List.mem_cons_of_mem _ among))
  · intro other image found
    by_cases same : other = process.pid
    · simp [same, pid]
    · simpa [pid] using owns.swapped other image ((spares other same).swapped ▸ found)

/-- A process has no place any more, and the others were spared. -/
theorem remove (owns : storage.Owns (process :: others)) (next : Storage)
    (tidy : next.memory.Tidy) (serviceable : next.files.Serviceable)
    (segments : next.memory.segments = storage.memory.segments)
    (spares : ∀ other, other ≠ process.pid → storage.Spares next other)
    (homeless : next.memory.holding? process.pid = none)
    (unswapped : next.files.swapImage process.pid = none) : next.Owns others := by
  have lodges := owns.lodges.remove (Spares.rehouses spares tidy segments) homeless
  refine ⟨tidy, serviceable, lodges.distinct, ?_, lodges.held, ?_⟩
  · intro other member
    exact (spares other.pid (owns.ne_of_mem member)).keeps segments
      (owns.keeps other (List.mem_cons_of_mem _ member))
  · intro other image found
    have different : other ≠ process.pid := by
      intro same
      simp [same, unswapped] at found
    have member := owns.swapped other image ((spares other different).swapped ▸ found)
    simpa [different] using member

/-- A further process has got a place, and the others were spared. -/
theorem add (owns : storage.Owns others) (next : Storage) (tidy : next.memory.Tidy)
    (serviceable : next.files.Serviceable) (new : process.pid ∉ others.map Process.pid)
    (segments : next.memory.segments = storage.memory.segments)
    (spares : ∀ other, other ≠ process.pid → storage.Spares next other)
    (keeps : next.Keeps process) : next.Owns (process :: others) := by
  have lodges := owns.lodges.add new (Spares.rehouses spares tidy segments) keeps.houses
  refine ⟨tidy, serviceable, lodges.distinct, ?_, lodges.held, ?_⟩
  · intro other member
    rcases List.mem_cons.mp member with rfl | among
    · exact keeps
    · exact (spares other.pid (lodges.ne_of_mem among)).keeps segments (owns.keeps other among)
  · intro other image found
    by_cases same : other = process.pid
    · simp [same]
    · exact List.mem_cons_of_mem _
        (owns.swapped other image ((spares other same).swapped ▸ found))

end Owns

end Storage

/-! ## Operations on one process -/

namespace Memory.Changes

variable {memory next : Memory} {index : Nat} {segment : Segment} {old new : Tenancy}

/-- Only the old tenant and the new one notice the change. -/
theorem spares (changes : memory.Changes next index segment old new) (tidy : memory.Tidy)
    {pid : Nat} (notOld : old ≠ .heldBy pid) (notNew : new ≠ .heldBy pid)
    {files filesNext : FileSystem} (swapped : filesNext.swapImage pid = files.swapImage pid) :
    Storage.Spares ⟨memory, files⟩ ⟨next, filesNext⟩ pid where
  held := changes.holding?_of_ne tidy notOld notNew
  bytes := by
    intro other there held located
    apply changes.bytes tidy (fun equal => ?_) located
    have present := tidy.partition_of_held held located
    rw [equal, changes.before] at present
    simp only [Option.some.injEq, Partition.mk.injEq] at present
    exact notOld present.2
  swapped := swapped

end Memory.Changes

end Timeshare
