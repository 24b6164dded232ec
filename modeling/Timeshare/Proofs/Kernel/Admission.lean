import Timeshare.Proofs.FileSystem.SwapSpace
import Timeshare.Proofs.Kernel.SwapNumbers

/-!
# Admission

A program is admitted as a whole or not at all.  It is refused only when every segment is occupied
and the disk has no room for a swap file either.  Otherwise there is one more resident process, with
its image in the first vacant segment or in its swap file.

That the disk can always take what there is room for needs that no swap file is left of an earlier
process of the same number, and that an image is padded with zeros needs that vacant segments are
clear.
-/

namespace Timeshare

open FileSystem (swapName)

namespace System

/-- A program was admitted as the process of the next number.  Its image is in the first vacant
segment or, if there is none, in its swap file.  Nothing else has changed. -/
inductive Accepts (system : System) (program : List UInt8) (priority : Nat) : System → Prop
  | inMemory (memory : Memory) (index : Nat) (segment : Segment)
      (first : system.memory.FirstVacant index segment)
      (bytes : memory.bytes segment = padded segment.length program)
      (changes : system.memory.Changes memory index segment .vacant (.heldBy system.nextPid)) :
      Accepts system program priority { system with
        memory
        nextPid := system.nextPid + 1
        resident := system.resident ++ [{ Process.create system.nextPid priority with
          phase := .resident, segment := some segment, residence := some .memory }] }
  | onDisk (files : FileSystem) (full : system.memory.isFull = true)
      (stores : system.files.StoresSwap system.nextPid (program.take system.memory.segmentSize)
        files) :
      Accepts system program priority { system with
        files
        nextPid := system.nextPid + 1
        resident := system.resident ++ [{ Process.create system.nextPid priority with
          phase := .resident, residence := some .disk }] }

variable {system next : System} {program : List UInt8} {priority : Nat}

/-- Other files can be read as before. -/
theorem Accepts.readBytes (accepts : system.Accepts program priority next) {name : String}
    (different : name ≠ swapName system.nextPid) :
    next.files.readBytes name = system.files.readBytes name := by
  cases accepts with
  | inMemory => rfl
  | onDisk files full stores => exact stores.kept name different

/-- Nothing that is kept for another process has changed. -/
theorem Accepts.spares (accepts : system.Accepts program priority next) (tidy : system.memory.Tidy)
    {pid : Nat} (different : pid ≠ system.nextPid) : system.storage.Spares next.storage pid := by
  cases accepts with
  | inMemory memory index segment first bytes changes =>
      exact changes.spares tidy (by simp) (by simpa using Ne.symm different) rfl
  | onDisk files full stores => exact ⟨rfl, fun _ _ _ _ => rfl, stores.swapImage different⟩

theorem enroll_of_vacant (tidy : system.memory.Tidy)
    (homeless : system.memory.holding? system.nextPid = none)
    (vacant : system.memory.isFull = false) (program : List UInt8) (priority : Nat) :
    ∃ next, (enroll program priority system).value = (.ok system.nextPid, next) ∧
      system.Accepts program priority next := by
  rcases @Memory.Tidy.place _ (Process.create system.nextPid priority) tidy vacant homeless
    program with ⟨placement, placed, process_eq, changes, _, bytes⟩
  have loaded : system.memory.load program system.nextPid priority = .ok placement := placed
  refine ⟨_, ?_, .inMemory placement.memory placement.index placement.segment
    (Memory.firstVacant_of_place placed) bytes changes⟩
  simp only [enroll, vacant, loaded]
  simp [register, process_eq, Process.create]

theorem enroll_of_full (serviceable : system.files.Serviceable)
    (unswapped : system.files.swapImage system.nextPid = none)
    (short : (Text.utf8Bytes (swapName system.nextPid)).length ≤ contentSize)
    (full : system.memory.isFull = true) (program : List UInt8) (priority : Nat)
    (room : ¬ system.files.LacksRoom (min program.length system.memory.segmentSize)) :
    ∃ next, (enroll program priority system).value = (.ok system.nextPid, next) ∧
      system.Accepts program priority next := by
  rw [Nat.min_comm, ← List.length_take] at room
  rcases serviceable.storeSwap_of_room unswapped short room with ⟨stored, files, succeeded, stores⟩
  refine ⟨_, ?_, .onDisk files full stores⟩
  simp [enroll, full, succeeded, register, Process.create]

theorem enroll_of_lacksRoom (serviceable : system.files.Serviceable)
    (full : system.memory.isFull = true) {program : List UInt8} (priority : Nat)
    (lacks : system.files.LacksRoom (min program.length system.memory.segmentSize)) :
    ∃ error, (enroll program priority system).value = (.error error, system) := by
  rw [Nat.min_comm, ← List.length_take] at lacks
  rcases @FileSystem.Serviceable.storeSwap_of_lacksRoom _ system.nextPid _ serviceable lacks with
    ⟨error, refused⟩
  exact ⟨.files error, by simp [enroll, full, refused]⟩

end System

namespace Kernel

/-- A program is refused if and only if memory is full and the disk has no room for its image, and
then nothing has changed.  Otherwise it is admitted, and nothing that is kept for others has
changed.  The numbers of processes are words of 32 bits. -/
theorem admission_all_or_nothing {config : Config} (valid : config.validate = .ok ())
    {kernel : Kernel} (reached : kernel.Reached config) (word : kernel.system.nextPid < 2 ^ 32)
    (program : List UInt8) (priority : Nat) :
    ((∃ error, (kernel.system.enroll program priority).value.1 = .error error) ↔
      kernel.system.memory.isFull = true ∧
        kernel.system.files.LacksRoom (min program.length kernel.system.memory.segmentSize)) ∧
    (∀ error next, (kernel.system.enroll program priority).value = (.error error, next) →
      next = kernel.system) ∧
    ∀ pid next, (kernel.system.enroll program priority).value = (.ok pid, next) →
      pid = kernel.system.nextPid ∧ kernel.system.Accepts program priority next ∧
      (∀ other, other ≠ pid → kernel.system.storage.Spares next.storage other) ∧
      ∀ name, name ≠ swapName pid → next.files.readBytes name = kernel.system.files.readBytes name := by
  rcases reached.steady with ⟨history, steady⟩
  have lodges := (reached.housed valid).lodges
  have homeless := lodges.homeless steady.new_nextPid
  have serviceable := reached.serviceable valid
  by_cases refused : kernel.system.memory.isFull = true ∧
      kernel.system.files.LacksRoom (min program.length kernel.system.memory.segmentSize)
  · rcases System.enroll_of_lacksRoom serviceable refused.1 priority refused.2 with
      ⟨error, failed⟩
    simp [failed, refused]
  · have accepted : ∃ next, (kernel.system.enroll program priority).value =
        (.ok kernel.system.nextPid, next) ∧ kernel.system.Accepts program priority next := by
      cases full : kernel.system.memory.isFull with
      | false => exact System.enroll_of_vacant lodges.tidy homeless full program priority
      | true =>
          have short : (Text.utf8Bytes (swapName kernel.system.nextPid)).length ≤ contentSize := by
            have fitting := FileSystem.length_swapName_le (UInt32.ofNat kernel.system.nextPid)
            rwa [UInt32.toNat_ofNat_of_lt' word] at fitting
          exact System.enroll_of_full serviceable (reached.unswapped_nextPid valid) short full
            program priority (fun lacks => refused ⟨full, lacks⟩)
    rcases accepted with ⟨next, succeeded, accepts⟩
    simp only [succeeded]
    refine ⟨by simp [refused], by simp, ?_⟩
    rintro pid after ⟨⟩
    exact ⟨rfl, accepts, fun other different => accepts.spares lodges.tidy different,
      fun name different => accepts.readBytes different⟩

/-- A segment for one program and a disk for another one. -/
def tight : Config :=
  { memorySize := 6, segmentCount := 1, disk := ⟨2, 1, 2⟩ }

def loading (count : Nat) : List Command :=
  List.replicate count (.enqueue (.loadProgram "A9 07 00" none)) ++ List.replicate count .pulse

/-- The second program goes to disk, cut to the segment, and the third one is refused. -/
theorem admission_all_or_nothing_small :
    ∃ first second : Kernel, first.Reached tight ∧ second.Reached tight ∧
      first.system.nextPid < 2 ^ 32 ∧ second.system.nextPid < 2 ^ 32 ∧
      (∃ next, (first.system.enroll [0xA9, 7, 0, 1, 2, 3, 4] 0).value = (.ok 1, next) ∧
        first.system.Accepts [0xA9, 7, 0, 1, 2, 3, 4] 0 next ∧
        next.files.readBytes ".swap1" = .ok [0xA9, 7, 0, 1, 2, 3]) ∧
      ∃ error, (second.system.enroll [0] 0).value = (.error error, second.system) := by
  have admits : ((booted tight true).obeyAll (loading 1)).system.nextPid < 2 ^ 32 ∧
      ((((booted tight true).obeyAll (loading 1)).system.enroll [0xA9, 7, 0, 1, 2, 3, 4]
        0).value.1.toOption,
      (((booted tight true).obeyAll (loading 1)).system.enroll [0xA9, 7, 0, 1, 2, 3, 4]
        0).value.2.files.readBytes ".swap1") = (some 1, .ok [0xA9, 7, 0, 1, 2, 3]) := by
    decide +kernel
  have refuses : ((booted tight true).obeyAll (loading 2)).system.nextPid < 2 ^ 32 ∧
      ((booted tight true).obeyAll (loading 2)).system.memory.isFull = true ∧
      ((booted tight true).obeyAll (loading 2)).system.files.LacksRoom (min 1
        ((booted tight true).obeyAll (loading 2)).system.memory.segmentSize) := by
    decide +kernel
  have reached : ((booted tight true).obeyAll (loading 1)).Reached tight := ⟨true, loading 1, rfl⟩
  have reachedSecond : ((booted tight true).obeyAll (loading 2)).Reached tight :=
    ⟨true, loading 2, rfl⟩
  generalize (booted tight true).obeyAll (loading 1) = first at admits reached
  generalize (booted tight true).obeyAll (loading 2) = second at refuses reachedSecond
  rcases admits with ⟨word, outcome⟩
  rcases refuses with ⟨wordSecond, lacks⟩
  rcases admission_all_or_nothing (by decide) reached word [0xA9, 7, 0, 1, 2, 3, 4] 0 with
    ⟨_, _, accepts⟩
  rcases admission_all_or_nothing (by decide) reachedSecond wordSecond [0] 0 with
    ⟨refused, unchanged, _⟩
  refine ⟨first, second, reached, reachedSecond, word, wordSecond, ?_, ?_⟩
  · rcases enrolled : (first.system.enroll [0xA9, 7, 0, 1, 2, 3, 4] 0).value with ⟨error | pid, next⟩
    · simp [enrolled, Except.toOption] at outcome
    · simp only [enrolled, Except.toOption, Prod.mk.injEq, Option.some.injEq] at outcome
      rcases outcome with ⟨rfl, stored⟩
      exact ⟨next, rfl, (accepts 1 next enrolled).2.1, stored⟩
  · rcases refused.mpr lacks with ⟨error, failed⟩
    exact ⟨error, Prod.ext failed (unchanged error _ (Prod.ext failed rfl))⟩

end Kernel

end Timeshare
