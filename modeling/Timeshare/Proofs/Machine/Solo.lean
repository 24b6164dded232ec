import Timeshare.Proofs.Machine.Relocation
import Timeshare.Proofs.Memory.Divided
import Timeshare.Proofs.Memory.Partitions

/-!
# A program alone

A program that is loaded into memory of a single segment and run on the bench for some cycles.  This
is what a program does when nobody else has the processor, and what it is to do at all times.
-/

namespace Timeshare

namespace Bench

/-- The texts that a process prints in some cycles. -/
def texts : Nat → Process → Bench → List String
  | 0, _, _ => []
  | count + 1, process, bench =>
    (bench.cpu.cycle process bench.memory).printed.toList ++
      texts count (bench.cycle process).value.1 (bench.cycle process).value.2

/-- One more cycle is run after all the others. -/
theorem cycles_succ (count : Nat) (process : Process) (bench : Bench) :
    (cycles (count + 1) process bench).value =
      ((cycles count process bench).value.2.cycle (cycles count process bench).value.1).value := by
  induction count generalizing process bench with
  | zero => rfl
  | succ count hypothesis =>
      have next := hypothesis (bench.cycle process).value.1 (bench.cycle process).value.2
      exact next

theorem texts_succ (count : Nat) (process : Process) (bench : Bench) :
    texts (count + 1) process bench = texts count process bench ++
      ((cycles count process bench).value.2.cpu.cycle (cycles count process bench).value.1
        (cycles count process bench).value.2.memory).printed.toList := by
  induction count generalizing process bench with
  | zero => simp [texts, cycles]
  | succ count hypothesis =>
      have next := hypothesis (bench.cycle process).value.1 (bench.cycle process).value.2
      rw [texts, next, texts, List.append_assoc]
      rfl

end Bench

namespace Placement

/-- The process and the bench after some cycles of a process that was placed there. -/
def after (placement : Placement) (count : Nat) : Process × Bench :=
  (Bench.cycles count placement.process (Bench.prepared placement.memory)).value

/-- The texts that a process prints in some cycles after it was placed. -/
def texts (placement : Placement) (count : Nat) : List String :=
  Bench.texts count placement.process (Bench.prepared placement.memory)

/-- What a program is placed as. -/
structure Loads (placement : Placement) (length pid : Nat) (program : List UInt8) : Prop where
  pid : placement.process.pid = pid
  registers : placement.process.registers = .cleared
  lastInstruction : placement.process.lastInstruction = none
  fresh : placement.process.fresh = true
  located : placement.process.segment = some placement.segment
  inside : placement.segment.Inside placement.memory.store
  bytes : placement.memory.bytes placement.segment = padded length program

/-- Memory of one segment takes any program. -/
theorem load_divided {length : Nat} (positive : 0 < length) (program : List UInt8)
    (pid priority : Nat) :
    ∃ placement, (Memory.divided length 1).load program pid priority = .ok placement ∧
      placement.Loads length pid program := by
  have tidy : (Memory.divided length 1).Tidy := Memory.divided_tidy Nat.one_pos positive
  have uniform : (Memory.divided length 1).Uniform (length / 1) :=
    Memory.divided_uniform Nat.one_pos positive (Nat.mod_one length)
  have vacant : (Memory.divided length 1).isFull = false := by
    apply Memory.isFull_eq_false_of_vacant (Memory.isOccupied_divided length 1 0)
    rw [tidy.counted]
    exact List.length_pos_of_ne_nil uniform.some_segment
  rcases @Memory.Tidy.place _ (.create pid priority) tidy vacant
    (Memory.holding?_divided length 1 pid) program with
    ⟨placement, placed, process_eq, enters, tidyNext, bytes⟩
  have among := List.mem_of_getElem? enters.held.2
  have width : placement.segment.length = length := by
    simpa using (uniform.of_segments enters.segments).each _ among
  refine ⟨placement, placed, ?_⟩
  refine ⟨?_, ?_, ?_, ?_, ?_, tidyNext.inside _ among, width ▸ bytes⟩
  · rw [process_eq]
    rfl
  · rw [process_eq]
    rfl
  · rw [process_eq]
    rfl
  · rw [process_eq]
    rfl
  · rw [process_eq]

variable {placement : Placement} {length pid : Nat} {program : List UInt8}

theorem after_succ (placement : Placement) (count : Nat) :
    placement.after (count + 1) =
      ((placement.after count).2.cycle (placement.after count).1).value :=
  Bench.cycles_succ count placement.process (Bench.prepared placement.memory)

/-- The process stays in its segment, which stays in the store. -/
theorem Loads.stays (loads : placement.Loads length pid program) (count : Nat) :
    (placement.after count).1.pid = pid ∧
      (placement.after count).1.segment = some placement.segment ∧
      placement.segment.Inside (placement.after count).2.memory.store := by
  induction count with
  | zero => exact ⟨loads.pid, loads.located, loads.inside⟩
  | succ count hypothesis =>
      rcases hypothesis with ⟨pid_eq, located, inside⟩
      rcases Cpu.cycle_process (placement.after count).2.cpu (placement.after count).1
        (placement.after count).2.memory with ⟨registers, last, process_eq⟩
      have within := Cpu.cycle_within located inside (placement.after count).2.cpu
      rw [after_succ]
      refine ⟨?_, ?_, inside.ordered, ?_⟩
      · exact (congrArg Process.pid process_eq).trans pid_eq
      · exact (congrArg Process.segment process_eq).trans located
      · exact within.size ▸ inside.bounded

end Placement

end Timeshare
