import Mathlib.Data.List.TakeWhile
import Timeshare.Proofs.Machine.Conformance

/-!
# Strings of a process

Reading a string is a loop without a bound of its own: only a zero byte ends it, or a fault.  The
loop is described here turn by turn, apart from the recursion that reads strings and has a limit.
Every turn goes one address on, so by the end of the segment at the latest the loop has ended, and
with what the recursion gives, whose limit is never met.
-/

namespace Timeshare

namespace Cpu

/-- The loop that reads a string: what it has read, where it goes on, after how many turns it ends,
and with what. -/
inductive Reads (memory : Memory) (process : Process) :
    List Char → Nat → Nat → Except Fault (List Char) → Prop
  | faulted {text address fault} (failed : readByte memory process address = .error fault) :
      Reads memory process text address 1 (.error fault)
  | ended {text address} (zero : readByte memory process address = .ok 0) :
      Reads memory process text address 1 (.ok text)
  | further {text address byte turns result} (nonzero : byte ≠ 0)
      (read : readByte memory process address = .ok byte)
      (later : Reads memory process (text ++ [Char.ofNat byte.toNat]) (address + 1) turns result) :
      Reads memory process text address (turns + 1) result

variable {memory : Memory} {process : Process} {segment : Segment}

/-- The loop ends in one way only. -/
theorem Reads.unique {text : List Char} {address turns others : Nat}
    {result other : Except Fault (List Char)} (reads : Reads memory process text address turns result)
    (readsToo : Reads memory process text address others other) :
    others = turns ∧ other = result := by
  induction reads generalizing others other with
  | faulted failed =>
      cases readsToo with
      | faulted again => exact ⟨rfl, by rw [failed] at again; rw [Except.error.inj again]⟩
      | ended zero => rw [failed] at zero; cases zero
      | further _ read _ => rw [failed] at read; cases read
  | ended zero =>
      cases readsToo with
      | faulted failed => rw [zero] at failed; cases failed
      | ended _ => exact ⟨rfl, rfl⟩
      | further nonzero read _ =>
          rw [zero] at read
          exact absurd (Except.ok.inj read).symm nonzero
  | further nonzero read _ hypothesis =>
      cases readsToo with
      | faulted failed => rw [read] at failed; cases failed
      | ended zero =>
          rw [read] at zero
          exact absurd (Except.ok.inj zero) nonzero
      | further _ again later =>
          rw [read] at again
          cases again
          rcases hypothesis later with ⟨rfl, rfl⟩
          exact ⟨rfl, rfl⟩

/-- With a limit that reaches to the end of the segment the recursion gives what the loop ends with,
and the loop takes no more turns than the limit allows. -/
theorem exists_reads (dwells : process.Dwells memory segment) (text : List Char)
    (limit address : Nat) (far : (memory.bytes segment).length ≤ address + limit) :
    ∃ turns ≤ limit + 1, Reads memory process text address turns
      ((readString memory process limit address).map (text ++ ·)) := by
  induction limit generalizing address text with
  | zero =>
      have failed : readByte memory process address = _ :=
        InstructionSet.readByte_of_missing dwells far
      refine ⟨1, Nat.le_refl _, ?_⟩
      rw [readString, failed]
      exact .faulted failed
  | succ limit hypothesis =>
      cases here : readByte memory process address with
      | error fault =>
          refine ⟨1, by omega, ?_⟩
          rw [readString, here]
          exact .faulted here
      | ok byte =>
          by_cases zero : byte = 0
          · subst zero
            have done : readString memory process (limit + 1) address = .ok [] := by
              rw [readString, here]
              rfl
            refine ⟨1, by omega, ?_⟩
            rw [done, Except.map, List.append_nil]
            exact .ended here
          · rcases hypothesis (text ++ [Char.ofNat byte.toNat]) (address + 1) (by omega) with
              ⟨turns, few, later⟩
            have joined (rest : Except Fault (List Char)) :
                (rest.map (Char.ofNat byte.toNat :: ·)).map (text ++ ·) =
                  rest.map (text ++ [Char.ofNat byte.toNat] ++ ·) := by
              cases rest <;> simp [Except.map]
            refine ⟨turns + 1, by omega, .further zero here ?_⟩
            rw [InstructionSet.readString_succ zero here, joined]
            exact later

/-- The bytes before the first zero byte, and that one. -/
theorem takeWhile_nonzero_prefix {bytes : List UInt8} (terminated : 0 ∈ bytes) :
    bytes.takeWhile (· ≠ 0) ++ [0] <+: bytes := by
  induction bytes with
  | nil => cases terminated
  | cons byte rest hypothesis =>
      by_cases zero : byte = 0
      · subst zero
        simp
      · have later := (List.mem_cons.mp terminated).resolve_left (Ne.symm zero)
        rw [List.takeWhile_cons_of_pos (by simpa using zero), List.cons_append,
          List.cons_prefix_cons]
        exact ⟨rfl, hypothesis later⟩

/-- Reading a string ends, at a segment's end at the latest, and reads it exactly.  The loop takes no
more turns than there are bytes from the start to the end of the segment, and one; it ends with what
is read.  That is the text up to the first zero byte, or, when there is none, the fault of the first
address that is not in the segment. -/
theorem readString_total (dwells : process.Dwells memory segment) (start : Nat) :
    (∃ turns ≤ segment.length - start + 1, ∀ others result,
      Reads memory process [] start others result ↔
        others = turns ∧ result = readString memory process (stringLimit process) start) ∧
    (0 ∈ (memory.bytes segment).drop start →
      readString memory process (stringLimit process) start =
        .ok ((((memory.bytes segment).drop start).takeWhile (· ≠ 0)).map fun byte =>
          Char.ofNat byte.toNat)) ∧
    (0 ∉ (memory.bytes segment).drop start →
      readString memory process (stringLimit process) start =
        .error (.memory (.segmentationFault process.pid (max start segment.length)))) := by
  have length := Memory.length_bytes dwells.inside
  have limit := InstructionSet.stringLimit_eq dwells
  have plain (result : Except Fault (List Char)) : result.map ([] ++ ·) = result := by
    cases result <;> rfl
  refine ⟨?_, ?_, ?_⟩
  · rcases exists_reads dwells [] (segment.length - start) start (by omega) with
      ⟨turns, few, short⟩
    rcases exists_reads dwells [] (stringLimit process) start (by omega) with ⟨_, _, reads⟩
    rw [plain] at reads
    rcases short.unique reads with ⟨rfl, _⟩
    refine ⟨_, few, fun others result => ⟨reads.unique, ?_⟩⟩
    rintro ⟨rfl, rfl⟩
    exact reads
  · intro terminated
    have text := takeWhile_nonzero_prefix terminated
    have nonzero : 0 ∉ ((memory.bytes segment).drop start).takeWhile (· ≠ 0) := by
      intro member
      simpa using List.mem_takeWhile_imp member
    have short := text.length_le
    rw [List.length_append, List.length_drop] at short
    exact InstructionSet.readString_of_text dwells nonzero text (by omega)
  · intro endless
    rw [← length]
    exact InstructionSet.readString_of_endless dwells endless (by omega)

/-- Eight bytes in two segments.  The second one, of five bytes, holds a string and, behind its end,
two bytes more. -/
def greeting : Memory where
  store := ⟨#[7, 7, 7, 72, 105, 0, 200, 201]⟩
  segments := [⟨0, 2⟩, ⟨3, 7⟩]
  occupied := [false, true]
  tenants := .insert 4 1 .empty

def greeter : Process :=
  { Process.create 4 0 with segment := some ⟨3, 7⟩ }

/-- From the start there is a text; from behind its end there is none up to the end of the segment,
nor is there any beyond that. -/
theorem readString_total_small :
    greeter.Dwells greeting ⟨3, 7⟩ ∧
      readString greeting greeter (stringLimit greeter) 0 = .ok ['H', 'i'] ∧
      readString greeting greeter (stringLimit greeter) 3 =
        .error (.memory (.segmentationFault 4 5)) ∧
      readString greeting greeter (stringLimit greeter) 9 =
        .error (.memory (.segmentationFault 4 9)) := by
  have dwells : greeter.Dwells greeting ⟨3, 7⟩ := ⟨rfl, by decide, by decide⟩
  rcases readString_total dwells 0 with ⟨_, text, _⟩
  rcases readString_total dwells 3 with ⟨_, _, endless⟩
  rcases readString_total dwells 9 with ⟨_, _, beyond⟩
  exact ⟨dwells, text (by decide), endless (by decide), beyond (by decide)⟩

end Cpu

end Timeshare
