import Timeshare.Machine.Fault
import Timeshare.Proofs.Text.Numeral

/-!
# What is said about a fault

The message about a fault says which fault it is and what was met: an operation code, a register, a
process or an address.  It says enough to tell the fault from all others.
-/

namespace Timeshare

open Text (upperHex)

/-- The text says what the fault is, with bytes and addresses in hexadecimal and processes in
decimal. -/
inductive Fault.Names : Fault → String → Prop
  | unknownOpcode (code : UInt8) : Names (.unknownOpcode code)
      ("Unknown opcode: " ++ String.ofList (upperHex 2 code.toNat))
  | invalidSystemCall (x : UInt8) : Names (.invalidSystemCall x)
      ("Invalid system call: X register holds " ++ String.ofList (upperHex 2 x.toNat))
  | outOfRange (address : Nat) : Names (.memory (.outOfRange address))
      ("Memory address 0x" ++ String.ofList (upperHex 4 address) ++ " is out of range")
  | outOfMemory : Names (.memory .outOfMemory)
      "There is not enough memory to load a new program"
  | segmentationFault (pid address : Nat) : Names (.memory (.segmentationFault pid address))
      ("Process " ++ Nat.repr pid ++ " attempted to access memory address " ++
        String.ofList (upperHex 2 address) ++ ", which is out of its segment")
  | notResident (pid : Nat) : Names (.memory (.notResident pid))
      ("Process " ++ Nat.repr pid ++ " is not resident in memory")

/-- A number in decimal ends before the next space. -/
theorem Text.eq_of_toDigits_append {first second : Nat} {rest restOther : List Char}
    (space : rest.head? = some ' ') (spaceOther : restOther.head? = some ' ')
    (same : Nat.toDigits 10 first ++ rest = Nat.toDigits 10 second ++ restOther) :
    first = second ∧ rest = restOther := by
  have cut (number : Nat) {tail : List Char} (space : tail.head? = some ' ') :
      (Nat.toDigits 10 number ++ tail).takeWhile (· != ' ') = Nat.toDigits 10 number := by
    have digits : ∀ c ∈ Nat.toDigits 10 number, (c != ' ') = true := by
      intro c member
      have digit := Nat.isDigit_of_mem_toDigits (by decide) (by decide) member
      rw [bne_iff_ne]
      rintro rfl
      exact absurd digit (by decide)
    obtain ⟨others, rfl⟩ := List.head?_eq_some_iff.mp space
    rw [List.takeWhile_append_of_pos digits]
    simp
  have numbers := congrArg (List.takeWhile (· != ' ')) same
  rw [cut first space, cut second spaceOther] at numbers
  rw [numbers] at same
  exact ⟨toDigits_injective numbers, List.append_cancel_left same⟩

namespace Fault

theorem names_message (fault : Fault) : fault.Names fault.message := by
  cases fault with
  | unknownOpcode code =>
      have named := Names.unknownOpcode code
      rw [← Text.hexByte_eq] at named
      exact named
  | invalidSystemCall x =>
      have named := Names.invalidSystemCall x
      rw [← Text.hexByte_eq] at named
      exact named
  | memory error =>
      cases error with
      | outOfRange address =>
          have named := Names.outOfRange address
          rw [← Text.hexPadded_eq (by decide)] at named
          exact named
      | outOfMemory => exact .outOfMemory
      | segmentationFault pid address =>
          have named := Names.segmentationFault pid address
          have ending : ", which is out of its segment" =
              ", " ++ "which is out of its segment" := rfl
          rw [← Text.hexPadded_eq (by decide), ending, ← String.append_assoc] at named
          exact named
      | notResident pid => exact .notResident pid

/-- No two faults are named alike. -/
theorem Names.eq_of_text {fault other : Fault} {text : String} (names : fault.Names text)
    (namesOther : other.Names text) : other = fault := by
  generalize equal : text = copy at namesOther
  have same := congrArg String.toList equal
  -- Texts about faults of different kinds differ in their first letters or after the process.
  cases names with
  | unknownOpcode code =>
      cases namesOther with
      | unknownOpcode other =>
          simp only [String.toList_append, String.toList_ofList, List.append_cancel_left_eq] at same
          rw [UInt8.toNat_inj.mp (Text.upperHex_injective 2 same)]
      | _ => simp at same
  | invalidSystemCall x =>
      cases namesOther with
      | invalidSystemCall other =>
          simp only [String.toList_append, String.toList_ofList, List.append_cancel_left_eq] at same
          rw [UInt8.toNat_inj.mp (Text.upperHex_injective 2 same)]
      | _ => simp at same
  | outOfRange address =>
      cases namesOther with
      | outOfRange other =>
          simp only [String.toList_append, String.toList_ofList, List.append_cancel_left_eq,
            List.append_cancel_right_eq] at same
          rw [Text.upperHex_injective 4 same]
      | _ => simp at same
  | outOfMemory =>
      cases namesOther with
      | outOfMemory => rfl
      | _ => simp at same
  | segmentationFault pid address =>
      cases namesOther with
      | segmentationFault other place =>
          simp only [String.toList_append, String.toList_ofList, Nat.toList_repr, List.append_assoc,
            List.append_cancel_left_eq] at same
          rcases Text.eq_of_toDigits_append (by simp) (by simp) same with ⟨rfl, rest⟩
          simp only [List.append_cancel_left_eq, List.append_cancel_right_eq] at rest
          rw [Text.upperHex_injective 2 rest]
      | notResident other =>
          simp only [String.toList_append, String.toList_ofList, Nat.toList_repr, List.append_assoc,
            List.append_cancel_left_eq] at same
          simpa using (Text.eq_of_toDigits_append (by simp) (by simp) same).2
      | _ => simp at same
  | notResident pid =>
      cases namesOther with
      | segmentationFault other place =>
          simp only [String.toList_append, String.toList_ofList, Nat.toList_repr, List.append_assoc,
            List.append_cancel_left_eq] at same
          simpa using (Text.eq_of_toDigits_append (by simp) (by simp) same).2
      | notResident other =>
          simp only [String.toList_append, Nat.toList_repr, List.append_assoc,
            List.append_cancel_left_eq] at same
          rw [(Text.eq_of_toDigits_append (by simp) (by simp) same).1]
      | _ => simp at same

end Fault

end Timeshare
