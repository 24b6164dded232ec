import Mathlib.Data.List.Induction
import Mathlib.Data.Nat.Digits.Defs
import Mathlib.Tactic.IntervalCases
import Timeshare.Proofs.Text
import Timeshare.Text.Numeral

/-!
# Numerals

A hexadecimal digit means the same in upper and in lower case.  So a number is read back from its
digits whatever their case is, and zeros before them change nothing.
-/

namespace Timeshare.Text

/-! ## One digit -/

theorem toNat_toUpper (c : Char) :
    c.toUpper.toNat =
      if 0x61 ≤ c.toNat ∧ c.toNat ≤ 0x7A then c.toNat - 0x20 else c.toNat := by
  delta Char.toUpper
  simp only [← Char.toNat_val, UInt32.le_iff_toNat_le]
  split
  · rename_i lower
    simp only [Char.reduceVal, UInt32.reduceToNat] at lower
    rw [if_pos lower]
    simp only [Char.reduceVal, UInt32.reduceSub, UInt32.toNat_add, UInt32.reduceToNat]
    omega
  · rename_i other
    exact (if_neg other).symm

/-- A digit means the same in upper and in lower case, and no other letter is a digit. -/
theorem digitValue?_toUpper (c : Char) : digitValue? c.toUpper = digitValue? c := by
  simp only [digitValue?, toNat_toUpper]
  grind

theorem isHexDigit_of_digitValue? {c : Char} {value : Nat} (digit : digitValue? c = some value) :
    isHexDigit c := by
  rw [isHexDigit, digit, Option.isSome_some]

theorem code_of_isHexDigit {c : Char} (digit : isHexDigit c) :
    0x30 ≤ c.toNat ∧ c.toNat ≤ 0x39 ∨ 0x41 ≤ c.toNat ∧ c.toNat ≤ 0x46 ∨
      0x61 ≤ c.toNat ∧ c.toNat ≤ 0x66 := by
  simp only [isHexDigit, digitValue?] at digit
  grind

theorem isHexDigit_iff {c : Char} : isHexDigit c ↔ c ∈ "0123456789ABCDEFabcdef".toList := by
  constructor
  · intro digit
    have range := code_of_isHexDigit digit
    rw [← Char.ofNat_toNat c]
    generalize c.toNat = code at range
    rcases range with ⟨low, high⟩ | ⟨low, high⟩ | ⟨low, high⟩
    all_goals interval_cases code <;> decide
  · intro member
    have all : "0123456789ABCDEFabcdef".toList.all isHexDigit = true := by decide
    exact List.all_eq_true.mp all c member

theorem lt_of_digitValue? {c : Char} {value : Nat} (digit : digitValue? c = some value) :
    value < 16 := by
  simp only [digitValue?] at digit
  grind

/-- In upper case a digit is the one that its value is written with. -/
theorem toUpper_of_digitValue? {c : Char} {value : Nat} (digit : digitValue? c = some value) :
    c.toUpper = hexDigit value := by
  rw [← Char.ofNat_toNat c.toUpper, toNat_toUpper, hexDigit, ← apply_ite]
  refine congrArg Char.ofNat ?_
  simp only [digitValue?] at digit
  grind

theorem digitValue?_hexDigit {value : Nat} (small : value < 16) :
    digitValue? (hexDigit value) = some value := by
  interval_cases value <;> rfl

theorem digitValue?_digitChar {value : Nat} (small : value < 16) :
    digitValue? value.digitChar = some value := by
  interval_cases value <;> rfl

/-! ## Rows of digits -/

theorem digitsValue?_concat (radix : Nat) (digits : List Char) (last : Char) :
    digitsValue? radix (digits ++ [last]) =
      (digitsValue? radix digits).bind fun total => (digitValue? last).bind fun digit =>
        if digit < radix then some (total * radix + digit) else none := by
  rw [digitsValue?, List.foldlM_append]
  refine congrArg (Option.bind _) (funext fun total => ?_)
  rw [List.foldlM_cons]
  cases digitValue? last with
  | none => rfl
  | some digit =>
      simp only [List.foldlM_nil, Option.bind_some]
      split <;> rfl

theorem digitsValue?_map_toUpper (radix : Nat) (digits : List Char) :
    digitsValue? radix (digits.map Char.toUpper) = digitsValue? radix digits := by
  induction digits using List.reverseRecOn with
  | nil => rfl
  | append_singleton digits last hypothesis =>
      rw [List.map_append, List.map_singleton, digitsValue?_concat, digitsValue?_concat,
        hypothesis, digitValue?_toUpper]

theorem digitsValue?_zeros {radix : Nat} (positive : 0 < radix) (count : Nat) (digits : List Char) :
    digitsValue? radix (List.replicate count '0' ++ digits) = digitsValue? radix digits := by
  induction count with
  | zero => rfl
  | succ count hypothesis =>
      rw [List.replicate_succ, List.cons_append, ← hypothesis]
      have zero : digitValue? '0' = some 0 := rfl
      simp [digitsValue?, zero, positive]

theorem digitsValue?_toDigits (number : Nat) :
    digitsValue? 16 (Nat.toDigits 16 number) = some number := by
  induction number using Nat.strongRecOn with
  | ind number hypothesis =>
      rw [Nat.toDigits_eq_if (by decide)]
      split
      · rename_i small
        simp [digitsValue?, digitValue?_digitChar small, small]
      · rename_i large
        have last : number % 16 < 16 := Nat.mod_lt _ (by decide)
        rw [digitsValue?_concat, hypothesis (number / 16) (by omega), Option.bind_some,
          digitValue?_digitChar last, Option.bind_some, if_pos last, Nat.div_add_mod']

/-- Digits are characters of one byte. -/
theorem length_utf8Bytes_of_digits {token : String} (digits : ∀ c ∈ token.toList, isHexDigit c) :
    (utf8Bytes token).length = token.toList.length := by
  rw [utf8Bytes_eq_flatMap, List.length_flatMap]
  generalize token.toList = characters at digits
  induction characters with
  | nil => rfl
  | cons c rest hypothesis =>
      rcases List.forall_mem_cons.mp digits with ⟨digit, others⟩
      have small : c.val ≤ 127 := by
        have range := code_of_isHexDigit digit
        rw [UInt32.le_iff_toNat_le, Char.toNat_val]
        exact Nat.le_trans (by omega) (show 0x66 ≤ 127 by decide)
      rw [List.map_cons, List.sum_cons, List.length_cons, String.length_utf8EncodeChar,
        Char.utf8Size_eq_one_iff.mpr small, hypothesis others, Nat.add_comm]

/-! ## Numerals -/

/-- Only digits are read as a number. -/
theorem digitValue?_of_mem {radix value : Nat} {digits : List Char}
    (read : digitsValue? radix digits = some value) {c : Char} (member : c ∈ digits) :
    ∃ digit, digitValue? c = some digit := by
  induction digits using List.reverseRecOn generalizing value with
  | nil => simp at member
  | append_singleton digits last hypothesis =>
      rw [digitsValue?_concat] at read
      rcases Option.bind_eq_some_iff.mp read with ⟨total, before, after⟩
      rcases List.mem_append.mp member with early | late
      · exact hypothesis before early
      · rcases Option.bind_eq_some_iff.mp after with ⟨digit, isDigit, _⟩
        exact ⟨digit, List.mem_singleton.mp late ▸ isDigit⟩

theorem numeral?_of_digits {radix bound value : Nat} {digits : List Char} (any : digits ≠ [])
    (read : digitsValue? radix digits = some value) (bounded : value < bound) :
    numeral? radix bound (String.ofList digits) = some value := by
  rw [numeral?, String.toList_ofList]
  split
  · rcases digitValue?_of_mem read List.mem_cons_self with ⟨digit, sign⟩
    simp [digitValue?] at sign
  · simp [any, read, bounded]

/-- The digits of a number, each of either case, with any zeros before them. -/
theorem digitsValue?_hex {number : Nat} {digits : List Char}
    (spells : digits.map Char.toUpper = (hex number).toList) (zeros : Nat) :
    List.replicate zeros '0' ++ digits ≠ [] ∧
      digitsValue? 16 (List.replicate zeros '0' ++ digits) = some number := by
  rw [hex, String.toList_ofList] at spells
  constructor
  · intro none
    rw [(List.append_eq_nil_iff.mp none).2, List.map_nil] at spells
    exact Nat.toDigits_ne_nil (List.map_eq_nil_iff.mp spells.symm)
  · rw [digitsValue?_zeros (by decide), ← digitsValue?_map_toUpper, spells,
      digitsValue?_map_toUpper, digitsValue?_toDigits]

/-! ## The value of digits -/

/-- The value of a row of hexadecimal digits of either case, most significant first. -/
def hexValue (digits : List Char) : Nat :=
  Nat.ofDigits 16 (digits.reverse.map fun c => "0123456789ABCDEF".toList.idxOf c.toUpper)

theorem idxOf_of_digitValue? {c : Char} {value : Nat} (digit : digitValue? c = some value) :
    "0123456789ABCDEF".toList.idxOf c.toUpper = value := by
  have small := lt_of_digitValue? digit
  rw [toUpper_of_digitValue? digit]
  interval_cases value <;> decide

theorem hexValue_concat (digits : List Char) (last : Char) :
    hexValue (digits ++ [last]) =
      hexValue digits * 16 + "0123456789ABCDEF".toList.idxOf last.toUpper := by
  rw [hexValue, List.reverse_concat, List.map_cons, Nat.ofDigits_cons, ← hexValue, Nat.add_comm,
    Nat.mul_comm]

/-- Hexadecimal digits of either case are read as their value, and nothing else is read. -/
theorem digitsValue?_eq_some_iff {digits : List Char} {value : Nat} :
    digitsValue? 16 digits = some value ↔
      (∀ c ∈ digits, c ∈ "0123456789ABCDEFabcdef".toList) ∧ hexValue digits = value := by
  simp only [← isHexDigit_iff]
  induction digits using List.reverseRecOn generalizing value with
  | nil => simp [digitsValue?, hexValue]
  | append_singleton digits last hypothesis =>
      rw [digitsValue?_concat, hexValue_concat]
      constructor
      · intro read
        rcases Option.bind_eq_some_iff.mp read with ⟨total, before, after⟩
        rcases Option.bind_eq_some_iff.mp after with ⟨digit, isDigit, sum⟩
        rcases hypothesis.mp before with ⟨all, rfl⟩
        rw [if_pos (lt_of_digitValue? isDigit), Option.some.injEq] at sum
        rw [idxOf_of_digitValue? isDigit]
        refine ⟨?_, sum⟩
        simpa [or_imp, forall_and] using ⟨all, isHexDigit_of_digitValue? isDigit⟩
      · rintro ⟨all, rfl⟩
        rw [List.forall_mem_append] at all
        rcases Option.isSome_iff_exists.mp (all.2 last (List.mem_singleton_self last)) with
          ⟨digit, isDigit⟩
        rw [hypothesis.mpr ⟨all.1, rfl⟩, Option.bind_some, isDigit, Option.bind_some,
          if_pos (lt_of_digitValue? isDigit), idxOf_of_digitValue? isDigit]

/-- A numeral is a row of digits, with a plus sign before it or none. -/
theorem numeral?_eq_some_iff {bound value : Nat} {token : List Char} :
    numeral? 16 bound (String.ofList token) = some value ↔
      ∃ sign ∈ [[], ['+']], ∃ digits, token = sign ++ digits ∧ digits ≠ [] ∧
        (∀ c ∈ digits, c ∈ "0123456789ABCDEFabcdef".toList) ∧ hexValue digits = value ∧
        value < bound := by
  constructor
  · intro read
    rw [numeral?, String.toList_ofList] at read
    have parts : ∃ sign ∈ [[], ['+']], ∃ digits, token = sign ++ digits ∧ digits ≠ [] ∧
        digitsValue? 16 digits = some value ∧ value < bound := by
      split at read
      · exact ⟨['+'], by simp, _, rfl, by grind⟩
      · exact ⟨[], by simp, _, rfl, by grind⟩
    simpa only [digitsValue?_eq_some_iff, and_assoc] using parts
  · rintro ⟨sign, signed, digits, rfl, any, all, value, bounded⟩
    have read := digitsValue?_eq_some_iff.mpr ⟨all, value⟩
    simp only [List.mem_cons, List.not_mem_nil, or_false] at signed
    rcases signed with rfl | rfl
    · exact numeral?_of_digits any read bounded
    · simp [numeral?, any, read, bounded]

/-! ## Writing numbers -/

/-- A number is told from its decimal digits. -/
theorem toDigits_injective : Function.Injective (Nat.toDigits 10) := by
  intro first second same
  have values := congrArg (fun digits => Nat.ofDigitChars 10 digits 0) same
  rwa [Nat.ofDigitChars_ten_toDigits, Nat.ofDigitChars_ten_toDigits] at values

/-- The digits of a number in upper-case hexadecimal, most significant first, and zeros before them
if there are fewer than `width`. -/
def upperHex (width number : Nat) : List Char :=
  ((Nat.digits 16 number).reverse.map fun digit =>
    "0123456789ABCDEF".toList.getD digit '0').leftpad width '0'

theorem toUpper_digitChar {digit : Nat} (small : digit < 16) :
    digit.digitChar.toUpper = "0123456789ABCDEF".toList.getD digit '0' := by
  interval_cases digit <;> rfl

theorem hexDigit_eq_getD {digit : Nat} (small : digit < 16) :
    hexDigit digit = "0123456789ABCDEF".toList.getD digit '0' := by
  interval_cases digit <;> rfl

theorem toUpper_toDigits {number : Nat} (positive : 0 < number) :
    (Nat.toDigits 16 number).map Char.toUpper =
      (Nat.digits 16 number).reverse.map fun digit =>
        "0123456789ABCDEF".toList.getD digit '0' := by
  induction number using Nat.strongRecOn with
  | ind number hypothesis =>
      rw [Nat.toDigits_eq_if (by decide)]
      split
      · rename_i small
        rw [Nat.digits_of_lt 16 number (Nat.ne_of_gt positive) small, List.map_singleton,
          toUpper_digitChar small]
        rfl
      · rename_i large
        have last : number % 16 < 16 := Nat.mod_lt _ (by decide)
        rw [Nat.digits_def' (by decide) positive, List.map_append, List.map_singleton,
          hypothesis (number / 16) (by omega) (by omega), toUpper_digitChar last,
          List.reverse_cons, List.map_append, List.map_singleton]

theorem hexPadded_eq {width : Nat} (positive : 0 < width) (number : Nat) :
    hexPadded width number = String.ofList (upperHex width number) := by
  rw [hexPadded, padLeft, hex, upperHex, List.leftpad, String.length_ofList, ← String.ofList_append]
  refine congrArg String.ofList ?_
  rcases Nat.eq_zero_or_pos number with rfl | any
  · -- Zero has one digit when it is written and none in the sequence of its digits.
    obtain ⟨others, rfl⟩ : ∃ others, width = others + 1 := ⟨width - 1, by omega⟩
    simp [Nat.toDigits_eq_if, List.replicate_succ']
    decide
  · rw [toUpper_toDigits any]

theorem hexByte_eq (byte : UInt8) : hexByte byte = String.ofList (upperHex 2 byte.toNat) := by
  have small := byte.toNat_lt
  have high : byte.toNat / 16 < 16 := by omega
  rw [hexByte, hexDigit_eq_getD high, hexDigit_eq_getD (Nat.mod_lt _ (by decide)), upperHex,
    List.leftpad]
  refine congrArg String.ofList ?_
  rcases Nat.eq_zero_or_pos byte.toNat with none | any
  · rw [none]
    decide
  · rw [Nat.digits_def' (by decide) any]
    rcases Nat.eq_zero_or_pos (byte.toNat / 16) with short | long
    · rw [short]
      simp
    · simp [Nat.digits_of_lt 16 _ (Nat.ne_of_gt long) high]

theorem digitsValue?_upperHex (width number : Nat) :
    digitsValue? 16 (upperHex width number) = some number := by
  rw [upperHex, List.leftpad, digitsValue?_zeros (by decide)]
  rcases Nat.eq_zero_or_pos number with rfl | any
  · rw [Nat.digits_zero]
    rfl
  · rw [← toUpper_toDigits any, digitsValue?_map_toUpper, digitsValue?_toDigits]

/-- A number is told from its hexadecimal digits. -/
theorem upperHex_injective (width : Nat) {first second : Nat}
    (same : upperHex width first = upperHex width second) : first = second := by
  have read := congrArg (digitsValue? 16) same
  rwa [digitsValue?_upperHex, digitsValue?_upperHex, Option.some.injEq] at read

end Timeshare.Text
