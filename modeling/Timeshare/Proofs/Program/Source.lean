import Timeshare.Program.Source
import Timeshare.Proofs.Text.Numeral
import Timeshare.Proofs.Text.Whitespace

/-!
# Tokens and rows

A program text is read token by token, so it does not matter into how many rows it is broken, what
white space is around the tokens, or of what case their digits are.
-/

namespace Timeshare

/-- A sequence of two steps succeeds only when both do. -/
theorem exists_of_bind_eq_ok {ε α β : Type} {first : Except ε α} {next : α → Except ε β}
    {result : β} (ran : first >>= next = .ok result) :
    ∃ value, first = .ok value ∧ next value = .ok result := by
  cases first with
  | error error => cases ran
  | ok value => exact ⟨value, rfl, ran⟩

namespace ProgramText

variable {token line : List Char} {byte : UInt8} {bytes : List UInt8}

/-! ## Tokens -/

/-- `token` is `byte` as two hexadecimal digits, each of either case. -/
def Spells (token : List Char) (byte : UInt8) : Prop :=
  token.map Char.toUpper = (Text.hexByte byte).toList

theorem Spells.exists_digits (spells : Spells token byte) :
    ∃ high low, token = [high, low] ∧ Text.digitValue? high = some (byte.toNat / 16) ∧
      Text.digitValue? low = some (byte.toNat % 16) := by
  rw [Spells, Text.hexByte, String.toList_ofList] at spells
  have digit {c : Char} {value : Nat} (small : value < 16)
      (same : c.toUpper = Text.hexDigit value) : Text.digitValue? c = some value := by
    rw [← Text.digitValue?_toUpper, same, Text.digitValue?_hexDigit small]
  rcases List.map_eq_cons_iff.mp spells with ⟨high, rest, rfl, first, others⟩
  rcases List.map_eq_cons_iff.mp others with ⟨low, none, rfl, second, ended⟩
  rw [List.map_eq_nil_iff.mp ended]
  have bound := byte.toNat_lt
  exact ⟨high, low, rfl, digit (by omega) first, digit (by omega) second⟩

theorem Spells.byteOf (spells : Spells token byte) :
    ProgramText.byteOf (String.ofList token) = .ok byte := by
  rcases spells.exists_digits with ⟨high, low, rfl, highValue, lowValue⟩
  rw [ProgramText.byteOf, String.toList_ofList]
  simp only [highValue, lowValue, Nat.div_add_mod', UInt8.ofNat_toNat]

/-- No digit is white space, and none is a slash. -/
theorem solid_of_digit {c : Char} {value : Nat} (digit : Text.digitValue? c = some value) :
    Text.isWhiteSpace c = false ∧ c ≠ '/' := by
  have range := Text.code_of_isHexDigit (Text.isHexDigit_of_digitValue? digit)
  constructor
  · simp [Text.isWhiteSpace]
    omega
  · rintro rfl
    exact absurd range (by decide)

theorem Spells.solid (spells : Spells token byte) :
    token ≠ [] ∧ ∀ c ∈ token, Text.isWhiteSpace c = false := by
  rcases spells.exists_digits with ⟨high, low, rfl, highValue, lowValue⟩
  refine ⟨nofun, fun c member => ?_⟩
  rw [List.mem_pair] at member
  rcases member with rfl | rfl
  · exact (solid_of_digit highValue).1
  · exact (solid_of_digit lowValue).1

theorem spells_hexByte (byte : UInt8) : Spells (Text.hexByte byte).toList byte := by
  have upper {value : Nat} (small : value < 16) :
      (Text.hexDigit value).toUpper = Text.hexDigit value := by
    interval_cases value <;> rfl
  have bound := byte.toNat_lt
  simp [Spells, Text.hexByte, upper (show byte.toNat / 16 < 16 by omega),
    upper (Nat.mod_lt byte.toNat (show 0 < 16 by decide))]

/-! ## Rows -/

/-- A line of program text: tokens that spell the bytes, with white space around them and between
each two. -/
inductive Row : List Char → List UInt8 → Prop
  | blank {margin} (white : ∀ c ∈ margin, Text.isWhiteSpace c) : Row margin []
  | token {margin token rest byte bytes} (white : ∀ c ∈ margin, Text.isWhiteSpace c)
      (spells : Spells token byte) (separated : ∀ c ∈ rest.head?, Text.isWhiteSpace c)
      (row : Row rest bytes) : Row (margin ++ (token ++ rest)) (byte :: bytes)

theorem Row.parse (row : Row line bytes) : ProgramText.parse (String.ofList line) = .ok bytes := by
  induction row with
  | blank white =>
      rw [ProgramText.parse, Text.words, Text.fields_of_separators white]
      rfl
  | token white spells separated _ hypothesis =>
      have solid := spells.solid
      rw [ProgramText.parse, Text.words] at hypothesis
      rw [ProgramText.parse, Text.words, Text.fields_append_left white,
        Text.fields_cons_of_separated solid.1 solid.2 separated, List.mapM_cons, spells.byteOf,
        hypothesis]
      rfl

/-- What is left of a row when it is trimmed: nothing, or a text that begins with a digit. -/
theorem Row.trim (row : Row line bytes) :
    (bytes = [] ∧ Text.trim (String.ofList line) = "") ∨
      ∃ first rest value, Text.trim (String.ofList line) = String.ofList (first :: rest) ∧
        Text.digitValue? first = some value := by
  cases row with
  | blank white => exact Or.inl ⟨rfl, Text.trim_of_white white⟩
  | token white spells _ _ =>
      have bare : Text.Bare _ := .of_solid spells.solid.1 spells.solid.2
      rcases spells.exists_digits with ⟨high, low, rfl, highValue, _⟩
      exact Or.inr ⟨high, _, _, bare.trim_eq white _, highValue⟩

/-! ## Text that goes on -/

theorem parse_trim (text : String) : parse (Text.trim text) = parse text := by
  rw [parse, Text.words_trim, ← parse]

/-- A space cuts a text into two that are read one after the other. -/
theorem parse_append_space (first rest : String) :
    parse (first ++ " " ++ rest) = do
      let firstBytes ← parse first
      let restBytes ← parse rest
      return firstBytes ++ restBytes := by
  rw [parse, Text.words_append_space, List.mapM_append]
  rfl

/-- Whatever `text` goes on with, it spells `bytes` first. -/
def Begins (text : String) (bytes : List UInt8) : Prop :=
  ∀ more, parse (text ++ more) = (parse more).map (bytes ++ ·)

namespace Begins

variable {text : String}

theorem empty : Begins "" [] := by
  intro more
  rw [String.empty_append]
  cases parse more <;> rfl

theorem parse (begins : Begins text bytes) : ProgramText.parse text = .ok bytes := by
  have alone := begins ""
  rw [String.append_empty] at alone
  rw [alone]
  exact congrArg Except.ok (List.append_nil bytes)

theorem append_space (begins : Begins text bytes) {row : String} {more : List UInt8}
    (read : ProgramText.parse row = .ok more) : Begins (text ++ row ++ " ") (bytes ++ more) := by
  intro last
  rw [String.append_assoc, String.append_assoc, begins, ← String.append_assoc, parse_append_space,
    read]
  cases ProgramText.parse last with
  | error error => rfl
  | ok lastBytes => exact congrArg Except.ok (List.append_assoc bytes more lastBytes).symm

end Begins

end ProgramText

end Timeshare
