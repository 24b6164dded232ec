import Timeshare.Proofs.Program.Source
import Timeshare.Proofs.Text.Fields

/-!
# Parsing and rendering programs

A token is accepted just if it is two hexadecimal digits, and then the byte it spells is known from
the token in upper case.  So a text that is accepted is rendered as its tokens in upper case, and
what was rendered is parsed as the bytes it came from.  Of a text that is not accepted the first
token that spells no byte is reported.
-/

namespace Timeshare

/-- The outcome of a check of one item after the other is the first refusal, if there is one. -/
theorem mapM_eq_error {ε α β : Type} {check : α → Except ε β} {before after : List α} {item : α}
    {error : ε} (fine : ∀ other ∈ before, ∃ result, check other = .ok result)
    (refused : check item = .error error) :
    (before ++ item :: after).mapM check = .error error := by
  induction before with
  | nil =>
      rw [List.nil_append, List.mapM_cons, refused]
      rfl
  | cons other before hypothesis =>
      rcases List.forall_mem_cons.mp fine with ⟨⟨result, passed⟩, rest⟩
      rw [List.cons_append, List.mapM_cons, passed, hypothesis rest]
      rfl

theorem mapM_eq_ok {ε α β : Type} {check : α → Except ε β} {result : α → β} {items : List α}
    (fine : ∀ item ∈ items, check item = .ok (result item)) :
    items.mapM check = .ok (items.map result) := by
  induction items with
  | nil => rfl
  | cons item items hypothesis =>
      rcases List.forall_mem_cons.mp fine with ⟨passed, rest⟩
      rw [List.mapM_cons, passed, hypothesis rest]
      rfl

namespace ProgramText

/-! ## Tokens -/

/-- `token` is two hexadecimal digits, each of either case. -/
def IsNumeral (token : List Char) : Prop :=
  token.length = 2 ∧ ∀ c ∈ token, c ∈ "0123456789ABCDEFabcdef".toList

instance (token : List Char) : Decidable (IsNumeral token) :=
  inferInstanceAs (Decidable (_ ∧ _))

/-- A token with its digits in upper case. -/
def upper (token : String) : String :=
  String.ofList (token.toList.map Char.toUpper)

variable {token : String} {byte : UInt8}

/-- Counting bytes and looking at characters accepts what `IsNumeral` says. -/
theorem isNumeral_iff : IsNumeral token.toList ↔
    (Text.utf8Bytes token).length = 2 ∧ token.toList.all Text.isHexDigit := by
  have digits : (∀ c ∈ token.toList, c ∈ "0123456789ABCDEFabcdef".toList) ↔
      ∀ c ∈ token.toList, Text.isHexDigit c := by
    simp only [Text.isHexDigit_iff]
  rw [IsNumeral, digits, List.all_eq_true]
  refine and_congr_left fun all => ?_
  rw [Text.length_utf8Bytes_of_digits all]

theorem IsNumeral.exists_spells (isNumeral : IsNumeral token.toList) :
    ∃ byte, Spells token.toList byte := by
  rcases isNumeral with ⟨two, digits⟩
  rcases List.length_eq_two.mp two with ⟨high, low, same⟩
  rw [same] at digits ⊢
  have value {c : Char} (member : c ∈ [high, low]) :
      ∃ value < 16, c.toUpper = Text.hexDigit value := by
    rcases Option.isSome_iff_exists.mp (Text.isHexDigit_iff.mpr (digits c member)) with
      ⟨value, digit⟩
    exact ⟨value, Text.lt_of_digitValue? digit, Text.toUpper_of_digitValue? digit⟩
  rcases value (c := high) (by simp) with ⟨first, small, firstDigit⟩
  rcases value (c := low) (by simp) with ⟨second, smallSecond, secondDigit⟩
  refine ⟨UInt8.ofNat (first * 16 + second), ?_⟩
  have quotient : (first * 16 + second) % 2 ^ 8 / 16 = first := by omega
  have remainder : (first * 16 + second) % 2 ^ 8 % 16 = second := by omega
  simp only [Spells, Text.hexByte, String.toList_ofList, List.map_cons, List.map_nil, firstDigit,
    secondDigit, UInt8.toNat_ofNat', quotient, remainder]

theorem spells_iff_upper : Spells token.toList byte ↔ upper token = Text.hexByte byte := by
  rw [Spells, upper, ← String.toList_inj, String.toList_ofList]

theorem byteOf_of_not_isNumeral (other : ¬ IsNumeral token.toList) :
    byteOf token = .error (.invalidToken token) := by
  unfold byteOf
  split
  · rename_i high low same
    split
    · rename_i first second highValue lowValue
      refine absurd ⟨congrArg List.length same, fun c member => Text.isHexDigit_iff.mp ?_⟩ other
      rw [same, List.mem_pair] at member
      rcases member with rfl | rfl
      · exact Text.isHexDigit_of_digitValue? highValue
      · exact Text.isHexDigit_of_digitValue? lowValue
    · rfl
  · rfl

/-- A token is read as the byte whose numeral it is in upper case. -/
theorem byteOf_eq_ok_iff : byteOf token = .ok byte ↔ upper token = Text.hexByte byte := by
  constructor
  · intro read
    by_cases isNumeral : IsNumeral token.toList
    · rcases isNumeral.exists_spells with ⟨spelled, spells⟩
      have same := spells.byteOf
      rw [String.ofList_toList, read, Except.ok.injEq] at same
      exact spells_iff_upper.mp (same ▸ spells)
    · rw [byteOf_of_not_isNumeral isNumeral] at read
      cases read
  · intro same
    have read := (spells_iff_upper.mpr same).byteOf
    rwa [String.ofList_toList] at read

theorem exists_byteOf (isNumeral : IsNumeral token.toList) : ∃ byte, byteOf token = .ok byte := by
  rcases isNumeral.exists_spells with ⟨byte, spells⟩
  exact ⟨byte, byteOf_eq_ok_iff.mpr (spells_iff_upper.mp spells)⟩

/-- The token in upper case, if it is two bytes long and each of its characters is a digit. -/
def accept (token : String) : Except ProgramError String :=
  if (Text.utf8Bytes token).length = 2 ∧ token.toList.all Text.isHexDigit then .ok (upper token)
  else .error (.invalidToken token)

theorem accept_of_isNumeral (isNumeral : IsNumeral token.toList) :
    accept token = .ok (upper token) :=
  if_pos (isNumeral_iff.mp isNumeral)

theorem accept_of_not_isNumeral (other : ¬ IsNumeral token.toList) :
    accept token = .error (.invalidToken token) :=
  if_neg (isNumeral_iff.not.mp other)

/-- The value of a token as a numeral below 256. -/
def valueOf (token : String) : Except ProgramError UInt8 :=
  match Text.numeral? 16 256 token with
  | some value => .ok (UInt8.ofNat value)
  | none => .error (.invalidToken token)

theorem valueOf_hexByte (byte : UInt8) : valueOf (Text.hexByte byte) = .ok byte := by
  have bound := byte.toNat_lt
  have high : byte.toNat / 16 < 16 := by omega
  have low : byte.toNat % 16 < 16 := Nat.mod_lt _ (by decide)
  have digits : Text.digitsValue? 16
      [Text.hexDigit (byte.toNat / 16), Text.hexDigit (byte.toNat % 16)] = some byte.toNat := by
    simp [Text.digitsValue?, Text.digitValue?_hexDigit, high, low, Nat.div_add_mod']
  rw [valueOf, Text.hexByte, Text.numeral?_of_digits (by simp) digits bound]
  exact congrArg Except.ok UInt8.ofNat_toNat

theorem values_of_numerals (bytes : List UInt8) :
    (bytes.map Text.hexByte).mapM valueOf = .ok bytes := by
  induction bytes with
  | nil => rfl
  | cons byte bytes hypothesis =>
      rw [List.map_cons, List.mapM_cons, valueOf_hexByte, hypothesis]
      rfl

/-! ## Texts -/

variable {text : String} {bytes : List UInt8}

/-- Every maximal run of characters that are no white space is two hexadecimal digits. -/
def Spelled (text : List Char) : Prop :=
  ∀ before token after, text = before ++ (token ++ after) →
    Text.IsField Text.isWhiteSpace before token after → IsNumeral token

theorem spelled_iff : Spelled text.toList ↔ ∀ token ∈ Text.words text, IsNumeral token.toList := by
  have member {token : String} : token ∈ Text.words text ↔ ∃ before run after,
      text.toList = before ++ (run ++ after) ∧ Text.IsField Text.isWhiteSpace before run after ∧
        String.ofList run = token := by
    rw [← Text.mem_fields_iff, String.ofList_toList, Text.words]
  constructor
  · intro spelled token listed
    rcases member.mp listed with ⟨before, run, after, shape, isField, rfl⟩
    rw [String.toList_ofList]
    exact spelled before run after shape isField
  · intro all before run after shape isField
    have isNumeral := all (String.ofList run) (member.mpr ⟨before, run, after, shape, isField, rfl⟩)
    rwa [String.toList_ofList] at isNumeral

/-- A text is parsed as some bytes just if its tokens in upper case are their numerals. -/
theorem parse_eq_ok_iff :
    parse text = .ok bytes ↔ (Text.words text).map upper = bytes.map Text.hexByte := by
  unfold parse
  generalize Text.words text = list
  induction list generalizing bytes with
  | nil =>
      rw [List.map_nil, eq_comm (a := []), List.map_eq_nil_iff]
      exact ⟨fun same => (Except.ok.inj same).symm, fun same => congrArg Except.ok same.symm⟩
  | cons token list hypothesis =>
      rw [List.mapM_cons, List.map_cons]
      constructor
      · intro read
        rcases exists_of_bind_eq_ok read with ⟨byte, first, later⟩
        rcases exists_of_bind_eq_ok later with ⟨more, rest, same⟩
        rw [← Except.ok.inj same, List.map_cons, byteOf_eq_ok_iff.mp first, hypothesis.mp rest]
      · intro same
        rcases bytes with _ | ⟨byte, bytes⟩
        · cases same
        · rw [List.map_cons, List.cons.injEq] at same
          rw [byteOf_eq_ok_iff.mpr same.1, hypothesis.mpr same.2]
          rfl

/-- Each check of the tokens, one after the other, refuses the first token that is no numeral. -/
theorem exists_first_refused (other : ¬ Spelled text.toList) :
    ∃ before token after, text.toList = before ++ (token ++ after) ∧
      Text.IsField Text.isWhiteSpace before token after ∧ Spelled before ∧ ¬ IsNumeral token ∧
      ∀ {α : Type} {check : String → Except ProgramError α},
        (∀ token, IsNumeral token.toList → ∃ result, check token = .ok result) →
        (∀ token, ¬ IsNumeral token.toList → check token = .error (.invalidToken token)) →
        (Text.words text).mapM check = .error (.invalidToken (String.ofList token)) := by
  rw [spelled_iff] at other
  have refused : (Text.words text).find? (fun token => !decide (IsNumeral token.toList)) ≠ none := by
    intro all
    rw [List.find?_eq_none] at all
    exact other fun token listed => by simpa using all token listed
  rcases Option.ne_none_iff_exists'.mp refused with ⟨token, found⟩
  rcases List.find?_eq_some_iff_append.mp found with ⟨bad, first, rest, listed, fine⟩
  have split := listed
  rw [Text.words, ← String.ofList_toList (s := text)] at split
  rcases Text.exists_isField split with ⟨before, run, after, shape, isField, rfl, words, _⟩
  have numerals : ∀ token ∈ first, IsNumeral token.toList := fun token member => by
    simpa using fine token member
  have spelled : Spelled before := by
    rw [← String.toList_ofList (l := before), spelled_iff, Text.words, words]
    exact numerals
  refine ⟨before, run, after, shape, isField, spelled, by simpa using bad, ?_⟩
  intro α check accepts refuses
  rw [listed]
  exact mapM_eq_error (fun token member => accepts token (numerals token member))
    (refuses _ (by simpa using bad))

/-! ## Rendering -/

theorem words_render (bytes : List UInt8) :
    Text.words (render bytes) = bytes.map Text.hexByte := by
  have word (byte : UInt8) : Text.words (Text.hexByte byte) = [Text.hexByte byte] := by
    have solid := (spells_hexByte byte).solid
    have alone := Text.fields_of_solid solid.1 solid.2
    rwa [String.ofList_toList] at alone
  rw [render, Text.hexBytes]
  induction bytes with
  | nil => rfl
  | cons byte rest hypothesis =>
      cases rest with
      | nil => exact (congrArg Text.words String.intercalate_singleton).trans (word byte)
      | cons next rest =>
          rw [List.map_cons] at hypothesis
          rw [List.map_cons, List.map_cons, String.intercalate_cons_cons, Text.words_append_space,
            word, hypothesis, List.singleton_append]

/-- What is rendered is parsed as the bytes it came from. -/
theorem parse_render (bytes : List UInt8) : parse (render bytes) = .ok bytes := by
  rw [parse_eq_ok_iff, words_render, List.map_map]
  exact List.map_congr_left fun byte _ => spells_iff_upper.mp (spells_hexByte byte)

theorem render_of_parse (parsed : parse text = .ok bytes) :
    render bytes = " ".intercalate ((Text.words text).map upper) := by
  rw [render, Text.hexBytes, parse_eq_ok_iff.mp parsed]

/-! ## Tokens first, then their values -/

theorem tokens_eq (text : String) : tokens text = (Text.words text).mapM accept := by
  refine congrArg (List.mapM · (Text.words text)) (funext fun token => ?_)
  by_cases isNumeral : IsNumeral token.toList
  · rcases exists_byteOf isNumeral with ⟨byte, read⟩
    rw [read, accept_of_isNumeral isNumeral]
    rfl
  · rw [byteOf_of_not_isNumeral isNumeral, accept_of_not_isNumeral isNumeral]
    rfl

theorem tokens_of_spelled (spelled : Spelled text.toList) :
    tokens text = .ok ((Text.words text).map upper) := by
  rw [tokens_eq]
  exact mapM_eq_ok fun token listed => accept_of_isNumeral (spelled_iff.mp spelled token listed)

theorem parse_of_spelled (spelled : Spelled text.toList) : ∃ bytes, parse text = .ok bytes := by
  have numerals := spelled_iff.mp spelled
  simp only [parse_eq_ok_iff]
  generalize Text.words text = list at numerals
  induction list with
  | nil => exact ⟨[], rfl⟩
  | cons token list hypothesis =>
      rcases List.forall_mem_cons.mp numerals with ⟨isNumeral, rest⟩
      rcases isNumeral.exists_spells with ⟨byte, spells⟩
      rcases hypothesis rest with ⟨bytes, same⟩
      exact ⟨byte :: bytes, by rw [List.map_cons, List.map_cons, same, spells_iff_upper.mp spells]⟩

/-- Of a text that is not accepted, tokens and bytes report the same token: the first in the text
that is no numeral. -/
theorem refused_of_not_spelled (other : ¬ Spelled text.toList) :
    ∃ before token after, text.toList = before ++ (token ++ after) ∧
      Text.IsField Text.isWhiteSpace before token after ∧ Spelled before ∧ ¬ IsNumeral token ∧
      tokens text = .error (.invalidToken (String.ofList token)) ∧
      parse text = .error (.invalidToken (String.ofList token)) := by
  rcases exists_first_refused other with
    ⟨before, token, after, shape, isField, spelled, bad, refused⟩
  refine ⟨before, token, after, shape, isField, spelled, bad, ?_, ?_⟩
  · rw [tokens_eq]
    exact refused (fun _ isNumeral => ⟨_, accept_of_isNumeral isNumeral⟩)
      fun _ => accept_of_not_isNumeral
  · exact refused (fun _ => exists_byteOf) fun _ => byteOf_of_not_isNumeral

/-- The bytes of a text are the values of its tokens, none of which is refused once the tokens
are accepted. -/
theorem parse_eq_values (text : String) :
    parse text = tokens text >>= fun list => list.mapM valueOf := by
  by_cases spelled : Spelled text.toList
  · rcases parse_of_spelled spelled with ⟨bytes, parsed⟩
    rw [tokens_of_spelled spelled, parsed, parse_eq_ok_iff.mp parsed]
    exact (values_of_numerals bytes).symm
  · rcases refused_of_not_spelled spelled with ⟨_, _, _, _, _, _, _, refused, refusedToo⟩
    rw [refused, refusedToo]
    rfl

/-- Parsing and rendering undo each other.  A text is parsed just if it can be cut into tokens, that
is, just if every maximal run of characters that are no white space is two hexadecimal digits;
otherwise both refuse the first run that is not.  Rendering the bytes of a text gives its tokens in
upper case with a space between each two, and rendered bytes are parsed as themselves.  The tokens
are accepted by their bytes and characters and then read as numerals, and this refuses none of
them. -/
theorem parsing_undoes_rendering :
    (∀ text : String,
      ((∃ bytes, parse text = .ok bytes) ↔ ∃ list, tokens text = .ok list) ∧
      ((∃ bytes, parse text = .ok bytes) ↔ Spelled text.toList) ∧
      (¬ Spelled text.toList → ∃ before token after, text.toList = before ++ (token ++ after) ∧
        Text.IsField Text.isWhiteSpace before token after ∧ Spelled before ∧ ¬ IsNumeral token ∧
        tokens text = .error (.invalidToken (String.ofList token)) ∧
        parse text = .error (.invalidToken (String.ofList token))) ∧
      (∀ bytes, parse text = .ok bytes →
        tokens text = .ok ((Text.words text).map upper) ∧
        render bytes = " ".intercalate ((Text.words text).map upper)) ∧
      tokens text = (Text.words text).mapM accept ∧
      parse text = tokens text >>= fun list => list.mapM valueOf) ∧
    ∀ bytes, parse (render bytes) = .ok bytes := by
  refine ⟨fun text => ?_, parse_render⟩
  have parses : (∃ bytes, parse text = .ok bytes) ↔ Spelled text.toList := by
    refine ⟨fun ⟨bytes, parsed⟩ => ?_, parse_of_spelled⟩
    by_contra other
    rcases refused_of_not_spelled other with ⟨_, _, _, _, _, _, _, _, refused⟩
    rw [refused] at parsed
    cases parsed
  have cuts : (∃ list, tokens text = .ok list) ↔ Spelled text.toList := by
    refine ⟨fun ⟨list, cut⟩ => ?_, fun spelled => ⟨_, tokens_of_spelled spelled⟩⟩
    by_contra other
    rcases refused_of_not_spelled other with ⟨_, _, _, _, _, _, _, refused, _⟩
    rw [refused] at cut
    cases cut
  exact ⟨parses.trans cuts.symm, parses, refused_of_not_spelled,
    fun bytes parsed => ⟨tokens_of_spelled (parses.mp ⟨bytes, parsed⟩), render_of_parse parsed⟩,
    tokens_eq text, parse_eq_values text⟩

/-- Of the three tokens the second is refused: its two characters are digits of another script,
which take more than one byte each. -/
theorem parsing_undoes_rendering_small :
    ¬ Spelled "a9\u3000\uff11\uff12 0".toList ∧
      (∃ token, parse "a9\u3000\uff11\uff12 0" = .error (.invalidToken token) ∧
        tokens "a9\u3000\uff11\uff12 0" = .error (.invalidToken token)) ∧
      parse "a9\t0F\u2003ff" = .ok [0xA9, 0x0F, 0xFF] ∧
      render [0xA9, 0x0F, 0xFF] = " ".intercalate ((Text.words "a9\t0F\u2003ff").map upper) := by
  have bad : ¬ Spelled "a9\u3000\uff11\uff12 0".toList := by
    intro spelled
    have numeral := spelled ['a', '9', '\u3000'] ['\uff11', '\uff12'] [' ', '0'] rfl
      ⟨by simp, by simp [Text.isWhiteSpace], by simp [Text.isWhiteSpace],
        by simp [Text.isWhiteSpace]⟩
    exact absurd (Text.isHexDigit_iff.mpr (numeral.2 '\uff11' List.mem_cons_self)) (by decide)
  have parsed : parse "a9\t0F\u2003ff" = .ok [0xA9, 0x0F, 0xFF] := by decide
  rcases parsing_undoes_rendering.1 "a9\u3000\uff11\uff12 0" with ⟨_, _, refuses, _⟩
  rcases parsing_undoes_rendering.1 "a9\t0F\u2003ff" with ⟨_, _, _, renders, _⟩
  rcases refuses bad with ⟨_, token, _, _, _, _, _, cut, refused⟩
  exact ⟨bad, ⟨_, refused, cut⟩, parsed, (renders _ parsed).2⟩

end ProgramText

end Timeshare
