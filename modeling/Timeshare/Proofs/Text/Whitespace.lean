import Mathlib.Data.List.DropRight
import Timeshare.Text.Whitespace

/-!
# Fields and margins

White space separates the fields of a text and counts for nothing else: cutting a text at a
separator cuts its list of fields, and what a trimmed text loses are margins of white space.  Text
that neither starts nor ends in white space is kept, whatever follows it.
-/

namespace Timeshare.Text

variable {isSeparator : Char → Bool}

/-! ## Fields -/

theorem fields_append_cons {separator : Char} (separates : isSeparator separator)
    (first rest : List Char) :
    fields isSeparator (String.ofList (first ++ separator :: rest)) =
      fields isSeparator (String.ofList first) ++ fields isSeparator (String.ofList rest) := by
  simp only [fields, String.toList_ofList]
  rw [List.splitOnP_append_cons first rest separates, List.filter_append, List.map_append]

@[simp]
theorem fields_nil : fields isSeparator (String.ofList []) = [] := by
  simp [fields]

theorem fields_append_left {margin : List Char} (separates : ∀ c ∈ margin, isSeparator c)
    (rest : List Char) :
    fields isSeparator (String.ofList (margin ++ rest)) =
      fields isSeparator (String.ofList rest) := by
  induction margin with
  | nil => rfl
  | cons separator margin hypothesis =>
      have first := fields_append_cons (separates separator List.mem_cons_self) [] (margin ++ rest)
      rw [fields_nil, List.nil_append, List.nil_append] at first
      rw [List.cons_append, first,
        hypothesis fun c member => separates c (List.mem_cons_of_mem separator member)]

theorem fields_of_separators {margin : List Char} (separates : ∀ c ∈ margin, isSeparator c) :
    fields isSeparator (String.ofList margin) = [] := by
  have alone := fields_append_left separates []
  rwa [List.append_nil, fields_nil] at alone

theorem fields_append_right {margin : List Char} (separates : ∀ c ∈ margin, isSeparator c)
    (text : List Char) :
    fields isSeparator (String.ofList (text ++ margin)) =
      fields isSeparator (String.ofList text) := by
  cases margin with
  | nil => rw [List.append_nil]
  | cons separator margin =>
      rw [fields_append_cons (separates separator List.mem_cons_self),
        fields_of_separators fun c member => separates c (List.mem_cons_of_mem separator member),
        List.append_nil]

theorem fields_of_solid {field : List Char} (any : field ≠ [])
    (solid : ∀ c ∈ field, isSeparator c = false) :
    fields isSeparator (String.ofList field) = [String.ofList field] := by
  rw [fields, String.toList_ofList, List.splitOnP_eq_singleton solid]
  simp [any]

/-- A field at the start of a text, with a separator after it or nothing. -/
theorem fields_cons_of_separated {field rest : List Char} (any : field ≠ [])
    (solid : ∀ c ∈ field, isSeparator c = false) (separated : ∀ c ∈ rest.head?, isSeparator c) :
    fields isSeparator (String.ofList (field ++ rest)) =
      String.ofList field :: fields isSeparator (String.ofList rest) := by
  cases rest with
  | nil => rw [List.append_nil, fields_of_solid any solid, fields_nil]
  | cons separator rest =>
      have separates : isSeparator separator := separated separator rfl
      have cut := fields_append_cons separates [] rest
      rw [fields_nil, List.nil_append, List.nil_append] at cut
      rw [fields_append_cons separates, fields_of_solid any solid, cut]
      rfl

/-- A space cuts a text into two with words of their own. -/
theorem words_append_space (first rest : String) :
    words (first ++ " " ++ rest) = words first ++ words rest := by
  have cut : first ++ " " ++ rest = String.ofList (first.toList ++ ' ' :: rest.toList) := by
    rw [← String.toList_inj]
    simp
  rw [cut, words, fields_append_cons (by decide), String.ofList_toList, String.ofList_toList, words,
    words]

theorem isWhiteSpace_of_isCardSpace {c : Char} (space : isCardSpace c) : isWhiteSpace c := by
  simp only [isCardSpace, Bool.or_eq_true, beq_iff_eq] at space
  simp [isWhiteSpace]
  omega

theorem isCardSpace_eq_false {c : Char} (black : isWhiteSpace c = false) :
    isCardSpace c = false := by
  rw [Bool.eq_false_iff] at black ⊢
  exact fun space => black (isWhiteSpace_of_isCardSpace space)

/-! ## Trimming -/

theorem toList_trim (text : String) :
    (trim text).toList = (text.toList.dropWhile isWhiteSpace).rdropWhile isWhiteSpace := by
  rw [trim, String.toList_ofList]
  rfl

theorem exists_margins (text : String) :
    ∃ before after, text.toList = before ++ ((trim text).toList ++ after) ∧
      (∀ c ∈ before, isWhiteSpace c) ∧ ∀ c ∈ after, isWhiteSpace c := by
  refine ⟨text.toList.takeWhile isWhiteSpace,
    (text.toList.dropWhile isWhiteSpace).rtakeWhile isWhiteSpace, ?_,
    fun c => List.mem_takeWhile_imp, fun c => List.mem_rtakeWhile_imp⟩
  rw [toList_trim, List.rdropWhile_append_rtakeWhile, List.takeWhile_append_dropWhile]

/-- Trimming loses no word. -/
theorem words_trim (text : String) : words (trim text) = words text := by
  rcases exists_margins text with ⟨before, after, shape, whiteBefore, whiteAfter⟩
  have whole : words text = words (String.ofList (before ++ ((trim text).toList ++ after))) := by
    rw [← shape, String.ofList_toList]
  rw [whole, words, words, fields_append_left whiteBefore, fields_append_right whiteAfter,
    String.ofList_toList]

theorem trim_of_white {margin : List Char} (white : ∀ c ∈ margin, isWhiteSpace c) :
    trim (String.ofList margin) = "" := by
  rw [← String.toList_inj, toList_trim, String.toList_ofList, List.dropWhile_eq_nil_iff.mpr white]
  rfl

/-- What ends a line as white space, such as a carriage return, is trimmed. -/
theorem trim_concat {c : Char} (white : isWhiteSpace c) (text : List Char) :
    trim (String.ofList (text ++ [c])) = trim (String.ofList text) := by
  rw [← String.toList_inj, toList_trim, toList_trim, String.toList_ofList, String.toList_ofList,
    List.dropWhile_append]
  split
  · rename_i blank
    rw [List.isEmpty_iff.mp blank, List.dropWhile_cons_of_pos white, List.dropWhile_nil]
  · rw [List.rdropWhile_concat_pos _ _ _ white]

/-- Text that neither starts nor ends in white space. -/
structure Bare (text : List Char) : Prop where
  starts : ∃ c ∈ text.head?, isWhiteSpace c = false
  ends : ∃ c ∈ text.getLast?, isWhiteSpace c = false

namespace Bare

variable {core : List Char}

theorem of_solid (any : core ≠ []) (solid : ∀ c ∈ core, isWhiteSpace c = false) : Bare core where
  starts := ⟨_, List.head?_eq_some_head any, solid _ (List.head_mem any)⟩
  ends := ⟨_, List.getLast?_eq_some_getLast any, solid _ (List.getLast_mem any)⟩

theorem append {first last : List Char} (bareFirst : Bare first) (bareLast : Bare last)
    (between : List Char) : Bare (first ++ between ++ last) where
  starts := by
    rcases bareFirst.starts with ⟨c, head, black⟩
    refine ⟨c, ?_, black⟩
    rw [List.append_assoc, List.head?_append_of_ne_nil _ (by rintro rfl; simp at head)]
    exact head
  ends := by
    rcases bareLast.ends with ⟨c, last, black⟩
    refine ⟨c, ?_, black⟩
    rw [List.getLast?_append_of_ne_nil _ (by rintro rfl; simp at last)]
    exact last

/-- Trimming keeps what is bare; of the text after it, only white space at the end is lost. -/
theorem trim_eq (bare : Bare core) {margin : List Char} (white : ∀ c ∈ margin, isWhiteSpace c)
    (rest : List Char) :
    trim (String.ofList (margin ++ (core ++ rest))) =
      String.ofList (core ++ rest.rdropWhile isWhiteSpace) := by
  rcases bare.starts with ⟨first, head, black⟩
  rcases List.head?_eq_some_iff.mp head with ⟨tail, rfl⟩
  rcases bare.ends with ⟨last, getLast, blackLast⟩
  rcases List.getLast?_eq_some_iff.mp getLast with ⟨init, shape⟩
  have noneBefore : (first :: tail ++ rest).dropWhile isWhiteSpace = first :: tail ++ rest :=
    List.dropWhile_cons_of_neg (by simp [black])
  rw [← String.toList_inj, toList_trim, String.toList_ofList, String.toList_ofList,
    List.dropWhile_append_of_pos white, noneBefore]
  induction rest using List.reverseRecOn with
  | nil =>
      rw [List.append_nil, List.rdropWhile_nil, List.append_nil, shape, List.rdropWhile_concat_neg]
      simp [blackLast]
  | append_singleton rest c hypothesis =>
      rw [← List.append_assoc, List.rdropWhile_concat, List.rdropWhile_concat]
      split
      · exact hypothesis (List.dropWhile_cons_of_neg (by simp [black]))
      · rw [List.append_assoc]

theorem trim_eq_of_white (bare : Bare core) {before after : List Char}
    (whiteBefore : ∀ c ∈ before, isWhiteSpace c) (whiteAfter : ∀ c ∈ after, isWhiteSpace c) :
    trim (String.ofList (before ++ (core ++ after))) = String.ofList core := by
  rw [bare.trim_eq whiteBefore, List.rdropWhile_eq_nil_iff.mpr whiteAfter, List.append_nil]

end Bare

/-! ## Beginnings -/

theorem after?_eq_some_iff {lead text rest : String} :
    after? lead text = some rest ↔ text = lead ++ rest := by
  rw [after?, Option.map_eq_some_iff]
  constructor
  · rintro ⟨tail, found, rfl⟩
    rw [List.isPrefixOf?_eq_some_iff_append_eq] at found
    rw [← String.toList_inj, ← found]
    simp
  · rintro rfl
    refine ⟨rest.toList, ?_, String.ofList_toList⟩
    rw [List.isPrefixOf?_eq_some_iff_append_eq, String.toList_append]

theorem startsWith_iff {lead text : String} :
    startsWith lead text = true ↔ lead.toList <+: text.toList := by
  rw [startsWith, after?, Option.isSome_map, List.isSome_isPrefixOf?_eq_isPrefixOf,
    List.isPrefixOf_iff_prefix]

theorem startsWith_append (lead rest : String) : startsWith lead (lead ++ rest) = true := by
  rw [startsWith, after?_eq_some_iff.mpr rfl, Option.isSome_some]

/-- What does not begin with `lead`, in both ways in which that is asked. -/
theorem leadless (lead text : String) (other : ¬lead.toList <+: text.toList) :
    after? lead text = none ∧ startsWith lead text = false := by
  have never : startsWith lead text = false := by
    rw [Bool.eq_false_iff, Ne, startsWith_iff]
    exact other
  refine ⟨?_, never⟩
  rwa [startsWith, Option.isSome_eq_false_iff, Option.isNone_iff_eq_none] at never

end Timeshare.Text
