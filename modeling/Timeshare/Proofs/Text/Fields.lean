import Timeshare.Proofs.Text.Whitespace

/-!
# Where fields stand

The fields of a text are its maximal runs of characters that are no separators.  Each such run is
listed, after the fields of the text before it and before the fields of the text after it, and
nothing else is.
-/

namespace Timeshare.Text

variable {isSeparator : Char → Bool} {before field after text : List Char}

/-- `field`, between `before` and `after`, is a maximal run of characters that are no separators. -/
structure IsField (isSeparator : Char → Bool) (before field after : List Char) : Prop where
  any : field ≠ []
  solid : ∀ c ∈ field, isSeparator c = false
  opens : ∀ c ∈ before.getLast?, isSeparator c
  closes : ∀ c ∈ after.head?, isSeparator c

theorem IsField.fields_eq (isField : IsField isSeparator before field after) :
    fields isSeparator (String.ofList (before ++ (field ++ after))) =
      fields isSeparator (String.ofList before) ++
        String.ofList field :: fields isSeparator (String.ofList after) := by
  have first := fields_cons_of_separated isField.any isField.solid isField.closes
  rcases List.eq_nil_or_concat' before with rfl | ⟨start, separator, rfl⟩
  · rw [List.nil_append, first, fields_nil, List.nil_append]
  · have separates : isSeparator separator := isField.opens separator (by simp)
    have margin : ∀ c ∈ [separator], isSeparator c := by simpa using separates
    rw [List.append_assoc, List.singleton_append, fields_append_cons separates, first,
      fields_append_right margin]

/-- A text is a margin of separators or begins with one and then a field. -/
theorem exists_first_field (isSeparator : Char → Bool) (text : List Char) :
    (∀ c ∈ text, isSeparator c) ∨
      ∃ margin field rest, text = margin ++ (field ++ rest) ∧ IsField isSeparator margin field rest ∧
        fields isSeparator (String.ofList margin) = [] := by
  have joined := List.takeWhile_append_dropWhile (p := isSeparator) (l := text)
  have margin : ∀ c ∈ text.takeWhile isSeparator, isSeparator c := fun c => List.mem_takeWhile_imp
  cases remainder : text.dropWhile isSeparator with
  | nil => exact Or.inl (List.dropWhile_eq_nil_iff.mp remainder)
  | cons c tail =>
      have solid : isSeparator c = false := by
        have head := List.head?_dropWhile_not isSeparator text
        simpa [remainder] using head
      have split := List.takeWhile_append_dropWhile (p := fun c => !isSeparator c) (l := c :: tail)
      refine Or.inr ⟨text.takeWhile isSeparator, (c :: tail).takeWhile fun c => !isSeparator c,
        (c :: tail).dropWhile fun c => !isSeparator c, ?_, ⟨?_, ?_, ?_, ?_⟩,
        fields_of_separators margin⟩
      · rw [split, ← remainder, joined]
      · simp [solid]
      · intro d member
        simpa using List.mem_takeWhile_imp member
      · intro d last
        exact margin d (List.mem_of_getLast? last)
      · intro d head
        have stopped := List.head?_dropWhile_not (fun c => !isSeparator c) (c :: tail)
        rw [Option.mem_def.mp head] at stopped
        simpa using stopped

/-- A text without fields is a margin. -/
theorem fields_eq_nil_iff :
    fields isSeparator (String.ofList text) = [] ↔ ∀ c ∈ text, isSeparator c := by
  refine ⟨fun none => ?_, fields_of_separators⟩
  rcases exists_first_field isSeparator text with blank | ⟨margin, field, rest, rfl, isField, _⟩
  · exact blank
  · rw [isField.fields_eq] at none
    simp at none

/-- Each field that is listed stands in the text, in the place that its place in the list tells. -/
theorem exists_isField {first rest : List String} {field : String}
    (listed : fields isSeparator (String.ofList text) = first ++ field :: rest) :
    ∃ before run after, text = before ++ (run ++ after) ∧ IsField isSeparator before run after ∧
      String.ofList run = field ∧ fields isSeparator (String.ofList before) = first ∧
      fields isSeparator (String.ofList after) = rest := by
  induction first generalizing text with
  | nil =>
      rcases exists_first_field isSeparator text with blank | ⟨margin, run, after, rfl, isField, none⟩
      · rw [fields_of_separators blank] at listed
        simp at listed
      · rw [isField.fields_eq, none, List.nil_append, List.nil_append, List.cons.injEq] at listed
        exact ⟨margin, run, after, rfl, isField, listed.1, none, listed.2⟩
  | cons earlier first hypothesis =>
      rcases exists_first_field isSeparator text with blank | ⟨margin, run, after, rfl, isField, none⟩
      · rw [fields_of_separators blank] at listed
        simp at listed
      · rw [isField.fields_eq, none, List.nil_append, List.cons_append, List.cons.injEq] at listed
        rcases hypothesis listed.2 with ⟨before, last, rest, rfl, isLast, same, fieldsBefore, later⟩
        -- The fields do not touch each other, so what is between them is not empty.
        have between : before ≠ [] := by
          rintro rfl
          rcases List.exists_cons_of_ne_nil isLast.any with ⟨c, tail, rfl⟩
          have separates := isField.closes c rfl
          rw [isLast.solid c List.mem_cons_self] at separates
          cases separates
        have opens : ∀ c ∈ (margin ++ (run ++ before)).getLast?, isSeparator c := by
          rw [← List.append_assoc, List.getLast?_append_of_ne_nil _ between]
          exact isLast.opens
        have closes : ∀ c ∈ before.head?, isSeparator c := by
          intro c head
          refine isField.closes c ?_
          rw [List.head?_append_of_ne_nil _ between]
          exact head
        have whole : IsField isSeparator margin run before := { isField with closes }
        refine ⟨margin ++ (run ++ before), last, rest, by simp, { isLast with opens }, same, ?_,
          later⟩
        rw [whole.fields_eq, none, listed.1, fieldsBefore, List.nil_append]

/-- The fields of a text are what stands in it as a maximal run of characters that are no
separators. -/
theorem mem_fields_iff {field : String} :
    field ∈ fields isSeparator (String.ofList text) ↔
      ∃ before run after, text = before ++ (run ++ after) ∧ IsField isSeparator before run after ∧
        String.ofList run = field := by
  constructor
  · intro member
    rcases List.append_of_mem member with ⟨first, rest, listed⟩
    rcases exists_isField listed with ⟨before, run, after, shape, isField, same, _, _⟩
    exact ⟨before, run, after, shape, isField, same⟩
  · rintro ⟨before, run, after, rfl, isField, rfl⟩
    rw [isField.fields_eq]
    exact List.mem_append_right _ List.mem_cons_self

end Timeshare.Text
