/-!
# Splitting a list at its last match
-/

namespace Timeshare

universe u

/-- The last element of a list that fits, with the elements before it and those after it. -/
def splitLast? {α : Type u} (fits : α → Bool) : List α → Option (List α × α × List α)
  | [] => none
  | a :: rest =>
    match splitLast? fits rest with
    | some (before, last, after) => some (a :: before, last, after)
    | none => if fits a then some ([], a, rest) else none

/-- A list is put together again from the parts it is split into. -/
theorem splitLast?_join {α : Type u} {fits : α → Bool} {list before after : List α} {last : α}
    (split : splitLast? fits list = some (before, last, after)) :
    list = before ++ last :: after := by
  induction list generalizing before with
  | nil => simp [splitLast?] at split
  | cons a rest hypothesis =>
    unfold splitLast? at split
    split at split
    · rename_i found
      simp only [Option.some.injEq, Prod.mk.injEq] at split
      rcases split with ⟨rfl, rfl, rfl⟩
      rw [List.cons_append, ← hypothesis found]
    · split at split
      · simp only [Option.some.injEq, Prod.mk.injEq] at split
        rcases split with ⟨rfl, rfl, rfl⟩
        rfl
      · simp at split

/-- The element a list is split at fits. -/
theorem splitLast?_fits {α : Type u} {fits : α → Bool} {list before after : List α} {last : α}
    (split : splitLast? fits list = some (before, last, after)) : fits last = true := by
  induction list generalizing before with
  | nil => simp [splitLast?] at split
  | cons a rest hypothesis =>
    unfold splitLast? at split
    split at split
    · rename_i found
      simp only [Option.some.injEq, Prod.mk.injEq] at split
      rcases split with ⟨_, rfl, rfl⟩
      exact hypothesis found
    · split at split
      · rename_i suitable
        simp only [Option.some.injEq, Prod.mk.injEq] at split
        rcases split with ⟨_, rfl, _⟩
        exact suitable
      · simp at split

/-- A list that is not split has no element that fits. -/
theorem splitLast?_eq_none {α : Type u} {fits : α → Bool} {list : List α}
    (unsplit : splitLast? fits list = none) : ∀ member ∈ list, fits member = false := by
  induction list with
  | nil => exact fun _ member => absurd member List.not_mem_nil
  | cons a rest hypothesis =>
      unfold splitLast? at unsplit
      split at unsplit
      · cases unsplit
      · rename_i unfound
        split at unsplit
        · cases unsplit
        · rename_i unfit
          intro member among
          rcases List.mem_cons.mp among with rfl | later
          · exact Bool.not_eq_true _ ▸ unfit
          · exact hypothesis unfound member later

/-- No element after the one a list is split at fits. -/
theorem splitLast?_last {α : Type u} {fits : α → Bool} {list before after : List α} {last : α}
    (split : splitLast? fits list = some (before, last, after)) :
    ∀ member ∈ after, fits member = false := by
  induction list generalizing before with
  | nil => simp [splitLast?] at split
  | cons a rest hypothesis =>
      unfold splitLast? at split
      split at split
      · rename_i found
        simp only [Option.some.injEq, Prod.mk.injEq] at split
        rcases split with ⟨_, rfl, rfl⟩
        exact hypothesis found
      · rename_i unfound
        split at split
        · simp only [Option.some.injEq, Prod.mk.injEq] at split
          rcases split with ⟨_, _, rfl⟩
          exact splitLast?_eq_none unfound
        · simp at split

end Timeshare
