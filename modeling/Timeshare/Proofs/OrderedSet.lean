import Mathlib.Data.List.Nodup
import Timeshare.Collections.OrderedSet

/-!
# Elements of ordered sets

What the operations on ordered sets do to the elements: which ones there are, and in how many
copies.  An ordered set holds every element once, so adding a new element or taking the least one
away is an equation of lists up to their order.
-/

namespace Timeshare

universe u

namespace OrderedSet

variable {α : Type u} [Ranked α]

theorem ext {first second : OrderedSet α} (same : first.elements = second.elements) :
    first = second := by
  cases first
  cases second
  cases same
  rfl

theorem elements_nodup (set : OrderedSet α) : set.elements.Nodup := by
  refine set.ascending.imp ?_
  intro a b below same
  subst same
  exact Nat.lt_irrefl _ below

@[simp]
theorem elements_empty : (empty : OrderedSet α).elements = [] := rfl

theorem size_eq_length (set : OrderedSet α) : set.size = set.elements.length := rfl

@[simp]
theorem isEmpty_iff (set : OrderedSet α) : set.isEmpty = true ↔ set.elements = [] :=
  List.isEmpty_iff

@[simp]
theorem contains_iff (set : OrderedSet α) (a : α) :
    set.contains a = true ↔ a ∈ set.elements := by
  simp only [contains, List.any_eq_true, beq_iff_eq]
  constructor
  · rintro ⟨b, member, same⟩
    exact Ranked.rank_injective same ▸ member
  · intro member
    exact ⟨a, member, rfl⟩

theorem mem_insertInto_iff {a c : α} {list : List α} :
    c ∈ insertInto a list ↔ c = a ∨ c ∈ list := by
  refine ⟨mem_of_mem_insertInto, ?_⟩
  induction list with
  | nil => simp [insertInto]
  | cons b rest hypothesis =>
      unfold insertInto
      split
      · simp
      · split
        · rename_i same
          rintro (rfl | member)
          · exact Ranked.rank_injective same ▸ List.mem_cons_self
          · exact member
        · rintro (rfl | member)
          · exact List.mem_cons_of_mem b (hypothesis (Or.inl rfl))
          · rcases List.mem_cons.mp member with rfl | inRest
            · exact List.mem_cons_self
            · exact List.mem_cons_of_mem b (hypothesis (Or.inr inRest))

@[simp]
theorem mem_insert {a c : α} {set : OrderedSet α} :
    c ∈ (set.insert a).elements ↔ c = a ∨ c ∈ set.elements :=
  mem_insertInto_iff

@[simp]
theorem mem_erase {a c : α} {set : OrderedSet α} :
    c ∈ (set.erase a).elements ↔ c ∈ set.elements ∧ c ≠ a := by
  simp only [erase, List.mem_filter, bne_iff_ne, and_congr_right_iff]
  intro _
  exact not_congr ⟨fun same => Ranked.rank_injective same, fun same => same ▸ rfl⟩

/-- A set is determined by its elements. -/
theorem ext_mem {first second : OrderedSet α}
    (same : ∀ a, a ∈ first.elements ↔ a ∈ second.elements) : first = second := by
  have order := (List.perm_ext_iff_of_nodup first.elements_nodup second.elements_nodup).mpr same
  refine ext (order.eq_of_pairwise ?_ first.ascending second.ascending)
  intro a b _ _ below above
  exact absurd above (Nat.lt_asymm below)

/-- Adding a new element and taking it away again gives the set back. -/
theorem erase_insert {a : α} {set : OrderedSet α} (new : a ∉ set.elements) :
    (set.insert a).erase a = set := by
  apply ext_mem
  intro b
  rw [mem_erase, mem_insert]
  constructor
  · rintro ⟨rfl | old, different⟩
    · exact absurd rfl different
    · exact old
  · intro member
    exact ⟨Or.inr member, fun same => new (same ▸ member)⟩

/-- A new element is added once. -/
theorem insert_perm {a : α} {set : OrderedSet α} (new : a ∉ set.elements) :
    (set.insert a).elements.Perm (a :: set.elements) := by
  refine (List.perm_ext_iff_of_nodup (elements_nodup _) ?_).mpr ?_
  · exact List.nodup_cons.mpr ⟨new, elements_nodup set⟩
  · simp

theorem popFirst?_eq_some {a : α} {set rest : OrderedSet α}
    (popped : set.popFirst? = some (a, rest)) : set.elements = a :: rest.elements := by
  rcases set with ⟨_ | ⟨b, tail⟩, ascending⟩
  · simp [popFirst?] at popped
  · simp only [popFirst?, Option.some.injEq, Prod.mk.injEq] at popped
    rcases popped with ⟨rfl, rfl⟩
    rfl

theorem exists_popFirst? {set : OrderedSet α} (inhabited : set.elements ≠ []) :
    ∃ a rest, set.popFirst? = some (a, rest) := by
  rcases set with ⟨_ | ⟨a, tail⟩, ascending⟩
  · exact absurd rfl inhabited
  · exact ⟨a, _, rfl⟩

theorem popFirst?_eq_none {set : OrderedSet α} (exhausted : set.elements = []) :
    set.popFirst? = none := by
  rcases set with ⟨_ | ⟨a, tail⟩, ascending⟩
  · rfl
  · simp at exhausted

@[simp]
theorem mem_ofList {a : α} {list : List α} : a ∈ (ofList list).elements ↔ a ∈ list := by
  induction list with
  | nil => simp [ofList]
  | cons b rest hypothesis =>
      have unfolded : ofList (b :: rest) = (ofList rest).insert b := rfl
      rw [unfolded, mem_insert, hypothesis, List.mem_cons]

/-- A list without repetition is the set of its elements, up to their order. -/
theorem ofList_perm {list : List α} (distinct : list.Nodup) :
    (ofList list).elements.Perm list :=
  (List.perm_ext_iff_of_nodup (elements_nodup _) distinct).mpr fun _ => mem_ofList

end OrderedSet

end Timeshare
