/-!
# Ordered sets

A finite set kept as its elements in ascending order.  Two sets with the same elements are equal,
and the least element is at hand.  The order of a type is given by a rank, a natural number that
tells its values apart.
-/

namespace Timeshare

universe u

/-- A type whose values are told apart and ordered by a natural number. -/
class Ranked (α : Type u) where
  rank : α → Nat
  rank_injective : ∀ {a b : α}, rank a = rank b → a = b

instance : Ranked Nat where
  rank n := n
  rank_injective same := same

/-- A finite set as the list of its elements in strictly ascending order. -/
structure OrderedSet (α : Type u) [Ranked α] where
  elements : List α
  /-- The elements ascend strictly, so none occurs twice. -/
  ascending : elements.Pairwise fun a b => Ranked.rank a < Ranked.rank b

namespace OrderedSet

variable {α : Type u} [Ranked α]

/-- Puts `a` in its place in an ascending list, unless it is there already. -/
def insertInto (a : α) : List α → List α
  | [] => [a]
  | b :: rest =>
    if Ranked.rank a < Ranked.rank b then a :: b :: rest
    else if Ranked.rank a = Ranked.rank b then b :: rest
    else b :: insertInto a rest

theorem mem_of_mem_insertInto {a c : α} {list : List α} (member : c ∈ insertInto a list) :
    c = a ∨ c ∈ list := by
  induction list with
  | nil => simpa [insertInto] using member
  | cons b rest hypothesis =>
    unfold insertInto at member
    split at member
    · simpa using member
    · split at member
      · exact Or.inr member
      · rcases List.mem_cons.mp member with same | inRest
        · exact Or.inr (same ▸ List.mem_cons_self)
        · exact (hypothesis inRest).imp_right (List.mem_cons_of_mem b)

theorem insertInto_ascending (a : α) {list : List α}
    (ascending : list.Pairwise fun a b => Ranked.rank a < Ranked.rank b) :
    (insertInto a list).Pairwise fun a b => Ranked.rank a < Ranked.rank b := by
  induction list with
  | nil => simp [insertInto]
  | cons b rest hypothesis =>
    rw [List.pairwise_cons] at ascending
    unfold insertInto
    split
    · rename_i below
      refine List.pairwise_cons.mpr ⟨?_, List.pairwise_cons.mpr ascending⟩
      intro c member
      rcases List.mem_cons.mp member with same | inRest
      · exact same ▸ below
      · exact Nat.lt_trans below (ascending.1 c inRest)
    · rename_i notBelow
      split
      · exact List.pairwise_cons.mpr ascending
      · rename_i different
        refine List.pairwise_cons.mpr ⟨?_, hypothesis ascending.2⟩
        intro c member
        rcases mem_of_mem_insertInto member with same | inRest
        · subst same
          omega
        · exact ascending.1 c inRest

def empty : OrderedSet α :=
  ⟨[], List.Pairwise.nil⟩

def insert (a : α) (set : OrderedSet α) : OrderedSet α :=
  ⟨insertInto a set.elements, insertInto_ascending a set.ascending⟩

def erase (a : α) (set : OrderedSet α) : OrderedSet α :=
  ⟨set.elements.filter fun b => Ranked.rank b != Ranked.rank a,
    set.ascending.sublist List.filter_sublist⟩

def contains (set : OrderedSet α) (a : α) : Bool :=
  set.elements.any fun b => Ranked.rank b == Ranked.rank a

def size (set : OrderedSet α) : Nat :=
  set.elements.length

def isEmpty (set : OrderedSet α) : Bool :=
  set.elements.isEmpty

/-- The least element and the set without it. -/
def popFirst? (set : OrderedSet α) : Option (α × OrderedSet α) :=
  match set with
  | ⟨[], _⟩ => none
  | ⟨a :: rest, ascending⟩ => some (a, ⟨rest, (List.pairwise_cons.mp ascending).2⟩)

def ofList (list : List α) : OrderedSet α :=
  list.foldr insert empty

end OrderedSet

end Timeshare
