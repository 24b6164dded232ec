import Timeshare.Collections.OrderedSet

/-!
# Ordered maps

A finite map kept as its entries in the ascending order of their keys.  Two maps that find the same
values are equal.
-/

namespace Timeshare

universe u v

/-- A finite map as the list of its entries in strictly ascending order of the keys. -/
structure OrderedMap (α : Type u) (β : Type v) [Ranked α] where
  entries : List (α × β)
  /-- The keys ascend strictly, so none occurs twice. -/
  ascending : entries.Pairwise fun first second => Ranked.rank first.1 < Ranked.rank second.1
deriving DecidableEq

namespace OrderedMap

variable {α : Type u} {β : Type v} [Ranked α]

def empty : OrderedMap α β :=
  ⟨[], List.Pairwise.nil⟩

/-- The value of a key. -/
def lookup? (map : OrderedMap α β) (key : α) : Option β :=
  (map.entries.find? fun entry => Ranked.rank entry.1 == Ranked.rank key).map Prod.snd

/-- Gives a key a value, whether or not it had one. -/
def insert (key : α) (value : β) (map : OrderedMap α β) : OrderedMap α β where
  entries :=
    (map.entries.filter fun entry => Ranked.rank entry.1 < Ranked.rank key) ++ (key, value) ::
      map.entries.filter fun entry => Ranked.rank key < Ranked.rank entry.1
  ascending := by
    refine List.pairwise_append.mpr ⟨map.ascending.sublist List.filter_sublist,
      List.pairwise_cons.mpr ⟨?_, map.ascending.sublist List.filter_sublist⟩, ?_⟩
    · intro entry member
      exact of_decide_eq_true (List.mem_filter.mp member).2
    · intro entry member later among
      have below := of_decide_eq_true (List.mem_filter.mp member).2
      rcases List.mem_cons.mp among with rfl | above
      · exact below
      · exact Nat.lt_trans below (of_decide_eq_true (List.mem_filter.mp above).2)

def erase (key : α) (map : OrderedMap α β) : OrderedMap α β :=
  ⟨map.entries.filter fun entry => Ranked.rank entry.1 != Ranked.rank key,
    map.ascending.sublist List.filter_sublist⟩

def contains (map : OrderedMap α β) (key : α) : Bool :=
  (map.lookup? key).isSome

/-- The keys in ascending order. -/
def keys (map : OrderedMap α β) : List α :=
  map.entries.map Prod.fst

end OrderedMap

end Timeshare
