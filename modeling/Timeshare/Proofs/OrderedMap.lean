import Mathlib.Data.List.Nodup
import Timeshare.Collections.OrderedMap

/-!
# What ordered maps find

What the operations on ordered maps do to the value of each key.  A map is determined by the values
that it finds.
-/

namespace Timeshare

universe u v

namespace OrderedMap

variable {α : Type u} {β : Type v} [Ranked α] {map : OrderedMap α β} {key other : α} {value : β}

/-- No two entries have the same key. -/
theorem eq_of_rank_eq {first second : α × β} (member : first ∈ map.entries)
    (memberSecond : second ∈ map.entries) (same : Ranked.rank first.1 = Ranked.rank second.1) :
    first = second := by
  have distinct : (map.entries.map fun entry => Ranked.rank entry.1).Nodup :=
    List.pairwise_map.mpr (map.ascending.imp Nat.ne_of_lt)
  exact List.inj_on_of_nodup_map distinct member memberSecond same

theorem mem_entries_iff : (key, value) ∈ map.entries ↔ map.lookup? key = some value := by
  rw [lookup?, Option.map_eq_some_iff]
  constructor
  · intro member
    cases found : map.entries.find? fun entry => Ranked.rank entry.1 == Ranked.rank key with
    | none => simpa using List.find?_eq_none.mp found _ member
    | some entry =>
        have same : Ranked.rank entry.1 = Ranked.rank key := by simpa using List.find?_some found
        have only := eq_of_rank_eq (List.mem_of_find?_eq_some found) member same
        exact ⟨entry, rfl, congrArg Prod.snd only⟩
  · rintro ⟨⟨first, second⟩, found, rfl⟩
    have same : Ranked.rank first = Ranked.rank key := by simpa using List.find?_some found
    obtain rfl := Ranked.rank_injective same
    exact List.mem_of_find?_eq_some found

/-- Maps that find the same values are the same. -/
theorem ext_lookup? {first second : OrderedMap α β}
    (same : ∀ key, first.lookup? key = second.lookup? key) : first = second := by
  have distinct (map : OrderedMap α β) : map.entries.Nodup := by
    refine map.ascending.imp ?_
    rintro entry _ below rfl
    exact Nat.lt_irrefl _ below
  have order : first.entries.Perm second.entries := by
    refine (List.perm_ext_iff_of_nodup (distinct first) (distinct second)).mpr ?_
    rintro ⟨key, value⟩
    rw [mem_entries_iff, mem_entries_iff, same]
  have equal : first.entries = second.entries := by
    refine order.eq_of_pairwise ?_ first.ascending second.ascending
    intro entry other _ _ below above
    exact absurd above (Nat.lt_asymm below)
  cases first
  cases second
  cases equal
  rfl

@[simp]
theorem lookup?_empty (key : α) : (empty : OrderedMap α β).lookup? key = none := rfl

theorem mem_keys_iff : key ∈ map.keys ↔ ∃ value, map.lookup? key = some value := by
  simp only [keys, List.mem_map, ← mem_entries_iff]
  constructor
  · rintro ⟨⟨_, value⟩, member, rfl⟩
    exact ⟨value, member⟩
  · rintro ⟨value, member⟩
    exact ⟨(key, value), member, rfl⟩

theorem keys_ascending (map : OrderedMap α β) :
    map.keys.Pairwise fun first second => Ranked.rank first < Ranked.rank second :=
  List.pairwise_map.mpr map.ascending

variable [DecidableEq α]

/-- Giving a key a value changes what is found for it and for no other. -/
@[simp]
theorem lookup?_insert (key : α) (value : β) (map : OrderedMap α β) (other : α) :
    (map.insert key value).lookup? other = if other = key then some value else map.lookup? other := by
  apply Option.ext
  intro found
  rw [← mem_entries_iff]
  simp only [insert, List.mem_append, List.mem_cons, List.mem_filter, decide_eq_true_eq,
    mem_entries_iff, Prod.mk.injEq]
  by_cases same : other = key
  · simp [same, eq_comm]
  · have different : Ranked.rank other ≠ Ranked.rank key := fun equal =>
      same (Ranked.rank_injective equal)
    rw [if_neg same]
    grind

@[simp]
theorem lookup?_erase (key : α) (map : OrderedMap α β) (other : α) :
    (map.erase key).lookup? other = if other = key then none else map.lookup? other := by
  apply Option.ext
  intro found
  rw [← mem_entries_iff]
  simp only [erase, List.mem_filter, bne_iff_ne, mem_entries_iff]
  by_cases same : other = key
  · simp [same]
  · have different : Ranked.rank other ≠ Ranked.rank key := fun equal =>
      same (Ranked.rank_injective equal)
    simp [same, different]

end OrderedMap

end Timeshare
