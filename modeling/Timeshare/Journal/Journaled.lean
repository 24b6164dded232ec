import Timeshare.Journal.Event

/-!
# Journaled computations

A computation that yields a value and the events to be observed while it runs, in order.  The value
of a sequence of such computations is that of the computations without their events: `value_pure`,
`value_bind` and `value_map` let a proof about values leave the events aside.
-/

namespace Timeshare

universe u v

/-- A value and the events observed on the way to it. -/
structure Journaled (α : Type u) : Type u where
  value : α
  events : List Event

namespace Journaled

instance : Monad Journaled where
  pure value := ⟨value, []⟩
  bind first next :=
    let second := next first.value
    ⟨second.value, first.events ++ second.events⟩

/-- Makes events observable. -/
def emit (events : List Event) : Journaled PUnit :=
  ⟨⟨⟩, events⟩

def tell (note : Note) : Journaled PUnit :=
  emit [.note note]

variable {α β : Type u}

@[simp] theorem value_pure (value : α) : (pure value : Journaled α).value = value := rfl

@[simp] theorem events_pure (value : α) : (pure value : Journaled α).events = [] := rfl

@[simp] theorem value_bind (first : Journaled α) (next : α → Journaled β) :
    (first >>= next).value = (next first.value).value := rfl

@[simp] theorem events_bind (first : Journaled α) (next : α → Journaled β) :
    (first >>= next).events = first.events ++ (next first.value).events := rfl

@[simp] theorem value_map (f : α → β) (computation : Journaled α) :
    (f <$> computation).value = f computation.value := rfl

@[simp] theorem value_emit (events : List Event) : (emit events).value = ⟨⟩ := rfl

@[simp] theorem events_emit (events : List Event) : (emit events).events = events := rfl

@[simp] theorem value_tell (note : Note) : (tell note).value = ⟨⟩ := rfl

@[simp] theorem events_tell (note : Note) : (tell note).events = [.note note] := rfl

theorem ext {first second : Journaled α} (values : first.value = second.value)
    (events : first.events = second.events) : first = second := by
  cases first
  cases second
  cases values
  cases events
  rfl

instance : LawfulMonad Journaled :=
  LawfulMonad.mk' Journaled
    (fun computation => ext rfl (List.append_nil computation.events))
    (fun _ _ => rfl)
    (fun first _ _ => ext rfl (List.append_assoc first.events _ _))
    (fun _ _ => rfl)
    (fun _ _ => rfl)

end Journaled

end Timeshare
