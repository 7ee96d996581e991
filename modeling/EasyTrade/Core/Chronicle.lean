import Mathlib

/-!
# Chronicles

A chronicle is a list of events that only ever grows at its end.  A statement about
each event and what has happened before it is checked once for each new event.
-/

namespace EasyTrade

variable {α : Type} {P : List α → α → Prop} {history : List α} {event : α}

/-- `P` holds between every event and the events before it. -/
def Throughout (P : List α → α → Prop) (history : List α) : Prop :=
  ∀ before event after, history = before ++ event :: after → P before event

theorem throughout_nil : Throughout P [] := by
  intro before event after hsplit
  simp at hsplit

theorem Throughout.concat (hhistory : Throughout P history) (hevent : P history event) :
    Throughout P (history ++ [event]) := by
  intro before other after hsplit
  rcases List.eq_nil_or_concat after with rfl | ⟨init, last, rfl⟩
  · obtain ⟨rfl, hother⟩ := List.append_inj' hsplit rfl
    cases hother
    exact hevent
  · rw [List.concat_eq_append, ← List.cons_append, ← List.append_assoc] at hsplit
    exact hhistory before other init (List.append_inj' hsplit rfl).1

end EasyTrade
