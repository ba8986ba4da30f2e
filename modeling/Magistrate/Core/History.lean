import Mathlib.Data.List.Basic

/-!
# Histories

A history lists what happened, oldest first. Where every event is justified by
the events before it, a later event keeps the history so if it is justified.
-/

namespace Magistrate

/-- Every event of a history meets a condition on the events before it. -/
def Justified {ε : Type*} (P : List ε → ε → Prop) (history : List ε) : Prop :=
  ∀ before event after, history = before ++ event :: after → P before event

namespace Justified

variable {ε : Type*} {P : List ε → ε → Prop} {history : List ε} {event : ε}

theorem nil : Justified P [] := by
  intro before event after h
  simp at h

/-- The events of a history with one more event are those before it, and the last one. -/
theorem concat (h : Justified P history) (hevent : P history event) :
    Justified P (history ++ [event]) := by
  intro before last after hsplit
  rcases List.eq_nil_or_concat after with rfl | ⟨after, final, rfl⟩
  · obtain ⟨rfl, hlast⟩ := List.append_inj' hsplit rfl
    obtain rfl := List.singleton_inj.mp hlast
    exact hevent
  · rw [List.concat_eq_append, ← List.cons_append, ← List.append_assoc] at hsplit
    obtain ⟨rfl, -⟩ := List.append_inj' hsplit rfl
    exact h before last after rfl

end Justified

end Magistrate
