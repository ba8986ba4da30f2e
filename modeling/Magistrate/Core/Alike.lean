import Mathlib.Data.List.Forall2
import Magistrate.Core.Run
import Magistrate.Core.Table

/-!
# Alike tables and agreeing computations

Two tables are alike when they agree, row by row, on what a view shows of a row; what
the view hides then decides nothing. Two fallible computations agree when they raise
the same or return related values, and this is kept from part to part.
-/

namespace Magistrate

universe u

section Agree

variable {ε : Type*} {α β γ δ : Type u} {R : α → β → Prop} {S : γ → δ → Prop}

/-- Two computations raise the same or return related values. -/
inductive Agree (R : α → β → Prop) : Except ε α → Except ε β → Prop
  | ok {a : α} {b : β} (h : R a b) : Agree R (.ok a) (.ok b)
  | error (e : ε) : Agree R (.error e) (.error e)

namespace Agree

/-- Agreement is kept when both computations go on with agreeing ones. -/
theorem bind {x : Except ε α} {y : Except ε β} {f : α → Except ε γ} {g : β → Except ε δ}
    (h : Agree R x y) (hfg : ∀ a b, R a b → Agree S (f a) (g b)) :
    Agree S (x >>= f) (y >>= g) := by
  cases h with
  | ok h => exact hfg _ _ h
  | error e => exact .error e

theorem raiseIf {c d : Prop} [Decidable c] [Decidable d] (h : c ↔ d) (e : ε) :
    Agree Eq (raiseIf c e) (raiseIf d e) := by
  by_cases hc : c
  · rw [raiseIf_error hc, raiseIf_error (h.mp hc)]
    exact .error e
  · rw [raiseIf_ok hc, raiseIf_ok fun hd => hc (h.mpr hd)]
    exact .ok rfl

theorem orRaise {x : Option α} {y : Option β} (h : Option.Rel R x y) (e : ε) :
    Agree R (orRaise x e) (orRaise y e) := by
  cases h with
  | some h => exact .ok h
  | none => exact .error e

theorem mapError {ε' : Type*} {x : Except ε α} {y : Except ε β} (h : Agree R x y) (f : ε → ε') :
    Agree R (x.mapError f) (y.mapError f) := by
  cases h with
  | ok h => exact .ok h
  | error e => exact .error _

/-- What one computation returns, the other one returns up to the relation. -/
theorem of_ok {x : Except ε α} {y : Except ε β} (h : Agree R x y) {a : α} (hx : x = .ok a) :
    ∃ b, y = .ok b ∧ R a b := by
  cases h with
  | ok h => exact ⟨_, rfl, Except.ok.inj hx ▸ h⟩
  | error e => cases hx

end Agree

end Agree

namespace Table

variable {ρ κ : Type*} {key : ρ → κ} {view : ρ → ρ} {t u : Table key}

/-- Two tables agree, row by row, on what a view shows of a row. -/
def Alike (view : ρ → ρ) (t u : Table key) : Prop :=
  List.Forall₂ (fun r s => view r = view s) t.rows u.rows

namespace Alike

theorem refl (view : ρ → ρ) (t : Table key) : Alike view t t :=
  List.forall₂_same.mpr fun _ _ => rfl

/-- What the view shows decides whether a row is there. -/
theorem exists_iff (h : Alike view t u) {P Q : ρ → Prop}
    (hPQ : ∀ r s, view r = view s → (P r ↔ Q s)) : (∃ r ∈ t.rows, P r) ↔ ∃ s ∈ u.rows, Q s := by
  revert h
  rw [Alike]
  generalize t.rows = l, u.rows = m
  intro h
  induction h with
  | nil => simp
  | cons hrow _ ih => simp only [List.mem_cons, exists_eq_or_imp, hPQ _ _ hrow, ih]

/-- What the view shows of the rows that meet a condition is the same. -/
theorem map_filter_eq {β : Type*} (h : Alike view t u) {p : ρ → Bool} {g : ρ → β}
    (hp : ∀ r s, view r = view s → p r = p s) (hg : ∀ r s, view r = view s → g r = g s) :
    (t.rows.filter p).map g = (u.rows.filter p).map g := by
  revert h
  rw [Alike]
  generalize t.rows = l, u.rows = m
  intro h
  induction h with
  | nil => rfl
  | @cons r s _ _ hrow _ ih =>
    rw [List.filter_cons, List.filter_cons, hp r s hrow]
    split
    · rw [List.map_cons, List.map_cons, hg r s hrow, ih]
    · exact ih

variable [DecidableEq κ]

/-- What is found under a key is alike. -/
theorem find? (h : Alike view t u) (hkey : ∀ r, key (view r) = key r) (k : κ) :
    Option.Rel (fun r s => view r = view s) (t.find? k) (u.find? k) := by
  revert h
  rw [Alike, Table.find?, Table.find?]
  generalize t.rows = l, u.rows = m
  intro h
  induction h with
  | nil => exact .none
  | @cons r s _ _ hrow _ ih =>
    have hkeys : key r = key s := by rw [← hkey r, hrow, hkey s]
    rw [List.find?_cons, List.find?_cons, hkeys]
    split
    · exact .some hrow
    · exact ih

/-- Alike rows are updated to alike rows. -/
theorem update (h : Alike view t u) (hkey : ∀ r, key (view r) = key r) (k : κ) {f g : ρ → ρ}
    (hf : ∀ r, key (f r) = key r) (hg : ∀ r, key (g r) = key r)
    (hfg : ∀ r s, view r = view s → view (f r) = view (g s)) :
    Alike view (t.update k f hf) (u.update k g hg) := by
  rw [Alike, rows_update, rows_update, List.forall₂_map_left_iff, List.forall₂_map_right_iff]
  refine List.Forall₂.imp (fun r s hrow => ?_) h
  have hkeys : key r = key s := by rw [← hkey r, hrow, hkey s]
  rw [hkeys]
  split
  · exact hfg r s hrow
  · exact hrow

/-- Alike rows are inserted alike. -/
theorem insert (h : Alike view t u) (hkey : ∀ r, key (view r) = key r) {r s : ρ}
    (hrow : view r = view s) : Alike view (t.insertOrIgnore r) (u.insertOrIgnore s) := by
  have hkeys : key r = key s := by rw [← hkey r, hrow, hkey s]
  have hnone : t.find? (key r) = none ↔ u.find? (key r) = none := by
    have hfound := h.find? hkey (key r)
    generalize t.find? (key r) = x, u.find? (key r) = y at hfound ⊢
    cases hfound <;> simp
  by_cases ht : t.find? (key r) = none
  · rw [Alike, rows_insertOrIgnore ht, rows_insertOrIgnore (hkeys ▸ hnone.mp ht)]
    exact List.rel_append h (.cons hrow .nil)
  · rw [insertOrIgnore_of_ne_none ht,
      insertOrIgnore_of_ne_none fun hu => ht (hnone.mpr (hkeys ▸ hu))]
    exact h

end Alike

end Table

end Magistrate
