import Mathlib.Algebra.BigOperators.Group.List.Basic
import Mathlib.Algebra.Ring.Nat

/-!
# Greedy selection from the end of a list

Items are taken from the last one to the first one, each of them if it fits beside
those that were taken after it. What is taken of the end of a list does not depend on
what stands before it.
-/

namespace Magistrate

variable {α β : Type*} (size : α → ℕ) (limit : ℕ)

/-- The size of all items of a list. -/
def totalSize (items : List α) : ℕ := (items.map size).sum

/-- The items that are taken, from the last one on. -/
def takeFitting : List α → List α
  | [] => []
  | item :: rest =>
    if totalSize size (takeFitting rest) + size item ≤ limit then item :: takeFitting rest
    else takeFitting rest

variable {size limit}

/-- The items that are taken stand in their order. -/
theorem takeFitting_sublist (items : List α) : (takeFitting size limit items).Sublist items := by
  induction items with
  | nil => exact List.Sublist.refl _
  | cons item rest ih =>
    rw [takeFitting]
    split
    · exact ih.cons_cons item
    · exact ih.cons item

/-- The items that are taken fit together. -/
theorem totalSize_takeFitting (items : List α) :
    totalSize size (takeFitting size limit items) ≤ limit := by
  induction items with
  | nil => exact Nat.zero_le _
  | cons item rest ih =>
    rw [takeFitting]
    split
    · next h =>
      rw [totalSize, List.map_cons, List.sum_cons, ← totalSize]
      omega
    · exact ih

/-- What is taken of the end of a list is taken of it in the whole list. -/
theorem takeFitting_append (size : α → ℕ) (limit : ℕ) (older newer : List α) :
    ∃ before, before.Sublist older ∧
      takeFitting size limit (older ++ newer) = before ++ takeFitting size limit newer := by
  induction older with
  | nil => exact ⟨[], List.Sublist.refl _, rfl⟩
  | cons item older ih =>
    obtain ⟨before, hbefore, heq⟩ := ih
    rw [List.cons_append, takeFitting, heq]
    split
    · exact ⟨item :: before, hbefore.cons_cons item, rfl⟩
    · exact ⟨before, hbefore.cons item, rfl⟩

/-- A loop from the last item to the first one, which appends what fits and adds up its size, takes
the items of the greedy selection, the last one first. -/
theorem foldl_takeFitting {admits : α → Bool} {make : α → β}
    {step : List β × ℕ → α → List β × ℕ}
    (hskip : ∀ taken used item, admits item = false →
      step (taken, used) item = (taken, used))
    (hfits : ∀ taken used item, admits item = true → used + size item ≤ limit →
      step (taken, used) item = (taken ++ [make item], used + size item))
    (hlarge : ∀ taken used item, admits item = true → ¬used + size item ≤ limit →
      step (taken, used) item = (taken, used)) (items : List α) :
    items.reverse.foldl step ([], 0) =
      (((takeFitting size limit (items.filter admits)).map make).reverse,
        totalSize size (takeFitting size limit (items.filter admits))) := by
  induction items with
  | nil => rfl
  | cons item rest ih =>
    rw [List.reverse_cons, List.foldl_append, ih, List.foldl_cons, List.foldl_nil]
    by_cases h : admits item = true
    · rw [List.filter_cons_of_pos h, takeFitting]
      by_cases hfit : totalSize size (takeFitting size limit (rest.filter admits)) +
        size item ≤ limit
      · rw [hfits _ _ _ h hfit, if_pos hfit, List.map_cons, List.reverse_cons]
        simp [totalSize, Nat.add_comm]
      · rw [hlarge _ _ _ h hfit, if_neg hfit]
    · rw [hskip _ _ _ (Bool.eq_false_iff.mpr h), List.filter_cons_of_neg h]

end Magistrate
