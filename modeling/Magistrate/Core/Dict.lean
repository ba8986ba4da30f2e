import Magistrate.Core.Table
import Mathlib.Data.List.Induction

/-!
# Tables that are written by key

Writing a row puts it in the place of the one with its key, or last. So a table
is also an insertion-ordered dictionary, and one that is built from a list holds
the last row of every key.
-/

namespace Magistrate.Table

variable {ρ κ : Type*} {key : ρ → κ} [DecidableEq κ]

/-- `d[key r] = r`, and an upsert that sets every column: a row takes the place of the one with its
key, or comes last. -/
def put (t : Table key) (r : ρ) : Table key :=
  if h : key r ∈ t.rows.map key then
    ⟨t.rows.map fun s => if key s = key r then r else s, by
      have he : (t.rows.map fun s => if key s = key r then r else s).map key = t.rows.map key := by
        rw [List.map_map]
        refine List.map_congr_left fun s _ => ?_
        by_cases hs : key s = key r <;> simp [hs]
      exact he ▸ t.unique⟩
  else t.insertOrIgnore r

/-- A row that was put is found, and no other key finds anything else. -/
theorem find?_put (t : Table key) (r : ρ) (k : κ) :
    (t.put r).find? k = if key r = k then some r else t.find? k := by
  unfold put
  split
  · next h =>
    obtain ⟨old, hold, hkey⟩ := List.mem_map.mp h
    by_cases hk : key r = k
    · rw [if_pos hk, find?_eq_some_iff]
      exact ⟨List.mem_map.mpr ⟨old, hold, if_pos hkey⟩, hk⟩
    · rw [if_neg hk]
      simp only [find?, List.find?_map]
      have hp : ((fun s => decide (key s = k)) ∘ fun s => if key s = key r then r else s) =
          fun s => decide (key s = k) := by
        funext s
        by_cases hs : key s = key r <;> simp [hs]
      rw [hp]
      cases hx : t.rows.find? fun s => decide (key s = k) with
      | none => rfl
      | some x =>
        have hxk : key x = k := by simpa using List.find?_some hx
        have hne : ¬key x = key r := fun he => hk (he.symm.trans hxk)
        simp [hne]
  · next h =>
    rw [find?_insertOrIgnore]
    have hfree : t.find? (key r) = none := not_not.mp (mt mem_keys_iff.mpr h)
    by_cases hk : key r = k
    · rw [if_pos hk, ← hk, hfree, Option.none_or, if_pos rfl]
    · rw [if_neg hk, if_neg hk, Option.or_none]

/-- A row after another one was put is that one, or an old one of another key. -/
theorem mem_put {t : Table key} {r s : ρ} :
    s ∈ (t.put r).rows ↔ s = r ∨ s ∈ t.rows ∧ key s ≠ key r := by
  have hfound : s ∈ (t.put r).rows ↔ (t.put r).find? (key s) = some s :=
    ⟨find?_of_mem, fun h => (mem_of_find? h).1⟩
  rw [hfound, find?_put]
  split
  · next h =>
    constructor
    · intro hs
      exact .inl (Option.some.inj hs).symm
    · rintro (rfl | ⟨-, hne⟩)
      · rfl
      · exact absurd h.symm hne
  · next h =>
    constructor
    · intro hs
      exact .inr ⟨(mem_of_find? hs).1, fun he => h he.symm⟩
    · rintro (rfl | ⟨hs, -⟩)
      · exact absurd rfl h
      · exact find?_of_mem hs

/-- What is written row by row was there before, or is the last row of its key. -/
theorem find?_foldl_put (rows : List ρ) (t : Table key) (k : κ) :
    (rows.foldl put t).find? k = (rows.reverse.find? fun r => key r = k).or (t.find? k) := by
  induction rows using List.reverseRecOn with
  | nil => rfl
  | append_singleton rows r ih =>
    rw [List.foldl_concat, find?_put, List.reverse_append, List.reverse_singleton,
      List.singleton_append, List.find?_cons, ih]
    by_cases h : key r = k <;> simp [h]

/-- The last row of a key among those that meet a condition is its row, if that meets it. -/
theorem find?_reverse_filter (t : Table key) (p : ρ → Bool) (k : κ) :
    (t.rows.filter p).reverse.find? (fun r => key r = k) = (t.find? k).filter p := by
  have hunique : ((t.rows.filter p).reverse.map key).Nodup := by
    rw [List.map_reverse, List.nodup_reverse]
    exact t.unique.sublist (List.filter_sublist.map key)
  refine Option.ext fun r => ?_
  rw [Option.filter_eq_some_iff]
  refine (find?_eq_some_iff (t := ⟨_, hunique⟩)).trans ?_
  rw [List.mem_reverse, List.mem_filter, find?_eq_some_iff]
  exact ⟨fun h => ⟨⟨h.1.1, h.2⟩, h.1.2⟩, fun h => ⟨⟨h.1.1, h.2⟩, h.1.2⟩⟩

/-- The rows that meet a condition. -/
def filter (t : Table key) (p : ρ → Bool) : Table key :=
  ⟨t.rows.filter p, t.unique.sublist (List.filter_sublist.map key)⟩

/-- A table that is written row by row. -/
def ofList (rows : List ρ) : Table key := rows.foldl put empty

/-- A key finds its last row. -/
theorem find?_ofList (rows : List ρ) (k : κ) :
    (ofList rows : Table key).find? k = rows.reverse.find? fun r => key r = k := by
  rw [ofList, find?_foldl_put, find?_empty, Option.or_none]

/-- A row of a new key is put last. -/
theorem rows_put_of_free {t : Table key} {r : ρ} (h : t.find? (key r) = none) :
    (t.put r).rows = t.rows ++ [r] := by
  have hfree : key r ∉ t.rows.map key := fun hmem => mem_keys_iff.mp hmem h
  rw [put, dif_neg hfree, rows_insertOrIgnore h]

/-- Rows of distinct keys are written as they are. -/
theorem rows_ofList {rows : List ρ} (h : (rows.map key).Nodup) :
    (ofList rows : Table key).rows = rows := by
  induction rows using List.reverseRecOn with
  | nil => rfl
  | append_singleton rows r ih =>
    rw [List.map_append, List.map_singleton, List.nodup_append] at h
    obtain ⟨hrows, -, hdisjoint⟩ := h
    have hfree : (ofList rows : Table key).find? (key r) = none := by
      refine find?_eq_none_iff.mpr fun s hs hkey => ?_
      rw [ih hrows] at hs
      exact hdisjoint _ (List.mem_map_of_mem hs) _ (List.mem_singleton_self _) hkey
    have hput : (ofList (rows ++ [r]) : Table key) = (ofList rows).put r := List.foldl_concat ..
    rw [hput, rows_put_of_free hfree, ih hrows]

end Magistrate.Table
