import Mathlib.Data.List.Nodup
import Mathlib.Algebra.BigOperators.Group.List.Basic
import Mathlib.Algebra.Order.BigOperators.Group.List
import Mathlib.Tactic.Abel

/-!
# Keyed tables

A table keeps its rows in insertion order and carries the uniqueness of their
primary keys, so a state with two rows of one key cannot be built. Lookups,
insertions that ignore a taken key, and updates that keep the key are the only
ways to change it; sums over the rows move by exactly the changed row.
-/

namespace Magistrate

/-- Rows in insertion order with pairwise distinct primary keys. -/
structure Table {ρ κ : Type*} (key : ρ → κ) where
  /-- The stored rows, oldest first. -/
  rows : List ρ
  /-- No two rows share their primary key. -/
  unique : (rows.map key).Nodup

namespace Table

variable {ρ κ : Type*} {key : ρ → κ}

/-- Two tables with the same rows are the same table. -/
theorem ext_rows {t u : Table key} (h : t.rows = u.rows) : t = u := by
  cases t; cases u; simpa using h

instance [DecidableEq ρ] : DecidableEq (Table key) := fun t u =>
  decidable_of_iff (t.rows = u.rows) ⟨ext_rows, congrArg rows⟩

/-- The table without rows. -/
def empty : Table key := ⟨[], List.nodup_nil⟩

@[simp] theorem rows_empty : (empty : Table key).rows = [] := rfl

variable [DecidableEq κ]

/-- The row stored under a primary key. -/
def find? (t : Table key) (k : κ) : Option ρ := t.rows.find? fun r => key r = k

@[simp] theorem find?_empty (k : κ) : (empty : Table key).find? k = none := rfl

/-- A found row is stored and carries the key. -/
theorem mem_of_find? {t : Table key} {k : κ} {r : ρ} (h : t.find? k = some r) :
    r ∈ t.rows ∧ key r = k :=
  ⟨List.mem_of_find?_eq_some h, by simpa using List.find?_some h⟩

/-- Distinct keys make a stored row the one its key finds. -/
theorem find?_of_mem {t : Table key} {r : ρ} (h : r ∈ t.rows) : t.find? (key r) = some r := by
  obtain ⟨rows, unique⟩ := t
  simp only [find?] at h ⊢
  induction rows with
  | nil => simp at h
  | cons x xs ih =>
    simp only [List.map_cons, List.nodup_cons] at unique
    rcases List.mem_cons.mp h with rfl | hx
    · simp
    · have hne : key x ≠ key r := fun he => unique.1 (he ▸ List.mem_map_of_mem hx)
      simp only [List.find?_cons, hne, decide_false]
      exact ih unique.2 hx

/-- Lookup by key is membership of a row with that key. -/
theorem find?_eq_some_iff {t : Table key} {k : κ} {r : ρ} :
    t.find? k = some r ↔ r ∈ t.rows ∧ key r = k :=
  ⟨mem_of_find?, fun ⟨hm, hk⟩ => hk ▸ find?_of_mem hm⟩

/-- Nothing is found exactly when no stored row carries the key. -/
theorem find?_eq_none_iff {t : Table key} {k : κ} :
    t.find? k = none ↔ ∀ r ∈ t.rows, key r ≠ k := by
  simp [find?]

/-- Rows with one key are one row. -/
theorem eq_of_mem {t : Table key} {r s : ρ} (hr : r ∈ t.rows) (hs : s ∈ t.rows)
    (h : key r = key s) : r = s := by
  have he := find?_of_mem hr
  rw [h, find?_of_mem hs] at he
  exact (Option.some.inj he).symm

/-- `INSERT OR IGNORE`: a row whose primary key is taken is dropped. -/
def insertOrIgnore (t : Table key) (r : ρ) : Table key :=
  if h : key r ∈ t.rows.map key then t
  else ⟨t.rows ++ [r], by
    rw [List.map_append, List.map_singleton, List.nodup_append_comm]
    exact List.nodup_cons.mpr ⟨h, t.unique⟩⟩

theorem mem_keys_iff {t : Table key} {k : κ} : k ∈ t.rows.map key ↔ t.find? k ≠ none := by
  simp [find?_eq_none_iff]

/-- A free key is inserted last. -/
theorem rows_insertOrIgnore {t : Table key} {r : ρ} (h : t.find? (key r) = none) :
    (t.insertOrIgnore r).rows = t.rows ++ [r] := by
  have hk : key r ∉ t.rows.map key := fun hm => mem_keys_iff.mp hm h
  simp only [insertOrIgnore, hk, dite_false]

/-- A taken key leaves the table as it was. -/
theorem insertOrIgnore_of_ne_none {t : Table key} {r : ρ} (h : t.find? (key r) ≠ none) :
    t.insertOrIgnore r = t := by
  simp only [insertOrIgnore, mem_keys_iff.mpr h, dite_true]

/-- After an insertion the new key finds the old row if there was one, the new row otherwise. -/
theorem find?_insertOrIgnore (t : Table key) (r : ρ) (k : κ) :
    (t.insertOrIgnore r).find? k =
      (t.find? k).or (if key r = k then some r else none) := by
  by_cases h : t.find? (key r) = none
  · rw [find?, rows_insertOrIgnore h, List.find?_append, find?]
    congr 1
    by_cases hk : key r = k <;> simp [hk]
  · rw [insertOrIgnore_of_ne_none h]
    by_cases hk : key r = k
    · obtain ⟨x, hx⟩ := Option.ne_none_iff_exists'.mp (hk ▸ h)
      simp [hx]
    · simp [hk]

/-- An insertion only ever adds its own row. -/
theorem mem_insertOrIgnore {t : Table key} {r s : ρ} (h : s ∈ (t.insertOrIgnore r).rows) :
    s ∈ t.rows ∨ t.find? (key r) = none ∧ s = r := by
  by_cases hr : t.find? (key r) = none
  · rw [rows_insertOrIgnore hr] at h
    rcases List.mem_append.mp h with h | h
    · exact .inl h
    · exact .inr ⟨hr, List.mem_singleton.mp h⟩
  · rw [insertOrIgnore_of_ne_none hr] at h
    exact .inl h

/-- Stored rows survive an insertion. -/
theorem mem_insertOrIgnore_of_mem {t : Table key} {r s : ρ} (h : s ∈ t.rows) :
    s ∈ (t.insertOrIgnore r).rows := by
  by_cases hr : t.find? (key r) = none
  · rw [rows_insertOrIgnore hr]
    exact List.mem_append_left _ h
  · rwa [insertOrIgnore_of_ne_none hr]

/-- A row with a free key is stored by its insertion. -/
theorem mem_insertOrIgnore_self {t : Table key} {r : ρ} (h : t.find? (key r) = none) :
    r ∈ (t.insertOrIgnore r).rows := by
  rw [rows_insertOrIgnore h]
  exact List.mem_append_right _ (List.mem_singleton_self r)

/-- `UPDATE ... WHERE key = k`: the row under a key is replaced, its key kept. -/
def update (t : Table key) (k : κ) (f : ρ → ρ) (hf : ∀ r, key (f r) = key r := by intro; rfl) :
    Table key :=
  ⟨t.rows.map fun r => if key r = k then f r else r, by
    have he : (t.rows.map fun r => if key r = k then f r else r).map key = t.rows.map key := by
      rw [List.map_map]
      refine List.map_congr_left fun r _ => ?_
      by_cases h : key r = k <;> simp [h, hf]
    exact he ▸ t.unique⟩

variable {f : ρ → ρ} {hf : ∀ r, key (f r) = key r}

theorem rows_update (t : Table key) (k : κ) :
    (t.update k f hf).rows = t.rows.map fun r => if key r = k then f r else r := rfl

/-- The updated table under any key. -/
theorem find?_update (t : Table key) (k l : κ) :
    (t.update k f hf).find? l = (t.find? l).map fun r => if l = k then f r else r := by
  simp only [find?, rows_update, List.find?_map]
  have hp : ((fun r => decide (key r = l)) ∘ fun r => if key r = k then f r else r) =
      fun r => decide (key r = l) := by
    funext r
    by_cases h : key r = k <;> simp [h, hf]
  rw [hp]
  cases hx : t.rows.find? fun r => decide (key r = l) with
  | none => rfl
  | some x =>
    have hk : key x = l := by simpa using List.find?_some hx
    simp [hk]

theorem find?_update_self (t : Table key) (k : κ) :
    (t.update k f hf).find? k = (t.find? k).map f := by
  simp [find?_update]

/-- A stored row is found updated. -/
theorem find?_update_of_some {t : Table key} {k : κ} {r : ρ} (h : t.find? k = some r)
    (hf : ∀ r, key (f r) = key r := by intro; rfl) :
    (t.update k f hf).find? k = some (f r) := by
  rw [find?_update_self, h, Option.map_some]

theorem find?_update_ne (t : Table key) {k l : κ} (h : l ≠ k) :
    (t.update k f hf).find? l = t.find? l := by
  simp [find?_update, h]

/-- A row of an updated table is an old row, replaced if it carries the updated key. -/
theorem mem_update {t : Table key} {k : κ} {s : ρ} :
    s ∈ (t.update k f hf).rows ↔ ∃ r ∈ t.rows, (if key r = k then f r else r) = s := by
  simp [rows_update]

/-- A stored row is there after an update, replaced if it carries the updated key. -/
theorem mem_update_of_mem (hf : ∀ r, key (f r) = key r) {t : Table key} {r : ρ}
    (h : r ∈ t.rows) (k : κ) :
    (if key r = k then f r else r) ∈ (t.update k f hf).rows :=
  List.mem_map_of_mem (f := fun r => if key r = k then f r else r) h

/-- `INSERT ... ON CONFLICT DO UPDATE`, as an insertion with an update after it: what is found under
any key. -/
theorem find?_upsert (t : Table key) (r : ρ) (k : κ) :
    ((t.insertOrIgnore r).update (key r) f hf).find? k =
      if k = key r then some (f ((t.find? k).getD r)) else t.find? k := by
  rw [find?_update, find?_insertOrIgnore]
  split
  · next h =>
    subst h
    cases t.find? (key r) <;> simp
  · next h =>
    cases hk : t.find? k <;> simp [Ne.symm h]

/-- A row after an upsert is an old row of another key, or the upserted one. -/
theorem mem_upsert {t : Table key} {r s : ρ}
    (h : s ∈ ((t.insertOrIgnore r).update (key r) f hf).rows) :
    s ∈ t.rows ∧ key s ≠ key r ∨ key s = key r ∧ s = f ((t.find? (key r)).getD r) := by
  have hfound := find?_of_mem h
  rw [find?_upsert] at hfound
  split at hfound
  · next hk =>
    refine .inr ⟨hk, ?_⟩
    rw [← hk]
    exact (Option.some.inj hfound).symm
  · next hk => exact .inl ⟨(mem_of_find? hfound).1, hk⟩

/-- `UPDATE ... WHERE p`: every row that meets a condition is replaced, its key kept. -/
def updateWhere (t : Table key) (p : ρ → Bool) (f : ρ → ρ)
    (hf : ∀ r, key (f r) = key r := by intro; rfl) : Table key :=
  ⟨t.rows.map fun r => if p r then f r else r, by
    have he : (t.rows.map fun r => if p r then f r else r).map key = t.rows.map key := by
      rw [List.map_map]
      refine List.map_congr_left fun r _ => ?_
      by_cases h : p r = true <;> simp [h, hf]
    exact he ▸ t.unique⟩

omit [DecidableEq κ] in
theorem rows_updateWhere (t : Table key) (p : ρ → Bool) :
    (t.updateWhere p f hf).rows = t.rows.map fun r => if p r then f r else r := rfl

omit [DecidableEq κ] in
/-- A row of a table updated by a condition is an old row, replaced if it meets the condition. -/
theorem mem_updateWhere {t : Table key} {p : ρ → Bool} {s : ρ} :
    s ∈ (t.updateWhere p f hf).rows ↔ ∃ r ∈ t.rows, (if p r then f r else r) = s := by
  simp [rows_updateWhere]

/-- A table updated by a condition under any key. -/
theorem find?_updateWhere (t : Table key) (p : ρ → Bool) (k : κ) :
    (t.updateWhere p f hf).find? k = (t.find? k).map fun r => if p r then f r else r := by
  simp only [find?, rows_updateWhere, List.find?_map]
  have hp : ((fun r => decide (key r = k)) ∘ fun r => if p r then f r else r) =
      fun r => decide (key r = k) := by
    funext r
    by_cases h : p r = true <;> simp [h, hf]
  rw [hp]

/-- An update moves the number of the rows that meet a condition by exactly the updated row. -/
theorem countP_update (p : ρ → Bool) {t : Table key} {k : κ} {r : ρ} (h : t.find? k = some r) :
    (t.update k f hf).rows.countP p + (p r).toNat = t.rows.countP p + (p (f r)).toNat := by
  obtain ⟨rows, unique⟩ := t
  obtain ⟨hm, rfl⟩ := mem_of_find? h
  clear h
  simp only [rows_update] at hm ⊢
  induction rows with
  | nil => simp at hm
  | cons x xs ih =>
    obtain ⟨hx, hxs⟩ := List.nodup_cons.mp unique
    rw [List.map_cons, List.countP_cons, List.countP_cons]
    rcases List.mem_cons.mp hm with rfl | hr
    · have hrest : (xs.map fun s => if key s = key r then f s else s) = xs := by
        refine (List.map_congr_left fun s hs => if_neg fun he => hx ?_).trans (List.map_id' xs)
        exact List.mem_map.mpr ⟨s, hs, he⟩
      rw [hrest, if_pos rfl]
      cases p r <;> cases p (f r) <;> simp
    · have hne : key x ≠ key r := fun he => hx (he ▸ List.mem_map_of_mem hr)
      have hle := ih hxs hr
      rw [if_neg hne]
      omega

/-- An update adds at most one row to those that meet a condition. -/
theorem countP_update_le (p : ρ → Bool) (t : Table key) (k : κ)
    (hf : ∀ r, key (f r) = key r := by intro; rfl) :
    (t.update k f hf).rows.countP p ≤ t.rows.countP p + 1 := by
  obtain ⟨rows, unique⟩ := t
  simp only [rows_update]
  induction rows with
  | nil => simp
  | cons x xs ih =>
    obtain ⟨hx, hxs⟩ := List.nodup_cons.mp unique
    rw [List.map_cons, List.countP_cons, List.countP_cons]
    by_cases hk : key x = k
    · have hrest : (xs.map fun r => if key r = k then f r else r) = xs := by
        refine (List.map_congr_left fun r hr => if_neg fun he => hx ?_).trans (List.map_id' xs)
        exact List.mem_map.mpr ⟨r, hr, he.trans hk.symm⟩
      rw [hrest]
      split <;> split <;> omega
    · have hle := ih hxs
      rw [if_neg hk]
      split <;> omega

omit [DecidableEq κ] in
/-- Updates that let no row meet a condition anew keep their number. -/
theorem countP_updateWhere_le {p q : ρ → Bool} {t : Table key}
    (h : ∀ r ∈ t.rows, q r = true → p (f r) = true → p r = true)
    (hf : ∀ r, key (f r) = key r := by intro; rfl) :
    (t.updateWhere q f hf).rows.countP p ≤ t.rows.countP p := by
  rw [rows_updateWhere, List.countP_map]
  refine List.countP_mono_left fun r hr hp => ?_
  by_cases hq : q r = true
  · simp only [Function.comp_apply, if_pos hq] at hp
    exact h r hr hq hp
  · simpa [hq] using hp

/-- An update that lets its row meet no condition anew keeps the number of those that do. -/
theorem countP_update_le_of {p : ρ → Bool} {t : Table key} {k : κ}
    (h : ∀ r, t.find? k = some r → p (f r) = true → p r = true)
    (hf : ∀ r, key (f r) = key r := by intro; rfl) :
    (t.update k f hf).rows.countP p ≤ t.rows.countP p := by
  rw [rows_update, List.countP_map]
  refine List.countP_mono_left fun r hr hp => ?_
  by_cases hk : key r = k
  · simp only [Function.comp_apply, if_pos hk] at hp
    exact h r (hk ▸ find?_of_mem hr) hp
  · simpa [hk] using hp

/-- Two updates that agree on the updated row are one. -/
theorem update_congr {g : ρ → ρ} {hg : ∀ r, key (g r) = key r} {t : Table key} {k : κ}
    (h : ∀ r, t.find? k = some r → f r = g r) : t.update k f hf = t.update k g hg := by
  refine ext_rows (List.map_congr_left fun r hr => ?_)
  by_cases hk : key r = k
  · rw [if_pos hk, if_pos hk]
    exact h r (hk ▸ find?_of_mem hr)
  · rw [if_neg hk, if_neg hk]

/-- Two updates under one key are one. -/
theorem update_update {g : ρ → ρ} {hg : ∀ r, key (g r) = key r} (t : Table key) (k : κ) :
    (t.update k f hf).update k g hg =
      t.update k (fun r => g (f r)) (fun r => (hg (f r)).trans (hf r)) := by
  refine ext_rows ?_
  simp only [rows_update, List.map_map]
  refine List.map_congr_left fun r _ => ?_
  by_cases h : key r = k <;> simp [h, hf]

/-- An update that keeps the updated row keeps the table. -/
theorem update_eq_self {t : Table key} {k : κ} (h : ∀ r, t.find? k = some r → f r = r) :
    t.update k f hf = t := by
  refine ext_rows ((List.map_congr_left fun r hr => ?_).trans (List.map_id _))
  by_cases hk : key r = k
  · rw [if_pos hk]
    exact h r (hk ▸ find?_of_mem hr)
  · exact if_neg hk

/-- An update is lost in one of every row that does not see it. -/
theorem updateWhere_update {g : ρ → ρ} {hg : ∀ r, key (g r) = key r} {t : Table key} {k : κ}
    (h : ∀ r, t.find? k = some r → g (f r) = g r) :
    (t.update k f hf).updateWhere (fun _ => true) g hg = t.updateWhere (fun _ => true) g hg := by
  refine ext_rows ?_
  simp only [rows_updateWhere, rows_update, List.map_map]
  refine List.map_congr_left fun r hr => ?_
  by_cases hk : key r = k
  · simpa [hk] using h r (hk ▸ find?_of_mem hr)
  · simp [hk]

/-- When no stored row is selected, at most the replaced row is. -/
theorem filterMap_update {β : Type*} (g : ρ → Option β) {t : Table key} {k : κ} {r : ρ}
    (h : t.find? k = some r) (hg : ∀ s ∈ t.rows, g s = none) :
    (t.update k f hf).rows.filterMap g = (g (f r)).toList := by
  obtain ⟨rows, unique⟩ := t
  obtain ⟨hm, rfl⟩ := mem_of_find? h
  clear h
  simp only [rows_update, List.filterMap_map] at hm hg ⊢
  induction rows with
  | nil => simp at hm
  | cons x xs ih =>
    simp only [List.map_cons, List.nodup_cons] at unique
    have hxs : ∀ s ∈ xs, g s = none := fun s hs => hg s (List.mem_cons_of_mem x hs)
    rcases List.mem_cons.mp hm with rfl | hx
    · have hrest : xs.filterMap (g ∘ fun s => if key s = key r then f s else s) = [] := by
        rw [List.filterMap_eq_nil_iff]
        intro s hs
        have hne : key s ≠ key r := fun he => unique.1 (he ▸ List.mem_map_of_mem hs)
        simp [hne, hxs s hs]
      rw [List.filterMap_cons, hrest]
      cases hfr : g (f r) <;> simp [hfr]
    · have hne : key x ≠ key r := fun he => unique.1 (he ▸ List.mem_map_of_mem hx)
      simpa [hne, hg x List.mem_cons_self] using ih unique.2 hxs hx

section Sum

variable {M : Type*} [AddCommGroup M]

/-- Replacing one stored row moves a sum over all rows by the difference of that row. -/
theorem sum_update (g : ρ → M) {t : Table key} {k : κ} {r : ρ} (h : t.find? k = some r) :
    ((t.update k f hf).rows.map g).sum = (t.rows.map g).sum - g r + g (f r) := by
  obtain ⟨rows, unique⟩ := t
  obtain ⟨hm, rfl⟩ := mem_of_find? h
  clear h
  simp only [rows_update, List.map_map] at hm ⊢
  induction rows with
  | nil => simp at hm
  | cons x xs ih =>
    simp only [List.map_cons, List.nodup_cons] at unique
    rcases List.mem_cons.mp hm with rfl | hx
    · have hsame : xs.map (g ∘ fun s => if key s = key r then f s else s) = xs.map g := by
        refine List.map_congr_left fun s hs => ?_
        have hne : key s ≠ key r := fun he => unique.1 (he ▸ List.mem_map_of_mem hs)
        simp [hne]
      simp only [List.map_cons, List.sum_cons, hsame, Function.comp_apply, if_true]
      abel
    · have hne : key x ≠ key r := fun he => unique.1 (he ▸ List.mem_map_of_mem hx)
      simp only [List.map_cons, List.sum_cons, Function.comp_apply, hne, if_false,
        ih unique.2 hx]
      abel

/-- An inserted row adds its own value to a sum over all rows. -/
theorem sum_insertOrIgnore (g : ρ → M) {t : Table key} {r : ρ} (h : t.find? (key r) = none) :
    ((t.insertOrIgnore r).rows.map g).sum = (t.rows.map g).sum + g r := by
  simp [rows_insertOrIgnore h]

end Sum

end Table

/-- A list without repetition whose members are all equal has at most one. -/
theorem length_le_one_of_unique {α : Type*} {l : List α} (nodup : l.Nodup)
    (unique : ∀ a ∈ l, ∀ b ∈ l, a = b) : l.length ≤ 1 := by
  cases l with
  | nil => exact Nat.zero_le 1
  | cons a l =>
    cases l with
    | nil => exact Nat.le_refl 1
    | cons b l =>
      have hab : a = b := unique a List.mem_cons_self b (List.mem_cons_of_mem a List.mem_cons_self)
      exact absurd (hab ▸ List.mem_cons_self) (List.nodup_cons.mp nodup).1

/-- At most one row of a table carries a key. -/
theorem Table.countP_key_le {ρ κ : Type*} {key : ρ → κ} {p : ρ → Bool} {t : Table key} {k : κ}
    (h : ∀ r, p r = true → key r = k) : t.rows.countP p ≤ 1 := by
  rw [List.countP_eq_length_filter]
  refine length_le_one_of_unique ((List.Nodup.of_map key t.unique).filter p) fun r hr s hs => ?_
  obtain ⟨hr, hpr⟩ := List.mem_filter.mp hr
  obtain ⟨hs, hps⟩ := List.mem_filter.mp hs
  exact List.inj_on_of_nodup_map t.unique hr hs ((h r hpr).trans (h s hps).symm)

/-- A list without repetition in which one member only passes a test counts it once. -/
theorem countP_eq_one_of_unique {α : Type*} {p : α → Bool} {l : List α} {a : α} (nodup : l.Nodup)
    (ha : a ∈ l) (hp : p a) (unique : ∀ b ∈ l, p b → b = a) : l.countP p = 1 := by
  have hall : ∀ b ∈ l.filter p, b = a := fun b hb =>
    unique b (List.mem_filter.mp hb).1 (List.mem_filter.mp hb).2
  have hle := length_le_one_of_unique (nodup.filter p) fun b hb c hc =>
    (hall b hb).trans (hall c hc).symm
  have hpos := List.length_pos_of_mem (List.mem_filter.mpr ⟨ha, hp⟩)
  rw [List.countP_eq_length_filter]
  omega

/-- A sum over the rows that satisfy a test is the sum of the tested values. -/
theorem sum_map_filter {ρ M : Type*} [AddMonoid M] (p : ρ → Bool) (g : ρ → M) (l : List ρ) :
    ((l.filter p).map g).sum = (l.map fun r => if p r then g r else 0).sum := by
  induction l with
  | nil => rfl
  | cons x xs ih => by_cases h : p x <;> simp [h, ih]

section Filter

variable {ρ κ M : Type*} {key : ρ → κ} [DecidableEq κ] [AddCommGroup M]

/-- Replacing one stored row moves a sum over the rows that satisfy a test by the difference of that
row. -/
theorem Table.sum_filter_update (p : ρ → Bool) (g : ρ → M) {f : ρ → ρ}
    (hf : ∀ r, key (f r) = key r) {t : Table key} {k : κ} {r : ρ} (h : t.find? k = some r) :
    (((t.update k f hf).rows.filter p).map g).sum =
      ((t.rows.filter p).map g).sum - (if p r then g r else 0) + if p (f r)
        then g (f r) else 0 := by
  rw [sum_map_filter, sum_map_filter]
  exact t.sum_update (fun r => if p r then g r else 0) h

/-- An inserted row adds its own value to a sum over the rows that satisfy a test, if it does. -/
theorem Table.sum_filter_insertOrIgnore (p : ρ → Bool) (g : ρ → M) {t : Table key} {r : ρ}
    (h : t.find? (key r) = none) :
    (((t.insertOrIgnore r).rows.filter p).map g).sum =
      ((t.rows.filter p).map g).sum + if p r then g r else 0 := by
  rw [sum_map_filter, sum_map_filter]
  exact t.sum_insertOrIgnore (fun r => if p r then g r else 0) h

end Filter

end Magistrate
