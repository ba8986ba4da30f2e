import Magistrate.Core.Run
import Magistrate.Core.Table

/-!
# Rewriting and removing rows of a table

A rewrite reads rows, computes each of them anew, which may fail, and then
updates those that changed. Nothing is written unless every row was computed.
-/

namespace Magistrate

variable {ρ κ ε : Type} [DecidableEq ρ]

/-- The rows that change, each computed anew. -/
def rewrites (rewrite : ρ → Except ε ρ) : List ρ → Except ε (List ρ)
  | [] => .ok []
  | r :: rows => do
    let r' ← rewrite r
    let updates ← rewrites rewrite rows
    return if r' = r then updates else r' :: updates

variable [DecidableEq κ] {key : ρ → κ}

/-- `executemany` of an `UPDATE ... WHERE key = ?` that takes columns from each row of a list. -/
def Table.writeAll (set : ρ → ρ → ρ) (hset : ∀ new old, key (set new old) = key old)
    (t : Table key) (updates : List ρ) : Table key :=
  updates.foldl (fun t new => t.update (key new) (set new) (hset new)) t

namespace Table

variable {set : ρ → ρ → ρ} {hset : ∀ new old, key (set new old) = key old} {t : Table key}
  {updates rows : List ρ} {rewrite : ρ → Except ε ρ}

omit [DecidableEq ρ] in
/-- A key that no update carries finds what it found. -/
theorem find?_writeAll_of_notMem {k : κ} (h : k ∉ updates.map key) :
    (t.writeAll set hset updates).find? k = t.find? k := by
  induction updates generalizing t with
  | nil => rfl
  | cons u updates ih =>
    rw [List.map_cons, List.mem_cons, not_or] at h
    rw [writeAll, List.foldl_cons, ← writeAll, ih h.2, find?_update_ne _ h.1]

omit [DecidableEq ρ] in
/-- A key that one update carries finds the updated row. -/
theorem find?_writeAll_of_mem {u : ρ} (hu : u ∈ updates) (nodup : (updates.map key).Nodup) :
    (t.writeAll set hset updates).find? (key u) = (t.find? (key u)).map (set u) := by
  induction updates generalizing t with
  | nil => simp at hu
  | cons v updates ih =>
    rw [List.map_cons, List.nodup_cons] at nodup
    rw [writeAll, List.foldl_cons, ← writeAll]
    rcases List.mem_cons.mp hu with rfl | hu
    · rw [find?_writeAll_of_notMem nodup.1, find?_update_self]
    · have hne : key u ≠ key v := fun he => nodup.1 (he ▸ List.mem_map_of_mem hu)
      rw [ih hu nodup.2, find?_update_ne _ hne]

end Table

section

variable {rewrite : ρ → Except ε ρ} {rows updates : List ρ}

omit [DecidableEq κ] in
/-- The keys of the changed rows are among the keys of the rows. -/
theorem rewrites_sublist (hkey : ∀ r r', rewrite r = .ok r' → key r' = key r)
    (h : rewrites rewrite rows = .ok updates) : (updates.map key).Sublist (rows.map key) := by
  induction rows generalizing updates with
  | nil =>
    obtain rfl : [] = updates := Except.ok.inj h
    exact .refl _
  | cons r rows ih =>
    simp only [rewrites, bind_eq_ok, pure_eq_ok] at h
    obtain ⟨r', hr, rest, hrest, rfl⟩ := h
    split
    · exact (ih hrest).cons _
    · rw [List.map_cons, List.map_cons, hkey r r' hr]
      exact (ih hrest).cons_cons _

omit [DecidableEq κ] in
/-- Every row is computed anew; it is among the changed rows if it is another row then. -/
theorem rewrites_mem (hkey : ∀ r r', rewrite r = .ok r' → key r' = key r)
    (h : rewrites rewrite rows = .ok updates) (nodup : (rows.map key).Nodup) {r : ρ}
    (hr : r ∈ rows) :
    ∃ r', rewrite r = .ok r' ∧ (r' ∈ updates ∨ r' = r ∧ key r ∉ updates.map key) := by
  induction rows generalizing updates with
  | nil => simp at hr
  | cons s rows ih =>
    rw [List.map_cons, List.nodup_cons] at nodup
    simp only [rewrites, bind_eq_ok, pure_eq_ok] at h
    obtain ⟨s', hs, rest, hrest, rfl⟩ := h
    have hsub := rewrites_sublist hkey hrest
    rcases List.mem_cons.mp hr with rfl | hr
    · refine ⟨s', hs, ?_⟩
      split
      · next hsame => exact .inr ⟨hsame, fun hmem => nodup.1 (hsub.subset hmem)⟩
      · exact .inl List.mem_cons_self
    · obtain ⟨r', hr', hcases⟩ := ih hrest nodup.2 hr
      refine ⟨r', hr', ?_⟩
      have hne : key r ≠ key s := fun he => nodup.1 (he ▸ List.mem_map_of_mem hr)
      split
      · exact hcases
      · rcases hcases with hmem | ⟨hsame, hnot⟩
        · exact .inl (List.mem_cons_of_mem _ hmem)
        · refine .inr ⟨hsame, ?_⟩
          rw [List.map_cons, List.mem_cons, not_or, hkey s s' hs]
          exact ⟨hne, hnot⟩

/-- Rows that are computed to what they are do not change. -/
theorem rewrites_eq_nil (h : rewrites rewrite rows = .ok updates)
    (hsame : ∀ r ∈ rows, ∀ r', rewrite r = .ok r' → r' = r) : updates = [] := by
  induction rows generalizing updates with
  | nil => exact (Except.ok.inj h).symm
  | cons s rows ih =>
    simp only [rewrites, bind_eq_ok, pure_eq_ok] at h
    obtain ⟨s', hs, rest, hrest, rfl⟩ := h
    rw [if_pos (hsame s List.mem_cons_self s' hs)]
    exact ih hrest fun r hr => hsame r (List.mem_cons_of_mem s hr)

end

/-- The rows of a table that meet a condition, rewritten, when a rewrite keeps the others: every
stored row is replaced by what it is computed to. -/
theorem Table.find?_rewritten (set : ρ → ρ → ρ) (hset : ∀ new old, key (set new old) = key old)
    {t : Table key} {p : ρ → Bool} {rewrite : ρ → Except ε ρ} {updates : List ρ}
    (hkey : ∀ r r', rewrite r = .ok r' → key r' = key r)
    (hwrite : ∀ r r', rewrite r = .ok r' → set r' r = r')
    (hskip : ∀ r, p r = false → rewrite r = .ok r)
    (h : rewrites rewrite (t.rows.filter p) = .ok updates) (k : κ) :
    t.find? k = none ∧ (t.writeAll set hset updates).find? k = none ∨
    ∃ r r', t.find? k = some r ∧ (t.writeAll set hset updates).find? k = some r' ∧
      rewrite r = .ok r' := by
  have hsub : (updates.map key).Sublist (t.rows.map key) :=
    (rewrites_sublist hkey h).trans (List.filter_sublist.map key)
  have hnodup : (updates.map key).Nodup := hsub.nodup t.unique
  cases hfound : t.find? k with
  | none =>
    refine .inl ⟨rfl, ?_⟩
    rw [find?_writeAll_of_notMem, hfound]
    intro hmem
    exact mem_keys_iff.mp (hsub.subset hmem) hfound
  | some r =>
    obtain ⟨hr, rfl⟩ := mem_of_find? hfound
    refine .inr ⟨r, ?_⟩
    by_cases hp : p r = true
    · obtain ⟨r', hr', hmem | ⟨rfl, hnot⟩⟩ := rewrites_mem hkey h
        ((List.filter_sublist.map key).nodup t.unique) (List.mem_filter.mpr ⟨hr, hp⟩)
      · refine ⟨r', rfl, ?_, hr'⟩
        rw [← hkey r r' hr', find?_writeAll_of_mem hmem hnodup, hkey r r' hr', hfound,
          Option.map_some, hwrite r r' hr']
      · exact ⟨r', rfl, by rw [find?_writeAll_of_notMem hnot, hfound], hr'⟩
    · refine ⟨r, rfl, ?_, hskip r (Bool.eq_false_iff.mpr hp)⟩
      rw [find?_writeAll_of_notMem, hfound]
      intro hmem
      obtain ⟨s, hs, hkeys⟩ := List.mem_map.mp ((rewrites_sublist hkey h).subset hmem)
      obtain ⟨hs, hps⟩ := List.mem_filter.mp hs
      exact hp (eq_of_mem hs hr hkeys ▸ hps)

omit [DecidableEq ρ] [DecidableEq κ] in
/-- `DELETE ... WHERE p`: every row that meets a condition is removed. -/
def Table.removeWhere (t : Table key) (p : ρ → Bool) : Table key :=
  ⟨t.rows.filter (!p ·), (List.filter_sublist.map key).nodup t.unique⟩

omit [DecidableEq ρ] in
/-- What is found after a removal was found before. -/
theorem Table.find?_removeWhere {t : Table key} {p : ρ → Bool} {k : κ} {r : ρ}
    (h : (t.removeWhere p).find? k = some r) : t.find? k = some r := by
  obtain ⟨hr, hk⟩ := mem_of_find? h
  exact find?_eq_some_iff.mpr ⟨(List.mem_filter.mp hr).1, hk⟩

omit [DecidableEq ρ] in
/-- An update of a row that a condition leaves out before and after it. -/
theorem Table.filter_update {f : ρ → ρ} (hf : ∀ r, key (f r) = key r) {p : ρ → Bool}
    {t : Table key} {k : κ} {r : ρ} (h : t.find? k = some r) (hr : p r = false)
    (hfr : p (f r) = false) : (t.update k f hf).rows.filter p = t.rows.filter p := by
  have hkeep : ∀ q ∈ t.rows, p (if key q = k then f q else q) = p q := by
    intro q hq
    split
    · next hkey =>
      obtain ⟨hmem, hk⟩ := mem_of_find? h
      rw [eq_of_mem hq hmem (hkey.trans hk.symm), hfr, hr]
    · rfl
  rw [rows_update, List.filter_map]
  refine (congrArg _ (List.filter_congr hkeep)).trans ((List.map_congr_left fun q hq => ?_).trans
    (List.map_id _))
  obtain ⟨hq, hpq⟩ := List.mem_filter.mp hq
  refine if_neg fun hkey => ?_
  obtain ⟨hmem, hk⟩ := mem_of_find? h
  rw [eq_of_mem hq hmem (hkey.trans hk.symm), hr] at hpq
  exact Bool.false_ne_true hpq

section Becomes

variable {R : ρ → ρ → Prop} {t t' : Table key}

/-- Every row of a table is replaced by one that it may become. -/
def Table.Becomes (R : ρ → ρ → Prop) (t t' : Table key) : Prop :=
  ∃ f : ρ → ρ, t'.rows = t.rows.map f ∧ ∀ r, key (f r) = key r ∧ R r (f r)

namespace Table.Becomes

omit [DecidableEq ρ] [DecidableEq κ] in
theorem refl (hR : ∀ r, R r r) (t : Table key) : Becomes R t t :=
  ⟨id, (List.map_id _).symm, fun r => ⟨rfl, hR r⟩⟩

omit [DecidableEq ρ] [DecidableEq κ] in
theorem mem (h : Becomes R t t') {r' : ρ} (hr : r' ∈ t'.rows) :
    ∃ r ∈ t.rows, key r' = key r ∧ R r r' := by
  obtain ⟨f, hrows, hf⟩ := h
  rw [hrows] at hr
  obtain ⟨r, hmem, rfl⟩ := List.mem_map.mp hr
  exact ⟨r, hmem, hf r⟩

omit [DecidableEq ρ] in
theorem find? (h : Becomes R t t') {k : κ} {r : ρ} (hr : t.find? k = some r) :
    ∃ r', t'.find? k = some r' ∧ R r r' := by
  obtain ⟨f, hrows, hf⟩ := h
  obtain ⟨hmem, rfl⟩ := mem_of_find? hr
  refine ⟨f r, ?_, (hf r).2⟩
  rw [← (hf r).1]
  exact find?_of_mem (hrows ▸ List.mem_map_of_mem hmem)

omit [DecidableEq ρ] in
theorem update (hR : ∀ r, R r r) {f : ρ → ρ} (hf : ∀ r, key (f r) = key r)
    (hbecomes : ∀ r, R r (f r)) (t : Table key) (k : κ) : Becomes R t (t.update k f hf) := by
  refine ⟨fun r => if key r = k then f r else r, rfl, fun r => ?_⟩
  dsimp only
  split
  · exact ⟨hf r, hbecomes r⟩
  · exact ⟨rfl, hR r⟩

end Table.Becomes

end Becomes

end Magistrate
