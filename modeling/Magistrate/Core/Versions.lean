import Magistrate.Core.History
import Mathlib.Data.List.MinMax

/-!
# Versions

A history of versions of keyed rows, in which the versions of each key are
numbered from one on. A reader that follows the history by a cursor reads rows as
they are at the time; of the rows it has read, the highest version of a key is the
current one once its cursor is at the end.
-/

namespace Magistrate

variable {ρ κ : Type*} [DecidableEq κ]

section

variable (key : ρ → κ) (revision : ρ → ℕ)

/-- The last version of a key. -/
def current (history : List ρ) (k : κ) : Option ρ :=
  (history.filter fun v => key v = k).getLast?

/-- The versions of each key are numbered from one on. -/
def Revised (history : List ρ) : Prop :=
  Justified (fun before v => revision v = before.countP (fun w => key w = key v) + 1) history

/-- The highest version of a key among rows. -/
def highest (rows : List ρ) (k : κ) : Option ρ :=
  (rows.filter fun v => key v = k).argmax revision

end

variable {key : ρ → κ} {revision : ρ → ℕ} {history later : List ρ} {v w : ρ} {k : κ}

@[simp] theorem current_nil : current key [] k = none := rfl

/-- A new version is the current one of its key. -/
theorem current_concat : current key (history ++ [v]) k =
    if key v = k then some v else current key history k := by
  by_cases h : key v = k <;> simp [current, h]

/-- The current version of a key is a version of it. -/
theorem mem_of_current (h : current key history k = some v) : v ∈ history ∧ key v = k := by
  have hmem := List.mem_of_getLast? h
  simpa using hmem

/-- A key with a version has a current one. -/
theorem exists_current (key : ρ → κ) (hv : v ∈ history) :
    ∃ w, current key history (key v) = some w := by
  have hmem : v ∈ history.filter fun w => key w = key v := by simpa using hv
  exact ⟨_, List.getLast?_eq_some_getLast (List.ne_nil_of_mem hmem)⟩

/-- A key without a version has no current one. -/
theorem current_eq_none : current key history k = none ↔ ∀ v ∈ history, key v ≠ k := by
  simp [current]

/-- No version of a key comes after its current one. -/
theorem split_of_current (h : current key history k = some v) :
    ∃ before after, history = before ++ v :: after ∧ ∀ w ∈ after, key w ≠ k := by
  induction history using List.reverseRecOn with
  | nil => simp at h
  | append_singleton history last ih =>
    rw [current_concat] at h
    split at h
    · obtain rfl := Option.some.inj h
      exact ⟨history, [], by simp, by simp⟩
    · next hne =>
      obtain ⟨before, after, rfl, hrest⟩ := ih h
      refine ⟨before, after ++ [last], by simp, fun w hw => ?_⟩
      rcases List.mem_append.mp hw with hw | hw
      · exact hrest w hw
      · rw [List.mem_singleton.mp hw]
        exact hne

/-- The current version of rows that are read off versions. -/
theorem current_map {σ : Type*} {f : ρ → σ} {name : σ → κ} (hname : ∀ v, name (f v) = key v) :
    current name (history.map f) k = (current key history k).map f := by
  rw [current, current, List.filter_map, List.getLast?_map]
  congr 3
  funext v
  simp [hname]

namespace Revised

theorem nil : Revised key revision [] := Justified.nil

/-- The next version of a key keeps the versions numbered. -/
theorem concat (h : Revised key revision history)
    (hv : revision v = history.countP (fun w => key w = key v) + 1) :
    Revised key revision (history ++ [v]) := Justified.concat h hv

/-- The versions before others are numbered. -/
theorem initial (h : Revised key revision (history ++ later)) : Revised key revision history := by
  rintro before v after rfl
  exact h before v (after ++ later) (by simp)

/-- The number of the last version. -/
theorem revision_last (h : Revised key revision (history ++ [v])) :
    revision v = history.countP (fun w => key w = key v) + 1 := h history v [] rfl

/-- The current version of a key carries the number of its versions. -/
theorem revision_current (h : Revised key revision history)
    (hv : current key history k = some v) :
    revision v = history.countP fun w => key w = k := by
  induction history using List.reverseRecOn with
  | nil => simp at hv
  | append_singleton history last ih =>
    rw [current_concat] at hv
    rw [List.countP_append]
    split at hv
    · next hkey =>
      obtain rfl := Option.some.inj hv
      rw [h.revision_last, hkey]
      simp [hkey]
    · next hkey => simp [ih h.initial hv, hkey]

/-- No version of a key has a higher number than it has versions. -/
theorem revision_le (h : Revised key revision history) (hv : v ∈ history) :
    revision v ≤ history.countP fun w => key w = key v := by
  obtain ⟨before, after, rfl⟩ := List.append_of_mem hv
  have hrevision := h before v after rfl
  rw [List.countP_append, List.countP_cons_of_pos (by simp)]
  omega

/-- Versions of one key with one number are one version. -/
theorem eq_of_revision (h : Revised key revision history) (hv : v ∈ history) (hw : w ∈ history)
    (hkey : key v = key w) (hrevision : revision v = revision w) : v = w := by
  induction history using List.reverseRecOn with
  | nil => simp at hv
  | append_singleton history last ih =>
    have hlast := h.revision_last
    have hle : ∀ u ∈ history, key u = key last → revision u < revision last := by
      intro u hu hsame
      have hle := h.initial.revision_le hu
      rw [hsame] at hle
      omega
    rw [List.mem_append, List.mem_singleton] at hv hw
    rcases hv with hv | rfl <;> rcases hw with hw | rfl
    · exact ih h.initial hv hw
    · exact absurd hrevision (hle v hv hkey).ne
    · exact absurd hrevision (hle w hw hkey.symm).ne'
    · rfl

/-- A version that has the number of the current one is it. -/
theorem eq_current (h : Revised key revision history) (hv : v ∈ history)
    (hcurrent : current key history (key v) = some w) (hle : revision w ≤ revision v) : v = w := by
  obtain ⟨hw, hkey⟩ := mem_of_current hcurrent
  refine h.eq_of_revision hv hw hkey.symm (hle.antisymm' ?_)
  rw [h.revision_current hcurrent]
  exact h.revision_le hv

/-- A key has a version with each number up to that of its current one, once. -/
theorem revisions (h : Revised key revision history) (k : κ) :
    (history.filter fun w => key w = k).map revision =
      List.range' 1 (history.countP fun w => key w = k) := by
  induction history using List.reverseRecOn with
  | nil => rfl
  | append_singleton history last ih =>
    rw [List.filter_append, List.map_append, ih h.initial, List.countP_append]
    by_cases hkey : key last = k
    · have hlast := h.revision_last
      rw [hkey] at hlast
      rw [List.countP_singleton, if_pos (by simpa using hkey), List.range'_concat]
      simp [hkey, hlast, Nat.add_comm]
    · simp [hkey]

/-- The versions of some of the keys are numbered. -/
theorem filter {p : ρ → Bool} (h : Revised key revision history)
    (hp : ∀ v ∈ history, ∀ w ∈ history, key v = key w → p v = p w) :
    Revised key revision (history.filter p) := by
  induction history using List.reverseRecOn with
  | nil => exact nil
  | append_singleton history last ih =>
    have hinitial := ih h.initial fun v hv w hw =>
      hp v (List.mem_append_left _ hv) w (List.mem_append_left _ hw)
    rw [List.filter_append, List.filter_singleton]
    cases hlast : p last with
    | false => simpa using hinitial
    | true =>
      refine hinitial.concat ?_
      rw [h.revision_last, List.countP_filter]
      congr 1
      refine List.countP_congr fun w hw => ?_
      have hsame := hp w (List.mem_append_left _ hw) last (by simp)
      by_cases hkey : key w = key last
      · simp [hkey, hsame hkey, hlast]
      · simp [hkey]

/-- What is read off numbered versions is numbered. -/
theorem map {σ : Type*} {f : ρ → σ} {name : σ → κ} {number : σ → ℕ}
    (h : Revised key revision history) (hname : ∀ v, name (f v) = key v)
    (hnumber : ∀ v, number (f v) = revision v) : Revised name number (history.map f) := by
  induction history using List.reverseRecOn with
  | nil => exact nil
  | append_singleton history last ih =>
    rw [List.map_append]
    refine (ih h.initial).concat ?_
    simp only [hnumber, hname, List.countP_map, h.revision_last, Function.comp_def]

end Revised

section Highest

variable {rows : List ρ}

/-- The highest version of a key among rows is one of them, and none is higher. -/
theorem mem_of_highest (h : highest key revision rows k = some v) :
    v ∈ rows ∧ key v = k ∧ ∀ w ∈ rows, key w = k → revision w ≤ revision v := by
  have hmem : v ∈ rows ∧ key v = k := by simpa using List.argmax_mem (Option.mem_def.mpr h)
  refine ⟨hmem.1, hmem.2, fun w hw hkey => ?_⟩
  exact List.le_of_mem_argmax (List.mem_filter.mpr ⟨hw, decide_eq_true hkey⟩) (Option.mem_def.mpr h)

/-- A key with a row has a highest version. -/
theorem exists_highest (key : ρ → κ) (revision : ρ → ℕ) (hv : v ∈ rows) :
    ∃ w, highest key revision rows (key v) = some w := by
  refine Option.ne_none_iff_exists'.mp fun hnone => ?_
  have hmem : v ∈ rows.filter fun w => key w = key v := by simpa using hv
  exact List.ne_nil_of_mem hmem (List.argmax_eq_none.mp hnone)

/-- Where a key and a number name one version, no other row is the highest version of a key. -/
theorem highest_eq_some_iff
    (hone : ∀ v ∈ rows, ∀ w ∈ rows, key v = key w → revision v = revision w → v = w) :
    highest key revision rows k = some v ↔
      v ∈ rows ∧ key v = k ∧ ∀ w ∈ rows, key w = k → revision w ≤ revision v := by
  refine ⟨mem_of_highest, ?_⟩
  rintro ⟨hv, rfl, hle⟩
  obtain ⟨w, hw⟩ := exists_highest key revision hv
  obtain ⟨hmem, hkey, hge⟩ := mem_of_highest hw
  rw [hw, hone w hmem v hv hkey ((hle w hmem hkey).antisymm (hge v hv rfl))]

end Highest

/-- What a reader has collected of a history from a cursor on: versions only, and for each change
that its cursor has passed the version of the change or a higher one. -/
structure Collected (key : ρ → κ) (revision : ρ → ℕ) (history : List ρ) (start cursor : ℕ)
    (rows : List ρ) : Prop where
  started : start ≤ cursor
  bounded : cursor ≤ history.length
  versions : ∀ v ∈ rows, ∃ i, start ≤ i ∧ ∃ w, history[i]? = some w ∧ v ∈ history ∧ key w = key v
  passed : ∀ i v, start ≤ i → i < cursor → history[i]? = some v →
    ∃ w ∈ rows, key w = key v ∧ revision v ≤ revision w

namespace Collected

variable {start cursor : ℕ} {rows : List ρ}

omit [DecidableEq κ] in
/-- A reader that has not read. -/
theorem nil (h : start ≤ history.length) :
    Collected key revision history start start ([] : List ρ) where
  started := le_rfl
  bounded := h
  versions := by simp
  passed i v hle hlt := absurd hlt (not_lt.mpr hle)

omit [DecidableEq κ] in
/-- What was collected of a history is collected of a longer one. -/
theorem append (h : Collected key revision history start cursor rows) :
    Collected key revision (history ++ later) start cursor rows where
  started := h.started
  bounded := h.bounded.trans (by simp)
  versions v hv := by
    obtain ⟨i, hi, w, hw, hmem, hkey⟩ := h.versions v hv
    have hlt : i < history.length := (List.getElem?_eq_some_iff.mp hw).1
    exact ⟨i, hi, w, by rw [List.getElem?_append_left hlt, hw], List.mem_append_left _ hmem, hkey⟩
  passed i v hle hlt hv := by
    rw [List.getElem?_append_left (hlt.trans_le h.bounded)] at hv
    exact h.passed i v hle hlt hv

/-- A page of the next changes, each of whose rows is read as it is now. -/
theorem read {count : ℕ} (h : Collected key revision history start cursor rows)
    (hrevised : Revised key revision history) {page : List ρ}
    (hcount : cursor + count ≤ history.length)
    (hpage : ((history.drop cursor).take count).map (fun v => current key history (key v)) =
      page.map some) :
    Collected key revision history start (cursor + count) (rows ++ page) where
  started := h.started.trans (Nat.le_add_right ..)
  bounded := hcount
  versions v hv := by
    rcases List.mem_append.mp hv with hv | hv
    · exact h.versions v hv
    · have hsome : some v ∈ page.map some := List.mem_map_of_mem hv
      rw [← hpage] at hsome
      obtain ⟨w, hw, hcurrent⟩ := List.mem_map.mp hsome
      obtain ⟨j, hj⟩ := List.mem_iff_getElem?.mp (List.mem_of_mem_take hw)
      rw [List.getElem?_drop] at hj
      obtain ⟨hmem, hkey⟩ := mem_of_current hcurrent
      exact ⟨cursor + j, h.started.trans (Nat.le_add_right ..), w, hj, hmem, hkey.symm⟩
  passed i v hle hlt hv := by
    by_cases hold : i < cursor
    · obtain ⟨w, hw, hrow⟩ := h.passed i v hle hold hv
      exact ⟨w, List.mem_append_left _ hw, hrow⟩
    · -- The change is on the page, with the row as it is now.
      obtain ⟨j, rfl⟩ := Nat.exists_eq_add_of_le (not_lt.mp hold)
      have hread : ((history.drop cursor).take count)[j]? = some v := by
        rw [List.getElem?_take, if_pos (by omega), List.getElem?_drop, hv]
      have hmem : v ∈ history := List.mem_of_getElem? hv
      obtain ⟨w, hcurrent⟩ := exists_current key hmem
      have hrow : some w ∈ page.map some := by
        rw [← hpage, ← hcurrent]
        exact List.mem_map_of_mem (List.mem_of_getElem? hread)
      obtain ⟨w', hw', heq⟩ := List.mem_map.mp hrow
      obtain rfl : w' = w := Option.some.inj heq
      refine ⟨w', List.mem_append_right _ hw', (mem_of_current hcurrent).2, ?_⟩
      rw [hrevised.revision_current hcurrent]
      exact hrevised.revision_le hmem

/-- At the end of the history, the highest row of a key that has changed since is the current
one. -/
theorem highest_eq (h : Collected key revision history start cursor rows)
    (hrevised : Revised key revision history) (hend : cursor = history.length) {i : ℕ}
    (hi : start ≤ i) (hv : history[i]? = some v) :
    highest key revision rows (key v) = current key history (key v) := by
  have hlt : i < history.length := (List.getElem?_eq_some_iff.mp hv).1
  obtain ⟨latest, hlatest⟩ := exists_current key (List.mem_of_getElem? hv)
  obtain ⟨hmem, hkey⟩ := mem_of_current hlatest
  -- The reader has the current row itself: it has passed the change that made it.
  have hhas : latest ∈ rows := by
    obtain ⟨before, after, hsplit, hrest⟩ := split_of_current hlatest
    have hat : history[before.length]? = some latest := by simp [hsplit]
    have hbefore : i ≤ before.length := by
      by_contra hgt
      obtain ⟨j, rfl⟩ := Nat.exists_eq_add_of_lt (not_le.mp hgt)
      have hin : v ∈ after := by
        rw [hsplit, List.getElem?_append_right (by omega)] at hv
        have hindex : before.length + j + 1 - before.length = j + 1 := by omega
        rw [hindex, List.getElem?_cons_succ] at hv
        exact List.mem_of_getElem? hv
      exact hrest v hin rfl
    have hpassed := h.passed before.length latest (hi.trans hbefore)
      (by rw [hend]; exact (List.getElem?_eq_some_iff.mp hat).1) hat
    obtain ⟨w, hw, hsame, hle⟩ := hpassed
    obtain ⟨-, -, -, -, hversion, -⟩ := h.versions w hw
    rw [hkey] at hsame
    have hcurrent : current key history (key w) = some latest := by rw [hsame, hlatest]
    rwa [hrevised.eq_current hversion hcurrent hle] at hw
  obtain ⟨best, hbest⟩ : ∃ best, highest key revision rows (key v) = some best := by
    have hfilter : latest ∈ rows.filter fun w => key w = key v := by simp [hhas, hkey]
    exact Option.ne_none_iff_exists'.mp fun hnone =>
      List.ne_nil_of_mem hfilter (List.argmax_eq_none.mp hnone)
  obtain ⟨hrows, hsame⟩ : best ∈ rows ∧ key best = key v := by
    simpa using List.argmax_mem (Option.mem_def.mpr hbest)
  have hle : revision latest ≤ revision best :=
    List.le_of_mem_argmax (by simp [hhas, hkey]) (Option.mem_def.mpr hbest)
  obtain ⟨-, -, -, -, hversion, -⟩ := h.versions best hrows
  rw [hbest, hlatest, hrevised.eq_current hversion (hsame ▸ hlatest) hle]

/-- A key that has not changed since is not collected. -/
theorem highest_eq_none (h : Collected key revision history start cursor rows)
    (hk : ∀ i v, start ≤ i → history[i]? = some v → key v ≠ k) :
    highest key revision rows k = none := by
  refine List.argmax_eq_none.mpr (List.filter_eq_nil_iff.mpr fun v hv hsame => ?_)
  obtain ⟨i, hi, w, hw, -, hkey⟩ := h.versions v hv
  exact hk i w hi hw (hkey.trans (of_decide_eq_true hsame))

end Collected

end Magistrate
