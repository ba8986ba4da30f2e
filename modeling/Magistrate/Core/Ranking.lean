import Mathlib.Data.List.Nodup
import Mathlib.Data.List.Sort
import Mathlib.Data.List.TakeDrop

/-!
# Ranked rows

The first rows of a list in an order. A list can be cut under one order before it is
ranked under another: the rows are those of the plain ranking exactly when none of
those is cut.
-/

namespace Magistrate

variable {α κ : Type*}

/-- A list bounds its members by its maximum. -/
theorem le_foldr_max {l : List ℕ} {n : ℕ} (h : n ∈ l) : n ≤ l.foldr max 0 := by
  induction l with
  | nil => simp at h
  | cons m l ih =>
    rw [List.foldr_cons]
    rcases List.mem_cons.mp h with rfl | h
    · exact le_max_left ..
    · exact (ih h).trans (le_max_right ..)

/-- The maximum of the numbers from one on. -/
theorem foldr_max_range' (n : ℕ) : (List.range' 1 n).foldr max 0 = n := by
  induction n with
  | zero => rfl
  | succ n ih =>
    have hmax : ∀ (l : List ℕ) (m : ℕ), l.foldr max m = max (l.foldr max 0) m := by
      intro l m
      induction l with
      | nil => simp
      | cons x l ih => rw [List.foldr_cons, ih, List.foldr_cons, max_assoc]
    rw [List.range'_concat, List.foldr_append, hmax, ih]
    simp only [List.foldr_cons, List.foldr_nil]
    omega

/-- The rows in the descending order of a key; rows with equal keys keep their places. -/
def rankRows [LinearOrder κ] (key : α → κ) (rows : List α) : List α :=
  rows.mergeSort fun a b => decide (key b ≤ key a)

/-- The first rows in the descending order of a key. -/
def topRows [LinearOrder κ] (key : α → κ) (count : ℕ) (rows : List α) : List α :=
  (rankRows key rows).take count

section Rows

variable [LinearOrder κ] {key : α → κ} {count : ℕ} {rows : List α} {a : α}

theorem rankRows_perm (key : α → κ) (rows : List α) : (rankRows key rows).Perm rows :=
  List.mergeSort_perm _ _

@[simp] theorem mem_rankRows : a ∈ rankRows key rows ↔ a ∈ rows := List.mem_mergeSort

@[simp] theorem length_rankRows : (rankRows key rows).length = rows.length :=
  List.length_mergeSort _

/-- Each ranked row comes before those with lesser keys. -/
theorem rankRows_sorted (key : α → κ) (rows : List α) :
    (rankRows key rows).Pairwise fun a b => key b ≤ key a := by
  have htrans : ∀ a b c, decide (key b ≤ key a) = true → decide (key c ≤ key b) = true →
      decide (key c ≤ key a) = true := by
    intro a b c hab hbc
    simp only [decide_eq_true_eq] at hab hbc ⊢
    exact hbc.trans hab
  have htotal : ∀ a b, (decide (key b ≤ key a) || decide (key a ≤ key b)) = true := by
    intro a b
    simpa using le_total (key b) (key a)
  exact (List.pairwise_mergeSort htrans htotal rows).imp of_decide_eq_true

theorem rankRows_nodup (h : rows.Nodup) : (rankRows key rows).Nodup :=
  (rankRows_perm key rows).nodup_iff.mpr h

theorem topRows_nodup (h : rows.Nodup) : (topRows key count rows).Nodup :=
  (rankRows_nodup h).sublist (List.take_sublist _ _)

theorem mem_of_mem_topRows (h : a ∈ topRows key count rows) : a ∈ rows :=
  mem_rankRows.mp (List.mem_of_mem_take h)

/-- A row is among the first exactly when its place is. -/
theorem mem_topRows_iff [DecidableEq α] (ha : a ∈ rows) :
    a ∈ topRows key count rows ↔ (rankRows key rows).idxOf a < count :=
  List.mem_take_iff_idxOf_lt (mem_rankRows.mpr ha)

/-- A list that fits is ranked whole. -/
theorem mem_topRows_of_fits (hfits : rows.length ≤ count) (ha : a ∈ rows) :
    a ∈ topRows key count rows := by
  rw [topRows, List.take_of_length_le (by simpa using hfits)]
  exact mem_rankRows.mpr ha

/-- A row with as many greater rows as there are places is not among the first. -/
theorem not_mem_topRows (hmany : count ≤ rows.countP fun b => decide (key a < key b)) :
    a ∉ topRows key count rows := by
  intro ha
  obtain ⟨before, after, htake⟩ := List.append_of_mem ha
  have hranked : rankRows key rows =
      before ++ a :: (after ++ (rankRows key rows).drop count) := by
    rw [← List.cons_append, ← List.append_assoc, ← htake, topRows, List.take_append_drop]
  have hlength : before.length < count := by
    have h := congrArg List.length htake
    simp only [topRows, List.length_take, List.length_append, List.length_cons] at h
    omega
  have hsorted := rankRows_sorted key rows
  rw [hranked, List.pairwise_append, List.pairwise_cons] at hsorted
  obtain ⟨-, ⟨hafter, -⟩, -⟩ := hsorted
  have hnone : (after ++ (rankRows key rows).drop count).countP
    (fun b => decide (key a < key b)) = 0 :=
    List.countP_eq_zero.mpr fun b hb => by simpa using hafter b hb
  have hcount : rows.countP (fun b => decide (key a < key b)) ≤ before.length := by
    rw [← (rankRows_perm key rows).countP_eq, hranked, List.countP_append, List.countP_cons, hnone]
    simpa using List.countP_le_length
  omega

/-- A row with fewer rows of as great a key than there are places is among the first. -/
theorem mem_topRows_of_few [DecidableEq α] (ha : a ∈ rows)
    (hfew : rows.countP (fun b => decide (b ≠ a ∧ key a ≤ key b)) < count) :
    a ∈ topRows key count rows := by
  rw [mem_topRows_iff ha]
  obtain ⟨before, after, hranked, hbefore⟩ :=
    List.eq_append_cons_of_mem ((rankRows_perm key rows).mem_iff.mpr ha)
  have hsorted := rankRows_sorted key rows
  rw [hranked, List.pairwise_append] at hsorted
  have hall : before.countP (fun b => decide (b ≠ a ∧ key a ≤ key b)) = before.length := by
    rw [List.countP_eq_length]
    intro b hb
    rw [decide_eq_true_eq]
    exact ⟨fun hba => hbefore (hba ▸ hb), hsorted.2.2 b hb a List.mem_cons_self⟩
  have hcount : before.length ≤ rows.countP (fun b => decide (b ≠ a ∧ key a ≤ key b)) := by
    rw [← (rankRows_perm key rows).countP_eq, hranked, List.countP_append, hall]
    exact Nat.le_add_right _ _
  have hplace : (rankRows key rows).idxOf a = before.length := by
    rw [hranked, List.idxOf_append_of_notMem hbefore, List.idxOf_cons_self, Nat.add_zero]
  omega

/-- Rows that their keys tell apart are ranked in one way. -/
theorem rankRows_eq (hkey : ∀ a ∈ rows, ∀ b ∈ rows, key a = key b → a = b) {ranked : List α}
    (hperm : ranked.Perm rows) (hsorted : ranked.Pairwise fun a b => key b ≤ key a) :
    rankRows key rows = ranked := by
  refine ((rankRows_perm key rows).trans hperm.symm).eq_of_pairwise ?_ (rankRows_sorted key rows)
    hsorted
  intro a b ha hb hab hba
  exact hkey a (mem_rankRows.mp ha) b (hperm.subset hb) (le_antisymm hba hab)

/-- The rows that a test keeps are ranked as they are among all of them. -/
theorem rankRows_filter (hkey : ∀ a ∈ rows, ∀ b ∈ rows, key a = key b → a = b) (keep : α → Bool) :
    rankRows key (rows.filter keep) = (rankRows key rows).filter keep := by
  refine rankRows_eq (fun a ha b hb => hkey a (List.mem_of_mem_filter ha) b
    (List.mem_of_mem_filter hb))
    ((rankRows_perm key rows).filter keep) ?_
  exact (rankRows_sorted key rows).sublist List.filter_sublist

/-- Rows that their keys tell apart are ranked strictly. -/
theorem rankRows_strict (hnodup : rows.Nodup)
    (hkey : ∀ a ∈ rows, ∀ b ∈ rows, key a = key b → a = b) :
    (rankRows key rows).Pairwise fun a b => key b < key a := by
  have hdistinct : (rankRows key rows).Pairwise (· ≠ ·) := rankRows_nodup hnodup
  refine ((rankRows_sorted key rows).and hdistinct).imp_of_mem fun {a b} ha hb ⟨hle, hne⟩ => ?_
  refine lt_of_le_of_ne hle fun he => hne ?_
  exact hkey a (mem_rankRows.mp ha) b (mem_rankRows.mp hb) he.symm

/-- The first rows are those down to the last of them. -/
theorem mem_topRows_iff_last (hnodup : rows.Nodup)
    (hkey : ∀ a ∈ rows, ∀ b ∈ rows, key a = key b → a = b) {last : α}
    (hlast : (topRows key count rows).getLast? = some last) :
    a ∈ topRows key count rows ↔ a ∈ rows ∧ key last ≤ key a := by
  have hmem : last ∈ topRows key count rows := List.mem_of_getLast? hlast
  have hstrict := rankRows_strict hnodup hkey
  rw [← List.take_append_drop count (rankRows key rows), List.pairwise_append] at hstrict
  obtain ⟨hfirst, -, hrest⟩ := hstrict
  constructor
  · intro ha
    refine ⟨mem_of_mem_topRows ha, ?_⟩
    obtain ⟨front, hfront⟩ : ∃ front, topRows key count rows = front ++ [last] :=
      List.getLast?_eq_some_iff.mp hlast
    rw [← topRows, hfront, List.pairwise_append] at hfirst
    rcases List.mem_append.mp (hfront ▸ ha) with ha | ha
    · exact (hfirst.2.2 a ha last (List.mem_singleton_self last)).le
    · exact (congrArg key (List.mem_singleton.mp ha)).ge
  · rintro ⟨ha, hle⟩
    have hranked : a ∈ rankRows key rows := mem_rankRows.mpr ha
    rw [← List.take_append_drop count (rankRows key rows), List.mem_append] at hranked
    exact hranked.resolve_right fun hdrop => absurd hle (hrest last hmem a hdrop).not_ge

/-- Where not all rows are among the first, a row has a lesser key than these. -/
theorem exists_lt_topRows (hnodup : rows.Nodup)
    (hkey : ∀ a ∈ rows, ∀ b ∈ rows, key a = key b → a = b) (hmore : count < rows.length) :
    ∃ b ∈ rows, ∀ a ∈ topRows key count rows, key b < key a := by
  have hstrict := rankRows_strict hnodup hkey
  rw [← List.take_append_drop count (rankRows key rows), List.pairwise_append] at hstrict
  have hne : (rankRows key rows).drop count ≠ [] := by
    rw [Ne, List.drop_eq_nil_iff, length_rankRows]
    omega
  obtain ⟨b, hb⟩ := List.exists_mem_of_ne_nil _ hne
  exact ⟨b, mem_rankRows.mp (List.mem_of_mem_drop hb), fun a ha => hstrict.2.2 a ha b hb⟩

end Rows

/-- The first rows of a list are the first of those that a test keeps exactly when it keeps them. -/
theorem take_filter_eq_take_iff {keep : α → Bool} {count : ℕ} {rows : List α} :
    (rows.filter keep).take count = rows.take count ↔ ∀ a ∈ rows.take count, keep a = true := by
  constructor
  · intro h a ha
    rw [← h] at ha
    exact List.of_mem_filter (List.mem_of_mem_take ha)
  · intro h
    have hsplit : rows.filter keep = rows.take count ++ (rows.drop count).filter keep := by
      conv_lhs => rw [← List.take_append_drop count rows, List.filter_append]
      rw [List.filter_eq_self.mpr h]
    rw [hsplit, List.take_append]
    by_cases hcount : count ≤ rows.length
    · simp [hcount]
    · simp [List.drop_of_length_le (Nat.le_of_not_le hcount)]

/-- Rows that are cut under one order and ranked under another are those of the plain ranking
exactly when the first places of the other order are kept. -/
theorem topRows_topRows_iff {κ' : Type*} [LinearOrder κ] [LinearOrder κ'] [DecidableEq α]
    {key : α → κ} {cut : α → κ'} {count kept : ℕ} {rows : List α} (hnodup : rows.Nodup)
    (hkey : ∀ a ∈ rows, ∀ b ∈ rows, key a = key b → a = b) :
    topRows key count (topRows cut kept rows) = topRows key count rows ↔
      ∀ a ∈ topRows key count rows, (rankRows cut rows).idxOf a < kept := by
  have hperm : (topRows cut kept rows).Perm (rows.filter (· ∈ topRows cut kept rows)) := by
    refine (List.perm_ext_iff_of_nodup (topRows_nodup hnodup) (hnodup.filter _)).mpr fun a => ?_
    have hmem : a ∈ topRows cut kept rows → a ∈ rows := mem_of_mem_topRows
    simpa using hmem
  have hranked : rankRows key (topRows cut kept rows) =
      (rankRows key rows).filter (· ∈ topRows cut kept rows) := by
    rw [← rankRows_filter hkey]
    have hkept : ∀ a ∈ topRows cut kept rows, ∀ b ∈ topRows cut kept rows, key a = key b → a = b :=
      fun a ha b hb => hkey a (mem_of_mem_topRows ha) b (mem_of_mem_topRows hb)
    exact rankRows_eq hkept ((rankRows_perm key _).trans hperm.symm) (rankRows_sorted key _)
  have htop : topRows key count (topRows cut kept rows) =
      ((rankRows key rows).filter (· ∈ topRows cut kept rows)).take count := by
    rw [← hranked]; rfl
  rw [htop]
  refine take_filter_eq_take_iff.trans ?_
  refine forall₂_congr fun a ha => ?_
  rw [decide_eq_true_eq, mem_topRows_iff (mem_rankRows.mp (List.mem_of_mem_take ha))]

end Magistrate
