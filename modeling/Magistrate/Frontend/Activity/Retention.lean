import Magistrate.Frontend.Activity.Merging

/-!
# What the client retains

Records in focus are retained, and of the others the latest changed ones. Where both
fit, everything is retained. What was retained is retained again if its records in
focus fit by themselves, which they need not once a terminal record was dropped.
-/

namespace Magistrate.Frontend

open CanonicalActivityRecord

variable {t : Table CanonicalActivityRecord.id}
  {retained rows rows' : List CanonicalActivityRecord} {r : CanonicalActivityRecord}

section Retained

theorem mem_sortedRecords : r ∈ sortedRecords rows ↔ r ∈ rows :=
  (List.perm_insertionSort _ _).mem_iff

/-- The rows of a written list are its rows. -/
theorem mem_of_mem_ofList (h : r ∈ (Table.ofList rows : Table CanonicalActivityRecord.id).rows) :
    r ∈ rows := by
  have hfound := Table.find?_of_mem h
  rw [Table.find?_ofList] at hfound
  exact List.mem_reverse.mp (List.mem_of_find?_eq_some hfound)

/-- The retained records are among the given ones. -/
theorem mem_of_mem_retained (h : retainedRecords t = some retained) (hr : r ∈ retained) :
    r ∈ t.rows := by
  unfold retainedRecords at h
  split at h
  · cases h
  · obtain rfl := Option.some.inj h
    rcases List.mem_append.mp (mem_sortedRecords.mp hr) with hfocus | hrecent
    · exact mem_sortedRecords.mp (List.mem_of_mem_filter hfocus)
    · have hsorted := (List.perm_insertionSort _ _).mem_iff.mp (List.mem_of_mem_take hrecent)
      exact mem_sortedRecords.mp (List.mem_of_mem_filter hsorted)

theorem Held.of_retained {V : CanonicalActivityRecord → Prop} (ht : Held V t)
    (h : retainedRecords t = some retained) : Held V (Table.ofList retained) := fun r hr =>
  ht r (mem_of_mem_retained h (mem_of_mem_ofList hr))

theorem retainedRecords_isSome :
    (∃ retained, retainedRecords t = some retained) ↔
      (focusOf t.rows).length ≤ maxFocusRecords := by
  unfold retainedRecords
  split
  · next hlt => simpa using hlt
  · next hle => simpa using hle

end Retained

section Room

/-- The rows that are not in focus. -/
def historyOf (rows : List CanonicalActivityRecord) : List CanonicalActivityRecord :=
  (sortedRecords rows).filter
    (!isEffectiveFocusRecord (terminalObjectiveIds (sortedRecords rows)) ·)

theorem perm_sortedRecords (rows : List CanonicalActivityRecord) :
    (sortedRecords rows).Perm rows := List.perm_insertionSort _ rows

/-- Rows of distinct sequences have one order. -/
theorem sortedRecords_eq_of_perm (hperm : rows.Perm rows')
    (hsequences : (rows'.map (·.sequence)).Nodup) : sortedRecords rows = sortedRecords rows' := by
  have hinj := List.inj_on_of_nodup_map hsequences
  refine List.Perm.eq_of_pairwise ?_ (List.pairwise_insertionSort _ rows)
    (List.pairwise_insertionSort _ rows')
    ((perm_sortedRecords rows).trans (hperm.trans (perm_sortedRecords rows').symm))
  intro a b ha hb hab hba
  exact hinj (hperm.subset (mem_sortedRecords.mp ha)) (mem_sortedRecords.mp hb)
    (le_antisymm hab hba)

/-- The rows in focus and the others are all rows. -/
theorem perm_focus_history (rows : List CanonicalActivityRecord) :
    (focusOf rows ++ historyOf rows).Perm rows :=
  (List.filter_append_perm _ _).trans (perm_sortedRecords rows)

/-- The recent rows are the latest changed ones that are not in focus. -/
theorem recentOf_eq (t : Table CanonicalActivityRecord.id) : recentOf t.rows =
    ((historyOf t.rows).insertionSort fun left right =>
      right.deliverySequence ≤ left.deliverySequence).take maxRecentActivityRecords := by
  unfold recentOf historyOf
  congr 2
  refine List.filter_congr fun r hr => ?_
  have hfocus : r.id ∈ (focusOf t.rows).map (·.id) ↔
      r.isEffectiveFocusRecord (terminalObjectiveIds (sortedRecords t.rows)) = true := by
    constructor
    · intro hmem
      obtain ⟨s, hs, hid⟩ := List.mem_map.mp hmem
      obtain ⟨hsorted, heffective⟩ := List.mem_filter.mp hs
      rwa [Table.eq_of_mem (mem_sortedRecords.mp hsorted) (mem_sortedRecords.mp hr) hid]
        at heffective
    · exact fun heffective => List.mem_map_of_mem (List.mem_filter.mpr ⟨hr, heffective⟩)
  rw [Bool.eq_iff_iff, decide_eq_true_eq, hfocus, Bool.not_eq_true', Bool.not_eq_true]

/-- The earliest changed of more rows than are kept is not kept. -/
theorem notMem_recentOf (hroom : maxRecentActivityRecords < (historyOf t.rows).length)
    (hearliest : ∀ s ∈ historyOf t.rows, s.deliverySequence ≤ r.deliverySequence → s = r) :
    r ∉ recentOf t.rows := by
  have hperm := List.perm_insertionSort
    (fun left right : CanonicalActivityRecord => right.deliverySequence ≤ left.deliverySequence)
    (historyOf t.rows)
  have hsorted := List.pairwise_insertionSort
    (fun left right : CanonicalActivityRecord => right.deliverySequence ≤ left.deliverySequence)
    (historyOf t.rows)
  have hnodup : (historyOf t.rows).Nodup :=
    (((perm_sortedRecords t.rows).nodup_iff).mpr (.of_map _ t.unique)).filter _
  rw [recentOf_eq]
  intro hkept
  obtain ⟨s, hs⟩ := List.exists_mem_of_length_pos (l := ((historyOf t.rows).insertionSort
    fun left right => right.deliverySequence ≤ left.deliverySequence).drop maxRecentActivityRecords)
    (by rw [List.length_drop, List.length_insertionSort]; omega)
  rw [← List.take_append_drop maxRecentActivityRecords (List.insertionSort _ _)] at hsorted
  have hle := (List.pairwise_append.mp hsorted).2.2 r hkept s hs
  obtain rfl := hearliest s (hperm.subset (List.mem_of_mem_drop hs)) hle
  exact List.disjoint_take_drop (hperm.nodup_iff.mpr hnodup) le_rfl hkept hs

/-- Where the focus and the other rows both fit, everything is retained. -/
theorem retainedRecords_eq_all (hfocus : (focusOf t.rows).length ≤ maxFocusRecords)
    (hhistory : (historyOf t.rows).length ≤ maxRecentActivityRecords)
    (hsequences : (t.rows.map (·.sequence)).Nodup) :
    retainedRecords t = some (sortedRecords t.rows) := by
  have hrecent : (recentOf t.rows).Perm (historyOf t.rows) := by
    rw [recentOf_eq, List.take_of_length_le (by rwa [List.length_insertionSort])]
    exact List.perm_insertionSort _ _
  rw [retainedRecords, if_neg (not_lt.mpr hfocus)]
  refine congrArg some (sortedRecords_eq_of_perm ?_ hsequences)
  exact (hrecent.append_left _).trans (perm_focus_history t.rows)

/-- What is retained is in the order of its sequences. -/
theorem perm_retained (h : retainedRecords t = some retained) :
    retained.Perm (focusOf t.rows ++ recentOf t.rows) := by
  unfold retainedRecords at h
  split at h
  · cases h
  · exact Option.some.inj h ▸ perm_sortedRecords _

/-- What tells the given rows apart tells the retained ones apart. -/
theorem nodup_retained {β : Type} {f : CanonicalActivityRecord → β}
    (h : retainedRecords t = some retained) (hnodup : (t.rows.map f).Nodup) :
    (retained.map f).Nodup := by
  have hsub : (focusOf t.rows ++ recentOf t.rows).Sublist (focusOf t.rows ++
      (historyOf t.rows).insertionSort fun left right =>
        right.deliverySequence ≤ left.deliverySequence) := by
    rw [recentOf_eq]
    exact (List.take_sublist _ _).append_left _
  have hperm : (focusOf t.rows ++ (historyOf t.rows).insertionSort fun left right =>
      right.deliverySequence ≤ left.deliverySequence).Perm t.rows :=
    ((List.perm_insertionSort _ _).append_left _).trans (perm_focus_history t.rows)
  exact (((perm_retained h).map f).nodup_iff).mpr
    (((hperm.map f).nodup_iff.mpr hnodup).sublist (hsub.map f))

theorem rows_ofList_retained (h : retainedRecords t = some retained) :
    (Table.ofList retained : Table CanonicalActivityRecord.id).rows = retained :=
  Table.rows_ofList (nodup_retained h t.unique)

/-- Fewer terminal records leave more in focus. -/
theorem isEffectiveFocusRecord_mono {ids ids' : List String} (hsub : ids ⊆ ids')
    (h : r.isEffectiveFocusRecord ids' = true) : r.isEffectiveFocusRecord ids = true := by
  unfold isEffectiveFocusRecord at h ⊢
  rw [Bool.and_eq_true, Bool.not_eq_true', Bool.and_eq_false_iff] at h ⊢
  refine ⟨h.1, h.2.imp_right fun hnone => ?_⟩
  cases hgiven : given r.objectiveId with
  | none => rfl
  | some id =>
    simp only [hgiven, Option.any_some, decide_eq_false_iff_not] at hnone ⊢
    exact fun hid => hnone (hsub hid)

theorem terminalObjectiveIds_mono (hsub : rows ⊆ rows') :
    terminalObjectiveIds rows ⊆ terminalObjectiveIds rows' := by
  intro id hid
  obtain ⟨r, hr, hgiven⟩ := List.mem_filterMap.mp hid
  obtain ⟨hmem, hterminal⟩ := List.mem_filter.mp hr
  exact List.mem_filterMap.mpr ⟨r, List.mem_filter.mpr ⟨hsub hmem, hterminal⟩, hgiven⟩

/-- Besides their own focus, what is retained has no more rows than are kept of the recent ones. -/
theorem length_historyOf_retained (h : retainedRecords t = some retained) :
    (historyOf retained).length ≤ maxRecentActivityRecords := by
  have hterminal : terminalObjectiveIds (sortedRecords retained) ⊆
      terminalObjectiveIds (sortedRecords t.rows) :=
    terminalObjectiveIds_mono fun r hr =>
      mem_sortedRecords.mpr (mem_of_mem_retained h (mem_sortedRecords.mp hr))
  have hperm := (((perm_sortedRecords retained).trans (perm_retained h)).filter
    (!isEffectiveFocusRecord (terminalObjectiveIds (sortedRecords retained)) ·)).length_eq
  have hfocus : (focusOf t.rows).filter
      (!isEffectiveFocusRecord (terminalObjectiveIds (sortedRecords retained)) ·) = [] := by
    refine List.filter_eq_nil_iff.mpr fun r hr => ?_
    rw [isEffectiveFocusRecord_mono hterminal (List.mem_filter.mp hr).2]
    simp
  rw [List.filter_append, hfocus, List.nil_append] at hperm
  calc (historyOf retained).length
      = ((recentOf t.rows).filter
          (!isEffectiveFocusRecord (terminalObjectiveIds (sortedRecords retained)) ·)).length :=
        hperm
    _ ≤ (recentOf t.rows).length := List.length_filter_le _ _
    _ ≤ maxRecentActivityRecords := List.length_take_le _ _

end Room

end Magistrate.Frontend
