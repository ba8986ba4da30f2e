import Magistrate.Gateway.Activity.Current

/-!
# Answers from the ledger

A page of changes and a snapshot hold the records of a user as they are when they
are read: the current versions of the history so far.
-/

namespace Magistrate

namespace PublicActivity

/-- The activity is of an objective under way. -/
def objectiveOpen (a : PublicActivity) : Bool :=
  a.kind ∈ ["objective.started", "objective.progress", "objective.accepted"] ∧
    a.state ∈ ["active", "awaiting-user"]

/-- The activity is of the end of an objective. -/
def objectiveEnded (a : PublicActivity) : Bool :=
  a.kind ∈ ["objective.completed", "objective.failed", "objective.cancelled"] ∧
    a.state ∈ ["completed", "failed", "cancelled"]

/-- The activity is of an open decision. -/
def decisionOpen (a : PublicActivity) : Bool :=
  a.kind = "decision.requested" ∧ a.state = "awaiting-user"

/-- Two activities of one objective. -/
def sameObjective (a b : PublicActivity) : Bool :=
  a.objectiveId ≠ none ∧ b.objectiveId = a.objectiveId

end PublicActivity

/-- The row of a record when there were so many versions. -/
def rowAt (versions : List PublicActivity) (n : ℕ) (id : String) : Option PublicActivity :=
  current PublicActivity.id (versions.take n) id

/-- When there were so many versions, the record was an open decision, or of an objective under way
of which no record was the end. -/
def OpenAt (versions : List PublicActivity) (n : ℕ) (id : String) : Prop :=
  ∃ v, rowAt versions n id = some v ∧ (v.decisionOpen = true ∨ v.objectiveOpen = true ∧
    ∀ id' w, rowAt versions n id' = some w → v.sameObjective w = true → w.objectiveEnded = false)

/-- A page of changes after a cursor, as it is read when the user's records have the versions. -/
structure PageRead (versions : List PublicActivity) (after : ℕ) (page : ActivityPage) : Prop where
  records : page.records.map (fun d => some d.activity) =
    ((versions.drop after).take page.records.length).map fun v =>
      current PublicActivity.id versions v.id
  numbered : page.records.map (·.deliverySequence) = List.range' (after + 1) page.records.length
  next : page.nextCursor = after + page.records.length
  latest : page.latestCursor = versions.length
  reached : page.nextCursor ≤ versions.length
  small : page.records.length ≤ 200

/-- A snapshot, as it is read when the user's records have the versions. -/
structure SnapshotRead (versions : List PublicActivity)
    (projection : ActivityProjection) : Prop where
  current : ∀ d ∈ projection.records ++ projection.focusRecords,
    current PublicActivity.id versions d.activity.id = some d.activity
  reached : ∀ d ∈ projection.records ++ projection.focusRecords,
    d.deliverySequence ≤ projection.snapshotCursor
  cursor : projection.snapshotCursor = versions.length
  small : projection.records.length ≤ 200
  focus : projection.focusRecords.length ≤ maxActivityFocusRecords
  before : ∀ n ∈ projection.nextBefore, ∃ d ∈ projection.records, d.activity.sequence = n
  more : projection.hasMore = true → projection.nextBefore.isSome = true
  focused : projection.focusTruncated = false → ∀ id, OpenAt versions versions.length id →
    ∃ d ∈ projection.focusRecords, d.activity.id = id

theorem pageSize_le (limit : ℤ) : pageSize limit ≤ 200 := by
  unfold pageSize maxActivityPage
  omega

theorem pageSize_pos (limit : ℤ) : 0 < pageSize limit := by
  unfold pageSize
  omega

namespace Ledger

variable {log : ActivityLog} {history : List ActivityRecord} {user : String}
  {rules : PublishRules} {limit : ℤ}

/-- The changes of a user count the versions of the user's records. -/
theorem latestChange_length (h : Ledger log history) (user : String) :
    log.latestChange user = (publicVersions history user).length := by
  rw [h.latestChange_eq, publicVersions, userVersions, List.length_map,
    List.countP_eq_length_filter]

/-- What a page of changes holds. -/
theorem pageRead (h : Ledger log history) {after : ℕ} {page : ActivityPage}
    (hok : log.listActivity rules user after limit = .ok page) :
    PageRead (publicVersions history user) after page := by
  have hchecks : rules.bounded user 128 = true ∧ after ≤ maxSafeInteger ∧
      after ≤ log.latestChange user := by
    simp only [ActivityLog.listActivity, bind_eq_ok, raiseIf_eq_ok, exists_const, not_lt,
      Bool.not_eq_false] at hok
    exact ⟨hok.1, hok.2.1, hok.2.2.1⟩
  obtain ⟨hbounded, hsafe, hafter⟩ := hchecks
  obtain ⟨page', hpage, hrecords, hnumbers, hnext, hlatest, -, -⟩ :=
    h.listActivity_ok hbounded hafter hsafe limit
  obtain rfl : page' = page := Except.ok.inj (hpage.symm.trans hok)
  rw [h.latestChange_length] at hafter
  have hlength : page'.records.length =
      min (pageSize limit) ((publicVersions history user).length - after) := by
    have hlengths := congrArg List.length hrecords
    simpa using hlengths
  have htake : ((publicVersions history user).drop after).take (pageSize limit) =
      ((publicVersions history user).drop after).take page'.records.length := by
    rw [hlength, List.take_eq_take_min, List.length_drop]
  refine
    { records := by rw [hrecords, htake]
      numbered := hnumbers
      next := by rw [hnext, hlength]
      latest := hlatest
      reached := by rw [hnext]; omega
      small := by have := pageSize_le limit; omega }

/-- The row of a record at the end of the history is the stored one. -/
theorem rowAt_length (h : Ledger log history) {id : String} {v : PublicActivity} :
    rowAt (publicVersions history user) (publicVersions history user).length id = some v ↔
      ∃ r ∈ log.records.rows, r.userId = user ∧ r.id = id ∧ r.public = v := by
  rw [rowAt, List.take_length]
  constructor
  · intro hrow
    obtain ⟨hmem, hid⟩ := mem_of_current hrow
    obtain ⟨w, hw, rfl⟩ := List.mem_map.mp hmem
    obtain ⟨hwmem, hwuser⟩ := List.mem_filter.mp hw
    obtain ⟨r, hr, hrid⟩ := h.exists_row hwmem
    have huser : r.userId = user :=
      ((h.identity r (h.mem_history hr) w hwmem).mp hrid).1.trans (of_decide_eq_true hwuser)
    have hid' : r.id = id := hrid.trans hid
    refine ⟨r, hr, huser, hid', ?_⟩
    have hcurrent := h.current_row hr huser
    rw [hid', hrow] at hcurrent
    exact (Option.some.inj hcurrent).symm
  · rintro ⟨r, hr, huser, rfl, rfl⟩
    exact h.current_row hr huser

/-- A record that is in focus at the end of the history is among those that a snapshot selects. -/
theorem focused_of_open (h : Ledger log history) {id : String}
    (hopen : OpenAt (publicVersions history user) (publicVersions history user).length id) :
    ∃ r ∈ log.latestRows user, log.focused r = true ∧ r.id = id := by
  obtain ⟨v, hrow, hv⟩ := hopen
  obtain ⟨r, hr, huser, rfl, rfl⟩ := h.rowAt_length.mp hrow
  refine ⟨r, ActivityLog.mem_latestRows.mpr ⟨hr, huser⟩, ?_, rfl⟩
  rw [ActivityLog.focused, Bool.or_eq_true, Bool.and_eq_true, Bool.not_eq_true']
  rcases hv with hdecision | ⟨hobjective, hnone⟩
  · exact .inr hdecision
  · refine .inl ⟨hobjective, List.any_eq_false.mpr fun s hs => ?_⟩
    obtain ⟨hs, hsuser⟩ := ActivityLog.mem_rowsOf.mp hs
    rw [decide_eq_true_eq]
    rintro ⟨hsame, hended⟩
    have hended' := hnone s.id s.public
      (h.rowAt_length.mpr ⟨s, hs, hsuser.trans huser, rfl, rfl⟩) hsame
    exact absurd (hended.symm.trans hended') Bool.noConfusion

/-- What a snapshot holds. -/
theorem snapshotRead (h : Ledger log history) {before : Option ℕ} {projection : ActivityProjection}
    (hok : log.snapshotActivity rules user before limit = .ok projection) :
    SnapshotRead (publicVersions history user) projection := by
  have hrow : ∀ d ∈ projection.records ++ projection.focusRecords,
      current PublicActivity.id (publicVersions history user) d.activity.id = some d.activity ∧
        d.deliverySequence ≤ (publicVersions history user).length := by
    intro d hd
    obtain ⟨r, hr, huser, hdeliver⟩ := ActivityLog.mem_snapshotActivity hok hd
    obtain ⟨hactivity, hlast⟩ := ActivityLog.deliverRow_eq_ok.mp hdeliver
    refine ⟨by rw [hactivity]; exact h.current_row hr huser, ?_⟩
    obtain ⟨c, hc, hcuser, -, hsequence⟩ := ActivityLog.mem_of_lastChangeOf hlast
    have hmem : c.changeSequence ∈
        (log.changes.rows.filter (·.userId = user)).map (·.changeSequence) :=
      List.mem_map_of_mem (List.mem_filter.mpr ⟨hc, decide_eq_true (hcuser.trans huser)⟩)
    rw [h.numbered, List.mem_range'_1, ← h.latestChange_eq, h.latestChange_length] at hmem
    omega
  simp only [ActivityLog.snapshotActivity, bind_eq_ok, raiseIf_eq_ok, exists_const, pure_eq_ok]
    at hok
  obtain ⟨-, -, records, hrecords, focusRecords, hfocus, rfl⟩ := hok
  have hlength := (mapM_forall₂ hrecords).length_eq
  have hfocusLength := (mapM_forall₂ hfocus).length_eq
  refine
    { current := fun d hd => (hrow d hd).1
      reached := fun d hd => (hrow d hd).2.trans (h.latestChange_length user).ge
      cursor := h.latestChange_length user
      small := ?_
      focus := ?_
      before := ?_
      more := ?_
      focused := ?_ }
  · have := pageSize_le limit
    simp only [List.length_take] at hlength
    dsimp only
    omega
  · simp only [List.length_take] at hfocusLength
    dsimp only
    omega
  · intro n hn
    dsimp only at hn
    split at hn
    · obtain ⟨r, hr, rfl⟩ := Option.map_eq_some_iff.mp hn
      obtain ⟨d, hd, hdeliver⟩ := (mem_of_mapM hrecords).1 r (List.mem_of_getLast? hr)
      obtain ⟨hactivity, -⟩ := ActivityLog.deliverRow_eq_ok.mp hdeliver
      exact ⟨d, hd, by rw [hactivity]; rfl⟩
    · simp at hn
  · intro hmore
    have hlt := of_decide_eq_true hmore
    dsimp only
    rw [if_pos hlt, Option.isSome_map, List.getLast?_isSome]
    have hpos := pageSize_pos limit
    intro hempty
    have hzero := congrArg List.length hempty
    rw [List.length_take, List.length_nil] at hzero
    omega
  · intro htruncated id hopen
    obtain ⟨r, hr, hfocused, hid⟩ := h.focused_of_open hopen
    have hall : ((log.latestRows user).filter log.focused).length ≤ maxActivityFocusRecords := by
      have hle := of_decide_eq_false htruncated
      rw [List.length_take] at hle
      omega
    have hselected : r ∈ (((log.latestRows user).filter log.focused).take
        (maxActivityFocusRecords + 1)).take maxActivityFocusRecords := by
      rw [List.take_of_length_le (hall.trans (Nat.le_succ _)), List.take_of_length_le hall]
      exact List.mem_filter.mpr ⟨hr, hfocused⟩
    obtain ⟨d, hd, hdeliver⟩ := (mem_of_mapM hfocus).1 r hselected
    obtain ⟨hactivity, -⟩ := ActivityLog.deliverRow_eq_ok.mp hdeliver
    exact ⟨d, hd, by rw [hactivity]; exact hid⟩

end Ledger

end Magistrate
