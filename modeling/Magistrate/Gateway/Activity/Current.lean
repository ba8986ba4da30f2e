import Magistrate.Gateway.Activity.Fleet
import Magistrate.Gateway.Activity.Replay

/-!
# The current activity of a user

A snapshot pages the records as they are, the latest insertions first, with those in
focus and with the number of the last change that it includes.
-/

namespace Magistrate

/-- The result of `snapshot_activity`. -/
structure ActivityProjection where
  records : List DeliveredActivity
  focusRecords : List DeliveredActivity
  focusTruncated : Bool
  snapshotCursor : ℕ
  latestSequence : ℕ
  nextBefore : Option ℕ
  hasMore : Bool
  summary : ActivitySummary
  deriving DecidableEq, Repr

namespace ActivityLog

/-- The records of a user. -/
def rowsOf (log : ActivityLog) (user : String) : List ActivityRecord :=
  log.records.rows.filter (·.userId = user)

/-- The records of a user, the latest insertions first. -/
def latestRows (log : ActivityLog) (user : String) : List ActivityRecord :=
  (log.rowsOf user).insertionSort fun r s => s.sequenceIndex ≤ r.sequenceIndex

/-- The record is of an open decision, or of an objective under way of which no record is the end.
-/
def focused (log : ActivityLog) (r : ActivityRecord) : Bool :=
  (r.objectiveOpen && !(log.rowsOf r.userId).any fun s => r.sameObjective s ∧ s.objectiveEnded) ||
    r.decisionOpen

/-- The number of the last change of a record. -/
def lastChangeOf (log : ActivityLog) (r : ActivityRecord) : Option ℕ :=
  ((log.changes.rows.filter fun c => c.userId = r.userId ∧ c.recordId = r.id).map
    (·.changeSequence)).max?

/-- `deliver`: a record with the number of its last change. -/
def deliverRow (log : ActivityLog) (r : ActivityRecord) :
    Except ExecutionFailure DeliveredActivity := do
  let deliverySequence ← orRaise (log.lastChangeOf r)
    (.runtimeError "A canonical activity row has no durable change identity.")
  return { activity := r.public, deliverySequence }

/-- `snapshot_activity` -/
def snapshotActivity (rules : PublishRules) (user : String) (before : Option ℕ) (limit : ℤ)
    (log : ActivityLog) : Except ExecutionFailure ActivityProjection := do
  raiseIf (rules.bounded user 128 = false) (.valueError "A bounded tenant identity is required.")
  raiseIf (before.any fun cursor => cursor < 1 ∨ maxSafeInteger < cursor)
    (.valueError "Activity snapshot cursor is outside the supported range.")
  let latestSequence := ((log.rowsOf user).map (·.sequenceIndex)).foldr max 0
  let pageBefore := before.getD (latestSequence + 1)
  let rows := ((log.latestRows user).filter (·.sequenceIndex < pageBefore)).take
    (pageSize limit + 1)
  let page := rows.take (pageSize limit)
  let focusRows := ((log.latestRows user).filter log.focused).take (maxActivityFocusRecords + 1)
  let records ← page.mapM log.deliverRow
  let focusRecords ← (focusRows.take maxActivityFocusRecords).mapM log.deliverRow
  return {
    records
    focusRecords
    focusTruncated := maxActivityFocusRecords < focusRows.length
    snapshotCursor := log.latestChange user
    latestSequence
    nextBefore := if pageSize limit < rows.length then page.getLast?.map (·.sequenceIndex) else none
    hasMore := pageSize limit < rows.length
    summary := log.summary user }

section Rows

variable {log : ActivityLog} {user : String} {r : ActivityRecord}

@[simp] theorem mem_rowsOf : r ∈ log.rowsOf user ↔ r ∈ log.records.rows ∧ r.userId = user := by
  simp [rowsOf]

@[simp] theorem mem_latestRows :
    r ∈ log.latestRows user ↔ r ∈ log.records.rows ∧ r.userId = user := by
  rw [latestRows, (List.perm_insertionSort _ _).mem_iff, mem_rowsOf]

/-- What is delivered for a row: the row, under the number of its last change. -/
theorem deliverRow_eq_ok {delivered : DeliveredActivity} :
    log.deliverRow r = .ok delivered ↔
      delivered.activity = r.public ∧ log.lastChangeOf r = some delivered.deliverySequence := by
  simp only [deliverRow, bind_eq_ok, orRaise_eq_ok, pure_eq_ok]
  constructor
  · rintro ⟨n, hlast, rfl⟩
    exact ⟨rfl, hlast⟩
  · rintro ⟨hactivity, hlast⟩
    exact ⟨_, hlast, by rw [← hactivity]⟩

/-- The last change of a record is one of its changes. -/
theorem mem_of_lastChangeOf {n : ℕ} (h : log.lastChangeOf r = some n) :
    ∃ c ∈ log.changes.rows, c.userId = r.userId ∧ c.recordId = r.id ∧ c.changeSequence = n := by
  have hmem := List.max?_mem h
  simp only [List.mem_map, List.mem_filter, decide_eq_true_eq] at hmem
  obtain ⟨c, ⟨hc, huser, hid⟩, hsequence⟩ := hmem
  exact ⟨c, hc, huser, hid, hsequence⟩

/-- Every record of a snapshot is a row of the user, under the number of its last change. -/
theorem mem_snapshotActivity {rules : PublishRules} {before : Option ℕ} {limit : ℤ}
    {projection : ActivityProjection} {delivered : DeliveredActivity}
    (h : log.snapshotActivity rules user before limit = .ok projection)
    (hmem : delivered ∈ projection.records ++ projection.focusRecords) :
    ∃ r ∈ log.records.rows, r.userId = user ∧ log.deliverRow r = .ok delivered := by
  simp only [snapshotActivity, bind_eq_ok, raiseIf_eq_ok, exists_const, pure_eq_ok] at h
  obtain ⟨-, -, records, hrecords, focusRecords, hfocus, rfl⟩ := h
  rcases List.mem_append.mp hmem with hpage | hfocus'
  · obtain ⟨r, hr, hdeliver⟩ := (mem_of_mapM hrecords).2 delivered hpage
    have hr' := List.mem_of_mem_filter (List.mem_of_mem_take (List.mem_of_mem_take hr))
    exact ⟨r, (mem_latestRows.mp hr').1, (mem_latestRows.mp hr').2, hdeliver⟩
  · obtain ⟨r, hr, hdeliver⟩ := (mem_of_mapM hfocus).2 delivered hfocus'
    have hr' := List.mem_of_mem_filter (List.mem_of_mem_take (List.mem_of_mem_take hr))
    exact ⟨r, (mem_latestRows.mp hr').1, (mem_latestRows.mp hr').2, hdeliver⟩

end Rows

end ActivityLog

end Magistrate
