import Magistrate.Core.Ranking
import Magistrate.Core.Versions
import Magistrate.Gateway.Activity.Publish

/-!
# The change ledger

The changes of a log list the versions of its records in the order in which they
were written, numbered for each user. A page of changes is read with the records
as they are at the time.
-/

namespace Magistrate

/-- `_public_activity` -/
structure PublicActivity where
  id : String
  sequence : ℕ
  revision : ℕ
  kind : String
  state : String
  importance : String
  title : String
  summary : String
  summaryTruncated : Bool
  taskId : Option String
  decisionKey : Option String
  objectiveId : Option String
  runId : Option String
  project : Option String
  occurredAt : Option ℕ
  observedAt : ℤ
  refs : List ActivityRef
  sourceInstanceId : String
  sourceEventId : Option String
  deriving DecidableEq, Repr

/-- What is public of a record. -/
def ActivityRecord.public (r : ActivityRecord) : PublicActivity where
  id := r.id
  sequence := r.sequenceIndex
  revision := r.revision
  kind := r.fields.kind
  state := r.fields.state
  importance := r.fields.importance
  title := r.fields.title
  summary := r.fields.summary
  summaryTruncated := r.fields.summaryTruncated
  taskId := r.fields.taskId
  decisionKey := r.fields.decisionKey
  objectiveId := r.fields.objectiveId
  runId := r.fields.runId
  project := r.fields.project
  occurredAt := r.fields.occurredAt
  observedAt := r.observedAt
  refs := decodeRefs r.fields.refs
  sourceInstanceId := r.sourceInstanceId
  sourceEventId := r.fields.sourceEventId

/-- A public activity with the number of the change that it is delivered for. -/
structure DeliveredActivity where
  activity : PublicActivity
  deliverySequence : ℕ
  deriving DecidableEq, Repr

/-- The result of `_activity_summary`. -/
structure ActivitySummary where
  activeObjectives : ℕ
  operationCount : ℕ
  pendingDecisions : ℕ
  deriving DecidableEq, Repr

/-- The result of `list_activity`. -/
structure ActivityPage where
  records : List DeliveredActivity
  nextCursor : ℕ
  latestCursor : ℕ
  hasMore : Bool
  summary : ActivitySummary
  deriving DecidableEq, Repr

/-- `MAX_ACTIVITY_PAGE` -/
def maxActivityPage : ℤ := 200

/-- The number of rows of a page. -/
def pageSize (limit : ℤ) : ℕ := (max 1 (min limit maxActivityPage)).toNat

namespace ActivityRecord

/-- The record is of an objective under way. -/
def objectiveOpen (r : ActivityRecord) : Bool :=
  r.fields.kind ∈ ["objective.started", "objective.progress", "objective.accepted"] ∧
    r.fields.state ∈ ["active", "awaiting-user"]

/-- The record is of the end of an objective. -/
def objectiveEnded (r : ActivityRecord) : Bool :=
  r.fields.kind ∈ ["objective.completed", "objective.failed", "objective.cancelled"] ∧
    r.fields.state ∈ ["completed", "failed", "cancelled"]

/-- The record is of an open decision. -/
def decisionOpen (r : ActivityRecord) : Bool :=
  r.fields.kind = "decision.requested" ∧ r.fields.state = "awaiting-user"

/-- The record is neither of an objective nor of a decision. -/
def operation (r : ActivityRecord) : Bool :=
  ¬"objective.".toList <+: r.fields.kind.toList ∧ ¬"decision.".toList <+: r.fields.kind.toList

/-- Two records of one objective. -/
def sameObjective (r s : ActivityRecord) : Bool :=
  r.fields.objectiveId ≠ none ∧ s.fields.objectiveId = r.fields.objectiveId

end ActivityRecord

namespace ActivityLog

/-- `_activity_summary` -/
def summary (log : ActivityLog) (user : String) : ActivitySummary :=
  let rows := log.records.rows.filter (·.userId = user)
  let ended (r : ActivityRecord) : Bool := rows.any fun s => r.sameObjective s ∧ s.objectiveEnded
  { activeObjectives :=
      ((rows.filter fun r => r.objectiveOpen ∧ r.fields.objectiveId ≠ none ∧ ¬ended r).map
        (·.fields.objectiveId)).dedup.length
    operationCount := rows.countP fun r =>
      r.operation ∧ (rows.any fun s => r.sameObjective s ∧ s.objectiveOpen) ∧ ¬ended r
    pendingDecisions := rows.countP (·.decisionOpen) }

/-- The changes of a user after a cursor, in order. -/
def changesAfter (log : ActivityLog) (user : String) (after : ℕ) : List ActivityChange :=
  (log.changes.rows.filter fun c => c.userId = user ∧ after < c.changeSequence).insertionSort
    fun c d => c.changeSequence ≤ d.changeSequence

/-- The records of changes, as they are now. -/
def deliver (log : ActivityLog) (user : String) :
    List ActivityChange → Except ExecutionFailure (List DeliveredActivity)
  | [] => .ok []
  | change :: changes => do
    match (log.records.find? change.recordId).filter (·.userId = user) with
    | none => .error (.runtimeError "The durable activity change ledger is inconsistent.")
    | some row =>
      raiseIf (row.revision < change.recordRevision)
        (.runtimeError "The durable activity change ledger is inconsistent.")
      let rest ← deliver log user changes
      return { activity := row.public, deliverySequence := change.changeSequence } :: rest

/-- `list_activity` -/
def listActivity (rules : PublishRules) (user : String) (after : ℕ) (limit : ℤ)
    (log : ActivityLog) : Except ExecutionFailure ActivityPage := do
  raiseIf (rules.bounded user 128 = false) (.valueError "A bounded tenant identity is required.")
  raiseIf (maxSafeInteger < after) (.valueError "Activity cursor is outside the supported range.")
  let changes := (log.changesAfter user after).take (pageSize limit + 1)
  let latestCursor := log.latestChange user
  raiseIf (latestCursor < after)
    (.valueError "Activity cursor is ahead of the durable change ledger.")
  let page := changes.take (pageSize limit)
  raiseIf (page.map (·.changeSequence) ≠ List.range' (after + 1) page.length)
    (.runtimeError "The durable activity change ledger is not contiguous.")
  let records ← log.deliver user page
  return {
    records
    nextCursor := (page.getLast?.map (·.changeSequence)).getD after
    latestCursor
    hasMore := pageSize limit < changes.length
    summary := log.summary user }

/-- A write of a version: a new record, or a new revision of the record under its key. -/
structure Appended (log log' : ActivityLog) (r : ActivityRecord) : Prop where
  source : (log.recordOf r.userId r.sourceInstanceId r.recordKey = none ∧
      log.records.find? r.id = none ∧ r.revision = 1 ∧
      r.sequenceIndex = log.nextSequence r.userId) ∨
    ∃ old, log.recordOf r.userId r.sourceInstanceId r.recordKey = some old ∧
      old.fields ≠ r.fields ∧
      r = { old with
        revision := old.revision + 1
        fields := r.fields
        observedAt := r.observedAt
        updatedAt := r.updatedAt }
  records : ∀ id, log'.records.find? id = if r.id = id then some r else log.records.find? id
  changes : ∃ now, log'.changes.rows = log.changes.rows ++
    [⟨r.userId, log.latestChange r.userId + 1, r.id, r.revision, now⟩]

/-- The writes of versions, one after another. -/
inductive Written : ActivityLog → List ActivityRecord → ActivityLog → Prop where
  | nil (log : ActivityLog) : Written log [] log
  | cons {log mid log' : ActivityLog} {r : ActivityRecord} {versions : List ActivityRecord} :
      log.Appended mid r → Written mid versions log' → Written log (r :: versions) log'

section Writes

variable {log log' : ActivityLog} {recordId : String → String → String → String}
  {user source recordKey : String} {fields : ActivityFields} {observedAt now : ℤ}
  {r : ActivityRecord}

/-- One write. -/
theorem Written.single (h : log.Appended log' r) : Written log [r] log' := .cons h (.nil log')

/-- Writes after others. -/
theorem Written.append {mid : ActivityLog} {first second : List ActivityRecord}
    (h : Written log first mid) (h' : Written mid second log') :
    Written log (first ++ second) log' := by
  induction h with
  | nil => exact h'
  | cons happended _ ih => exact .cons happended (ih h')

/-- A recorded change is the next one. -/
theorem rows_recordChange (h : log.recordChange r now = .ok log') :
    log'.records = log.records ∧ log'.changes.rows = log.changes.rows ++
      [⟨r.userId, log.latestChange r.userId + 1, r.id, r.revision, now⟩] := by
  simp only [recordChange, bind_eq_ok, raiseIf_eq_ok, pure_eq_ok, exists_const, not_not] at h
  obtain ⟨-, hfree, rfl⟩ := h
  exact ⟨rfl, Table.rows_insertOrIgnore hfree⟩

/-- The record under a key is stored under it. -/
theorem recordOf_eq_some (h : log.recordOf user source recordKey = some r) :
    r ∈ log.records.rows ∧ r.userId = user ∧ r.sourceInstanceId = source ∧
      r.recordKey = recordKey := by
  have hfound := List.find?_some h
  exact ⟨List.mem_of_find?_eq_some h, of_decide_eq_true hfound⟩

/-- A write returns the record that has the fields, or appends a version of it. -/
theorem write_cases
    (h : log.write recordId user source recordKey fields observedAt now = .ok (r, log')) :
    r.userId = user ∧ r.sourceInstanceId = source ∧ r.recordKey = recordKey ∧
      r.fields = fields ∧
      (log' = log ∧ log.recordOf user source recordKey = some r ∨ log.Appended log' r) := by
  unfold write at h
  split at h
  · next old hold =>
    obtain ⟨hmem, huser, hsource, hkey⟩ := recordOf_eq_some hold
    split at h
    · next hsame =>
      simp only [pure_eq_ok, Prod.mk.injEq] at h
      obtain ⟨rfl, rfl⟩ := h
      exact ⟨huser, hsource, hkey, hsame, .inl ⟨rfl, hold⟩⟩
    · next hne =>
      simp only [bind_eq_ok, pure_eq_ok, Prod.mk.injEq] at h
      obtain ⟨last, hrecord, rfl, rfl⟩ := h
      obtain ⟨hrecords, hchanges⟩ := rows_recordChange hrecord
      refine ⟨huser, hsource, hkey, rfl, .inr ⟨.inr ⟨old, ?_, hne, rfl⟩, fun id => ?_, ?_⟩⟩
      · simpa only [huser, hsource, hkey] using hold
      · rw [hrecords, Table.find?_update]
        by_cases hid : old.id = id
        · subst hid
          simp [Table.find?_of_mem hmem]
        · simp [hid, Ne.symm hid]
      · exact ⟨now, hchanges⟩
  · next hnone =>
    simp only [bind_eq_ok, raiseIf_eq_ok, exists_const, pure_eq_ok, not_not, Prod.mk.injEq] at h
    obtain ⟨hfree, last, hrecord, rfl, rfl⟩ := h
    obtain ⟨hrecords, hchanges⟩ := rows_recordChange hrecord
    refine ⟨rfl, rfl, rfl, rfl, .inr ⟨.inl ⟨hnone, hfree, rfl, rfl⟩, fun id => ?_, now, hchanges⟩⟩
    rw [hrecords, Table.find?_insertOrIgnore]
    by_cases hid : recordId user source recordKey = id
    · subst hid
      simp [hfree]
    · simp [hid]

end Writes

end ActivityLog

/-- A log is the ledger of the versions of its records, in the order of their writes. -/
structure Ledger (log : ActivityLog) (history : List ActivityRecord) : Prop where
  revised : Revised ActivityRecord.id ActivityRecord.revision history
  records : ∀ id, log.records.find? id = current ActivityRecord.id history id
  entries : (log.changes.rows.map fun c => (c.userId, c.recordId, c.recordRevision)) =
    history.map fun v => (v.userId, v.id, v.revision)
  numbered : ∀ user, (log.changes.rows.filter (·.userId = user)).map (·.changeSequence) =
    List.range' 1 (history.countP (·.userId = user))
  identity : ∀ v ∈ history, ∀ w ∈ history, v.id = w.id ↔ v.userId = w.userId ∧
    v.sourceInstanceId = w.sourceInstanceId ∧ v.recordKey = w.recordKey
  sequences : ∀ v ∈ history, ∀ w ∈ history, v.userId = w.userId →
    (v.sequenceIndex = w.sequenceIndex ↔ v.id = w.id)

/-- The versions of the records of a user. -/
def userVersions (history : List ActivityRecord) (user : String) : List ActivityRecord :=
  history.filter (·.userId = user)

/-- The versions of a user's records, as the public sees them. -/
def publicVersions (history : List ActivityRecord) (user : String) : List PublicActivity :=
  (userVersions history user).map (·.public)

namespace Ledger

variable {log log' : ActivityLog} {history : List ActivityRecord} {r v : ActivityRecord}
  {user source recordKey : String}

/-- The log of a new database. -/
theorem nil : Ledger ⟨.empty, .empty⟩ [] where
  revised := .nil
  records _ := rfl
  entries := rfl
  numbered _ := rfl
  identity := by simp
  sequences := by simp

/-- The stored rows are the current versions. -/
theorem mem_records (h : Ledger log history) :
    r ∈ log.records.rows ↔ current ActivityRecord.id history r.id = some r := by
  rw [← h.records, Table.find?_eq_some_iff, and_iff_left rfl]

/-- A stored row is a version. -/
theorem mem_history (h : Ledger log history) (hr : r ∈ log.records.rows) : r ∈ history :=
  (mem_of_current (h.mem_records.mp hr)).1

/-- A version is of a stored row. -/
theorem exists_row (h : Ledger log history) (hv : v ∈ history) :
    ∃ r ∈ log.records.rows, r.id = v.id := by
  obtain ⟨r, hr⟩ := exists_current ActivityRecord.id hv
  have hid := (mem_of_current hr).2
  exact ⟨r, h.mem_records.mpr (hid ▸ hr), hid⟩

/-- The last number of a user counts the versions of the user. -/
theorem latestChange_eq (h : Ledger log history) (user : String) :
    log.latestChange user = history.countP (·.userId = user) := by
  rw [ActivityLog.latestChange, h.numbered, foldr_max_range']

/-- The next position of a user is free. -/
theorem lt_nextSequence (hr : r ∈ log.records.rows) :
    r.sequenceIndex < log.nextSequence r.userId := by
  refine Nat.lt_succ_of_le (le_foldr_max (List.mem_map.mpr ⟨r, ?_, rfl⟩))
  simpa using hr

/-- The record under a key is the current version of it. -/
theorem recordOf_iff (h : Ledger log history) :
    log.recordOf user source recordKey = some r ↔ r ∈ log.records.rows ∧ r.userId = user ∧
      r.sourceInstanceId = source ∧ r.recordKey = recordKey := by
  refine ⟨ActivityLog.recordOf_eq_some, fun ⟨hmem, hkeys⟩ => ?_⟩
  cases hfound : log.recordOf user source recordKey with
  | none =>
    rw [ActivityLog.recordOf, List.find?_eq_none] at hfound
    exact absurd (decide_eq_true hkeys) (hfound r hmem)
  | some s =>
    obtain ⟨hs, huser, hsource, hkey⟩ := ActivityLog.recordOf_eq_some hfound
    have hid : s.id = r.id := (h.identity s (h.mem_history hs) r (h.mem_history hmem)).mpr
      ⟨huser.trans hkeys.1.symm, hsource.trans hkeys.2.1.symm, hkey.trans hkeys.2.2.symm⟩
    rw [Table.eq_of_mem hs hmem hid]

/-- No version has the identity of a record that is not there. -/
theorem recordOf_none (h : Ledger log history)
    (hnone : log.recordOf user source recordKey = none) (hv : v ∈ history) :
    ¬(v.userId = user ∧ v.sourceInstanceId = source ∧ v.recordKey = recordKey) := by
  rintro ⟨huser, hsource, hkey⟩
  obtain ⟨r, hr, hid⟩ := h.exists_row hv
  obtain ⟨hu, hs, hk⟩ := (h.identity r (h.mem_history hr) v hv).mp hid
  rw [ActivityLog.recordOf, List.find?_eq_none] at hnone
  exact hnone r hr (decide_eq_true ⟨hu.trans huser, hs.trans hsource, hk.trans hkey⟩)

/-- The number of a written version. -/
theorem revision_appended (h : Ledger log history) (happended : log.Appended log' r) :
    r.revision = history.countP (fun w => w.id = r.id) + 1 := by
  rcases happended.source with ⟨-, hfree, hrevision, -⟩ | ⟨old, hold, -, heq⟩
  · rw [h.records, current_eq_none] at hfree
    rw [hrevision, List.countP_eq_zero.mpr fun w hw => by simpa using hfree w hw]
  · have hid : r.id = old.id := by rw [heq]
    have hrevision : r.revision = old.revision + 1 := by rw [heq]
    have hcurrent := h.mem_records.mp (ActivityLog.recordOf_eq_some hold).1
    rw [hrevision, h.revised.revision_current hcurrent, hid]

/-- A written version has the identity and the position of the versions with its id, and no others
have them. -/
theorem identity_appended (h : Ledger log history) (happended : log.Appended log' r)
    (hv : v ∈ history) :
    (v.id = r.id ↔ v.userId = r.userId ∧ v.sourceInstanceId = r.sourceInstanceId ∧
      v.recordKey = r.recordKey) ∧
    (v.userId = r.userId → (v.sequenceIndex = r.sequenceIndex ↔ v.id = r.id)) := by
  rcases happended.source with ⟨hnone, hfree, -, hsequence⟩ | ⟨old, hold, -, heq⟩
  · have hid : v.id ≠ r.id := by
      rw [h.records, current_eq_none] at hfree
      exact hfree v hv
    refine ⟨iff_of_false hid (h.recordOf_none hnone hv), fun huser => iff_of_false ?_ hid⟩
    obtain ⟨s, hs, hsame⟩ := h.exists_row hv
    have hs' := h.mem_history hs
    obtain ⟨hsuser, -, -⟩ := (h.identity s hs' v hv).mp hsame
    have hlt := lt_nextSequence hs
    rw [(h.sequences s hs' v hv hsuser).mpr hsame, hsuser, huser] at hlt
    omega
  · have hmem := h.mem_history (ActivityLog.recordOf_eq_some hold).1
    rw [heq]
    exact ⟨h.identity v hv old hmem, h.sequences v hv old hmem⟩

/-- A write adds its version to the history. -/
theorem append (h : Ledger log history) (happended : log.Appended log' r) :
    Ledger log' (history ++ [r]) where
  revised := h.revised.concat (h.revision_appended happended)
  records id := by rw [happended.records, current_concat, h.records]
  entries := by
    obtain ⟨now, hchanges⟩ := happended.changes
    rw [hchanges, List.map_append, List.map_append, h.entries]
    rfl
  numbered user := by
    obtain ⟨now, hchanges⟩ := happended.changes
    rw [hchanges, List.filter_append, List.map_append, h.numbered, List.countP_append]
    by_cases huser : r.userId = user
    · rw [List.countP_singleton, if_pos (by simpa using huser), List.range'_concat,
        h.latestChange_eq, huser]
      simp [Nat.add_comm]
    · simp [huser]
  identity v hv w hw := by
    rw [List.mem_append, List.mem_singleton] at hv hw
    rcases hv with hv | rfl <;> rcases hw with hw | rfl
    · exact h.identity v hv w hw
    · exact (h.identity_appended happended hv).1
    · rw [eq_comm, (h.identity_appended happended hw).1]
      tauto
    · simp
  sequences v hv w hw huser := by
    rw [List.mem_append, List.mem_singleton] at hv hw
    rcases hv with hv | rfl <;> rcases hw with hw | rfl
    · exact h.sequences v hv w hw huser
    · exact (h.identity_appended happended hv).2 huser
    · rw [eq_comm, (h.identity_appended happended hw).2 huser.symm, eq_comm]
    · simp

/-- After a write, its version is the record under its key; the records under other keys stay. -/
theorem recordOf_appended (h : Ledger log history) (happended : log.Appended log' r)
    (recordKey : String) : log'.recordOf r.userId r.sourceInstanceId recordKey =
      if r.recordKey = recordKey then some r
      else log.recordOf r.userId r.sourceInstanceId recordKey := by
  have h' := h.append happended
  have hself : r ∈ log'.records.rows := by
    rw [h'.mem_records, current_concat, if_pos rfl]
  split
  · next hkey => exact h'.recordOf_iff.mpr ⟨hself, rfl, rfl, hkey⟩
  · next hkey =>
    refine Option.ext fun s => ?_
    rw [h'.recordOf_iff, h.recordOf_iff]
    refine and_congr_left fun ⟨huser, hsource, hsame⟩ => ?_
    rw [← Table.find?_eq_some_iff.trans (and_iff_left rfl),
      ← Table.find?_eq_some_iff.trans (and_iff_left rfl), happended.records]
    by_cases hid : r.id = s.id
    · rw [if_pos hid]
      refine iff_of_false (fun heq => ?_) fun hs => ?_
      · exact hkey ((congrArg ActivityRecord.recordKey (Option.some.inj heq)).trans hsame)
      · obtain ⟨hs, -⟩ := Table.mem_of_find? hs
        obtain ⟨-, -, hkeys⟩ := (h.identity_appended happended (h.mem_history hs)).1.mp hid.symm
        exact hkey (hkeys.symm.trans hsame)
    · rw [if_neg hid]

/-- Writes add their versions to the history. -/
theorem written (h : Ledger log history) {versions : List ActivityRecord}
    (hwritten : ActivityLog.Written log versions log') : Ledger log' (history ++ versions) := by
  induction hwritten generalizing history with
  | nil => simpa using h
  | cons happended _ ih => simpa using ih (h.append happended)

/-- The versions of a record are versions of one user. -/
theorem current_userVersions (h : Ledger log history) (hv : v ∈ userVersions history user) :
    current ActivityRecord.id (userVersions history user) v.id =
      current ActivityRecord.id history v.id := by
  obtain ⟨hmem, huser⟩ := List.mem_filter.mp hv
  rw [current, current, userVersions, List.filter_filter]
  congr 1
  refine List.filter_congr fun w hw => ?_
  by_cases hid : w.id = v.id
  · have hsame := ((h.identity w hw v hmem).mp hid).1
    simp [hid, hsame, of_decide_eq_true huser]
  · simp [hid]

/-- The public versions of a user's records are numbered. -/
theorem revised_publicVersions (h : Ledger log history) (user : String) :
    Revised PublicActivity.id PublicActivity.revision (publicVersions history user) := by
  refine Revised.map (h.revised.filter fun v hv w hw hid => ?_) (fun _ => rfl) fun _ => rfl
  rw [((h.identity v hv w hw).mp hid).1]

/-- The changes of a user are the versions of the user's records. -/
theorem userEntries (h : Ledger log history) (user : String) :
    ((log.changes.rows.filter (·.userId = user)).map fun c => (c.recordId, c.recordRevision)) =
      (userVersions history user).map fun v => (v.id, v.revision) := by
  have hentries := congrArg (fun l => (l.filter fun e => e.1 = user).map Prod.snd) h.entries
  simp only [List.filter_map, List.map_map] at hentries
  exact hentries

section Numbered

variable {α : Type*} {number : α → ℕ} {l : List α} {n : ℕ}

/-- A row that is numbered from one on has the number of its place. -/
theorem number_getElem (h : l.map number = List.range' 1 n) {i : ℕ} (hi : i < l.length) :
    number l[i] = i + 1 := by
  have hget : (l.map number)[i]? = (List.range' 1 n)[i]? := by rw [h]
  have hlength : l.length = n := by simpa using congrArg List.length h
  rw [List.getElem?_map, List.getElem?_eq_getElem hi, List.getElem?_range' (by omega)] at hget
  simpa [Nat.add_comm] using hget

/-- Rows that are numbered from one on come in the order of their numbers. -/
theorem filter_numbered (after : ℕ) (h : l.map number = List.range' 1 n) :
    l.filter (after < number ·) = l.drop after := by
  have htake : (l.take after).filter (after < number ·) = [] := by
    refine List.filter_eq_nil_iff.mpr fun a ha => ?_
    obtain ⟨i, hi, rfl⟩ := List.mem_iff_getElem.mp ha
    rw [List.length_take] at hi
    rw [List.getElem_take, number_getElem h]
    simp only [decide_eq_true_eq]
    omega
  have hdrop : (l.drop after).filter (after < number ·) = l.drop after := by
    refine List.filter_eq_self.mpr fun a ha => ?_
    obtain ⟨i, hi, rfl⟩ := List.mem_iff_getElem.mp ha
    rw [List.getElem_drop, number_getElem h]
    simp only [decide_eq_true_eq]
    omega
  calc l.filter (after < number ·)
      = (l.take after ++ l.drop after).filter (after < number ·) := by rw [List.take_append_drop]
    _ = l.drop after := by rw [List.filter_append, htake, hdrop, List.nil_append]

/-- A page of rows that are numbered from one on. -/
theorem map_page (after size : ℕ) (h : l.map number = List.range' 1 n) :
    ((l.drop after).take size).map number =
      List.range' (after + 1) ((l.drop after).take size).length := by
  refine List.ext_getElem (by simp) fun i hi hi' => ?_
  rw [List.getElem_map, List.getElem_take, List.getElem_drop, number_getElem h,
    List.getElem_range']
  omega

end Numbered

/-- The changes after a cursor are those that follow it in the table. -/
theorem changesAfter_eq (h : Ledger log history) (user : String) (after : ℕ) :
    log.changesAfter user after = (log.changes.rows.filter (·.userId = user)).drop after := by
  have hnumbered := h.numbered user
  have hfilter : (log.changes.rows.filter fun c => c.userId = user ∧ after < c.changeSequence) =
      (log.changes.rows.filter (·.userId = user)).drop after := by
    rw [← filter_numbered after hnumbered, List.filter_filter]
    refine List.filter_congr fun c _ => ?_
    rw [Bool.decide_and, Bool.and_comm]
  have hsorted : (log.changes.rows.filter (·.userId = user)).Pairwise
      fun c d => c.changeSequence ≤ d.changeSequence := by
    rw [← List.pairwise_map (R := fun m n : ℕ => m ≤ n), hnumbered]
    exact (List.pairwise_lt_range' (s := 1) (n := _)).imp Nat.le_of_lt
  rw [ActivityLog.changesAfter, hfilter]
  exact List.Pairwise.insertionSort_eq (hsorted.sublist (List.drop_sublist after _))

/-- Changes whose records are there are delivered with them. -/
theorem deliver_eq_ok {changes : List ActivityChange}
    (hrows : ∀ c ∈ changes, ∃ row, log.records.find? c.recordId = some row ∧
      row.userId = user ∧ c.recordRevision ≤ row.revision) :
    ∃ records, log.deliver user changes = .ok records ∧
      records.map (fun d => some d.activity) =
        changes.map (fun c => (log.records.find? c.recordId).map (·.public)) ∧
      records.map (·.deliverySequence) = changes.map (·.changeSequence) := by
  induction changes with
  | nil => exact ⟨[], rfl, rfl, rfl⟩
  | cons change changes ih =>
    obtain ⟨row, hfound, huser, hrevision⟩ := hrows change List.mem_cons_self
    obtain ⟨records, hrecords, hactivities, hsequences⟩ :=
      ih fun c hc => hrows c (List.mem_cons_of_mem _ hc)
    refine ⟨⟨row.public, change.changeSequence⟩ :: records, ?_, ?_, ?_⟩
    · rw [ActivityLog.deliver, hfound, Option.filter_some, if_pos (by simpa using huser)]
      simp only [raiseIf_ok (not_lt.mpr hrevision), hrecords, ok_bind]
      rfl
    · simp [hfound, hactivities]
    · simp [hsequences]

/-- The record of a version is the current public version of it. -/
theorem find?_public (h : Ledger log history) (hv : v ∈ userVersions history user) :
    (log.records.find? v.id).map (·.public) =
      current PublicActivity.id (publicVersions history user) v.id := by
  have hmap : current PublicActivity.id ((userVersions history user).map
    ActivityRecord.public) v.id =
      (current ActivityRecord.id (userVersions history user) v.id).map ActivityRecord.public :=
    current_map fun _ => rfl
  rw [h.records, ← h.current_userVersions hv]
  exact hmap.symm

/-- A change of a user is of a version of a record that is there. -/
theorem exists_changed (h : Ledger log history) {c : ActivityChange}
    (hc : c ∈ log.changes.rows.filter (·.userId = user)) :
    ∃ row, log.records.find? c.recordId = some row ∧ row.userId = user ∧
      c.recordRevision ≤ row.revision := by
  have hentry : (c.recordId, c.recordRevision) ∈
      (log.changes.rows.filter (·.userId = user)).map fun c => (c.recordId, c.recordRevision) :=
    List.mem_map_of_mem hc
  rw [h.userEntries, List.mem_map] at hentry
  obtain ⟨v, hv, heq⟩ := hentry
  obtain ⟨hid, hrevision⟩ := Prod.mk.inj heq
  obtain ⟨hmem, huser⟩ := List.mem_filter.mp hv
  obtain ⟨row, hrow⟩ := exists_current ActivityRecord.id hmem
  obtain ⟨hrowmem, hrowid⟩ := mem_of_current hrow
  refine ⟨row, by rw [h.records, ← hid, hrow], ?_, ?_⟩
  · rw [((h.identity row hrowmem v hmem).mp hrowid).1]
    exact of_decide_eq_true huser
  · rw [h.revised.revision_current hrow, ← hrevision]
    exact h.revised.revision_le hmem

/-- The records of a page of changes are the current ones of their versions. -/
theorem records_page (h : Ledger log history) (user : String) (after size : ℕ) :
    (((log.changes.rows.filter (·.userId = user)).drop after).take size).map (fun c =>
        (log.records.find? c.recordId).map (·.public)) =
      (((publicVersions history user).drop after).take size).map fun v =>
        current PublicActivity.id (publicVersions history user) v.id := by
  have hids : ((log.changes.rows.filter (·.userId = user)).map (·.recordId)) =
      (userVersions history user).map (·.id) := by
    have hentries := congrArg (List.map Prod.fst) (h.userEntries user)
    simpa only [List.map_map, Function.comp_def] using hentries
  calc _ = ((((log.changes.rows.filter (·.userId = user)).map (·.recordId)).drop after).take
        size).map fun id => (log.records.find? id).map (·.public) := by
        simp only [← List.map_drop, ← List.map_take, List.map_map, Function.comp_def]
    _ = (((userVersions history user).drop after).take size).map fun v =>
        (log.records.find? v.id).map (·.public) := by
        rw [hids]
        simp only [← List.map_drop, ← List.map_take, List.map_map, Function.comp_def]
    _ = (((userVersions history user).drop after).take size).map fun v =>
        current PublicActivity.id (publicVersions history user) v.id :=
      List.map_congr_left fun v hv =>
        h.find?_public (List.mem_of_mem_drop (List.mem_of_mem_take hv))
    _ = _ := by
      simp only [publicVersions, ← List.map_drop, ← List.map_take, List.map_map,
        Function.comp_def]
      rfl

/-- A page of the changes of a user after a cursor up to the last one: it is read without an error,
with the records as they are. -/
theorem listActivity_ok (h : Ledger log history) {rules : PublishRules} {after : ℕ}
    (hbounded : rules.bounded user 128 = true) (hafter : after ≤ log.latestChange user)
    (hsafe : after ≤ maxSafeInteger) (limit : ℤ) :
    ∃ page, log.listActivity rules user after limit = .ok page ∧
      page.records.map (fun d => some d.activity) =
        (((publicVersions history user).drop after).take (pageSize limit)).map (fun v =>
          current PublicActivity.id (publicVersions history user) v.id) ∧
      page.records.map (·.deliverySequence) = List.range' (after + 1) page.records.length ∧
      page.nextCursor =
        after + min (pageSize limit) ((publicVersions history user).length - after) ∧
      page.latestCursor = (publicVersions history user).length ∧
      page.hasMore = decide (after + pageSize limit < (publicVersions history user).length) ∧
      page.summary = log.summary user := by
  have hnumbered := h.numbered user
  have hread := h.records_page user after (pageSize limit)
  have hcount : history.countP (·.userId = user) = (publicVersions history user).length := by
    rw [publicVersions, userVersions, List.length_map, List.countP_eq_length_filter]
  have hlatest : log.latestChange user = (publicVersions history user).length := by
    rw [h.latestChange_eq, hcount]
  have hchanged : ∀ c ∈ ((log.changes.rows.filter (·.userId = user)).drop after).take
      (pageSize limit), _ := fun c hc =>
    h.exists_changed (List.mem_of_mem_drop (List.mem_of_mem_take hc))
  rw [← h.changesAfter_eq] at hread hchanged
  have hlength : (log.changesAfter user after).length =
      (publicVersions history user).length - after := by
    have hlengths := congrArg List.length hnumbered
    rw [List.length_map, List.length_range', hcount] at hlengths
    rw [h.changesAfter_eq, List.length_drop, hlengths]
  have hpage : ((log.changesAfter user after).take (pageSize limit + 1)).take (pageSize limit) =
      (log.changesAfter user after).take (pageSize limit) := by
    rw [List.take_take, min_eq_left (Nat.le_succ _)]
  have hnumbers : ((log.changesAfter user after).take (pageSize limit)).map (·.changeSequence) =
      List.range' (after + 1) ((log.changesAfter user after).take (pageSize limit)).length := by
    rw [h.changesAfter_eq]
    exact map_page after (pageSize limit) hnumbered
  obtain ⟨records, hdelivered, hactivities, hsequences⟩ := deliver_eq_ok hchanged
  have hlist : log.listActivity rules user after limit = .ok
      { records
        nextCursor := ((((log.changesAfter user after).take (pageSize limit)).getLast?).map
          (·.changeSequence)).getD after
        latestCursor := log.latestChange user
        hasMore := pageSize limit < ((log.changesAfter user after).take (pageSize limit + 1)).length
        summary := log.summary user } := by
    simp only [ActivityLog.listActivity, hbounded, hpage]
    rw [raiseIf_ok (by simp), raiseIf_ok (not_lt.mpr hsafe), raiseIf_ok (not_lt.mpr hafter),
      raiseIf_ok (not_not.mpr hnumbers), hdelivered]
    rfl
  refine ⟨_, hlist, hactivities.trans hread, ?_, ?_, hlatest, ?_, rfl⟩
  · have hsame := congrArg List.length hsequences
    rw [List.length_map, List.length_map] at hsame
    rw [hsequences, hnumbers, hsame]
  · dsimp only
    rw [← List.getLast?_map, hnumbers, List.length_take, hlength]
    cases hmin : min (pageSize limit) ((publicVersions history user).length - after) with
    | zero => rfl
    | succ m =>
      rw [List.range'_concat, List.getLast?_concat, Option.getD_some]
      omega
  · rw [List.length_take, hlength, decide_eq_decide]
    omega

end Ledger

end Magistrate
