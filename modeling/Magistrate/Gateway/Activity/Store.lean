import Magistrate.Gateway.Activity.Journal
import Magistrate.Gateway.Activity.Ledger

/-!
# The activity store

Journal batches, snapshots, execution events and faults, each in one transaction
on the source tables and the activity log. A batch stores its events, publishes
their activity and moves the cursor together; a snapshot publishes current facts
and closes the decisions that are no longer open.
-/

namespace Magistrate

/-- The snapshot columns of a source. -/
structure SnapshotMark where
  source : SourceKey
  lastSnapshotAt : ℕ
  snapshotSha256 : String
  deriving DecidableEq, Repr

/-- The tables that the activity store writes, with the execution tables whose events it publishes.
-/
structure ActivityDatabase where
  sources : ActivitySources
  marks : Table SnapshotMark.source
  execution : Execution

/-- The tables of a new database. -/
def ActivityDatabase.initial : ActivityDatabase where
  sources := .initial
  marks := .empty
  execution := .initial

/-- The activity log of the database. -/
def ActivityDatabase.log (db : ActivityDatabase) : ActivityLog := db.execution.activity

/-- The database with another activity log. -/
def ActivityDatabase.withLog (db : ActivityDatabase) (log : ActivityLog) : ActivityDatabase :=
  { db with execution := { db.execution with activity := log } }

/-- What the store computes from texts. -/
structure ActivityStoreRules where
  publish : PublishRules
  prefixSha256 : List SourceEvent → String
  sourceRowId : SourceKey → String → String
  resolutionSha256 : Option String → Option String → String → String
  ingest : ActivityRules

/-- The rules of the source tables; what an event publishes is checked when it is published. -/
def ActivityStoreRules.sources (rules : ActivityStoreRules) : SourceRules where
  validIdentity key :=
    rules.publish.bounded key.userId 128 ∧ rules.publish.bounded key.sourceInstanceId 128 ∧
      rules.publish.sensitive key.sourceInstanceId = false ∧
      rules.publish.bounded key.streamName 128 ∧ rules.publish.sensitive key.streamName = false
  boundedText text maximum := (rules.publish.requiredText text maximum).toOption
  safeHash := isSafeHash
  prefixSha256 := rules.prefixSha256
  sourceRowId := rules.sourceRowId
  publishable _ := true

/-- A failure to publish, in a transaction on a source. -/
def ExecutionFailure.ofSource : ExecutionFailure → SourceFailure
  | .valueError message => .valueError message
  | .integrityError => .integrityError
  | .notFound message => .unavailable message
  | .conflict message => .unavailable message
  | .runtimeError message => .unavailable message
  | .cancellation code _ => .unavailable code

/-- An activity to publish under a key. -/
structure ActivityCandidate where
  recordKey : String
  fields : ActivityFields
  deriving DecidableEq, Repr

/-- `MAX_SNAPSHOT_ACTIVITY_RECORDS` -/
def maxSnapshotActivityRecords : ℕ := 5000

/-- `SNAPSHOT_STREAM` -/
def snapshotStream : String := "fleet-snapshot"

/-- The source of the snapshots of an instance. -/
def snapshotSource (user source : String) : SourceKey := ⟨user, source, snapshotStream⟩

/-- The identity of a decision. -/
def decisionIdentity (taskId decisionKey : Option String) : String :=
  taskId.getD "None" ++ "\x00" ++ decisionKey.getD "None"

/-- The identity of the decision of a record. -/
def ActivityRecord.decision (r : ActivityRecord) : String :=
  decisionIdentity r.fields.taskId r.fields.decisionKey

/-- `valid_decision_identity` -/
def PublishRules.validDecisionIdentity (rules : PublishRules) (identity : String) : Bool :=
  match partsOf '\x00' identity.toList with
  | [taskId, decisionKey] =>
    0 < taskId.length ∧ taskId.length ≤ 200 ∧ 0 < decisionKey.length ∧ decisionKey.length ≤ 128 ∧
      rules.hasControls (String.ofList taskId) = false ∧
      rules.hasControls (String.ofList decisionKey) = false
  | _ => false

/-- An item of a batch: one that is not a validated object, or an event with the activity that it
publishes, of which the arguments may be wrong. -/
inductive SourceItem where
  | malformed (failure : SourceFailure)
  | event (event : SourceEvent)
      (activity : Except SourceFailure (Option (ActivityCandidate × Option ℕ)))

/-- The arguments of a batch. -/
structure SourceBatch where
  expectedCursor : ℕ
  items : List SourceItem
  newCursor : ℕ
  newPrefixSha256 : String
  sourceTail : ℕ
  now : ℕ

/-- A snapshot, as it is reconciled. -/
structure ActivitySnapshot where
  observedAt : ℕ
  snapshotSha256 : String
  records : List ActivityCandidate
  openDecisionKeys : List String
  deriving DecidableEq, Repr

section Transactions

variable (rules : ActivityStoreRules)

/-- A publication in a transaction on a source. -/
def publishFrom (user source : String) (candidate : ActivityCandidate) (observedAt : Option ℕ)
    (now : ℕ) (log : ActivityLog) : Except SourceFailure (ActivityRecord × ActivityLog) :=
  (log.publish rules.publish user source candidate.recordKey candidate.fields
    observedAt now).mapError
    (·.ofSource)

/-- One item of a batch: whether it is stored, and the activity that it publishes. -/
def applyItem (key : SourceKey) (sourceTail now next : ℕ) (item : SourceItem)
    (events : Table CanonicalSourceEvent.id) (log : ActivityLog) :
    Except SourceFailure
      (Bool × List ActivityRecord × Table CanonicalSourceEvent.id × ActivityLog) :=
  match item with
  | .malformed failure => .error failure
  | .event event activity => do
    let (stored, events) ← storeEvent rules.sources key sourceTail now next event events
    if stored = false then return (false, [], events, log)
    match ← activity with
    | none => return (true, [], events, log)
    | some (candidate, observedAt) =>
      let fields := { candidate.fields with
        sourceEventId := rules.sources.boundedText event.sourceEventId 200
        sourcePayloadSha256 := event.payloadSha256 }
      let (projected, log) ← publishFrom rules key.userId key.sourceInstanceId
        { candidate with fields } observedAt now log
      return (true, [projected], events, log)

/-- The items of a batch, with the numbers of accepted and duplicate ones. -/
def applyItems (key : SourceKey) (sourceTail now : ℕ) :
    ℕ → List SourceItem → Table CanonicalSourceEvent.id → ActivityLog →
      Except SourceFailure
        (ℕ × ℕ × List ActivityRecord × Table CanonicalSourceEvent.id × ActivityLog)
  | _, [], events, log => .ok (0, 0, [], events, log)
  | next, item :: items, events, log => do
    let (stored, projected, events, log) ← applyItem rules key sourceTail now next item events log
    let (accepted, duplicates, changed, events, log) ←
      applyItems key sourceTail now (next + 1) items events log
    return (if stored = true then (accepted + 1, duplicates, projected ++ changed, events, log)
      else (accepted, duplicates + 1, projected ++ changed, events, log))

/-- `apply_source_event_batch`: store events, publish their activity and move the cursor. -/
def applyBatch (key : SourceKey) (batch : SourceBatch) (db : ActivityDatabase) :
    Except SourceFailure (List PublicActivity × ActivityDatabase) := do
  raiseIf (rules.sources.validIdentity key = false)
    (.valueError "Activity source identity is invalid.")
  raiseIf (batch.newCursor < batch.expectedCursor ∨ batch.sourceTail < batch.newCursor ∨
      maxSafeInteger < batch.sourceTail ∨
      batch.items.length ≠ batch.newCursor - batch.expectedCursor)
    (.conflict "The source cursor cannot move outside the validated journal.")
  raiseIf (batch.newCursor ≠ 0 ∧ rules.sources.safeHash batch.newPrefixSha256 = false ∨
    batch.newCursor = 0 ∧ batch.newPrefixSha256 ≠ "")
    (.conflict "The source prefix hash is invalid.")
  match db.sources.sources.find? key with
  | none => .error (.conflict "The activity source was not initialized.")
  | some s => do
    raiseIf (s.cursor ≠ batch.expectedCursor)
      (.conflict "The activity source cursor changed concurrently.")
    let (accepted, duplicates, changed, events, log) ← applyItems rules key batch.sourceTail
      batch.now (batch.expectedCursor + 1) batch.items db.sources.events db.log
    let sources := db.sources.sources.update key fun s =>
      { s with
        cursor := batch.newCursor
        prefixSha256 := batch.newPrefixSha256
        sourceTail := batch.sourceTail
        state := .available
        lastErrorCode := none
        lastErrorDetail := none
        lastReconciledAt := batch.now
        acceptedCount := s.acceptedCount + accepted
        duplicateCount := s.duplicateCount + duplicates }
    return (changed.map (·.public),
      { db.withLog log with sources := { db.sources with sources, events } })

/-- The records of a snapshot, published; those that change. -/
def publishRecords (user source : String) (observedAt now : ℕ) :
    List ActivityCandidate → ActivityLog →
      Except SourceFailure (List ActivityRecord × ActivityLog)
  | [], log => .ok ([], log)
  | candidate :: records, log => do
    let before := (log.recordOf user source candidate.recordKey).map (·.revision)
    let (projected, log) ← publishFrom rules user source candidate (some observedAt) now log
    let (changed, log) ← publishRecords user source observedAt now records log
    return (if before = some projected.revision then changed else projected :: changed, log)

/-- The resolution of a decision that a snapshot no longer has open. -/
def resolution (snapshotSha256 : String) (row : ActivityRecord) : ActivityCandidate where
  recordKey := row.recordKey
  fields :=
    { sourceEventId := none
      kind := "decision.resolved"
      state := "resolved"
      importance := "routine"
      title := row.fields.title
      summary := "Decision is no longer open in the authoritative Firstmate snapshot."
      summaryTruncated := false
      taskId := row.fields.taskId
      decisionKey := row.fields.decisionKey
      objectiveId := row.fields.objectiveId
      runId := row.fields.runId
      project := row.fields.project
      occurredAt := none
      refs := decodeRefs row.fields.refs
      sourcePayloadSha256 :=
        rules.resolutionSha256 row.fields.taskId row.fields.decisionKey snapshotSha256 }

/-- The decisions among rows that are not in the open keys, closed. -/
def closeDecisions (user source : String) (snapshot : ActivitySnapshot) (now : ℕ) :
    List ActivityRecord → ActivityLog → Except SourceFailure (List ActivityRecord × ActivityLog)
  | [], log => .ok ([], log)
  | row :: rows, log =>
    if row.decision ∈ snapshot.openDecisionKeys then
      closeDecisions user source snapshot now rows log
    else do
      let (resolved, log) ← publishFrom rules user source
        (resolution rules snapshot.snapshotSha256 row) (some snapshot.observedAt) now log
      let (changed, log) ← closeDecisions user source snapshot now rows log
      return (resolved :: changed, log)

/-- The open decisions of a source. -/
def openDecisionRows (user source : String) (log : ActivityLog) : List ActivityRecord :=
  log.records.rows.filter fun r =>
    r.userId = user ∧ r.sourceInstanceId = source ∧ r.decisionOpen

/-- `reconcile_snapshot`: publish current facts, and close the decisions that are no longer open.
A delayed snapshot is ignored. -/
def reconcileSnapshot (user source : String) (snapshot : ActivitySnapshot) (now : ℕ)
    (db : ActivityDatabase) : Except SourceFailure (List PublicActivity × ActivityDatabase) := do
  raiseIf (rules.publish.bounded user 128 = false)
    (.valueError "A bounded tenant identity is required.")
  raiseIf (rules.publish.bounded source 128 = false)
    (.valueError "A bounded source instance is required.")
  raiseIf (maxSafeInteger < snapshot.observedAt)
    (.valueError "Activity observed_at must be epoch milliseconds.")
  raiseIf (isSafeHash snapshot.snapshotSha256 = false)
    (.valueError "A canonical SHA-256 payload hash is required.")
  raiseIf (maxSnapshotActivityRecords < snapshot.records.length ∨
      maxSnapshotActivityRecords < snapshot.openDecisionKeys.length)
    (.valueError "The activity snapshot exceeds its bounded projection.")
  raiseIf ((∃ candidate ∈ snapshot.records, candidate.recordKey = "") ∨
      ¬(snapshot.records.map (·.recordKey)).Nodup)
    (.valueError "The activity snapshot repeats a record identity.")
  raiseIf ((∃ identity ∈ snapshot.openDecisionKeys,
      rules.publish.validDecisionIdentity identity = false) ∨ ¬snapshot.openDecisionKeys.Nodup)
    (.valueError "Snapshot decision identities are invalid.")
  let key := snapshotSource user source
  let previous := db.marks.find? key
  if previous.any (snapshot.observedAt < ·.lastSnapshotAt) then return ([], db)
  raiseIf (previous.any fun mark => snapshot.observedAt = mark.lastSnapshotAt ∧
      mark.snapshotSha256 ≠ "" ∧ mark.snapshotSha256 ≠ snapshot.snapshotSha256)
    (.conflict "A Firstmate snapshot timestamp was reused with different content.")
  let row : ActivitySource :=
    { source := key
      bootstrapPolicy := .snapshotCurrent
      cursor := 0
      prefixSha256 := ""
      sourceTail := 0
      state := .available
      lastErrorCode := none
      lastErrorDetail := none
      lastReconciledAt := now
      acceptedCount := 0
      duplicateCount := 0
      conflictCount := 0 }
  let (changed, log) ← publishRecords rules user source snapshot.observedAt now
    snapshot.records db.log
  let (resolved, log) ← closeDecisions rules user source snapshot now
    (openDecisionRows user source log) log
  let sources := (db.sources.sources.insertOrIgnore row).update key fun s =>
    { s with
      state := .available
      lastErrorCode := none
      lastErrorDetail := none
      lastReconciledAt := now }
  let mark : SnapshotMark := ⟨key, snapshot.observedAt, snapshot.snapshotSha256⟩
  let marks := (db.marks.insertOrIgnore mark).update key fun m =>
    { m with
      lastSnapshotAt := snapshot.observedAt
      snapshotSha256 := snapshot.snapshotSha256 }
  return ((changed ++ resolved).map (·.public),
    { db.withLog log with sources := { db.sources with sources }, marks })

end Transactions

/-- A transaction of the activity store, or a write of others to the tables that ingests read. -/
inductive ActivityStep where
  | initializeSource (key : SourceKey) (policy : BootstrapPolicy) (cursor : ℕ)
      (prefixSha256 : String) (sourceTail : ℕ) (now : ℤ)
  | applyBatch (key : SourceKey) (batch : SourceBatch)
  | reconcileSnapshot (user source : String) (snapshot : ActivitySnapshot) (now : ℕ)
  | fault (key : SourceKey) (code detail : String) (policy : BootstrapPolicy) (conflict : Bool)
      (now : ℤ)
  | execution (op : IngestStep)

/-- The tables after a step. -/
def activityStep (rules : ActivityStoreRules) (db : ActivityDatabase) :
    ActivityStep → ActivityDatabase
  | .initializeSource key policy cursor prefixSha256 sourceTail now =>
    { db with
      sources := commit (stateOf (initializeSource rules.sources key policy cursor prefixSha256
        sourceTail now db.sources)) db.sources }
  | .applyBatch key batch => commit (stateOf (applyBatch rules key batch db)) db
  | .reconcileSnapshot user source snapshot now =>
    commit (stateOf (reconcileSnapshot rules user source snapshot now db)) db
  | .fault key code detail policy conflict now =>
    { db with
      sources := commit (markSourceFault rules.sources key code detail policy conflict now
        db.sources) db.sources }
  | .execution op => { db with execution := ingestStep rules.ingest db.execution op }

section Effects

variable {rules : ActivityStoreRules} {user source : String} {log log' : ActivityLog}
  {r : ActivityRecord} {key : SourceKey} {db db' : ActivityDatabase}

/-- A publication is of checked fields, and appends at most one version. -/
theorem publishFrom_cases {candidate : ActivityCandidate} {observedAt : Option ℕ} {now : ℕ}
    (h : publishFrom rules user source candidate observedAt now log = .ok (r, log')) :
    r.userId = user ∧ r.sourceInstanceId = source ∧ r.recordKey = candidate.recordKey ∧
      rules.publish.normalized source candidate.fields = .ok r.fields ∧
      (log' = log ∧ log.recordOf user source candidate.recordKey = some r ∨
        log.Appended log' r) := by
  simp only [publishFrom, mapError_eq_ok, ActivityLog.publish, bind_eq_ok, raiseIf_eq_ok,
    exists_const] at h
  obtain ⟨-, -, -, fields, hfields, -, hwrite⟩ := h
  obtain ⟨huser, hsource, hkey, rfl, hcases⟩ := ActivityLog.write_cases hwrite
  exact ⟨huser, hsource, hkey, hfields, hcases⟩

/-- A publication is a write of versions. -/
theorem publishFrom_written {candidate : ActivityCandidate} {observedAt : Option ℕ} {now : ℕ}
    (h : publishFrom rules user source candidate observedAt now log = .ok (r, log')) :
    ∃ versions, ActivityLog.Written log versions log' := by
  obtain ⟨-, -, -, -, ⟨rfl, -⟩ | happended⟩ := publishFrom_cases h
  · exact ⟨[], .nil log'⟩
  · exact ⟨[r], .single happended⟩

/-- Writes are composed. -/
theorem written_trans {mid : ActivityLog} (h : ∃ versions, ActivityLog.Written log versions mid)
    (h' : ∃ versions, ActivityLog.Written mid versions log') :
    ∃ versions, ActivityLog.Written log versions log' := by
  obtain ⟨first, hfirst⟩ := h
  obtain ⟨second, hsecond⟩ := h'
  exact ⟨first ++ second, hfirst.append hsecond⟩

/-- What an item does: its event is stored, and the log is written. -/
theorem applyItem_eq_ok {sourceTail now next : ℕ} {item : SourceItem} {stored : Bool}
    {projected : List ActivityRecord} {events events' : Table CanonicalSourceEvent.id}
    (h : applyItem rules key sourceTail now next item events log =
      .ok (stored, projected, events', log')) :
    (∃ event activity, item = .event event activity ∧
      storeEvent rules.sources key sourceTail now next event events = .ok (stored, events')) ∧
    ∃ versions, ActivityLog.Written log versions log' := by
  cases item with
  | malformed failure => exact nomatch h
  | event event activity =>
    simp only [applyItem, bind_eq_ok, Prod.exists] at h
    obtain ⟨stored', events'', hstored, h⟩ := h
    split at h
    · simp only [pure_eq_ok, Prod.mk.injEq] at h
      obtain ⟨rfl, -, rfl, rfl⟩ := h
      rename_i hfalse
      subst hfalse
      exact ⟨⟨event, activity, rfl, hstored⟩, [], .nil log⟩
    · next hnot =>
      obtain rfl : stored' = true := by simpa using hnot
      simp only [bind_eq_ok] at h
      obtain ⟨published, -, h⟩ := h
      split at h
      · simp only [pure_eq_ok, Prod.mk.injEq] at h
        obtain ⟨rfl, -, rfl, rfl⟩ := h
        exact ⟨⟨event, activity, rfl, hstored⟩, [], .nil log⟩
      · simp only [bind_eq_ok, pure_eq_ok, Prod.mk.injEq, Prod.exists] at h
        obtain ⟨r, last, hpublished, rfl, -, rfl, rfl⟩ := h
        exact ⟨⟨event, activity, rfl, hstored⟩, publishFrom_written hpublished⟩

/-- What the items of a batch do: they are events, which are stored as a batch of them is, and the
log is written. -/
theorem applyItems_eq_ok {sourceTail now : ℕ} {items : List SourceItem} :
    ∀ {next accepted duplicates : ℕ} {changed : List ActivityRecord}
      {events events' : Table CanonicalSourceEvent.id} {log : ActivityLog},
    applyItems rules key sourceTail now next items events log =
      .ok (accepted, duplicates, changed, events', log') →
    (∃ batch : List SourceEvent, batch.length = items.length ∧
      storeEvents rules.sources key sourceTail now next batch events =
        .ok (accepted, duplicates, events')) ∧
    ∃ versions, ActivityLog.Written log versions log' := by
  induction items with
  | nil =>
    intro next accepted duplicates changed events events' log h
    simp only [applyItems, Except.ok.injEq, Prod.mk.injEq] at h
    obtain ⟨rfl, rfl, -, rfl, rfl⟩ := h
    exact ⟨⟨[], rfl, rfl⟩, [], .nil log⟩
  | cons item items ih =>
    intro next accepted duplicates changed events events' log h
    simp only [applyItems, bind_eq_ok, pure_eq_ok, Prod.exists] at h
    obtain ⟨stored, projected, mid, log₁, hitem, accepted', duplicates', rest, events₁, log₂, hrest,
      heq⟩ := h
    obtain ⟨⟨event, activity, rfl, hstored⟩, hwritten⟩ := applyItem_eq_ok hitem
    obtain ⟨rfl, rfl⟩ : log₂ = log' ∧ events₁ = events' := by
      split at heq <;> simp only [Prod.mk.injEq] at heq <;> exact ⟨heq.2.2.2.2, heq.2.2.2.1⟩
    obtain ⟨⟨batch, hlength, hbatch⟩, hwritten'⟩ := ih hrest
    refine ⟨⟨event :: batch, by simp [hlength], ?_⟩, written_trans hwritten hwritten'⟩
    simp only [storeEvents, hstored, hbatch, ok_bind]
    split at heq <;> simp only [Prod.mk.injEq] at heq <;> obtain ⟨rfl, rfl, -⟩ := heq
    · next htrue => rw [if_pos htrue]; rfl
    · next hfalse => rw [if_neg hfalse]; rfl

/-- A batch is a batch of events on the source tables, with writes to the log. -/
theorem applyBatch_eq_ok {batch : SourceBatch} {changed : List PublicActivity}
    (h : applyBatch rules key batch db = .ok (changed, db')) :
    (∃ events : List SourceEvent,
      applySourceEventBatch rules.sources key batch.expectedCursor events batch.newCursor
        batch.newPrefixSha256 batch.sourceTail batch.now db.sources = .ok db'.sources) ∧
    db'.marks = db.marks ∧ (∃ versions, ActivityLog.Written db.log versions db'.log) := by
  simp only [applyBatch, bind_eq_ok, raiseIf_eq_ok, exists_const] at h
  obtain ⟨hidentity, hcursors, hprefix, h⟩ := h
  split at h
  · cases h
  · next s hs =>
    simp only [bind_eq_ok, raiseIf_eq_ok, exists_const, pure_eq_ok, Prod.exists, Prod.mk.injEq] at h
    obtain ⟨hexpected, accepted, duplicates, records, events', log, hitems, -, rfl⟩ := h
    obtain ⟨⟨events, hlength, hstored⟩, hwritten⟩ := applyItems_eq_ok hitems
    refine ⟨⟨events, ?_⟩, rfl, hwritten⟩
    rw [← hlength] at hcursors
    simp only [applySourceEventBatch, raiseIf_ok hidentity, raiseIf_ok hcursors,
      raiseIf_ok hprefix, hs, raiseIf_ok hexpected, hstored, ok_bind]
    rfl

/-- The publication of records is a write of versions. -/
theorem publishRecords_written {observedAt now : ℕ} {records : List ActivityCandidate} :
    ∀ {log : ActivityLog} {changed : List ActivityRecord},
    publishRecords rules user source observedAt now records log = .ok (changed, log') →
    ∃ versions, ActivityLog.Written log versions log' := by
  induction records with
  | nil =>
    intro log changed h
    obtain ⟨-, rfl⟩ := Prod.mk.inj (Except.ok.inj h)
    exact ⟨[], .nil log⟩
  | cons candidate records ih =>
    intro log changed h
    simp only [publishRecords, bind_eq_ok, pure_eq_ok, Prod.exists, Prod.mk.injEq] at h
    obtain ⟨r, mid, hpublished, rest, last, hrest, -, rfl⟩ := h
    exact written_trans (publishFrom_written hpublished) (ih hrest)

/-- The closing of decisions is a write of versions. -/
theorem closeDecisions_written {snapshot : ActivitySnapshot} {now : ℕ}
    {rows : List ActivityRecord} :
    ∀ {log : ActivityLog} {changed : List ActivityRecord},
    closeDecisions rules user source snapshot now rows log = .ok (changed, log') →
    ∃ versions, ActivityLog.Written log versions log' := by
  induction rows with
  | nil =>
    intro log changed h
    obtain ⟨-, rfl⟩ := Prod.mk.inj (Except.ok.inj h)
    exact ⟨[], .nil log⟩
  | cons row rows ih =>
    intro log changed h
    unfold closeDecisions at h
    split at h
    · exact ih h
    · simp only [bind_eq_ok, pure_eq_ok, Prod.exists, Prod.mk.injEq] at h
      obtain ⟨r, mid, hpublished, rest, last, hrest, -, rfl⟩ := h
      exact written_trans (publishFrom_written hpublished) (ih hrest)

/-- What a snapshot that is not delayed does: its records are published, the decisions that are not
open in it are closed, and its time and digest are kept. -/
structure Reconciled (rules : ActivityStoreRules) (user source : String)
    (snapshot : ActivitySnapshot) (now : ℕ) (db db' : ActivityDatabase)
    (published resolved : List ActivityRecord) (mid : ActivityLog) : Prop where
  current : ¬(db.marks.find? (snapshotSource user source)).any
    (snapshot.observedAt < ·.lastSnapshotAt)
  agrees : ¬(db.marks.find? (snapshotSource user source)).any fun mark =>
    snapshot.observedAt = mark.lastSnapshotAt ∧ mark.snapshotSha256 ≠ "" ∧
      mark.snapshotSha256 ≠ snapshot.snapshotSha256
  digest : isSafeHash snapshot.snapshotSha256 = true
  distinct : (snapshot.records.map (·.recordKey)).Nodup
  published : publishRecords rules user source snapshot.observedAt now snapshot.records db.log =
    .ok (published, mid)
  resolved : closeDecisions rules user source snapshot now (openDecisionRows user source mid) mid =
    .ok (resolved, db'.log)
  mark : db'.marks.find? (snapshotSource user source) =
    some ⟨snapshotSource user source, snapshot.observedAt, snapshot.snapshotSha256⟩
  others : ∀ key, key ≠ snapshotSource user source → db'.marks.find? key = db.marks.find? key
  execution : db'.execution = { db.execution with activity := db'.log }
  frame : SourceFrame (snapshotSource user source) db.sources db'.sources
  events : db'.sources.events = db.sources.events
  row : ∃ s, db'.sources.sources.find? (snapshotSource user source) = some s ∧
    (∀ t, db.sources.sources.find? (snapshotSource user source) = some t →
      s.cursor = t.cursor ∧ s.acceptedCount = t.acceptedCount) ∧
    (db.sources.sources.find? (snapshotSource user source) = none →
      s.cursor = 0 ∧ s.acceptedCount = 0)

/-- A row that is inserted if its key is free, and then updated. -/
theorem find?_written {ρ κ : Type} [DecidableEq κ] {key : ρ → κ} {t : Table key} {r : ρ}
    {f : ρ → ρ} {k : κ} (hf : ∀ r, key (f r) = key r) (hk : key r = k) :
    ((t.insertOrIgnore r).update k f hf).find? k = some (f ((t.find? k).getD r)) := by
  rw [Table.find?_update_self, Table.find?_insertOrIgnore, if_pos hk]
  cases t.find? k <;> rfl

/-- Other keys than the written one find what they found. -/
theorem find?_written_ne {ρ κ : Type} [DecidableEq κ] {key : ρ → κ} {t : Table key} {r : ρ}
    {f : ρ → ρ} {k l : κ} (hf : ∀ r, key (f r) = key r) (hk : key r = k) (h : l ≠ k) :
    ((t.insertOrIgnore r).update k f hf).find? l = t.find? l := by
  rw [Table.find?_update_ne _ h, Table.find?_insertOrIgnore, hk, if_neg (Ne.symm h), Option.or_none]

/-- A snapshot is delayed and ignored, or it is reconciled. -/
theorem reconcileSnapshot_eq_ok {snapshot : ActivitySnapshot} {now : ℕ}
    {changed : List PublicActivity}
    (h : reconcileSnapshot rules user source snapshot now db = .ok (changed, db')) :
    ((db.marks.find? (snapshotSource user source)).any (snapshot.observedAt < ·.lastSnapshotAt) ∧
        changed = [] ∧ db' = db) ∨
    ∃ published resolved mid, changed = (published ++ resolved).map (·.public) ∧
      Reconciled rules user source snapshot now db db' published resolved mid := by
  simp only [reconcileSnapshot, bind_eq_ok, raiseIf_eq_ok, exists_const] at h
  obtain ⟨-, -, -, hdigest, -, hrecords, -, h⟩ := h
  split at h
  · next hdelayed =>
    simp only [pure_eq_ok, Prod.mk.injEq] at h
    exact .inl ⟨hdelayed, h.1.symm, h.2.symm⟩
  · next hcurrent =>
    simp only [bind_eq_ok, raiseIf_eq_ok, exists_const, pure_eq_ok, Prod.exists, Prod.mk.injEq] at h
    obtain ⟨hagrees, published, mid, hpublished, resolved, log, hresolved, rfl, rfl⟩ := h
    refine .inr ⟨published, resolved, mid, rfl, ?_⟩
    refine
      { current := hcurrent
        agrees := hagrees
        digest := by simpa using hdigest
        distinct := ?_
        published := hpublished
        resolved := hresolved
        mark := (find?_written (by intro; rfl) (by rfl)).trans ?_
        others := fun key hne => find?_written_ne (by intro; rfl) (by rfl) hne
        execution := rfl
        frame := ⟨fun key hne => find?_written_ne (by intro; rfl) (by rfl) hne, rfl,
          fun _ hrow => hrow⟩
        events := rfl
        row := ⟨_, find?_written (by intro; rfl) (by rfl), fun t ht => ?_, fun hnone => ?_⟩ }
    · exact not_not.mp fun hnot => hrecords (.inr hnot)
    · cases hfound : db.marks.find? (snapshotSource user source) with
      | none => rfl
      | some mark => simp only [Option.getD_some, (Table.mem_of_find? hfound).2]
    · simp only [ht, Option.getD_some, and_self]
    · simp only [hnone, Option.getD_none, and_self]

/-- A snapshot is a write of versions. -/
theorem reconcileSnapshot_written {snapshot : ActivitySnapshot} {now : ℕ}
    {changed : List PublicActivity}
    (h : reconcileSnapshot rules user source snapshot now db = .ok (changed, db')) :
    ∃ versions, ActivityLog.Written db.log versions db'.log := by
  obtain ⟨-, -, rfl⟩ | ⟨published, resolved, mid, -, hreconciled⟩ := reconcileSnapshot_eq_ok h
  · exact ⟨[], .nil _⟩
  · exact written_trans (publishRecords_written hreconciled.published)
      (closeDecisions_written hreconciled.resolved)

/-- An execution event is a write of versions. -/
theorem ingestStep_written (rules : ActivityRules) (db : Execution) (op : IngestStep) :
    ∃ versions, ActivityLog.Written db.activity versions (ingestStep rules db op).activity := by
  cases op with
  | chat chat => exact ⟨[], .nil _⟩
  | cancellations cancellations => exact ⟨[], .nil _⟩
  | ingest owner event now projected =>
    refine commit_of (P := fun db' : Execution =>
      ∃ versions, ActivityLog.Written db.activity versions db'.activity) ⟨[], .nil _⟩
      fun db' hok => ?_
    obtain ⟨⟨stored, duplicate⟩, hingest⟩ := stateOf_eq_ok.mp hok
    obtain ⟨-, ⟨-, -, rfl⟩ | ⟨-, objective, mid, record, activity, hobjective, hupsert, -, rfl⟩⟩ :=
      FirstmateExecutionStore.ingest_cases hingest
    · exact ⟨[], .nil _⟩
    · have hmid : mid.activity = db.activity := by
        obtain ⟨-, -, -, -, -, ⟨-, -, -, -, -, rfl⟩ | ⟨-, -, rfl⟩⟩ :=
          FirstmateExecutionStore.objectiveOf_cases hobjective <;> rfl
      rw [ActivityLog.upsert_eq, bind_eq_ok] at hupsert
      obtain ⟨-, -, hwrite⟩ := hupsert
      rw [hmid] at hwrite
      have hactivity : ∀ db : Execution,
          (FirstmateExecutionStore.closeObjective owner event now db).activity = db.activity := by
        intro db
        unfold FirstmateExecutionStore.closeObjective
        split <;> rfl
      rw [hactivity]
      obtain ⟨-, -, -, -, ⟨rfl, -⟩ | happended⟩ := ActivityLog.write_cases hwrite
      · exact ⟨[], .nil _⟩
      · exact ⟨_, .single happended⟩

/-- Every step is a write of versions. -/
theorem activityStep_written (rules : ActivityStoreRules) (db : ActivityDatabase)
    (op : ActivityStep) :
    ∃ versions, ActivityLog.Written db.log versions (activityStep rules db op).log := by
  cases op with
  | initializeSource => exact ⟨[], .nil _⟩
  | fault => exact ⟨[], .nil _⟩
  | execution op => exact ingestStep_written rules.ingest db.execution op
  | applyBatch key batch =>
    refine commit_of (P := fun db' : ActivityDatabase =>
      ∃ versions, ActivityLog.Written db.log versions db'.log) ⟨[], .nil _⟩ fun db' hok => ?_
    obtain ⟨changed, hbatch⟩ := stateOf_eq_ok.mp hok
    exact (applyBatch_eq_ok hbatch).2.2
  | reconcileSnapshot user source snapshot now =>
    refine commit_of (P := fun db' : ActivityDatabase =>
      ∃ versions, ActivityLog.Written db.log versions db'.log) ⟨[], .nil _⟩ fun db' hok => ?_
    obtain ⟨changed, hsnapshot⟩ := stateOf_eq_ok.mp hok
    exact reconcileSnapshot_written hsnapshot

end Effects

/-- A digest with a last digit. -/
def sampleHash (n : ℕ) : String :=
  "0123456789abcdef0123456789abcdef0123456789abcdef0123456789abcde" ++ (n % 10).repr

/-- Rules under which every text is plain. -/
def sampleStoreRules : ActivityStoreRules where
  publish :=
    { hasControls _ := false
      strip := id
      sensitive _ := false
      recordId user source recordKey := user ++ "/" ++ source ++ "/" ++ recordKey }
  prefixSha256 rows := String.join (rows.map (·.payloadSha256))
  sourceRowId key sourceEventId := key.sourceInstanceId ++ "/" ++ sourceEventId
  resolutionSha256 _ _ snapshot := "resolution of " ++ snapshot
  ingest := plainRules

end Magistrate
