import Magistrate.Gateway.Execution.State
import Mathlib.Data.List.Induction

/-!
# Execution events

An execution event is stored once under its id, together with the activity
record that it is projected to. The first event of an objective accepts it and
binds its task and run, and a terminal event closes it.
-/

namespace Magistrate

/-- `FIRSTMATE_EXECUTION_SOURCE` -/
def firstmateExecutionSource : String := "firstmate:execution"

/-- What the stores compute from texts: whether a principal is bounded, whether fields may be
published, ids of activity records and digests of events. -/
structure ActivityRules where
  boundedPrincipal : String → Bool
  publishable : ActivityFields → Bool
  recordId : String → String → String → String
  payloadSha256 : FirstmateExecutionEvent → String

namespace ActivityLog

/-- `_next_sequence` -/
def nextSequence (log : ActivityLog) (user : String) : ℕ :=
  ((log.records.rows.filter fun r => r.userId = user).map (·.sequenceIndex)).foldr max 0 + 1

/-- The number of a user's last change. -/
def latestChange (log : ActivityLog) (user : String) : ℕ :=
  ((log.changes.rows.filter fun c => c.userId = user).map (·.changeSequence)).foldr max 0

/-- `_record_activity_change`: number a new revision of a record. -/
def recordChange (log : ActivityLog) (r : ActivityRecord) (now : ℤ) :
    Except ExecutionFailure ActivityLog := do
  let change : ActivityChange :=
    { userId := r.userId
      changeSequence := log.latestChange r.userId + 1
      recordId := r.id
      recordRevision := r.revision
      changedAt := now }
  raiseIf (∃ c ∈ log.changes.rows, c.userId = r.userId ∧ c.recordId = r.id ∧
    c.recordRevision = r.revision) .integrityError
  raiseIf (log.changes.find? change.key ≠ none) .integrityError
  return { log with changes := log.changes.insertOrIgnore change }

/-- The record of a source under a key. -/
def recordOf (log : ActivityLog) (user source recordKey : String) : Option ActivityRecord :=
  log.records.rows.find? fun r =>
    r.userId = user ∧ r.sourceInstanceId = source ∧ r.recordKey = recordKey

/-- `_upsert_activity`: publish a record, or a new revision of it. -/
def upsert (rules : ActivityRules) (user source recordKey : String) (fields : ActivityFields)
    (now : ℤ) (log : ActivityLog) : Except ExecutionFailure (ActivityRecord × ActivityLog) := do
  raiseIf (rules.publishable fields = false) (.valueError "activity")
  match log.recordOf user source recordKey with
  | some existing =>
    if existing.fields = fields then return (existing, log)
    let updated : ActivityRecord :=
      { existing with
        revision := existing.revision + 1
        fields
        observedAt := now
        updatedAt := now }
    let records := log.records.update existing.id fun r =>
      { r with
        revision := r.revision + 1
        fields
        observedAt := now
        updatedAt := now }
    let log ← ActivityLog.recordChange { log with records } updated now
    return (updated, log)
  | none =>
    let inserted : ActivityRecord :=
      { id := rules.recordId user source recordKey
        userId := user
        sourceInstanceId := source
        recordKey
        sequenceIndex := log.nextSequence user
        revision := 1
        fields
        observedAt := now
        createdAt := now
        updatedAt := now }
    raiseIf (log.records.find? inserted.id ≠ none) .integrityError
    let log ← ActivityLog.recordChange
      { log with records := log.records.insertOrIgnore inserted } inserted now
    return (inserted, log)

end ActivityLog

/-- `_PHASE_ACTIVITY`: the kind, state and summary of the activity of a phase. -/
def ExecutionPhase.activity : ExecutionPhase → String × String × String
  | .accepted =>
    ("objective.accepted", "active", "Objective was accepted for asynchronous execution.")
  | .progress .workerStarted =>
    ("worker.started", "active", "Execution capacity started for the objective.")
  | .progress .implementationStarted =>
    ("implementation.started", "active", "Implementation is underway.")
  | .progress .testsStarted => ("tests.started", "active", "Verification tests are running.")
  | .progress .testsPassed => ("tests.passed", "completed", "Verification tests passed.")
  | .progress .testsFailed =>
    ("tests.failed", "failed", "Verification tests failed; the objective remains active.")
  | .progress .reviewStarted => ("review.started", "active", "Review is underway.")
  | .completed => ("objective.completed", "completed",
      "Objective completed with structured verification evidence.")
  | .failed => ("objective.failed", "failed", "Objective execution failed.")
  | .cancelled => ("objective.cancelled", "cancelled", "Objective execution was cancelled.")

/-- The public reference of an artifact. -/
def CompletionArtifact.ref : CompletionArtifact → Option ActivityRef
  | .pullRequest url => some (.pullRequest url)
  | .report reportId => some (.report reportId)
  | .commit _ => none

/-- `_activity_refs` -/
def FirstmateExecutionEvent.activityRefs (event : FirstmateExecutionEvent) : List ActivityRef :=
  match event.evidence with
  | none => []
  | some evidence => (evidence.artifacts.filterMap CompletionArtifact.ref).take 8

/-- The activity that an event is projected to. -/
def FirstmateExecutionEvent.activity (rules : ActivityRules) (event : FirstmateExecutionEvent)
    (objective : ExecutionObjective) : ActivityFields where
  sourceEventId := event.eventId
  kind := event.phase.activity.1
  state := event.phase.activity.2.1
  importance := "routine"
  title := objective.title
  summary := event.phase.activity.2.2
  summaryTruncated := false
  taskId := event.taskId
  decisionKey := none
  objectiveId := event.objectiveId
  runId := event.runId
  project := objective.project
  occurredAt := event.occurredAtMs
  refs := event.activityRefs
  sourcePayloadSha256 := rules.payloadSha256 event

/-- The record key of an event. -/
def executionKey (eventId : String) : String := "execution:" ++ eventId

namespace FirstmateExecutionStore

/-- A new accepted objective. -/
def acceptObjective (owner : String) (event : FirstmateExecutionEvent) (title : String)
    (project : Option String) (conversationId userMessageId : String) (now : ℤ) (db : Execution) :
    Except ExecutionFailure (ExecutionObjective × Execution) := do
  raiseIf (db.objectives.find? (owner, event.objectiveId) ≠ none)
    (.conflict "That Firstmate objective already has a different accepted event.")
  raiseIf (∃ o ∈ db.objectives.rows, o.ownerUserId = owner ∧ o.taskId = event.taskId)
    (.conflict "That Firstmate task is already correlated to another objective.")
  raiseIf (¬(db.chat.messages.find? userMessageId).any fun m => m.ownerUserId = owner ∧
      m.conversationId = conversationId ∧ m.role = .user ∧ m.status = .completed)
    (.notFound "The owner-scoped native Magi objective origin was not found.")
  raiseIf (∃ o ∈ db.objectives.rows, o.ownerUserId = owner ∧ o.acceptedEventId = event.eventId)
    .integrityError
  let objective : ExecutionObjective :=
    { ownerUserId := owner
      objectiveId := event.objectiveId
      taskId := event.taskId
      runId := event.runId
      acceptedEventId := event.eventId
      conversationId
      originMessageId := userMessageId
      title
      project
      terminalEventId := none
      terminalPhase := none
      createdAt := now
      updatedAt := now }
  return (objective, { db with objectives := db.objectives.insertOrIgnore objective })

/-- The open objective that an event reports on. -/
def openObjective (owner : String) (event : FirstmateExecutionEvent) (db : Execution) :
    Except ExecutionFailure (ExecutionObjective × Execution) :=
  match db.objectives.find? (owner, event.objectiveId) with
  | none => .error (.notFound "The owner-scoped Firstmate objective was not found.")
  | some objective => do
    raiseIf (objective.taskId ≠ event.taskId ∨ objective.runId ≠ event.runId)
      (.conflict "Firstmate execution causality does not match the accepted objective.")
    raiseIf (objective.terminalEventId ≠ none)
      (.conflict "The Firstmate objective already has a terminal execution event.")
    return (objective, db)

/-- The objective that an event is stored for. -/
def objectiveOf (owner : String) (event : FirstmateExecutionEvent) (now : ℤ) (db : Execution) :
    Except ExecutionFailure (ExecutionObjective × Execution) :=
  match event.report with
  | .accepted title project conversationId userMessageId =>
    acceptObjective owner event title project conversationId userMessageId now db
  | _ => openObjective owner event db

/-- The stored row of an event. -/
def eventRow (owner : String) (event : FirstmateExecutionEvent) (activityRecordId : String)
    (now : ℤ) : ExecutionEvent where
  ownerUserId := owner
  eventId := event.eventId
  objectiveId := event.objectiveId
  taskId := event.taskId
  runId := event.runId
  phase := event.phase
  occurredAt := event.occurredAtMs
  payload := event
  evidence := event.evidence
  activityRecordId := activityRecordId
  generationState := if event.phase = .completed then some .queued else none
  generationAttemptCount := 0
  assistantMessageId := none
  errorCode := none
  createdAt := now
  updatedAt := now

/-- The cancellation requests of an objective after its end. -/
def closeCancellations (owner objectiveId : String) (phase : ExecutionPhase) (now : ℤ)
    (cancellations : Table CancellationRequest.requestId) : Table CancellationRequest.requestId :=
  if phase = .cancelled then
    cancellations.updateWhere
      (fun c => c.ownerUserId = owner ∧ c.objectiveId = objectiveId ∧
        (c.status = .requested ∨ c.status = .failed)) fun c =>
      { c with
        status := .observed
        errorCode := none
        notificationStatus := .delivered
        updatedAt := now }
  else
    -- Completion or failure won the race with a cancellation request.
    cancellations.updateWhere
      (fun c => c.ownerUserId = owner ∧ c.objectiveId = objectiveId ∧
        c.status = .requested) fun c =>
      { c with
        status := .failed
        errorCode := some "objective_terminal"
        notificationStatus := .delivered
        updatedAt := now }

/-- An objective that a terminal event closed. -/
def closedObjective (event : FirstmateExecutionEvent) (now : ℤ) (o : ExecutionObjective) :
    ExecutionObjective :=
  { o with
    terminalEventId := some event.eventId
    terminalPhase := some event.phase
    updatedAt := now }

/-- Closing an objective keeps its key. -/
theorem key_closedObjective (event : FirstmateExecutionEvent) (now : ℤ) (o : ExecutionObjective) :
    (closedObjective event now o).key = o.key := rfl

/-- A terminal event closes its objective and the cancellation requests of it. -/
def closeObjective (owner : String) (event : FirstmateExecutionEvent) (now : ℤ) (db : Execution) :
    Execution :=
  if event.phase.terminal = true then
    let objectives := db.objectives.update (owner, event.objectiveId) (closedObjective event now)
      (key_closedObjective event now)
    { db with
      objectives
      cancellations := closeCancellations owner event.objectiveId event.phase now db.cancellations }
  else db

/-- `ingest`: store an event and its activity; an event that is stored is returned again. The
projection of the objective's state, which no store reads, can refuse the event. -/
def ingest (rules : ActivityRules) (owner : String) (event : FirstmateExecutionEvent) (now : ℤ)
    (projected : Bool) (db : Execution) :
    Except ExecutionFailure ((ExecutionEvent × Bool) × Execution) := do
  raiseIf (rules.boundedPrincipal owner = false)
    (.valueError "A bounded authenticated principal is required.")
  match db.events.find? (owner, event.eventId) with
  | some stored =>
    raiseIf (stored.payload ≠ event)
      (.conflict "That Firstmate execution event id is already bound to different facts.")
    return ((stored, true), db)
  | none =>
    let (objective, db) ← objectiveOf owner event now db
    let (record, activity) ← db.activity.upsert rules owner firstmateExecutionSource
      (executionKey event.eventId) (event.activity rules objective) now
    let stored := eventRow owner event record.id now
    let db := { db with
      activity
      events := db.events.insertOrIgnore stored }
    raiseIf (projected = false) (.runtimeError "objective_state")
    return ((stored, false), closeObjective owner event now db)

end FirstmateExecutionStore

/-- An ingest, or a write of others to the tables that ingests read. -/
inductive IngestStep where
  | ingest (owner : String) (event : FirstmateExecutionEvent) (now : ℤ) (projected : Bool)
  | chat (chat : Chat)
  | cancellations (cancellations : Table CancellationRequest.requestId)

/-- The tables after a step. -/
def ingestStep (rules : ActivityRules) (db : Execution) : IngestStep → Execution
  | .ingest owner event now projected =>
    commit (stateOf (FirstmateExecutionStore.ingest rules owner event now projected db)) db
  | .chat chat => { db with chat }
  | .cancellations cancellations => { db with cancellations }

namespace ActivityLog

variable {log log' : ActivityLog} {rules : ActivityRules}

/-- A recorded change comes last. -/
theorem recordChange_cases {r : ActivityRecord} {now : ℤ} (h : log.recordChange r now = .ok log') :
    log'.records = log.records ∧ ∃ c : ActivityChange, log'.changes.rows = log.changes.rows ++ [c] ∧
      c.userId = r.userId ∧ c.recordId = r.id ∧ c.recordRevision = r.revision := by
  simp only [recordChange, bind_eq_ok, raiseIf_eq_ok, pure_eq_ok, exists_const, not_not] at h
  obtain ⟨-, hfree, rfl⟩ := h
  exact ⟨rfl, _, Table.rows_insertOrIgnore hfree, rfl, rfl, rfl⟩

/-- A record under a new key comes last with its first change. -/
theorem upsert_new {user source recordKey : String} {fields : ActivityFields} {now : ℤ}
    {r : ActivityRecord} (hnew : log.recordOf user source recordKey = none)
    (h : log.upsert rules user source recordKey fields now = .ok (r, log')) :
    log'.records.rows = log.records.rows ++ [r] ∧ r.userId = user ∧ r.sourceInstanceId = source ∧
      r.recordKey = recordKey ∧ r.revision = 1 ∧ r.fields = fields ∧
      ∃ c : ActivityChange, log'.changes.rows = log.changes.rows ++ [c] ∧ c.userId = user ∧
        c.recordId = r.id ∧ c.recordRevision = 1 := by
  simp only [upsert, hnew, bind_eq_ok, raiseIf_eq_ok, pure_eq_ok, exists_const, not_not,
    Prod.mk.injEq] at h
  obtain ⟨-, hfree, last, hrecord, rfl, rfl⟩ := h
  obtain ⟨hrecords, c, hchanges, huser, hid, hrevision⟩ := recordChange_cases hrecord
  refine ⟨?_, rfl, rfl, rfl, rfl, rfl, c, hchanges, huser, hid, hrevision⟩
  rw [hrecords]
  exact Table.rows_insertOrIgnore hfree

end ActivityLog

namespace FirstmateExecutionStore

variable {rules : ActivityRules} {owner : String} {event : FirstmateExecutionEvent} {now : ℤ}
  {projected : Bool} {db db' mid : Execution} {objective : ExecutionObjective}

/-- The objective of an event: a new one that it accepts, or an open one of its task and run. -/
theorem objectiveOf_cases (h : objectiveOf owner event now db = .ok (objective, mid)) :
    objective.ownerUserId = owner ∧ objective.objectiveId = event.objectiveId ∧
      objective.taskId = event.taskId ∧ objective.runId = event.runId ∧
      objective.terminalEventId = none ∧
      ((event.phase = .accepted ∧ db.objectives.find? (owner, event.objectiveId) = none ∧
          (∀ o ∈ db.objectives.rows, o.ownerUserId = owner → o.taskId ≠ event.taskId) ∧
          objective.acceptedEventId = event.eventId ∧ objective.terminalPhase = none ∧
          mid = { db with objectives := db.objectives.insertOrIgnore objective }) ∨
        (event.phase ≠ .accepted ∧
          db.objectives.find? (owner, event.objectiveId) = some objective ∧ mid = db)) := by
  have hopen : ∀ o, openObjective owner event db = .ok (o, mid) →
      o.ownerUserId = owner ∧ o.objectiveId = event.objectiveId ∧ o.taskId = event.taskId ∧
        o.runId = event.runId ∧ o.terminalEventId = none ∧
        db.objectives.find? (owner, event.objectiveId) = some o ∧ mid = db := by
    intro o ho
    unfold openObjective at ho
    split at ho
    · exact absurd ho (by simp)
    · next found hfound =>
      simp only [bind_eq_ok, raiseIf_eq_ok, pure_eq_ok, exists_const, not_or, not_not,
        Prod.mk.injEq] at ho
      obtain ⟨⟨htask, hrun⟩, hterminal, rfl, rfl⟩ := ho
      obtain ⟨howner, hid⟩ := Prod.mk.inj (Table.mem_of_find? hfound).2
      exact ⟨howner, hid, htask, hrun, hterminal, hfound, rfl⟩
  unfold objectiveOf at h
  split at h
  · next title project conversationId userMessageId hreport =>
    simp only [acceptObjective, bind_eq_ok, raiseIf_eq_ok, pure_eq_ok, exists_const, not_not,
      not_exists, not_and, Prod.mk.injEq] at h
    obtain ⟨hfree, htask, -, -, rfl, rfl⟩ := h
    exact ⟨rfl, rfl, rfl, rfl, rfl, .inl ⟨by simp [FirstmateExecutionEvent.phase, hreport], hfree,
      htask, rfl, rfl, rfl⟩⟩
  · next hreport =>
    obtain ⟨howner, hid, htask, hrun, hterminal, hfound, rfl⟩ := hopen objective h
    refine ⟨howner, hid, htask, hrun, hterminal, .inr ⟨fun haccepted => ?_, hfound, rfl⟩⟩
    unfold FirstmateExecutionEvent.phase at haccepted
    split at haccepted
    · next accepted => exact hreport _ _ _ _ accepted
    all_goals simp at haccepted

/-- An ingest returns a stored event, or stores a new one with its activity. -/
theorem ingest_cases {stored : ExecutionEvent} {duplicate : Bool}
    (h : ingest rules owner event now projected db = .ok ((stored, duplicate), db')) :
    rules.boundedPrincipal owner = true ∧
      ((db.events.find? (owner, event.eventId) = some stored ∧ stored.payload = event ∧
          db' = db) ∨
        (db.events.find? (owner, event.eventId) = none ∧ ∃ objective mid record activity,
          objectiveOf owner event now db = .ok (objective, mid) ∧
          mid.activity.upsert rules owner firstmateExecutionSource (executionKey event.eventId)
            (event.activity rules objective) now = .ok (record, activity) ∧
          stored = eventRow owner event record.id now ∧
          db' = closeObjective owner event now
            { mid with activity, events := mid.events.insertOrIgnore stored })) := by
  simp only [ingest, bind_eq_ok, raiseIf_eq_ok, exists_const, Bool.not_eq_false] at h
  obtain ⟨hprincipal, h⟩ := h
  refine ⟨hprincipal, ?_⟩
  split at h
  · next found hfound =>
    simp only [bind_eq_ok, raiseIf_eq_ok, pure_eq_ok, exists_const, not_not, Prod.mk.injEq] at h
    obtain ⟨hpayload, ⟨rfl, -⟩, rfl⟩ := h
    exact .inl ⟨hfound, hpayload, rfl⟩
  · next hnone =>
    simp only [bind_eq_ok, raiseIf_eq_ok, pure_eq_ok, exists_const, Prod.mk.injEq, Prod.exists] at h
    obtain ⟨objective, mid, hobjective, record, activity, hupsert, -, ⟨rfl, -⟩, rfl⟩ := h
    exact .inr ⟨hnone, objective, mid, record, activity, hobjective, hupsert, rfl, rfl⟩

/-- A new event, and the tables after it. -/
structure Stored (rules : ActivityRules) (owner : String) (event : FirstmateExecutionEvent)
    (now : ℤ) (db db' : Execution) (stored : ExecutionEvent) (objective : ExecutionObjective)
    (objectives : Table ExecutionObjective.key) : Prop where
  fresh : db.events.find? (owner, event.eventId) = none
  row : ∃ recordId, stored = eventRow owner event recordId now
  events : db'.events.rows = db.events.rows ++ [stored]
  owned : objective.ownerUserId = owner
  objectiveId : objective.objectiveId = event.objectiveId
  task : objective.taskId = event.taskId
  run : objective.runId = event.runId
  opened : objective.terminalEventId = none
  found : objectives.find? (owner, event.objectiveId) = some objective
  source : (event.phase = .accepted ∧ db.objectives.find? (owner, event.objectiveId) = none ∧
      (∀ o ∈ db.objectives.rows, o.ownerUserId = owner → o.taskId ≠ event.taskId) ∧
      objective.acceptedEventId = event.eventId ∧ objective.terminalPhase = none ∧
      objectives = db.objectives.insertOrIgnore objective) ∨
    (event.phase ≠ .accepted ∧ objectives = db.objectives)
  closed : db'.objectives = if event.phase.terminal = true then
      objectives.update (owner, event.objectiveId) (closedObjective event now)
        (key_closedObjective event now)
    else objectives
  cancellations : db'.cancellations = if event.phase.terminal = true then
      closeCancellations owner event.objectiveId event.phase now db.cancellations
    else db.cancellations
  others : db'.submissions = db.submissions ∧ db'.runs = db.runs ∧ db'.chat = db.chat
  activity : ∃ record, db.activity.upsert rules owner firstmateExecutionSource
    (executionKey event.eventId) (event.activity rules objective) now = .ok (record, db'.activity) ∧
    stored.activityRecordId = record.id

/-- An ingest that stores a new event. -/
theorem ingest_stored {stored : ExecutionEvent} {duplicate : Bool}
    (h : ingest rules owner event now projected db = .ok ((stored, duplicate), db')) :
    (db.events.find? (owner, event.eventId) = some stored ∧ stored.payload = event ∧ db' = db) ∨
      ∃ objective objectives,
        Stored rules owner event now db db' stored objective objectives := by
  obtain ⟨-, hstored | ⟨hfresh, objective, mid, record, activity, hobjective, hupsert, rfl, rfl⟩⟩ :=
    ingest_cases h
  · exact .inl hstored
  obtain ⟨howner, hid, htask, hrun, hopen, hsource⟩ := objectiveOf_cases hobjective
  have hmid : mid.events = db.events ∧ mid.activity = db.activity ∧
      mid.cancellations = db.cancellations ∧ mid.submissions = db.submissions ∧
      mid.runs = db.runs ∧ mid.chat = db.chat := by
    rcases hsource with ⟨-, -, -, -, -, rfl⟩ | ⟨-, -, rfl⟩ <;> exact ⟨rfl, rfl, rfl, rfl, rfl, rfl⟩
  obtain ⟨hevents, hactivity, hcancellations, hsubmissions, hruns, hchat⟩ := hmid
  have hfind : mid.objectives.find? (owner, event.objectiveId) = some objective := by
    rcases hsource with ⟨-, hnone, -, -, -, rfl⟩ | ⟨-, hfound, rfl⟩
    · have hkey : objective.key = (owner, event.objectiveId) := by
        rw [ExecutionObjective.key, howner, hid]
      rw [← hkey] at hnone ⊢
      exact Table.find?_of_mem (Table.mem_insertOrIgnore_self hnone)
    · exact hfound
  have hrows : (mid.events.insertOrIgnore (eventRow owner event record.id now)).rows =
      db.events.rows ++ [eventRow owner event record.id now] := by
    rw [hevents]
    exact Table.rows_insertOrIgnore hfresh
  rw [hactivity] at hupsert
  refine .inr ⟨objective, mid.objectives, ?_⟩
  unfold closeObjective
  split
  · next hterminal =>
    exact ⟨hfresh, ⟨_, rfl⟩, hrows, howner, hid, htask, hrun, hopen, hfind,
      hsource.imp
        (by rintro ⟨h1, h2, h3, h4, h5, h6⟩; exact ⟨h1, h2, h3, h4, h5, by rw [h6]⟩)
        (by rintro ⟨h1, _, h3⟩; exact ⟨h1, by rw [h3]⟩),
      by simp only [if_pos hterminal], by simp only [if_pos hterminal, hcancellations],
      ⟨hsubmissions, hruns, hchat⟩, record, hupsert, rfl⟩
  · next hopened =>
    exact ⟨hfresh, ⟨_, rfl⟩, hrows, howner, hid, htask, hrun, hopen, hfind,
      hsource.imp
        (by rintro ⟨h1, h2, h3, h4, h5, h6⟩; exact ⟨h1, h2, h3, h4, h5, by rw [h6]⟩)
        (by rintro ⟨h1, _, h3⟩; exact ⟨h1, by rw [h3]⟩),
      by simp only [if_neg hopened], by simp only [if_neg hopened, hcancellations],
      ⟨hsubmissions, hruns, hchat⟩, record, hupsert, rfl⟩

end FirstmateExecutionStore

/-- Events of one objective. -/
def SameObjective (e l : ExecutionEvent) : Prop :=
  e.ownerUserId = l.ownerUserId ∧ e.objectiveId = l.objectiveId

/-- What holds of the stored events and objectives. -/
structure EventStreams (rules : ActivityRules) (db : Execution) : Prop where
  principal : ∀ e ∈ db.events.rows, rules.boundedPrincipal e.ownerUserId = true
  /-- Of two events of an objective the earlier ends nothing and the later accepts nothing. -/
  order : db.events.rows.Pairwise fun e l =>
    SameObjective e l → e.phase.terminal = false ∧ l.phase ≠ .accepted
  known : ∀ e ∈ db.events.rows, ∃ o, db.objectives.find? (e.ownerUserId, e.objectiveId) = some o ∧
    o.taskId = e.taskId ∧ o.runId = e.runId ∧
      (e.phase = .accepted → o.acceptedEventId = e.eventId) ∧
    (e.phase.terminal = true → o.terminalEventId = some e.eventId ∧ o.terminalPhase = some e.phase)
  accepted : ∀ o ∈ db.objectives.rows, ∃ a ∈ db.events.rows, a.phase = .accepted ∧
    a.ownerUserId = o.ownerUserId ∧ a.objectiveId = o.objectiveId
  ended : ∀ o ∈ db.objectives.rows, o.terminalEventId = none ∧ o.terminalPhase = none ∨
    ∃ e ∈ db.events.rows, e.phase.terminal = true ∧ e.ownerUserId = o.ownerUserId ∧
      e.objectiveId = o.objectiveId ∧ o.terminalEventId = some e.eventId ∧
      o.terminalPhase = some e.phase
  tasks : ∀ o ∈ db.objectives.rows, ∀ o' ∈ db.objectives.rows, o.ownerUserId = o'.ownerUserId →
    o.taskId = o'.taskId → o = o'

namespace EventStreams

open FirstmateExecutionStore

variable {rules : ActivityRules} {owner : String} {event : FirstmateExecutionEvent} {now : ℤ}
  {db db' : Execution} {stored : ExecutionEvent} {objective : ExecutionObjective}
  {objectives : Table ExecutionObjective.key}

theorem initial : EventStreams rules .initial where
  principal _ he := by simp [Execution.initial] at he
  order := .nil
  known _ he := by simp [Execution.initial] at he
  accepted _ ho := by simp [Execution.initial] at ho
  ended _ ho := by simp [Execution.initial] at ho
  tasks _ ho := by simp [Execution.initial] at ho

/-- Writes of others keep the streams. -/
theorem congr (h : EventStreams rules db) (hevents : db'.events = db.events)
    (hobjectives : db'.objectives = db.objectives) : EventStreams rules db' where
  principal := hevents ▸ h.principal
  order := hevents ▸ h.order
  known := hevents ▸ hobjectives ▸ h.known
  accepted := hevents ▸ hobjectives ▸ h.accepted
  ended := hevents ▸ hobjectives ▸ h.ended
  tasks := hobjectives ▸ h.tasks

/-- A terminal event is of the closed objective. -/
theorem not_terminal_of_open (h : EventStreams rules db) {e : ExecutionEvent}
    (he : e ∈ db.events.rows) {o : ExecutionObjective}
    (ho : db.objectives.find? (e.ownerUserId, e.objectiveId) = some o)
    (hopen : o.terminalEventId = none) : e.phase.terminal = false := by
  refine Bool.eq_false_iff.mpr fun hterminal => ?_
  obtain ⟨o', ho', -, -, -, hended⟩ := h.known e he
  obtain rfl : o = o' := Option.some.inj (ho.symm.trans ho')
  rw [(hended hterminal).1] at hopen
  exact Option.some_ne_none _ hopen

/-- A new event comes after the events of its objective, which is open. -/
theorem order_stored (h : EventStreams rules db)
    (hstored : Stored rules owner event now db db' stored objective objectives) :
    db'.events.rows.Pairwise fun e l =>
      SameObjective e l → e.phase.terminal = false ∧ l.phase ≠ .accepted := by
  obtain ⟨recordId, hrow⟩ := hstored.row
  rw [hstored.events, List.pairwise_append]
  refine ⟨h.order, List.pairwise_singleton _ _, fun e he l hl hsame => ?_⟩
  rw [List.mem_singleton] at hl
  subst hl
  rw [hrow] at hsame ⊢
  obtain ⟨howner, hid⟩ := hsame
  obtain ⟨o, ho, -⟩ := h.known e he
  rw [howner, hid] at ho
  rcases hstored.source with ⟨-, hnone, -⟩ | ⟨hphase, hobjectives⟩
  · exact absurd (hnone.symm.trans ho) (by simp)
  · refine ⟨?_, hphase⟩
    have hfound := hstored.found
    rw [hobjectives] at hfound
    refine h.not_terminal_of_open he (o := objective) ?_ hstored.opened
    rw [howner, hid]
    exact hfound

/-- The objectives after an event are those before it, but for the one it is of. -/
theorem find?_stored (hstored : Stored rules owner event now db db' stored objective objectives)
    {key : String × String} {o : ExecutionObjective} (ho : objectives.find? key = some o) :
    ∃ o', db'.objectives.find? key = some o' ∧ o'.ownerUserId = o.ownerUserId ∧
      o'.objectiveId = o.objectiveId ∧ o'.taskId = o.taskId ∧ o'.runId = o.runId ∧
      o'.acceptedEventId = o.acceptedEventId ∧
      (if event.phase.terminal = true ∧ key = (owner, event.objectiveId) then
        o'.terminalEventId = some event.eventId ∧ o'.terminalPhase = some event.phase
      else o' = o) := by
  rw [hstored.closed]
  split
  · next hterminal =>
    rw [Table.find?_update, ho, Option.map_some]
    by_cases hkey : key = (owner, event.objectiveId)
    · rw [if_pos hkey]
      exact ⟨_, rfl, rfl, rfl, rfl, rfl, rfl, by rw [if_pos ⟨hterminal, hkey⟩]; exact ⟨rfl, rfl⟩⟩
    · rw [if_neg hkey]
      exact ⟨o, rfl, rfl, rfl, rfl, rfl, rfl, by rw [if_neg fun h => hkey h.2]⟩
  · next hopen => exact ⟨o, ho, rfl, rfl, rfl, rfl, rfl, by rw [if_neg fun h => hopen h.1]⟩

/-- The objectives that were there before an event. -/
theorem find?_objectives (hstored : Stored rules owner event now db db' stored objective objectives)
    {key : String × String} {o : ExecutionObjective} (ho : db.objectives.find? key = some o) :
    objectives.find? key = some o := by
  rcases hstored.source with ⟨-, -, -, -, -, hobjectives⟩ | ⟨-, hobjectives⟩
  · rw [hobjectives, Table.find?_insertOrIgnore, ho, Option.some_or]
  · rwa [hobjectives]

/-- An event's objective and what it says of the event. -/
theorem known_stored (h : EventStreams rules db)
    (hstored : Stored rules owner event now db db' stored objective objectives) :
    ∀ e ∈ db'.events.rows, ∃ o, db'.objectives.find? (e.ownerUserId, e.objectiveId) = some o ∧
      o.taskId = e.taskId ∧ o.runId = e.runId ∧
      (e.phase = .accepted → o.acceptedEventId = e.eventId) ∧
      (e.phase.terminal = true → o.terminalEventId = some e.eventId ∧
        o.terminalPhase = some e.phase) := by
  intro e he
  rw [hstored.events] at he
  rcases List.mem_append.mp he with he | he
  · obtain ⟨o, ho, htask, hrun, haccepted, hended⟩ := h.known e he
    obtain ⟨o', ho', -, -, htask', hrun', haccepted', hsame⟩ :=
      find?_stored hstored (find?_objectives hstored ho)
    refine ⟨o', ho', htask'.trans htask, hrun'.trans hrun,
      fun hphase => haccepted'.trans (haccepted hphase), fun hphase => ?_⟩
    split at hsame
    · next hthis =>
      -- The objective of a stored terminal event takes no other event.
      have hfound := hstored.found
      rw [← hthis.2, find?_objectives hstored ho] at hfound
      obtain rfl := Option.some.inj hfound
      have hopen := hstored.opened
      rw [(hended hphase).1] at hopen
      exact absurd hopen (Option.some_ne_none _)
    · rw [hsame]
      exact hended hphase
  · rw [List.mem_singleton] at he
    subst he
    obtain ⟨recordId, hrow⟩ := hstored.row
    obtain ⟨o', ho', -, -, htask', hrun', haccepted', hsame⟩ := find?_stored hstored hstored.found
    rw [hrow]
    refine ⟨o', ho', htask'.trans hstored.task, hrun'.trans hstored.run, fun hphase => ?_,
      fun hphase => ?_⟩
    · rcases hstored.source with ⟨-, -, -, hid, -⟩ | ⟨hother, -⟩
      · exact haccepted'.trans hid
      · exact absurd hphase hother
    · rw [if_pos ⟨hphase, rfl⟩] at hsame
      exact hsame

/-- An objective after an event was there before, or was accepted by it. -/
theorem mem_objectives_stored
    (hstored : Stored rules owner event now db db' stored objective objectives)
    {o' : ExecutionObjective} (ho' : o' ∈ db'.objectives.rows) :
    ∃ o ∈ objectives.rows, o'.ownerUserId = o.ownerUserId ∧ o'.objectiveId = o.objectiveId ∧
      o'.taskId = o.taskId ∧
      (if event.phase.terminal = true ∧ o.key = (owner, event.objectiveId) then
        o'.terminalEventId = some event.eventId ∧ o'.terminalPhase = some event.phase
      else o' = o) ∧
      (o ∈ db.objectives.rows ∨ event.phase = .accepted ∧ o = objective) := by
  have hold : ∀ o ∈ objectives.rows, o ∈ db.objectives.rows ∨
      event.phase = .accepted ∧ o = objective := by
    intro o ho
    rcases hstored.source with ⟨hphase, -, -, -, -, hobjectives⟩ | ⟨-, hobjectives⟩
    · rw [hobjectives] at ho
      exact (Table.mem_insertOrIgnore ho).imp id fun h => ⟨hphase, h.2⟩
    · exact .inl (hobjectives ▸ ho)
  have hfind := Table.find?_of_mem ho'
  cases hprior : objectives.find? o'.key with
  | none =>
    rw [hstored.closed] at hfind
    split at hfind
    · rw [Table.find?_update, hprior] at hfind
      simp at hfind
    · exact absurd (hprior.symm.trans hfind) (by simp)
  | some o =>
    obtain ⟨o'', ho'', howner, hid, htask, -, -, hsame⟩ := find?_stored hstored hprior
    obtain rfl := Option.some.inj (hfind.symm.trans ho'')
    obtain ⟨hmem, hkey⟩ := Table.mem_of_find? hprior
    exact ⟨o, hmem, howner, hid, htask, by rw [hkey]; exact hsame, hold o hmem⟩

/-- The objective of a new event has no end. -/
theorem open_of_stored (h : EventStreams rules db)
    (hstored : Stored rules owner event now db db' stored objective objectives) :
    db.terminalPhase owner event.objectiveId = none := by
  rcases hstored.source with ⟨-, hnone, -⟩ | ⟨-, hobjectives⟩
  · rw [Execution.terminalPhase, hnone]
    rfl
  · have hfound := hstored.found
    rw [hobjectives] at hfound
    rw [Execution.terminalPhase, hfound, Option.bind_some]
    rcases h.ended objective (Table.mem_of_find? hfound).1 with hopen | ⟨e, -, -, -, -, hended, -⟩
    · exact hopen.2
    · rw [hstored.opened] at hended
      exact absurd hended.symm (Option.some_ne_none _)

/-- A new event ends its objective if it is a terminal one, and no other. -/
theorem terminalPhase_stored
    (hstored : Stored rules owner event now db db' stored objective objectives) (o id : String) :
    db'.terminalPhase o id =
      if event.phase.terminal = true ∧ (o, id) = (owner, event.objectiveId) then some event.phase
      else db.terminalPhase o id := by
  unfold Execution.terminalPhase
  cases hprior : objectives.find? (o, id) with
  | none =>
    have hnone : db.objectives.find? (o, id) = none := by
      refine Option.eq_none_iff_forall_ne_some.mpr fun p hp => ?_
      rw [find?_objectives hstored hp] at hprior
      exact Option.some_ne_none p hprior
    have hother : (o, id) ≠ (owner, event.objectiveId) := by
      intro hthis
      rw [hthis, hstored.found] at hprior
      exact Option.some_ne_none _ hprior
    rw [hnone, if_neg fun hended => hother hended.2, hstored.closed]
    split
    · rw [Table.find?_update_ne _ hother, hprior]
    · rw [hprior]
  | some p =>
    obtain ⟨p', hp', -, -, -, -, -, hsame⟩ := find?_stored hstored hprior
    rw [hp', Option.bind_some]
    split at hsame
    · next hended => rw [if_pos hended, hsame.2]
    · next hopen =>
      rw [if_neg hopen, hsame]
      cases hold : db.objectives.find? (o, id) with
      | some q =>
        rw [find?_objectives hstored hold] at hprior
        rw [Option.some.inj hprior]
        rfl
      | none =>
        -- Only the accepted objective is new.
        rcases hstored.source with ⟨-, -, -, -, hphase, hobjectives⟩ | ⟨-, hobjectives⟩
        · rw [hobjectives, Table.find?_insertOrIgnore, hold, Option.none_or] at hprior
          split at hprior
          · rw [← Option.some.inj hprior, hphase]
            rfl
          · exact absurd hprior (by simp)
        · rw [hobjectives, hold] at hprior
          exact absurd hprior (by simp)

/-- A new event keeps the streams. -/
theorem store (h : EventStreams rules db) (hprincipal : rules.boundedPrincipal owner = true)
    (hstored : Stored rules owner event now db db' stored objective objectives) :
    EventStreams rules db' where
  principal := by
    intro e he
    rw [hstored.events] at he
    rcases List.mem_append.mp he with he | he
    · exact h.principal e he
    · obtain ⟨recordId, hrow⟩ := hstored.row
      rw [List.mem_singleton.mp he, hrow]
      exact hprincipal
  order := h.order_stored hstored
  known := h.known_stored hstored
  accepted := by
    intro o' ho'
    obtain ⟨o, -, howner, hid, -, -, hold | ⟨hphase, rfl⟩⟩ := mem_objectives_stored hstored ho'
    · obtain ⟨a, ha, hphase, haowner, haid⟩ := h.accepted o hold
      rw [hstored.events, howner, hid]
      exact ⟨a, List.mem_append_left _ ha, hphase, haowner, haid⟩
    · obtain ⟨recordId, hrow⟩ := hstored.row
      rw [hstored.events, howner, hid, hstored.owned, hstored.objectiveId]
      exact ⟨stored,
        List.mem_append_right _ (List.mem_singleton_self
          _), by rw [hrow]; exact hphase, by rw [hrow]; rfl, by rw [hrow]; rfl⟩
  ended := by
    intro o' ho'
    obtain ⟨o, -, howner, hid, -, hsame, hold⟩ := mem_objectives_stored hstored ho'
    split at hsame
    · next hthis =>
      obtain ⟨recordId, hrow⟩ := hstored.row
      obtain ⟨hkowner, hkid⟩ := Prod.mk.inj hthis.2
      refine .inr ⟨stored, ?_, ?_⟩
      · rw [hstored.events]
        exact List.mem_append_right _ (List.mem_singleton_self _)
      · rw [hrow, howner, hid, hkowner, hkid]
        exact ⟨hthis.1, rfl, rfl, hsame⟩
    · subst hsame
      rcases hold with hold | ⟨hphase, rfl⟩
      · rcases h.ended o' hold with hopen | ⟨e, he, hended⟩
        · exact .inl hopen
        · refine .inr ⟨e, ?_, hended⟩
          rw [hstored.events]
          exact List.mem_append_left _ he
      · rcases hstored.source with ⟨-, -, -, -, hphase', -⟩ | ⟨hother, -⟩
        · exact .inl ⟨hstored.opened, hphase'⟩
        · exact absurd hphase hother
  tasks := by
    intro o₁ h₁ o₂ h₂ howner htask
    obtain ⟨p₁, -, howner₁, hid₁, htask₁, -, hold₁⟩ := mem_objectives_stored hstored h₁
    obtain ⟨p₂, -, howner₂, hid₂, htask₂, -, hold₂⟩ := mem_objectives_stored hstored h₂
    have hfree : ∀ p ∈ db.objectives.rows, event.phase = .accepted → p.ownerUserId = owner →
        p.taskId ≠ event.taskId := by
      intro p hp hphase
      rcases hstored.source with ⟨-, -, hfree, -⟩ | ⟨hother, -⟩
      · exact hfree p hp
      · exact absurd hphase hother
    have hsame : p₁.ownerUserId = p₂.ownerUserId ∧ p₁.taskId = p₂.taskId := by
      rw [← howner₁, ← howner₂, ← htask₁, ← htask₂]
      exact ⟨howner, htask⟩
    have hp : p₁ = p₂ := by
      rcases hold₁ with hold₁ | ⟨hphase, hnew₁⟩ <;> rcases hold₂ with hold₂ | ⟨hphase', hnew₂⟩
      · exact h.tasks p₁ hold₁ p₂ hold₂ hsame.1 hsame.2
      · rw [hnew₂, hstored.owned, hstored.task] at hsame
        exact absurd hsame.2 (hfree p₁ hold₁ hphase' hsame.1)
      · rw [hnew₁, hstored.owned, hstored.task] at hsame
        exact absurd hsame.2.symm (hfree p₂ hold₂ hphase hsame.1.symm)
      · exact hnew₁.trans hnew₂.symm
    refine Table.eq_of_mem h₁ h₂ ?_
    rw [ExecutionObjective.key, ExecutionObjective.key, howner₁, hid₁, howner₂, hid₂, hp]

/-- Every step keeps the streams. -/
theorem step (h : EventStreams rules db) (op : IngestStep) :
    EventStreams rules (ingestStep rules db op) := by
  cases op with
  | ingest owner event now projected =>
    refine commit_of h fun db' hok => ?_
    obtain ⟨⟨stored, duplicate⟩, hingest⟩ := stateOf_eq_ok.mp hok
    rcases ingest_stored hingest with ⟨-, -, rfl⟩ | ⟨objective, objectives, hstored⟩
    · exact h
    · exact h.store (ingest_cases hingest).1 hstored
  | chat chat => exact h.congr rfl rfl
  | cancellations cancellations => exact h.congr rfl rfl

end EventStreams

/-- What identifies the record of an event. -/
def ActivityRecord.identity (r : ActivityRecord) :
    String × String × String × String × ℕ × Option String :=
  (r.id, r.userId, r.sourceInstanceId, r.recordKey, r.revision, r.fields.sourceEventId)

/-- The identity of the record that an event produces. -/
def ExecutionEvent.recordIdentity (e : ExecutionEvent) :
    String × String × String × String × ℕ × Option String :=
  (e.activityRecordId, e.ownerUserId, firstmateExecutionSource,
    executionKey e.eventId, 1, e.eventId)

/-- Every stored event has one record and one change, in the order of the events. -/
structure Projected (db : Execution) : Prop where
  records : db.activity.records.rows.map ActivityRecord.identity =
    db.events.rows.map ExecutionEvent.recordIdentity
  changes : db.activity.changes.rows.map (fun c => (c.userId, c.recordId, c.recordRevision)) =
    db.events.rows.map fun e => (e.ownerUserId, e.activityRecordId, 1)

namespace Projected

open FirstmateExecutionStore

variable {rules : ActivityRules} {db db' : Execution}

/-- An event that is not stored has no record. -/
theorem recordOf_eq_none (h : Projected db) {owner eventId : String}
    (hfresh : db.events.find? (owner, eventId) = none) :
    db.activity.recordOf owner firstmateExecutionSource (executionKey eventId) = none := by
  refine List.find?_eq_none.mpr fun r hr hmatch => ?_
  obtain ⟨howner, -, hkey⟩ := of_decide_eq_true hmatch
  have hmem := List.mem_map_of_mem (f := ActivityRecord.identity) hr
  rw [h.records] at hmem
  obtain ⟨e, he, hidentity⟩ := List.mem_map.mp hmem
  simp only [ExecutionEvent.recordIdentity, ActivityRecord.identity, Prod.mk.injEq] at hidentity
  obtain ⟨-, howner', -, hkey', -⟩ := hidentity
  have hid : e.eventId = eventId := (String.append_right_inj _).mp (hkey'.trans hkey)
  refine Table.find?_eq_none_iff.mp hfresh e he ?_
  rw [ExecutionEvent.key, howner'.trans howner, hid]

/-- A new event has its record and its change. -/
theorem store {owner : String} {event : FirstmateExecutionEvent} {now : ℤ} {stored : ExecutionEvent}
    {objective : ExecutionObjective} {objectives : Table ExecutionObjective.key}
    (h : Projected db) (hstored : Stored rules owner event now db db' stored objective objectives) :
    Projected db' := by
  obtain ⟨record, hupsert, hid⟩ := hstored.activity
  obtain ⟨recordId, hrow⟩ := hstored.row
  obtain ⟨hrecords, huser, hsource, hkey, hrevision, hfields, c, hchanges, hcuser,
    hcid, hcrevision⟩ :=
    ActivityLog.upsert_new (h.recordOf_eq_none hstored.fresh) hupsert
  have howner : stored.ownerUserId = owner := by rw [hrow]; rfl
  have heventId : stored.eventId = event.eventId := by rw [hrow]; rfl
  constructor
  · rw [hrecords, hstored.events, List.map_append, List.map_append, h.records, List.map_singleton,
      List.map_singleton]
    simp [ActivityRecord.identity, ExecutionEvent.recordIdentity, huser, hsource, hkey, hrevision,
      hfields, hid, howner, heventId, FirstmateExecutionEvent.activity]
  · rw [hchanges, hstored.events, List.map_append, List.map_append, h.changes, List.map_singleton,
      List.map_singleton, hcuser, hcid, hcrevision, howner, hid]

/-- Every step keeps the projection. -/
theorem step (h : Projected db) (rules : ActivityRules) (op : IngestStep) :
    Projected (ingestStep rules db op) := by
  cases op with
  | ingest owner event now projected =>
    refine commit_of h fun db' hok => ?_
    obtain ⟨⟨stored, duplicate⟩, hingest⟩ := stateOf_eq_ok.mp hok
    rcases ingest_stored hingest with ⟨-, -, rfl⟩ | ⟨objective, objectives, hstored⟩
    · exact h
    · exact h.store hstored
  | chat chat => exact ⟨h.records, h.changes⟩
  | cancellations cancellations => exact ⟨h.records, h.changes⟩

end Projected

/-- Rows that exclude each other are at most one. -/
theorem countP_le_one_of_pairwise {α : Type*} {R : α → α → Prop} {p : α → Bool} {l : List α}
    (h : l.Pairwise R) (hp : ∀ a b, p a = true → p b = true → ¬R a b) : l.countP p ≤ 1 := by
  induction l with
  | nil => simp
  | cons a l ih =>
    obtain ⟨ha, hl⟩ := List.pairwise_cons.mp h
    rw [List.countP_cons]
    split
    · next hpa =>
      have hnone : l.countP p = 0 := List.countP_eq_zero.mpr fun b hb hpb =>
        hp a b hpa hpb (ha b hb)
      omega
    · exact ih hl

namespace EventStreams

variable {rules : ActivityRules} {db : Execution}

/-- The accepting event of an objective comes before its other events, with their task and run. -/
theorem accepted_before (h : EventStreams rules db) {before after : List ExecutionEvent}
    {e : ExecutionEvent} (hsplit : db.events.rows = before ++ e :: after)
    (hphase : e.phase ≠ .accepted) :
    ∃ a ∈ before, a.phase = .accepted ∧ SameObjective a e ∧ a.taskId = e.taskId ∧
      a.runId = e.runId := by
  have he : e ∈ db.events.rows := by simp [hsplit]
  obtain ⟨o, ho, htask, hrun, -⟩ := h.known e he
  obtain ⟨homem, hokey⟩ := Table.mem_of_find? ho
  obtain ⟨howner, hid⟩ := Prod.mk.inj hokey
  obtain ⟨a, ha, haccepted, haowner, haid⟩ := h.accepted o homem
  have hsame : SameObjective a e := ⟨haowner.trans howner, haid.trans hid⟩
  obtain ⟨o', ho', htask', hrun', -⟩ := h.known a ha
  rw [hsame.1, hsame.2, ho] at ho'
  obtain rfl := Option.some.inj ho'
  refine ⟨a, ?_, haccepted, hsame, htask'.symm.trans htask, hrun'.symm.trans hrun⟩
  rw [hsplit] at ha
  rcases List.mem_append.mp ha with ha | ha
  · exact ha
  rcases List.mem_cons.mp ha with rfl | ha
  · exact absurd haccepted hphase
  · have horder := h.order
    rw [hsplit, List.pairwise_append] at horder
    have hlater := (List.pairwise_cons.mp horder.2.1).1 a ha ⟨hsame.1.symm, hsame.2.symm⟩
    exact absurd haccepted hlater.2

/-- Objectives and tasks of an owner correspond one to one. -/
theorem objective_iff_task (h : EventStreams rules db) {e l : ExecutionEvent}
    (he : e ∈ db.events.rows) (hl : l ∈ db.events.rows) (howner : e.ownerUserId = l.ownerUserId) :
    e.objectiveId = l.objectiveId ↔ e.taskId = l.taskId := by
  obtain ⟨o, ho, htask, -⟩ := h.known e he
  obtain ⟨o', ho', htask', -⟩ := h.known l hl
  obtain ⟨hmem, hkey⟩ := Table.mem_of_find? ho
  obtain ⟨hmem', hkey'⟩ := Table.mem_of_find? ho'
  obtain ⟨hkowner, hkid⟩ := Prod.mk.inj hkey
  obtain ⟨hkowner', hkid'⟩ := Prod.mk.inj hkey'
  constructor
  · intro hid
    rw [howner, hid, ho'] at ho
    obtain rfl := Option.some.inj ho
    exact htask.symm.trans htask'
  · intro htasks
    have hsame := h.tasks o hmem o' hmem' (hkowner.trans (howner.trans hkowner'.symm))
      (htask.trans (htasks.trans htask'.symm))
    rw [← hkid, ← hkid', hsame]

end EventStreams

/-- The event stream of objectives. In every run of ingests an objective has at most one accepting
and at most one terminal event; every other event comes after the accepting one with its task and
run, and no event comes after a terminal one; objectives and tasks of an owner correspond one to
one; an event id that comes again changes nothing, and is refused with other facts; and the activity
records and changes are one for each stored event, in their order. -/
theorem execution_event_stream (rules : ActivityRules) (steps : List IngestStep) :
    let db := run (ingestStep rules) .initial steps
    (∀ owner objectiveId,
      db.events.rows.countP (fun e => e.ownerUserId = owner ∧ e.objectiveId = objectiveId ∧
        e.phase = .accepted) ≤ 1 ∧
      db.events.rows.countP (fun e => e.ownerUserId = owner ∧ e.objectiveId = objectiveId ∧
        e.phase.terminal = true) ≤ 1) ∧
    (∀ before e after, db.events.rows = before ++ e :: after →
      (e.phase ≠ .accepted → ∃ a ∈ before, a.phase = .accepted ∧ SameObjective a e ∧
        a.taskId = e.taskId ∧ a.runId = e.runId) ∧
      (e.phase.terminal = true → ∀ l ∈ after, ¬SameObjective e l)) ∧
    (∀ e ∈ db.events.rows, ∀ l ∈ db.events.rows, e.ownerUserId = l.ownerUserId →
      (e.objectiveId = l.objectiveId ↔ e.taskId = l.taskId)) ∧
    (∀ owner event now projected stored, db.events.find? (owner, event.eventId) = some stored →
      ingestStep rules db (.ingest owner event now projected) = db ∧
      FirstmateExecutionStore.ingest rules owner event now projected db =
        if stored.payload = event then .ok ((stored, true), db)
        else .error (.conflict
          "That Firstmate execution event id is already bound to different facts.")) ∧
    db.activity.records.rows.map ActivityRecord.identity =
      db.events.rows.map ExecutionEvent.recordIdentity ∧
    db.activity.changes.rows.map (fun c => (c.userId, c.recordId, c.recordRevision)) =
      db.events.rows.map fun e => (e.ownerUserId, e.activityRecordId, 1) := by
  intro db
  have hstreams : EventStreams rules db :=
    run_invariant' (fun _ op h => h.step op) steps .initial
  have hprojected : Projected db :=
    run_invariant' (fun _ op h => h.step rules op) steps ⟨rfl, rfl⟩
  refine ⟨fun owner objectiveId => ⟨?_, ?_⟩, fun before e after hsplit =>
    ⟨hstreams.accepted_before hsplit, fun hterminal l hl hsame => ?_⟩,
    fun e he l hl => hstreams.objective_iff_task he hl,
    fun owner event now projected stored hfound =>
      ?_, hprojected.records, hprojected.changes⟩
  · refine countP_le_one_of_pairwise hstreams.order fun a b ha hb hab => ?_
    obtain ⟨haowner, haid, -⟩ := of_decide_eq_true ha
    obtain ⟨hbowner, hbid, hbphase⟩ := of_decide_eq_true hb
    exact (hab ⟨haowner.trans hbowner.symm, haid.trans hbid.symm⟩).2 hbphase
  · refine countP_le_one_of_pairwise hstreams.order fun a b ha hb hab => ?_
    obtain ⟨haowner, haid, haphase⟩ := of_decide_eq_true ha
    obtain ⟨hbowner, hbid, -⟩ := of_decide_eq_true hb
    have hopen := (hab ⟨haowner.trans hbowner.symm, haid.trans hbid.symm⟩).1
    exact absurd (haphase.symm.trans hopen) (by simp)
  · have horder := hstreams.order
    rw [hsplit, List.pairwise_append] at horder
    have hopen := ((List.pairwise_cons.mp horder.2.1).1 l hl hsame).1
    exact absurd (hterminal.symm.trans hopen) (by simp)
  · have hprincipal : rules.boundedPrincipal owner = true := by
      obtain ⟨hmem, hkey⟩ := Table.mem_of_find? hfound
      rw [← (Prod.mk.inj hkey).1]
      exact hstreams.principal stored hmem
    have hingest : FirstmateExecutionStore.ingest rules owner event now projected db =
        if stored.payload = event then .ok ((stored, true), db)
        else .error (.conflict
          "That Firstmate execution event id is already bound to different facts.") := by
      rw [FirstmateExecutionStore.ingest, raiseIf_ok (by simp [hprincipal]), ok_bind]
      simp only [hfound]
      split
      · next hpayload =>
        rw [raiseIf_ok (not_not.mpr hpayload)]
        rfl
      · next hpayload =>
        rw [raiseIf_error hpayload]
        rfl
    refine ⟨?_, hingest⟩
    rw [ingestStep, hingest]
    split <;> rfl

/-- Texts are taken as they are. -/
def plainRules : ActivityRules where
  boundedPrincipal owner := owner ≠ ""
  publishable _ := true
  recordId user source recordKey := user ++ source ++ recordKey
  payloadSha256 event := event.eventId

/-- A chat with the message that an objective comes from. -/
def originChat : Chat :=
  let message : MagiMessage :=
    { id := "mgm_message"
      conversationId := "mgc_conversation"
      ownerUserId := "owner"
      turnId := "turn"
      role := .user
      content := "Do it."
      status := .completed
      source := "native"
      clientMessageId := none
      replyToMessageId := none
      attachments := []
      sequenceIndex := 1
      revision := 1
      attemptCount := 0
      errorCode := none
      createdAt := 0
      updatedAt := 0 }
  { Chat.initial with messages := Table.empty.insertOrIgnore message }

/-- An event of the objective. -/
def objectiveEvent (eventId : String) (report : EventReport) : FirstmateExecutionEvent where
  eventId := eventId
  objectiveId := "mgo_0123456789abcdef0123456789abcdef"
  taskId := "task"
  runId := "run"
  occurredAtMs := 0
  report := report

/-- The event that accepts the objective. -/
def acceptedEvent : FirstmateExecutionEvent :=
  objectiveEvent "accepted" (.accepted "Objective" none "mgc_conversation" "mgm_message")

/-- The event that completes it. -/
def completedEvent : FirstmateExecutionEvent :=
  objectiveEvent "completed" (.completed ⟨[⟨"check", "test", "Tests"⟩], []⟩ none)

end Magistrate
