import Magistrate.Core.Run
import Magistrate.Core.Table

/-!
# Activity sources

A source is an append-only journal that is followed by a cursor. A batch of its
events is stored in one transaction with the cursor; a source starts where its
bootstrap policy says, and a fault is recorded in its row.
-/

namespace Magistrate

/-- What a source transaction can raise. -/
inductive SourceFailure where
  | conflict (message : String)
  | unavailable (message : String)
  | valueError (message : String)
  | integrityError
  deriving DecidableEq, Repr

/-- The stream of a source instance, for a user. -/
structure SourceKey where
  userId : String
  sourceInstanceId : String
  streamName : String
  deriving DecidableEq, Repr

/-- Where a source starts. -/
inductive BootstrapPolicy where
  | tail
  | fromStart
  | after (cursor : ℕ)
  | snapshotCurrent
  deriving DecidableEq, Repr

/-- A validated journal row, as an event of its source. -/
structure SourceEvent where
  sourceEventId : String
  sourceCursor : ℕ
  payloadSha256 : String
  audience : String
  eventKind : String
  occurredAt : Option ℕ
  payload : String
  deriving DecidableEq, Repr

/-- The state of a source. -/
inductive SourceState where
  | available
  | fault
  deriving DecidableEq, Repr

/-- A row of `activity_sources`. -/
structure ActivitySource where
  source : SourceKey
  bootstrapPolicy : BootstrapPolicy
  cursor : ℕ
  prefixSha256 : String
  sourceTail : ℕ
  state : SourceState
  lastErrorCode : Option String
  lastErrorDetail : Option String
  lastReconciledAt : ℤ
  acceptedCount : ℕ
  duplicateCount : ℕ
  conflictCount : ℕ
  deriving DecidableEq, Repr

/-- A row of `canonical_source_events`. -/
structure CanonicalSourceEvent where
  id : String
  source : SourceKey
  sourceEventId : String
  sourceCursor : ℕ
  payloadSha256 : String
  eventKind : String
  audience : String
  occurredAt : Option ℕ
  payload : String
  ingestedAt : ℤ
  deriving DecidableEq, Repr

/-- The source tables, and the journals of the streams of source instances. -/
structure ActivitySources where
  sources : Table ActivitySource.source
  events : Table CanonicalSourceEvent.id
  journals : String × String → List SourceEvent

/-- The tables of a new database, and empty journals. -/
def ActivitySources.initial : ActivitySources where
  sources := .empty
  events := .empty
  journals _ := []

/-- The journal that a source follows. -/
def ActivitySources.journal (db : ActivitySources) (key : SourceKey) : List SourceEvent :=
  db.journals (key.sourceInstanceId, key.streamName)

/-- What the store computes from texts: bounded identities and texts, digests, ids, and whether the
activity of an event can be published. -/
structure SourceRules where
  validIdentity : SourceKey → Bool
  boundedText : String → ℕ → Option String
  safeHash : String → Bool
  prefixSha256 : List SourceEvent → String
  sourceRowId : SourceKey → String → String
  publishable : SourceEvent → Bool

/-- `MAX_SAFE_INTEGER` -/
def maxSafeInteger : ℕ := 9007199254740991

/-- `MAX_SOURCE_PAYLOAD_BYTES` -/
def maxSourcePayloadBytes : ℕ := 8 * 1024

/-- `MAX_SOURCE_ERROR_CHARS` -/
def maxSourceErrorChars : ℕ := 240

/-- `MAX_EVENTS_PER_RECONCILE` -/
def maxEventsPerReconcile : ℕ := 500

/-- `SOURCE_EVENT_KINDS` -/
def sourceEventKinds : List String :=
  ["supervision.outcome", "primary.message", "primary.final", "worker.message", "worker.final"]

/-- A row in fault that has neither a cursor nor a prefix, a tail or accepted events. -/
def ActivitySource.uninitializedFault (s : ActivitySource) : Bool :=
  s.state = .fault ∧ s.cursor = 0 ∧ s.prefixSha256 = "" ∧ s.sourceTail = 0 ∧ s.acceptedCount = 0

namespace BootstrapPolicy

/-- A policy starts at a cursor, for a tail. -/
def admits : BootstrapPolicy → ℕ → ℕ → Bool
  | .fromStart, cursor, _ => cursor = 0
  | .tail, cursor, sourceTail => cursor = sourceTail
  | .after n, cursor, _ => cursor = n
  | .snapshotCurrent, _, _ => false

/-- `_bootstrap_cursor` -/
def cursor : BootstrapPolicy → ℕ → Except SourceFailure ℕ
  | .tail, sourceTail => .ok sourceTail
  | .fromStart, _ => .ok 0
  | .after n, sourceTail =>
    if n ≤ sourceTail then .ok n
    else .error (.conflict "The configured Firstmate activity bootstrap cursor is invalid.")
  | .snapshotCurrent, _ =>
    .error (.conflict "The configured Firstmate activity bootstrap cursor is invalid.")

end BootstrapPolicy

section Store

variable (rules : SourceRules) (key : SourceKey)

/-- `initialize_source`: insert a source at a cursor, or start one over that is in fault and has
nothing. -/
def initializeSource (policy : BootstrapPolicy) (cursor : ℕ) (prefixSha256 : String)
    (sourceTail : ℕ) (now : ℤ) (db : ActivitySources) :
    Except SourceFailure (ActivitySource × ActivitySources) := do
  raiseIf (rules.validIdentity key = false) (.valueError "Activity source identity is invalid.")
  raiseIf (policy = .snapshotCurrent) (.valueError "Unknown activity bootstrap policy.")
  raiseIf (sourceTail < cursor ∨ maxSafeInteger < sourceTail ∨
    policy.admits cursor sourceTail = false) (.valueError "Invalid activity source cursor.")
  raiseIf (cursor ≠ 0 ∧ rules.safeHash prefixSha256 = false ∨ cursor = 0 ∧ prefixSha256 ≠ "")
    (.valueError "A bootstrapped cursor requires its validated prefix hash.")
  match db.sources.find? key with
  | none =>
    let row : ActivitySource :=
      { source := key
        bootstrapPolicy := policy
        cursor
        prefixSha256
        sourceTail
        state := .available
        lastErrorCode := none
        lastErrorDetail := none
        lastReconciledAt := now
        acceptedCount := 0
        duplicateCount := 0
        conflictCount := 0 }
    return (row, { db with sources := db.sources.insertOrIgnore row })
  | some s =>
    if s.uninitializedFault then
      let restart : ActivitySource → ActivitySource := fun s =>
        { s with
          bootstrapPolicy := policy
          cursor
          prefixSha256
          sourceTail
          state := .available
          lastErrorCode := none
          lastErrorDetail := none
          lastReconciledAt := now }
      let sources := db.sources.update key restart (fun _ => rfl)
      return (restart s, { db with sources })
    else return (s, db)

/-- One event of a batch, at the next cursor: it is stored unless it is a duplicate. -/
def storeEvent (sourceTail : ℕ) (now : ℤ) (next : ℕ) (event : SourceEvent)
    (events : Table CanonicalSourceEvent.id) :
    Except SourceFailure (Bool × Table CanonicalSourceEvent.id) :=
  match rules.boundedText event.sourceEventId 200 with
  | none => .error (.valueError "A bounded text value is required.")
  | some sourceEventId => do
    raiseIf (rules.safeHash event.payloadSha256 = false)
      (.valueError "A canonical SHA-256 payload hash is required.")
    raiseIf (event.sourceCursor ≠ next ∨ sourceTail < event.sourceCursor)
      (.conflict "A source event cursor must be contiguous and positive.")
    raiseIf (event.audience ≠ "captain" ∨ event.eventKind ∉ sourceEventKinds)
      (.conflict "Unknown source audience or event kind.")
    raiseIf (event.occurredAt.any (maxSafeInteger < ·))
      (.conflict "A source event timestamp is invalid.")
    raiseIf (maxSourcePayloadBytes < event.payload.utf8ByteSize)
      (.conflict "The normalized source event is too large.")
    match events.rows.find? fun row => row.source = key ∧ row.sourceEventId = sourceEventId with
    | some duplicate =>
      raiseIf (duplicate.sourceCursor ≠ event.sourceCursor ∨
          duplicate.payloadSha256 ≠ event.payloadSha256)
        (.conflict "A source event identity was reused with different content.")
      return (false, events)
    | none =>
      raiseIf (events.rows.any fun row => row.source = key ∧ row.sourceCursor = event.sourceCursor)
        (.conflict "A source cursor was reused by another event.")
      let row : CanonicalSourceEvent :=
        { id := rules.sourceRowId key sourceEventId
          source := key
          sourceEventId
          sourceCursor := event.sourceCursor
          payloadSha256 := event.payloadSha256
          eventKind := event.eventKind
          audience := event.audience
          occurredAt := event.occurredAt
          payload := event.payload
          ingestedAt := now }
      raiseIf (events.find? row.id ≠ none) .integrityError
      raiseIf (rules.publishable event = false) (.valueError "activity")
      return (true, events.insertOrIgnore row)

/-- The events of a batch, with the numbers of accepted and duplicate ones. -/
def storeEvents (sourceTail : ℕ) (now : ℤ) : ℕ → List SourceEvent →
    Table CanonicalSourceEvent.id → Except SourceFailure (ℕ × ℕ × Table CanonicalSourceEvent.id)
  | _, [], events => .ok (0, 0, events)
  | next, event :: batch, events => do
    let (stored, events) ← storeEvent rules key sourceTail now next event events
    let (accepted, duplicates, events) ← storeEvents sourceTail now (next + 1) batch events
    return (if stored = true then (accepted + 1, duplicates, events)
      else (accepted, duplicates + 1, events))

/-- `apply_source_event_batch`: store events and move the cursor over them. -/
def applySourceEventBatch (expectedCursor : ℕ) (batch : List SourceEvent) (newCursor : ℕ)
    (newPrefixSha256 : String) (sourceTail : ℕ) (now : ℤ) (db : ActivitySources) :
    Except SourceFailure ActivitySources := do
  raiseIf (rules.validIdentity key = false) (.valueError "Activity source identity is invalid.")
  raiseIf (newCursor < expectedCursor ∨ sourceTail < newCursor ∨ maxSafeInteger < sourceTail ∨
      batch.length ≠ newCursor - expectedCursor)
    (.conflict "The source cursor cannot move outside the validated journal.")
  raiseIf (newCursor ≠ 0 ∧ rules.safeHash newPrefixSha256 = false ∨
    newCursor = 0 ∧ newPrefixSha256 ≠ "") (.conflict "The source prefix hash is invalid.")
  match db.sources.find? key with
  | none => .error (.conflict "The activity source was not initialized.")
  | some s => do
    raiseIf (s.cursor ≠ expectedCursor)
      (.conflict "The activity source cursor changed concurrently.")
    let (accepted, duplicates, events) ←
      storeEvents rules key sourceTail now (expectedCursor + 1) batch db.events
    let sources := db.sources.update key fun s =>
      { s with
        cursor := newCursor
        prefixSha256 := newPrefixSha256
        sourceTail
        state := .available
        lastErrorCode := none
        lastErrorDetail := none
        lastReconciledAt := now
        acceptedCount := s.acceptedCount + accepted
        duplicateCount := s.duplicateCount + duplicates }
    return { db with sources, events }

/-- `mark_source_fault`: record a fault in the row of a source, which may be its first. -/
def markSourceFault (code detail : String) (policy : BootstrapPolicy) (conflict : Bool) (now : ℤ)
    (db : ActivitySources) : Except SourceFailure ActivitySources := do
  raiseIf (rules.validIdentity key = false) (.valueError "Activity source identity is invalid.")
  match rules.boundedText code 64, rules.boundedText detail maxSourceErrorChars with
  | some code, some detail =>
    let conflicts := if conflict = true then 1 else 0
    match db.sources.find? key with
    | none =>
      let row : ActivitySource :=
        { source := key
          bootstrapPolicy := policy
          cursor := 0
          prefixSha256 := ""
          sourceTail := 0
          state := .fault
          lastErrorCode := some code
          lastErrorDetail := some detail
          lastReconciledAt := now
          acceptedCount := 0
          duplicateCount := 0
          conflictCount := conflicts }
      return { db with sources := db.sources.insertOrIgnore row }
    | some _ =>
      let sources := db.sources.update key fun s =>
        { s with
          state := .fault
          lastErrorCode := some code
          lastErrorDetail := some detail
          lastReconciledAt := now
          conflictCount := s.conflictCount + conflicts }
      return { db with sources }
  | _, _ => .error (.valueError "A bounded text value is required.")

end Store

/-- The digest of the first rows of a journal. -/
def prefixHash (rules : SourceRules) (rows : List SourceEvent) (through : ℕ) : String :=
  if through = 0 then "" else rules.prefixSha256 (rows.take through)

section Reconcile

variable (rules : SourceRules) (key : SourceKey)

/-- The rows after the cursor of a source, applied. -/
def applyRows (rows : List SourceEvent) (now : ℤ) (db : ActivitySources) :
    Except SourceFailure ActivitySources :=
  match db.sources.find? key with
  | none => .error (.conflict "The activity source was not initialized.")
  | some s => do
    raiseIf (rows.length < s.cursor)
      (.conflict "The Magistrate activity cursor is beyond the Firstmate journal tail.")
    raiseIf (s.cursor ≠ 0 ∧ s.prefixSha256 ≠ prefixHash rules rows s.cursor)
      (.conflict "The validated Firstmate journal prefix changed or was truncated.")
    let selected := (rows.drop s.cursor).take maxEventsPerReconcile
    let newCursor := s.cursor + selected.length
    applySourceEventBatch rules key s.cursor selected newCursor (prefixHash rules rows newCursor)
      rows.length now db

/-- The start of a source that has no row, or only an uninitialized fault. -/
def bootstrap (policy : BootstrapPolicy) (rows : List SourceEvent) (now : ℤ)
    (db : ActivitySources) : Except SourceFailure ActivitySources :=
  if (db.sources.find? key).all (·.uninitializedFault) then do
    let cursor ← policy.cursor rows.length
    let (_, db) ← initializeSource rules key policy cursor (prefixHash rules rows cursor)
      rows.length now db
    return db
  else .ok db

/-- The calls of `_reconcile_branch` and of `_reconcile_captain_events` on rows that they have read:
the tables that they leave, and what they raise. -/
def reconcileRows (policy : BootstrapPolicy) (rows : List SourceEvent) (now : ℤ)
    (db : ActivitySources) : ActivitySources × Except SourceFailure Unit :=
  match bootstrap rules key policy rows now db with
  | .error failure => (db, .error failure)
  | .ok db => match applyRows rules key rows now db with
    | .error failure => (db, .error failure)
    | .ok db => (db, .ok ())

/-- A conflict, among the failures. -/
def SourceFailure.isConflict : SourceFailure → Bool
  | .conflict _ => true
  | _ => false

/-- `reconcile` of one journal: what is raised is recorded as a fault. -/
def reconcileJournal (policy : BootstrapPolicy) (read : ℕ) (now : ℤ) (db : ActivitySources) :
    ActivitySources :=
  match reconcileRows rules key policy ((db.journal key).take read) now db with
  | (db, .ok ()) => db
  | (db, .error failure) =>
    let code := if failure.isConflict = true then "journal-conflict" else "journal-unavailable"
    commit (markSourceFault rules key code
      "The append-only Firstmate outcome journal could not be reconciled safely." policy
      failure.isConflict now db) db

end Reconcile

/-- A transaction on a source, a pass over its journal, or a write to a journal. -/
inductive SourceStep where
  | initializeSource (key : SourceKey) (policy : BootstrapPolicy) (cursor : ℕ)
    (prefixSha256 : String)
      (sourceTail : ℕ) (now : ℤ)
  /-- A batch of the rows of a journal, of which some were read. -/
  | apply (key : SourceKey) (read expectedCursor newCursor : ℕ) (newPrefixSha256 : String)
      (sourceTail : ℕ) (now : ℤ)
  | fault (key : SourceKey) (code detail : String) (policy : BootstrapPolicy) (conflict : Bool)
      (now : ℤ)
  | reconcile (key : SourceKey) (policy : BootstrapPolicy) (read : ℕ) (now : ℤ)
  | append (stream : String × String) (event : SourceEvent)

/-- The tables and the journals after a step. -/
def sourceStep (rules : SourceRules) (db : ActivitySources) : SourceStep → ActivitySources
  | .initializeSource key policy cursor prefixSha256 sourceTail now =>
    commit (stateOf (initializeSource rules key policy cursor prefixSha256 sourceTail now db)) db
  | .apply key read expectedCursor newCursor newPrefixSha256 sourceTail now =>
    let rows := (db.journal key).take read
    let batch := (rows.drop expectedCursor).take (newCursor - expectedCursor)
    commit (applySourceEventBatch rules key expectedCursor batch newCursor
      newPrefixSha256 sourceTail
      now db) db
  | .fault key code detail policy conflict now =>
    commit (markSourceFault rules key code detail policy conflict now db) db
  | .reconcile key policy read now => reconcileJournal rules key policy read now db
  | .append stream event =>
    { db with journals := Function.update db.journals stream (db.journals stream ++ [event]) }

end Magistrate
