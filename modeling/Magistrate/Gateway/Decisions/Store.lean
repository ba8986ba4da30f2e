import Magistrate.Gateway.Chat.State

/-!
# Firstmate decisions

Snapshots of a source open and resolve decisions. An answer to a decision is a
native chat message of its owner: a confirmation is minted for it, and claiming
the answer uses the confirmation up. Ids and tokens that the code draws and what
it reads of other tables are arguments of its transactions.
-/

namespace Magistrate

/-- What a decision transaction can raise. -/
inductive DecisionFailure where
  | error (code : String) (statusCode : ℕ)
  | integrityError
  | runtimeError (message : String)
  deriving DecidableEq, Repr

/-- `FirstmateDecisionRequest` -/
structure DecisionRequest where
  runId : String
  requestId : String
  scope : String
  expiresAt : ℤ
  deriving DecidableEq, Repr

/-- `FirstmateDecisionRequiredEvent` -/
structure DecisionRequiredEvent where
  sourceInstanceId : String
  sourceEventId : String
  taskId : String
  lifecycleIdentity : String
  title : String
  question : String
  project : Option String
  observedAt : ℕ
  request : Option DecisionRequest
  deriving DecidableEq, Repr

/-- The payload of a stored decision event. -/
inductive DecisionPayload where
  /-- A required event, without the time of its observation. -/
  | required (sourceInstanceId sourceEventId taskId lifecycleIdentity title question : String)
      (project : Option String) (request : Option DecisionRequest)
  | resolved (sourceInstanceId decisionId snapshotSha256 : String) (observedAt : ℕ)
  deriving DecidableEq, Repr

/-- The payload of a required event. -/
def DecisionRequiredEvent.payload (event : DecisionRequiredEvent) : DecisionPayload :=
  .required event.sourceInstanceId event.sourceEventId event.taskId event.lifecycleIdentity
    event.title event.question event.project event.request

/-- A row of `firstmate_decision_events`; its type is that of its payload. -/
structure DecisionEvent where
  id : String
  ownerUserId : String
  sourceInstanceId : String
  sourceEventId : String
  decisionId : String
  payload : DecisionPayload
  observedAt : ℕ
  ingestedAt : ℤ
  deriving DecidableEq, Repr

/-- The state of a decision. -/
inductive DecisionState where
  | pending
  | answering
  | answered
  | resolved
  deriving DecidableEq, Repr

/-- A row of `firstmate_decisions`. -/
structure Decision where
  decisionId : String
  ownerUserId : String
  sourceInstanceId : String
  taskId : String
  lifecycleIdentity : String
  revision : ℕ
  state : DecisionState
  title : String
  question : String
  project : Option String
  sourceEventId : String
  sourcePayloadSha256 : String
  sourceObservedAt : ℕ
  request : Option DecisionRequest
  createdAt : ℤ
  updatedAt : ℤ
  deriving DecidableEq, Repr

/-- A row of `firstmate_decision_sources`. -/
structure DecisionSource where
  ownerUserId : String
  sourceInstanceId : String
  lastObservedAt : Option ℕ
  snapshotSha256 : String
  updatedAt : ℤ
  deriving DecidableEq, Repr

/-- Sources are unique for an owner. -/
def DecisionSource.key (source : DecisionSource) : String × String :=
  (source.ownerUserId, source.sourceInstanceId)

/-- A row of `firstmate_decision_answer_confirmations`. -/
structure AnswerConfirmation where
  confirmationHash : String
  ownerUserId : String
  actorSessionId : String
  decisionId : String
  decisionRevision : ℕ
  nativeUserMessageId : String
  idempotencyKey : String
  answerSha256 : String
  expiresAt : ℤ
  usedAt : Option ℤ
  createdAt : ℤ
  deriving DecidableEq, Repr

/-- The status of an answer. -/
inductive AnswerStatus where
  | pending
  | succeeded
  | failed
  deriving DecidableEq, Repr

/-- A row of `firstmate_decision_answers`. -/
structure DecisionAnswer where
  answerId : String
  ownerUserId : String
  decisionId : String
  decisionRevision : ℕ
  nativeUserMessageId : String
  idempotencyKey : String
  actorSessionId : String
  answerSha256 : String
  answerBytes : ℕ
  status : AnswerStatus
  errorCode : Option String
  executionClaimId : String
  leaseExpiresAt : ℤ
  createdAt : ℤ
  updatedAt : ℤ
  deriving DecidableEq, Repr

/-- The decision tables, and the chat that answers come from. -/
structure Decisions where
  decisions : Table Decision.decisionId
  events : Table DecisionEvent.id
  sources : Table DecisionSource.key
  confirmations : Table AnswerConfirmation.confirmationHash
  answers : Table DecisionAnswer.answerId
  chat : Chat
  deriving DecidableEq

/-- The tables of a new database. -/
def Decisions.initial : Decisions where
  decisions := .empty
  events := .empty
  sources := .empty
  confirmations := .empty
  answers := .empty
  chat := .initial

/-- What the store computes from texts: bounded owners and source ids, digests and ids, what an
answer is worth, and whether a question is outside of Magi's authority. -/
structure DecisionRules where
  validOwner : String → Bool
  safeSourceId : String → Bool
  snapshotDigest : String → Bool
  payloadSha256 : DecisionPayload → String
  decisionId : String → String → String → String → String
  eventRowId : String → String → String → String
  resolutionEventId : DecisionPayload → String
  /-- `_validated_answer`: the digest and the length of the encoded answer. -/
  validatedAnswer : String → Except DecisionFailure (String × ℕ)
  idempotencyKey : String → String → String
  answerId : String → String → String
  tokenHash : String → String
  risky : String → Bool

/-- What a transaction reads besides: the time, whether the owner is the personal one, whether the
work of a request is current (and still authorized, when it is answered), and whether the state of
the objective can be projected. -/
structure DecisionContext where
  now : ℤ
  personal : Bool
  requestScope : String → String → DecisionRequest → Bool → Bool
  projected : Bool

/-- `MAX_OPEN_DECISIONS` -/
def maxOpenDecisions : ℕ := 100

/-- `CONFIRMATION_TTL_SECONDS`, in milliseconds. -/
def confirmationTtlMs : ℤ := 300 * 1000

/-- `ANSWER_EXECUTION_LEASE_MS` -/
def answerExecutionLeaseMs : ℤ := 60000

/-- `_SAFE_NATIVE_MESSAGE_ID` -/
def safeNativeMessageId (id : String) : Bool :=
  let chars := id.toList.drop 4
  id.toList.take 4 = "mgm_".toList ∧ 4 ≤ chars.length ∧ chars.length ≤ 124 ∧
    chars.all fun c => c.isAlphanum ∨ c = '_' ∨ c = '-'

/-- The canonical answer to a decision. -/
structure AnswerRequest where
  decisionId : String
  decisionRevision : ℕ
  nativeUserMessageId : String
  nativeMessageCreatedAt : ℤ
  conversationId : String
  sequenceIndex : ℕ
  answer : String
  answerSha256 : String
  answerBytes : ℕ
  idempotencyKey : String
  deriving DecidableEq, Repr

/-- What `prepare_confirmation` returns: a stored answer, or a token with its expiry. -/
inductive ConfirmationOutcome where
  | existing (answer : DecisionAnswer)
  | required (token : String) (expiresAt : ℤ)
  deriving DecidableEq, Repr

/-- What `claim_answer` returns. -/
structure AnswerClaim where
  claimed : Bool
  resumed : Bool
  executionClaimId : String
  request : AnswerRequest
  decision : Decision
  answer : DecisionAnswer
  deriving DecidableEq, Repr

/-- `FirstmateCommandResult` -/
structure CommandResult where
  ok : Bool
  code : String
  deriving DecidableEq, Repr

namespace Decision

/-- A decision that is open again. -/
abbrev reopened (event : DecisionRequiredEvent) (sha256 : String) (observedAt : ℕ) (now : ℤ)
    (d : Decision) : Decision :=
  { d with
    revision := d.revision + 1
    state := .pending
    title := event.title
    question := event.question
    project := event.project
    sourceEventId := event.sourceEventId
    sourcePayloadSha256 := sha256
    sourceObservedAt := observedAt
    updatedAt := now }

/-- A decision that is observed again. -/
abbrev observed (observedAt : ℕ) (now : ℤ) (d : Decision) : Decision :=
  { d with
    sourceObservedAt := observedAt
    updatedAt := now }

/-- A decision that is over. -/
abbrev resolvedBy (sourceEventId sha256 : String) (observedAt : ℕ) (now : ℤ) (d : Decision) :
    Decision :=
  { d with
    revision := d.revision + 1
    state := .resolved
    sourceEventId
    sourcePayloadSha256 := sha256
    sourceObservedAt := observedAt
    updatedAt := now }

/-- `UPDATE firstmate_decisions SET state` of an owner's revision in a state. -/
def moved (owner : String) (revision : ℕ) (source target : DecisionState) (bump : ℕ) (now : ℤ)
    (d : Decision) : Decision :=
  if d.ownerUserId = owner ∧ d.revision = revision ∧ d.state = source then
    { d with
      revision := d.revision + bump
      state := target
      updatedAt := now }
  else d

theorem decisionId_moved (owner : String) (revision : ℕ) (source target : DecisionState) (bump : ℕ)
    (now : ℤ) (d : Decision) :
    (d.moved owner revision source target bump now).decisionId = d.decisionId := by
  unfold moved
  split <;> rfl

theorem ownerUserId_moved (owner : String) (revision : ℕ) (source target : DecisionState)
    (bump : ℕ) (now : ℤ) (d : Decision) :
    (d.moved owner revision source target bump now).ownerUserId = d.ownerUserId := by
  unfold moved
  split <;> rfl

end Decision

namespace FirstmateDecisionStore

/-- `_insert_event`: store an event once under its source identity. -/
def insertEvent (rules : DecisionRules) (owner source sourceEventId decisionId : String)
    (payload : DecisionPayload) (observedAt : ℕ) (now : ℤ) (db : Decisions) :
    Except DecisionFailure Decisions :=
  match db.events.rows.find? fun e => e.ownerUserId = owner ∧ e.sourceInstanceId = source ∧
      e.sourceEventId = sourceEventId with
  | some existing => do
    raiseIf (existing.payload ≠ payload ∨ existing.decisionId ≠ decisionId)
      (.error "source_conflict" 409)
    return db
  | none => do
    let event : DecisionEvent :=
      { id := rules.eventRowId owner source sourceEventId
        ownerUserId := owner
        sourceInstanceId := source
        sourceEventId
        decisionId
        payload
        observedAt
        ingestedAt := now }
    raiseIf (db.events.find? event.id ≠ none) .integrityError
    return { db with events := db.events.insertOrIgnore event }

/-- A new decision. -/
def newDecision (owner decisionId sha256 : String) (event : DecisionRequiredEvent)
    (observedAt : ℕ) (now : ℤ) : Decision where
  decisionId := decisionId
  ownerUserId := owner
  sourceInstanceId := event.sourceInstanceId
  taskId := event.taskId
  lifecycleIdentity := event.lifecycleIdentity
  revision := 1
  state := .pending
  title := event.title
  question := event.question
  project := event.project
  sourceEventId := event.sourceEventId
  sourcePayloadSha256 := sha256
  sourceObservedAt := observedAt
  request := event.request
  createdAt := now
  updatedAt := now

/-- One open decision of a snapshot. -/
def applyEvent (rules : DecisionRules) (context : DecisionContext) (owner source : String)
    (observedAt : ℕ) (db : Decisions) (event : DecisionRequiredEvent) :
    Except DecisionFailure Decisions := do
  raiseIf (event.sourceInstanceId ≠ source ∨ event.observedAt ≠ observedAt)
    (.error "source_invalid" 503)
  raiseIf ((event.request.all fun r => context.requestScope owner event.taskId r false) = false)
    (.error "request_scope_invalid" 409)
  let sha256 := rules.payloadSha256 event.payload
  let decisionId := rules.decisionId owner source event.taskId event.lifecycleIdentity
  let db ← insertEvent rules owner source event.sourceEventId decisionId event.payload observedAt
    context.now db
  match db.decisions.rows.find? fun d => d.ownerUserId = owner ∧ d.sourceInstanceId = source ∧
      d.taskId = event.taskId ∧ d.lifecycleIdentity = event.lifecycleIdentity with
  | none =>
    raiseIf (db.decisions.find? decisionId ≠ none) .integrityError
    let decision := newDecision owner decisionId sha256 event observedAt context.now
    return { db with decisions := db.decisions.insertOrIgnore decision }
  | some existing =>
    raiseIf (existing.request ≠ none ∧ event.request ≠ existing.request ∧
        (event.request.all fun r => existing.request.any fun prior =>
          prior.requestId = r.requestId ∨ existing.state = .answering ∨
            existing.state = .answered)) (.error "request_binding_conflict" 409)
    raiseIf (existing.decisionId ≠ decisionId) (.error "source_conflict" 409)
    let decisions := if existing.state = .pending ∨ existing.state = .resolved then
        db.decisions.update decisionId fun d => { d with request := event.request }
      else db.decisions
    let decisions := if existing.state = .resolved ∨
        existing.state = .pending ∧ existing.sourcePayloadSha256 ≠ sha256 then
        decisions.update decisionId (.reopened event sha256 observedAt context.now)
      else decisions.update decisionId (.observed observedAt context.now)
    return { db with decisions }

/-- A decision that a snapshot leaves out. -/
def resolveDecision (rules : DecisionRules) (context : DecisionContext) (owner source
    snapshotSha256 : String) (observedAt : ℕ) (db : Decisions) (d : Decision) :
    Except DecisionFailure Decisions := do
  let payload := DecisionPayload.resolved source d.decisionId snapshotSha256 observedAt
  let eventId := rules.resolutionEventId payload
  let db ← insertEvent rules owner source eventId d.decisionId payload observedAt context.now db
  let decisions := db.decisions.update d.decisionId
    (.resolvedBy eventId (rules.payloadSha256 payload) observedAt context.now)
  return { db with decisions }

/-- The pending and answering decisions of an owner. -/
def openDecisions (owner : String) (db : Decisions) : List Decision :=
  db.decisions.rows.filter fun d =>
    d.ownerUserId = owner ∧ (d.state = .pending ∨ d.state = .answering)

/-- `apply_snapshot`: open the decisions of a snapshot and resolve the others. -/
def applySnapshot (rules : DecisionRules) (context : DecisionContext) (owner source : String)
    (observedAt : ℕ) (snapshotSha256 : String) (events : List DecisionRequiredEvent)
    (db : Decisions) : Except DecisionFailure (List Decision × Decisions) := do
  raiseIf (rules.validOwner owner = false) (.error "unauthorized" 403)
  raiseIf (rules.safeSourceId source = false) (.error "source_invalid" 503)
  raiseIf (maxOpenDecisions < events.length ∨ rules.snapshotDigest snapshotSha256 = false)
    (.error "source_invalid" 503)
  let seen := db.sources.find? (owner, source)
  if (seen.bind (·.lastObservedAt)).any (observedAt < ·) then
    raiseIf (maxOpenDecisions < (openDecisions owner db).length) (.error "source_invalid" 503)
    return (openDecisions owner db, db)
  else
    raiseIf (seen.any fun s => s.lastObservedAt = some observedAt ∧
      s.snapshotSha256 ≠ snapshotSha256) (.error "source_conflict" 409)
    let db ← events.foldlM (applyEvent rules context owner source observedAt) db
    let ids := events.map fun e => rules.decisionId owner source e.taskId e.lifecycleIdentity
    let previous := db.decisions.rows.filter fun d =>
      d.ownerUserId = owner ∧ d.sourceInstanceId = source ∧ d.state ≠ .resolved ∧
        d.decisionId ∉ ids
    let db ← previous.foldlM (resolveDecision rules context owner source snapshotSha256 observedAt)
      db
    let row : DecisionSource :=
      { ownerUserId := owner
        sourceInstanceId := source
        lastObservedAt := some observedAt
        snapshotSha256
        updatedAt := context.now }
    let sources := (db.sources.insertOrIgnore row).update (owner, source)
      (fun s => { s with
        lastObservedAt := some observedAt
        snapshotSha256
        updatedAt := context.now }) (fun _ => rfl)
    let db := { db with sources }
    raiseIf (context.projected = false) (.runtimeError "objective_state")
    raiseIf (maxOpenDecisions < (openDecisions owner db).length) (.error "source_invalid" 503)
    return (openDecisions owner db, db)

/-- `_answer_request`: the completed user message of the owner's default conversation that answers a
decision. -/
def answerRequest (rules : DecisionRules) (owner decisionId : String) (revision : ℕ)
    (messageId : String) (chat : Chat) : Except DecisionFailure AnswerRequest := do
  raiseIf (safeNativeMessageId messageId = false) (.error "native_message_not_found" 404)
  let message := (chat.messages.find? messageId).filter fun m =>
    m.ownerUserId = owner ∧ m.role = .user ∧
      ((chat.conversations.find? m.conversationId).any fun c =>
        c.ownerUserId = m.ownerUserId ∧ c.isDefault = true) ∧
      m.status = .completed ∧ (m.source = "text" ∨ m.source = "voice")
  match message with
  | none => .error (.error "native_message_not_found" 404)
  | some m =>
    let (sha256, bytes) ← rules.validatedAnswer m.content
    return {
      decisionId
      decisionRevision := revision
      nativeUserMessageId := messageId
      nativeMessageCreatedAt := m.createdAt
      conversationId := m.conversationId
      sequenceIndex := m.sequenceIndex
      answer := m.content
      answerSha256 := sha256
      answerBytes := bytes
      idempotencyKey := rules.idempotencyKey owner messageId }

/-- `_require_current_native_message` -/
def requireCurrentNativeMessage (owner : String) (request : AnswerRequest) (chat : Chat) :
    Except DecisionFailure Unit :=
  raiseIf (∃ m ∈ chat.messages.rows, m.ownerUserId = owner ∧
    m.conversationId = request.conversationId ∧ m.role = .user ∧
    request.sequenceIndex < m.sequenceIndex) (.error "native_message_stale" 409)

/-- `_require_current_request`: the request of a decision, which is not expired and whose work is
authorized. -/
def requireCurrentRequest (context : DecisionContext) (d : Decision) :
    Except DecisionFailure (Option DecisionRequest) :=
  match d.request with
  | none => do
    raiseIf (context.personal = true) (.error "request_binding_required" 409)
    return none
  | some request => do
    raiseIf (request.expiresAt ≤ context.now) (.error "request_expired" 409)
    raiseIf (context.requestScope d.ownerUserId d.taskId request true = false)
      (.error "request_scope_invalid" 409)
    return some request

/-- `_matching_outcome` -/
def matchingOutcome (a : DecisionAnswer) (request : AnswerRequest) : Bool :=
  a.decisionId = request.decisionId ∧ a.decisionRevision = request.decisionRevision ∧
    a.nativeUserMessageId = request.nativeUserMessageId ∧ a.answerSha256 = request.answerSha256 ∧
    a.answerBytes = request.answerBytes

/-- The answer of an owner under an idempotency key. -/
def existingAnswer (owner key : String) (db : Decisions) : Option DecisionAnswer :=
  db.answers.rows.find? fun a => a.ownerUserId = owner ∧ a.idempotencyKey = key

/-- A decision of its owner. -/
def ownDecision (owner decisionId : String) (db : Decisions) : Option Decision :=
  (db.decisions.find? decisionId).filter fun d => d.ownerUserId = owner

/-- `prepare_confirmation`: mint a confirmation of an answer, with a random token. -/
def prepareConfirmation (rules : DecisionRules) (context : DecisionContext) (owner session
    decisionId : String) (revision : ℕ) (messageId token : String) (db : Decisions) :
    Except DecisionFailure (ConfirmationOutcome × Decisions) := do
  let request ← answerRequest rules owner decisionId revision messageId db.chat
  match existingAnswer owner request.idempotencyKey db with
  | some existing =>
    raiseIf (matchingOutcome existing request = false) (.error "idempotency_mismatch" 409)
    return (.existing existing, db)
  | none =>
    requireCurrentNativeMessage owner request db.chat
    match ownDecision owner decisionId db with
    | none => .error (.error "decision_not_found" 404)
    | some decision =>
      raiseIf (decision.revision ≠ revision) (.error "stale" 409)
      let bound ← requireCurrentRequest context decision
      let expiresAt := (bound.elim id fun r => min r.expiresAt) (context.now + confirmationTtlMs)
      raiseIf (decision.state = .answering) (.error "duplicate" 409)
      raiseIf (decision.state ≠ .pending) (.error "already_resolved" 409)
      raiseIf (request.nativeMessageCreatedAt < decision.createdAt)
        (.error "answer_precedes_decision" 409)
      raiseIf (rules.risky (decision.title ++ " " ++ decision.question) = true)
        (.error "unsupported_risk" 409)
      let confirmation : AnswerConfirmation :=
        { confirmationHash := rules.tokenHash token
          ownerUserId := owner
          actorSessionId := session
          decisionId
          decisionRevision := revision
          nativeUserMessageId := messageId
          idempotencyKey := request.idempotencyKey
          answerSha256 := request.answerSha256
          expiresAt
          usedAt := none
          createdAt := context.now }
      raiseIf (db.confirmations.find? confirmation.confirmationHash ≠ none) .integrityError
      return (.required token expiresAt,
        { db with confirmations := db.confirmations.insertOrIgnore confirmation })

/-- A pending answer under a new claim. -/
abbrev renewed (claimId : String) (now : ℤ) (a : DecisionAnswer) : DecisionAnswer :=
  { a with
    executionClaimId := claimId
    leaseExpiresAt := now + answerExecutionLeaseMs
    updatedAt := now }

/-- A pending answer whose lease has expired is taken over. -/
def takeOver (context : DecisionContext) (owner decisionId : String) (revision : ℕ)
    (claimId : String) (existing : DecisionAnswer) (db : Decisions) :
    Except DecisionFailure (DecisionAnswer × Decisions) :=
  match ownDecision owner decisionId db with
  | none => .error (.error "stale" 409)
  | some current => do
    raiseIf (current.revision ≠ revision) (.error "stale" 409)
    let _ ← requireCurrentRequest context current
    let answers := db.answers.update existing.answerId (renewed claimId context.now)
    return (renewed claimId context.now existing, { db with answers })

/-- The confirmation with a hash is one of an answer, neither expired nor used. -/
def confirms (owner session : String) (request : AnswerRequest) (now : ℤ)
    (c : AnswerConfirmation) : Bool :=
  c.ownerUserId = owner ∧ c.actorSessionId = session ∧ c.decisionId = request.decisionId ∧
    c.decisionRevision = request.decisionRevision ∧
    c.nativeUserMessageId = request.nativeUserMessageId ∧
    c.idempotencyKey = request.idempotencyKey ∧ c.answerSha256 = request.answerSha256 ∧
    now < c.expiresAt ∧ c.usedAt = none

/-- A new pending answer under its first claim. -/
def newAnswer (rules : DecisionRules) (owner session decisionId : String) (revision : ℕ)
    (messageId claimId : String) (request : AnswerRequest) (now : ℤ) : DecisionAnswer where
  answerId := rules.answerId owner request.idempotencyKey
  ownerUserId := owner
  decisionId := decisionId
  decisionRevision := revision
  nativeUserMessageId := messageId
  idempotencyKey := request.idempotencyKey
  actorSessionId := session
  answerSha256 := request.answerSha256
  answerBytes := request.answerBytes
  status := .pending
  errorCode := none
  executionClaimId := claimId
  leaseExpiresAt := now + answerExecutionLeaseMs
  createdAt := now
  updatedAt := now

/-- `claim_answer`: use a confirmation up for a new answer, or take over an expired claim of the
stored one. -/
def claimAnswer (rules : DecisionRules) (context : DecisionContext) (owner session
    decisionId : String) (revision : ℕ) (messageId token claimId : String) (db : Decisions) :
    Except DecisionFailure (AnswerClaim × Decisions) := do
  let request ← answerRequest rules owner decisionId revision messageId db.chat
  match existingAnswer owner request.idempotencyKey db with
  | some existing =>
    raiseIf (matchingOutcome existing request = false) (.error "idempotency_mismatch" 409)
    let resumed : Bool := existing.status = .pending ∧ existing.leaseExpiresAt ≤ context.now
    let (answer, db) ← if resumed = true then
        takeOver context owner decisionId revision claimId existing db
      else pure (existing, db)
    match ownDecision owner decisionId db with
    | none => .error (.error "decision_not_found" 404)
    | some decision =>
      return ({ claimed := resumed, resumed, executionClaimId := answer.executionClaimId, request
                decision, answer }, db)
  | none =>
    requireCurrentNativeMessage owner request db.chat
    match ownDecision owner decisionId db with
    | none => .error (.error "decision_not_found" 404)
    | some decision =>
      raiseIf (decision.revision ≠ revision) (.error "stale" 409)
      raiseIf (decision.state = .answering) (.error "duplicate" 409)
      raiseIf (decision.state ≠ .pending) (.error "already_resolved" 409)
      let _ ← requireCurrentRequest context decision
      raiseIf (token = "") (.error "confirmation_required" 400)
      raiseIf (token.toList.any fun c => 128 ≤ c.toNat) (.error "confirmation_invalid" 409)
      let hash := rules.tokenHash token
      raiseIf (((db.confirmations.find? hash).any (confirms owner session request context.now)) =
        false) (.error "confirmation_invalid" 409)
      raiseIf (∃ a ∈ db.answers.rows, a.ownerUserId = owner ∧ a.decisionId = decisionId ∧
        a.decisionRevision = revision ∧ a.status ≠ .failed) (.error "duplicate" 409)
      let confirmations := db.confirmations.update hash fun c =>
        { c with usedAt := some context.now }
      let answer := newAnswer rules owner session decisionId revision messageId claimId request
        context.now
      raiseIf (db.answers.find? answer.answerId ≠ none) .integrityError
      let decisions := db.decisions.update decisionId
        (.moved owner revision .pending .answering 0 context.now)
        (Decision.decisionId_moved owner revision .pending .answering 0 context.now)
      return ({ claimed := true, resumed := false, executionClaimId := claimId, request, decision
                answer },
        { db with confirmations, answers := db.answers.insertOrIgnore answer, decisions })

/-- An answer that is over. -/
abbrev ended (result : CommandResult) (now : ℤ) (a : DecisionAnswer) : DecisionAnswer :=
  { a with
    status := if result.ok = true then .succeeded else .failed
    errorCode := if result.ok = true then none else some result.code
    updatedAt := now }

/-- `finish_answer`: end a pending answer under its claim, and move its decision. -/
def finishAnswer (context : DecisionContext) (owner key claimId : String) (result : CommandResult)
    (db : Decisions) : Except DecisionFailure (DecisionAnswer × Decisions) :=
  match existingAnswer owner key db with
  | none => .error (.error "answer_not_found" 409)
  | some row =>
    if row.status ≠ .pending ∨ row.executionClaimId ≠ claimId then .ok (row, db)
    else do
      let (target, bump) : DecisionState × ℕ :=
        if result.ok = true then (.answered, 0)
        else if result.code = "stale" then (.resolved, 1)
        else (.pending, 0)
      let answers := db.answers.update row.answerId (ended result context.now)
      let decisions := db.decisions.update row.decisionId
        (.moved owner row.decisionRevision .answering target bump context.now)
        (Decision.decisionId_moved owner row.decisionRevision .answering target bump context.now)
      raiseIf (context.projected = false) (.runtimeError "objective_state")
      return (ended result context.now row, { db with answers, decisions })

end FirstmateDecisionStore

/-- A transaction on the decisions, or a write of others to the chat. -/
inductive DecisionStep where
  | mint (context : DecisionContext) (owner session decisionId : String) (revision : ℕ)
      (messageId token : String)
  | claim (context : DecisionContext) (owner session decisionId : String) (revision : ℕ)
      (messageId token claimId : String)
  | finish (context : DecisionContext) (owner key claimId : String) (result : CommandResult)
  | snapshot (context : DecisionContext) (owner source : String) (observedAt : ℕ)
      (snapshotSha256 : String) (events : List DecisionRequiredEvent)
  | chat (chat : Chat)

open FirstmateDecisionStore

/-- The tables after a step. -/
def decisionStep (rules : DecisionRules) (db : Decisions) : DecisionStep → Decisions
  | .mint context owner session decisionId revision messageId token =>
    commit (stateOf (prepareConfirmation rules context owner session decisionId revision messageId
      token db)) db
  | .claim context owner session decisionId revision messageId token claimId =>
    commit (stateOf (claimAnswer rules context owner session decisionId revision messageId token
      claimId db)) db
  | .finish context owner key claimId result =>
    commit (stateOf (finishAnswer context owner key claimId result db)) db
  | .snapshot context owner source observedAt snapshotSha256 events =>
    commit (stateOf (applySnapshot rules context owner source observedAt snapshotSha256 events db))
      db
  | .chat chat => { db with chat }

end Magistrate
