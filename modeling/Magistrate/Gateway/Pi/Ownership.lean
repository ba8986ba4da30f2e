import Magistrate.Core.Table
import Magistrate.Gateway.Pi.Envelope

/-!
# Ownership of captain turns

A dispatch joins a canonical turn to the source entries that carry its prompt and its
answer. An envelope of the adapter is verified, and then takes the dispatch one stage
further in one transaction with the turn and its primary message. The encrypted
columns of a dispatch are left out.
-/

namespace Magistrate

/-- The stage of a dispatch. -/
inductive PiState where
  | prepared
  | bound
  | finalized
  | failed
  deriving DecidableEq, Repr

/-- A row of `pi_semantic_dispatches`; the JSON of the binding sequence is kept as the sequence. -/
structure SemanticDispatch where
  dispatchIncarnation : PyText
  capabilitySha256 : PyText
  userId : PyText
  tenantId : PyText
  principalId : PyText
  conversationId : PyText
  turnId : PyText
  assistantMessageId : PyText
  objectiveId : PyText
  runId : PyText
  promptSha256 : PyText
  visiblePromptSha256 : PyText
  state : PiState
  expiresAt : ℤ
  capabilityUsedAt : Option ℤ := none
  piSessionId : Option PyText := none
  piPrepareEntryId : Option PyText := none
  piUserEntryId : Option PyText := none
  piUserEntryOrder : Option ℤ := none
  piUserEntrySha256 : Option PyText := none
  piBindEntryId : Option PyText := none
  bindingSequence : Option (List PiSourceEntry) := none
  bindingSequenceSha256 : Option PyText := none
  bindingEnvelopeSha256 : Option PyText := none
  boundAt : Option ℤ := none
  piAssistantEntryId : Option PyText := none
  piAssistantEntryOrder : Option ℤ := none
  piFinalizeEntryId : Option PyText := none
  sourceStartOrder : Option ℤ := none
  sourceEndOrder : Option ℤ := none
  sourceCursor : Option PyText := none
  sourceSequenceSha256 : Option PyText := none
  visibleContentSha256 : Option PyText := none
  visibleContentBytes : Option ℕ := none
  finalEnvelopeSha256 : Option PyText := none
  finalizedAt : Option ℤ := none
  failureCode : Option PyText := none
  failureEnvelopeSha256 : Option PyText := none
  adapterAcknowledgedAt : Option ℤ := none
  lastAttemptAt : Option ℤ := none
  createdAt : ℤ
  updatedAt : ℤ
  deriving DecidableEq

/-- A row of `conversations`. -/
structure CaptainConversation where
  id : PyText
  userId : PyText
  target : PyText
  updatedAt : ℤ
  deriving DecidableEq

/-- The status of a turn. -/
inductive CaptainTurnStatus where
  | answered
  | cancelled
  | failed
  | other (name : String)
  deriving DecidableEq, Repr

/-- The lifecycle of a turn. -/
inductive CaptainLifecycle where
  | completed
  | cancelled
  | failed
  | other (name : String)
  deriving DecidableEq, Repr

/-- A row of `conversation_turns`. -/
structure CaptainTurn where
  id : PyText
  conversationId : PyText
  status : CaptainTurnStatus
  lifecycleState : CaptainLifecycle
  lifecycleRevision : ℕ
  lifecycleDecisionKey : Option PyText
  sequenceIndex : ℤ
  updatedAt : ℤ
  deriving DecidableEq

/-- A row of `conversation_messages`. -/
structure CaptainMessage where
  id : PyText
  turnId : PyText
  conversationId : PyText
  role : String
  type : String
  slot : String
  text : PyText
  visibleInChat : Bool
  sequenceIndex : ℤ
  revision : ℕ
  source : String
  attachmentsJson : String
  contentSource : String
  structuredContentJson : Option PyText
  structuredRevision : Option ℤ
  assistantKind : String
  createdAt : ℤ
  updatedAt : ℤ
  deriving DecidableEq

/-- A row of `conversation_changes`. -/
structure CaptainChange where
  conversationId : PyText
  changeSequence : ℕ
  messageId : PyText
  messageRevision : ℕ
  changedAt : ℤ
  deriving DecidableEq

/-- Changes are numbered within their conversation. -/
def CaptainChange.key (change : CaptainChange) : PyText × ℕ :=
  (change.conversationId, change.changeSequence)

/-- The tables that the ownership of turns reads and writes. -/
structure PiStore where
  dispatches : Table SemanticDispatch.dispatchIncarnation
  conversations : Table CaptainConversation.id
  turns : Table CaptainTurn.id
  messages : Table CaptainMessage.id
  changes : Table CaptainChange.key

/-- A dispatch with the columns of its turn that `_owned_row` joins to it. -/
structure OwnedDispatch where
  dispatch : SemanticDispatch
  turnStatus : CaptainTurnStatus
  lifecycleState : CaptainLifecycle
  turnSequence : ℤ
  deriving DecidableEq

/-- How an accepted envelope was taken. -/
inductive PiStatus where
  | pending
  | applied
  | duplicate
  | discarded
  deriving DecidableEq, Repr

/-- What applying an envelope returns; members that a reply lacks are absent. -/
structure PiReply where
  status : PiStatus
  state : PiState
  dispatchIncarnation : PyText
  turnId : PyText
  messageId : PyText
  messageRevision : Option ℕ := none
  messageChanged : Option Bool := none
  visibleContentSha256 : Option PyText := none
  acceptedEnvelopeSha256 : Option PyText := none
  deriving DecidableEq

namespace SemanticDispatch

/-- The keys of the unique indexes on source entries, where they are there. -/
def entryKeys (d : SemanticDispatch) : Option (PyText × PyText) × Option (PyText × PyText) :=
  (d.piSessionId.bind fun session => d.piUserEntryId.map fun entry => (session, entry),
    d.piSessionId.bind fun session => d.piAssistantEntryId.map fun entry => (session, entry))

/-- Another row owns a source entry that a row names. -/
def collides (d other : SemanticDispatch) : Bool :=
  decide (d.dispatchIncarnation ≠ other.dispatchIncarnation) &&
    ((d.entryKeys.1.isSome && decide (d.entryKeys.1 = other.entryKeys.1)) ||
      (d.entryKeys.2.isSome && decide (d.entryKeys.2 = other.entryKeys.2)))

/-- The reply about a dispatch. -/
def reply (d : SemanticDispatch) (status : PiStatus) (state : PiState) : PiReply where
  status := status
  state := state
  dispatchIncarnation := d.dispatchIncarnation
  turnId := d.turnId
  messageId := d.assistantMessageId

/-- A dispatch that is bound to a prompt. -/
abbrev bind (e : PiOwnershipEnvelope) (sequenceHash envelopeHash : PyText) (now : ℤ)
    (d : SemanticDispatch) : SemanticDispatch :=
  { d with
    state := .bound
    capabilityUsedAt := some now
    piSessionId := e.piSessionId
    piPrepareEntryId := e.piPrepareEntryId
    piUserEntryId := e.piUserEntryId
    piUserEntryOrder := e.piUserEntryOrder
    piUserEntrySha256 := e.piUserContentSha256
    piBindEntryId := e.piBindEntryId
    bindingSequence := some e.sourceSequence
    bindingSequenceSha256 := some sequenceHash
    bindingEnvelopeSha256 := some envelopeHash
    sourceStartOrder := e.sourceStartOrder
    sourceEndOrder := e.sourceEndOrder
    sourceCursor := e.sourceCursor
    sourceSequenceSha256 := some sequenceHash
    boundAt := e.boundAt
    updatedAt := now }

/-- A dispatch whose answer is accepted. -/
abbrev finalize (e : PiOwnershipEnvelope) (sequenceHash envelopeHash : PyText) (bytes : ℕ) (now : ℤ)
    (d : SemanticDispatch) : SemanticDispatch :=
  { d with
    state := .finalized
    piAssistantEntryId := e.piAssistantEntryId
    piAssistantEntryOrder := e.piAssistantEntryOrder
    piFinalizeEntryId := e.piFinalizeEntryId
    sourceStartOrder := e.sourceStartOrder
    sourceEndOrder := e.sourceEndOrder
    sourceCursor := e.sourceCursor
    sourceSequenceSha256 := some sequenceHash
    visibleContentSha256 := e.visibleContentSha256
    visibleContentBytes := some bytes
    finalEnvelopeSha256 := some envelopeHash
    finalizedAt := e.finalizedAt
    updatedAt := now }

/-- A dispatch that failed. -/
abbrev fail (code : Option PyText) (envelopeHash : PyText) (now : ℤ) (d : SemanticDispatch) :
    SemanticDispatch :=
  { d with
    state := .failed
    failureCode := code
    failureEnvelopeSha256 := some envelopeHash
    updatedAt := now }

end SemanticDispatch

namespace CaptainTurn

/-- A turn whose dispatch failed. -/
abbrev fail (now : ℤ) (t : CaptainTurn) : CaptainTurn :=
  { t with
    status := .failed
    lifecycleState := .failed
    lifecycleDecisionKey := none
    lifecycleRevision := t.lifecycleRevision + 1
    updatedAt := now }

/-- A turn whose answer is accepted. -/
abbrev complete (changed : Bool) (now : ℤ) (t : CaptainTurn) : CaptainTurn :=
  { t with
    status := .answered
    lifecycleState := .completed
    lifecycleDecisionKey := none
    lifecycleRevision := t.lifecycleRevision + if changed then 1 else 0
    updatedAt := now }

end CaptainTurn

/-- `PI_SOURCE_NAME`, which is the content source as well. -/
def piSemantic : String := "pi-semantic"

namespace CaptainMessage

/-- The primary message of a turn as an accepted answer first writes it. -/
abbrev answer (d : SemanticDispatch) (text : PyText) (sequenceIndex now : ℤ) : CaptainMessage where
  id := d.assistantMessageId
  turnId := d.turnId
  conversationId := d.conversationId
  role := "assistant"
  type := "conversation"
  slot := "primary"
  text := text
  visibleInChat := true
  sequenceIndex := sequenceIndex
  revision := 1
  source := piSemantic
  attachmentsJson := "[]"
  contentSource := piSemantic
  structuredContentJson := none
  structuredRevision := none
  assistantKind := "response"
  createdAt := now
  updatedAt := now

/-- A message that an accepted answer replaces. -/
abbrev revise (text : PyText) (sequenceIndex now : ℤ) (m : CaptainMessage) : CaptainMessage :=
  { m with
    role := "assistant"
    type := "conversation"
    text := text
    visibleInChat := true
    sequenceIndex := sequenceIndex
    source := piSemantic
    contentSource := piSemantic
    structuredContentJson := none
    structuredRevision := none
    assistantKind := "response"
    revision := m.revision + 1
    updatedAt := now }

/-- The message differs from the accepted answer. -/
def differs (text : PyText) (sequenceIndex : ℤ) (m : CaptainMessage) : Bool :=
  decide (m.text ≠ text ∨ m.role ≠ "assistant" ∨ m.type ≠ "conversation" ∨ m.visibleInChat = false ∨
    m.sequenceIndex ≠ sequenceIndex ∨ m.source ≠ piSemantic ∨ m.contentSource ≠ piSemantic ∨
    m.structuredContentJson ≠ none ∨ m.structuredRevision ≠ none)

end CaptainMessage

/-- `_verify_identity` -/
def PiDigest.verifyIdentity (digest : PiDigest) (d : SemanticDispatch) (e : PiOwnershipEnvelope)
    (capability : PyText) : Except PiFailure Unit := do
  let capabilitySha256 ← digest.capabilityHash capability
  raiseIf (capabilitySha256 ≠ d.capabilitySha256)
    (.ownership "The Pi dispatch capability does not own this incarnation.")
  raiseIf (e.capabilitySha256 ≠ d.capabilitySha256)
    (.ownership "The Pi adapter returned a different capability identity.")
  raiseIf (e.tenantId ≠ d.tenantId ∨ e.principalId ≠ d.principalId ∨
      e.conversationId ≠ d.conversationId ∨ e.turnId ≠ d.turnId ∨
      e.assistantMessageId ≠ d.assistantMessageId ∨ e.objectiveId ≠ d.objectiveId ∨
      e.runId ≠ d.runId)
    (.ownership "The Pi adapter envelope crosses canonical ownership identity.")

namespace PiStore

/-- `_owned_row` -/
def ownedRow (user target incarnation : PyText) (s : PiStore) : Except PiFailure OwnedDispatch := do
  let missing : PiFailure := .lookup "Pi dispatch not found."
  let dispatch ← orRaise (s.dispatches.find? incarnation) missing
  let conversation ← orRaise (s.conversations.find? dispatch.conversationId) missing
  let turn ← orRaise (s.turns.find? dispatch.turnId) missing
  raiseIf (dispatch.userId ≠ user ∨ conversation.userId ≠ user ∨ conversation.target ≠ target)
    missing
  return {
    dispatch := dispatch
    turnStatus := turn.status
    lifecycleState := turn.lifecycleState
    turnSequence := turn.sequenceIndex }

/-- A dispatch is read with the columns of its turn, for the owner of its conversation. -/
theorem ownedRow_eq_ok {s : PiStore} {user target incarnation : PyText} {row : OwnedDispatch} :
    s.ownedRow user target incarnation = .ok row ↔
      s.dispatches.find? incarnation = some row.dispatch ∧
      ∃ conversation turn, s.conversations.find? row.dispatch.conversationId = some conversation ∧
        s.turns.find? row.dispatch.turnId = some turn ∧
        (row.dispatch.userId = user ∧ conversation.userId = user ∧ conversation.target = target) ∧
        row.turnStatus = turn.status ∧ row.lifecycleState = turn.lifecycleState ∧
        row.turnSequence = turn.sequenceIndex := by
  unfold ownedRow
  simp only [bind_eq_ok, orRaise_eq_ok, raiseIf_eq_ok, pure_eq_ok, not_or, not_not]
  constructor
  · rintro ⟨dispatch, hdispatch, conversation, hconversation, turn, hturn, -, howner, rfl⟩
    exact ⟨hdispatch, conversation, turn, hconversation, hturn, howner, rfl, rfl, rfl⟩
  · rintro ⟨hdispatch, conversation, turn, hconversation, hturn, howner, hstatus,
      hlifecycle, hindex⟩
    refine ⟨row.dispatch, hdispatch, conversation, hconversation, turn, hturn, ⟨⟩, howner, ?_⟩
    rw [← hstatus, ← hlifecycle, ← hindex]

/-- `_record_message_change` -/
def recordMessageChange (id : PyText) (s : PiStore) : Except PiFailure PiStore := do
  let message ← orRaise (s.messages.find? id)
    (.runtimeError "A Pi canonical change references a missing message.")
  let change : CaptainChange := {
    conversationId := message.conversationId
    changeSequence := ((s.changes.rows.filter fun change =>
      change.conversationId = message.conversationId).map fun change =>
        change.changeSequence + 1).foldr max 0
    messageId := id
    messageRevision := message.revision
    changedAt := message.updatedAt }
  raiseIf (∃ other ∈ s.changes.rows, other.conversationId = change.conversationId ∧
    other.messageId = id ∧ other.messageRevision = change.messageRevision) .integrityError
  return { s with changes := s.changes.insertOrIgnore change }

/-- The unique indexes on source entries hold of a row that is about to be written. -/
def checkEntries (d : SemanticDispatch) (s : PiStore) : Except PiFailure Unit :=
  raiseIf (∃ other ∈ s.dispatches.rows, d.collides other) .integrityError

/-- `UPDATE pi_semantic_dispatches ... WHERE dispatch_incarnation = ? AND state = ?`, which changes
one row. -/
def moveDispatch (d : SemanticDispatch) (state : PiState) (f : SemanticDispatch → SemanticDispatch)
    (concurrent : String) (s : PiStore)
    (hf : ∀ d, (f d).dispatchIncarnation = d.dispatchIncarnation := by intro; rfl) :
    Except PiFailure PiStore := do
  raiseIf ((s.dispatches.find? d.dispatchIncarnation).all fun d => d.state ≠ state)
    (.ownership concurrent)
  return { s with dispatches := s.dispatches.update d.dispatchIncarnation f hf }

/-- `_apply_binding` -/
def applyBinding (now : ℤ) (d : SemanticDispatch) (e : PiOwnershipEnvelope)
    (sequenceHash envelopeHash : PyText) (s : PiStore) : Except PiFailure (PiStatus × PiStore) := do
  let boundAt ← orRaise (e.boundAt.filter (· ≤ d.expiresAt))
    (.ownership "The Pi dispatch capability expired before source binding.")
  raiseIf (e.piUserContentSha256 ≠ some d.promptSha256)
    (.ownership "The exact Pi user entry differs from the dispatched prompt.")
  raiseIf (boundAt < d.createdAt - 5000)
    (.ownership "The Pi source binding predates its dispatch capability.")
  raiseIf (now + 30000 < boundAt) (.ownership "The Pi source binding time is in the future.")
  match d.state with
  | .finalized => .error (.ownership "A finalized Pi dispatch cannot be rebound.")
  | .failed => .error (.ownership "A failed Pi dispatch cannot be rebound.")
  | .bound => do
    raiseIf (¬(d.bindingEnvelopeSha256 = some envelopeHash ∧ d.piSessionId = e.piSessionId ∧
        d.piUserEntryId = e.piUserEntryId ∧ d.piUserEntrySha256 = e.piUserContentSha256))
      (.ownership "The Pi dispatch capability was already consumed by another binding.")
    return (.duplicate, s)
  | .prepared => do
    raiseIf (e.piSessionId = none) (.ownership "A Pi binding requires an exact session identity.")
    let bind := SemanticDispatch.bind e sequenceHash envelopeHash now
    (s.checkEntries (bind d)).mapError fun _ =>
      .ownership "A Pi source entry is already owned by another canonical turn."
    let s ← s.moveDispatch d .prepared bind "The Pi dispatch binding changed concurrently."
    return (.applied, s)

/-- `_upsert_final_message`: the revision of the message, and whether it changed. -/
def upsertFinalMessage (now : ℤ) (row : OwnedDispatch) (text : PyText) (s : PiStore) :
    Except PiFailure ((ℕ × Bool) × PiStore) := do
  let d := row.dispatch
  let sequenceIndex := row.turnSequence * 1000 + 999
  match s.messages.find? d.assistantMessageId with
  | none => do
    raiseIf (∃ other ∈ s.messages.rows, other.turnId = d.turnId ∧ other.slot = "primary")
      (.ownership "The reserved Pi assistant slot has a different message identity.")
    let s := { s with
      messages := s.messages.insertOrIgnore (.answer d text sequenceIndex now) }
    let s ← s.recordMessageChange d.assistantMessageId
    return ((1, true), s)
  | some existing => do
    raiseIf (existing.turnId ≠ d.turnId ∨ existing.slot ≠ "primary")
      (.ownership "The reserved Pi assistant identity is already used elsewhere.")
    raiseIf (existing.contentSource = "structured")
      (.ownership "Accepted structured canonical content cannot be overwritten.")
    if existing.differs text sequenceIndex then
      let s := { s with
        messages := s.messages.update d.assistantMessageId
          (CaptainMessage.revise text sequenceIndex now) }
      let s ← s.recordMessageChange d.assistantMessageId
      return ((existing.revision + 1, true), s)
    else
      return ((existing.revision, false), s)

/-- The turn of a dispatch takes no answer any more. -/
def frozen (row : OwnedDispatch) : Bool :=
  decide (row.turnStatus ∈ [.cancelled, .failed] ∨ row.lifecycleState ∈ [.cancelled, .failed])

/-- The end of `apply_pi_ownership_envelope`: the answer of a bound dispatch is written, or its
evidence is discarded when the turn takes no answer any more. -/
def settleFinal (now : ℤ) (row : OwnedDispatch) (e : PiOwnershipEnvelope) (answer : PyText × ℕ)
    (sequenceHash envelopeHash : PyText) (s : PiStore) : Except PiFailure (PiReply × PiStore) := do
  let d := row.dispatch
  if frozen row then
    let s ← s.moveDispatch d .bound
      (SemanticDispatch.fail (some (.of "canonical-turn-frozen")) envelopeHash now)
      "The frozen Pi disposition changed concurrently."
    return ({ d.reply .discarded .failed with acceptedEnvelopeSha256 := some envelopeHash }, s)
  let ((revision, changed), s) ← s.upsertFinalMessage now row answer.1
  let s := { s with
    turns := s.turns.update d.turnId
      (CaptainTurn.complete (decide (row.lifecycleState ≠ CaptainLifecycle.completed)) now) }
  let finalize := SemanticDispatch.finalize e sequenceHash envelopeHash answer.2 now
  (s.checkEntries (finalize d)).mapError fun _ =>
    .ownership "A Pi assistant entry is already owned by another canonical turn."
  let s ← s.moveDispatch d .bound finalize "The Pi dispatch finalization changed concurrently."
  let s := { s with
    conversations := s.conversations.update d.conversationId fun conversation =>
      { conversation with updatedAt := now } }
  return ({ d.reply .applied .finalized with
    messageRevision := some revision
    messageChanged := some changed
    visibleContentSha256 := e.visibleContentSha256
    acceptedEnvelopeSha256 := some envelopeHash }, s)

/-- `apply_pi_ownership_envelope`: a failure. -/
def applyFailure (now : ℤ) (row : OwnedDispatch) (e : PiOwnershipEnvelope) (envelopeHash : PyText)
    (s : PiStore) : Except PiFailure (PiReply × PiStore) := do
  let d := row.dispatch
  let accepted (status : PiStatus) : PiReply :=
    { d.reply status .failed with acceptedEnvelopeSha256 := some envelopeHash }
  match d.state with
  | .finalized => .error (.ownership "A finalized Pi dispatch cannot fail afterward.")
  | .failed => do
    raiseIf (¬(d.failureCode = e.errorCode ∧ d.failureEnvelopeSha256 = some envelopeHash))
      (.ownership "The Pi dispatch already has a different failure.")
    return (accepted .duplicate, s)
  | .prepared | .bound =>
    let s := { s with
      dispatches := s.dispatches.update d.dispatchIncarnation
        (SemanticDispatch.fail e.errorCode envelopeHash now) }
    let s := if row.lifecycleState ∈ [CaptainLifecycle.completed, .cancelled, .failed] then s else
      { s with turns := s.turns.update d.turnId (CaptainTurn.fail now) }
    return (accepted .applied, s)

/-- `apply_pi_ownership_envelope`: an answer. Its evidence contains the whole binding prefix, by
which a dispatch that was not bound yet is bound first. -/
def applyFinal (digest : PiDigest) (now : ℤ) (user target : PyText) (row : OwnedDispatch)
    (e : PiOwnershipEnvelope) (answer : PyText × ℕ) (sequenceHash envelopeHash : PyText)
    (s : PiStore) : Except PiFailure (PiReply × PiStore) := do
  let d := row.dispatch
  let accepted (status : PiStatus) (state : PiState) : PiReply :=
    { d.reply status state with acceptedEnvelopeSha256 := some envelopeHash }
  let boundAt ← orRaise e.boundAt
    (.ownership "A finalized Pi envelope lacks durable transition times.")
  let finalizedAt ← orRaise e.finalizedAt
    (.ownership "A finalized Pi envelope lacks durable transition times.")
  raiseIf (finalizedAt < boundAt) (.ownership "Pi finalization predates source binding.")
  raiseIf (now + 30000 < finalizedAt) (.ownership "Pi finalization time is in the future.")
  match d.state with
  | .finalized => do
    raiseIf (¬(d.finalEnvelopeSha256 = some envelopeHash ∧
        d.visibleContentSha256 = e.visibleContentSha256 ∧
        d.piAssistantEntryId = e.piAssistantEntryId))
      (.ownership "Final Pi source replay conflicts with accepted content.")
    return ({ accepted .duplicate .finalized with
      messageRevision := (s.messages.find? d.assistantMessageId).map CaptainMessage.revision }, s)
  | .failed => do
    raiseIf (¬(d.failureCode = some (.of "canonical-turn-frozen") ∧
        d.failureEnvelopeSha256 = some envelopeHash))
      (.ownership "A failed Pi dispatch cannot finalize afterward.")
    return (accepted .duplicate .failed, s)
  | state => do
    let bindPosition ← orRaise
      (e.sourceSequence.findIdx? fun entry => e.piBindEntryId = some entry.entryId)
      (.ownership "The final Pi sequence has no binding prefix.")
    let bindingSequence := e.sourceSequence.take (bindPosition + 1)
    let bindingHash := digest.sequenceHash bindingSequence
    let bindingPayload := e.bindingPayload bindingSequence bindingHash
    let bindingEnvelopeHash := digest.semanticEnvelopeHash bindingPayload
    if state = .prepared then
      let (_, s) ← s.applyBinding now d bindingPayload bindingHash bindingEnvelopeHash
      let row ← s.ownedRow user target e.dispatchIncarnation
      s.settleFinal now row e answer sequenceHash envelopeHash
    else
      raiseIf (d.bindingSequence ≠ some bindingSequence ∨
          d.bindingSequenceSha256 ≠ some bindingHash ∨
          d.bindingEnvelopeSha256 ≠ some bindingEnvelopeHash)
        (.ownership "Final Pi source evidence changed its accepted binding prefix.")
      raiseIf (d.piSessionId ≠ e.piSessionId ∨ d.piUserEntryId ≠ e.piUserEntryId ∨
          d.piUserEntrySha256 ≠ e.piUserContentSha256 ∨ d.piBindEntryId ≠ e.piBindEntryId)
        (.ownership "Final Pi source identity differs from its binding.")
      s.settleFinal now row e answer sequenceHash envelopeHash

/-- `apply_pi_ownership_envelope` -/
def applyPiOwnershipEnvelope (digest : PiDigest) (now : ℤ) (user target capability : PyText)
    (e : PiOwnershipEnvelope) (s : PiStore) : Except PiFailure (PiReply × PiStore) := do
  e.validate
  let envelopeHash := digest.semanticEnvelopeHash e
  let (sequenceHash, answer) ← e.evidence digest
  let row ← s.ownedRow user target e.dispatchIncarnation
  digest.verifyIdentity row.dispatch e capability
  match e.eventType with
  | .prepared => return (row.dispatch.reply .pending row.dispatch.state, s)
  | .failed => s.applyFailure now row e envelopeHash
  | .bound => do
    let (status, s) ← s.applyBinding now row.dispatch e sequenceHash envelopeHash
    return (row.dispatch.reply status .bound, s)
  | .finalized => s.applyFinal digest now user target row e answer sequenceHash envelopeHash

end PiStore

end Magistrate
