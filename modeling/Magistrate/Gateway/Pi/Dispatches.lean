import Magistrate.Gateway.Pi.Ownership

/-!
# Dispatches of captain turns

A dispatch is prepared in the transaction that submits the prompt of its turn. The
envelopes of the adapter take it further, and the adapter acknowledges what it ended
with. The conversations, turns and messages have other writers beside these.
-/

namespace Magistrate

/-- What `prepare_pi_dispatch` is called with. -/
structure PiPrompt where
  userId : PyText
  conversationId : PyText
  turnId : PyText
  assistantMessageId : PyText
  objectiveId : PyText
  runId : PyText
  prompt : PyText
  visiblePrompt : PyText
  ttlMs : ℤ := 120000
  deriving DecidableEq

namespace PiPrompt

/-- The checks before the database is read. -/
def validate (p : PiPrompt) : Except PiFailure Unit := do
  raiseIf (¬(5000 ≤ p.ttlMs ∧ p.ttlMs ≤ 600000))
    (.ownership "The Pi dispatch capability TTL is outside the supported range.")
  raiseIf (p.userId = [] ∨ 256 < p.userId.length ∨ ¬p.userId.validIdentityText)
    (.ownership "The Pi dispatch owner identity is invalid.")
  raiseIf (p.prompt = []) (.ownership "A Pi dispatch requires non-empty submitted text.")
  raiseIf (¬p.prompt.validUnicode ∨ ¬p.visiblePrompt.validUnicode)
    (.ownership "Pi dispatch text must contain valid Unicode scalar values.")
  let promptBytes ← orRaise p.prompt.utf8Length? .malformed
  let visibleBytes ← orRaise p.visiblePrompt.utf8Length? .malformed
  let literalBytes ← orRaise (PyJson.text p.prompt).canonicalJson.utf8Length? .malformed
  raiseIf (100000 < p.prompt.length ∨ 1000000 < promptBytes ∨ 100000 < p.visiblePrompt.length ∨
      1000000 < visibleBytes ∨ 1000000 < literalBytes)
    (.ownership "The Pi dispatch prompt is too large.")

/-- The dispatch that is inserted for a prompt. -/
abbrev dispatch (digest : PiDigest) (now : ℤ) (incarnation capability : PyText) (p : PiPrompt) :
    SemanticDispatch where
  dispatchIncarnation := incarnation
  capabilitySha256 := digest.sha256 capability
  userId := p.userId
  tenantId := p.userId
  principalId := p.userId
  conversationId := p.conversationId
  turnId := p.turnId
  assistantMessageId := p.assistantMessageId
  objectiveId := p.objectiveId
  runId := p.runId
  promptSha256 := digest.sha256 p.prompt
  visiblePromptSha256 := digest.sha256 p.visiblePrompt
  state := .prepared
  expiresAt := now + p.ttlMs
  createdAt := now
  updatedAt := now

end PiPrompt

/-- Two dispatches share a column that is unique. -/
def SemanticDispatch.clashes (d other : SemanticDispatch) : Bool :=
  decide (d.dispatchIncarnation = other.dispatchIncarnation ∨
    d.capabilitySha256 = other.capabilitySha256 ∨ d.turnId = other.turnId ∨
    d.assistantMessageId = other.assistantMessageId)

/-- The evidence that a dispatch ended with. -/
def SemanticDispatch.acceptedEnvelopeSha256 (d : SemanticDispatch) : Option PyText :=
  match d.state with
  | .finalized => d.finalEnvelopeSha256
  | .failed => d.failureEnvelopeSha256
  | .prepared | .bound => none

namespace PiStore

/-- `prepare_pi_dispatch`, which allocates the first of the drawn incarnations and capabilities that
is free. Whether the turn has structured events is read from tables that are left out. -/
def prepareDispatch (digest : PiDigest) (now : ℤ) (structured : Bool)
    (draws : List (PyText × PyText)) (p : PiPrompt) (s : PiStore) :
    Except PiFailure (SemanticDispatch × PiStore) := do
  p.validate
  match s.dispatches.rows.find? fun d => d.turnId = p.turnId with
  | some existing => do
    raiseIf (¬(existing.userId = p.userId ∧ existing.tenantId = p.userId ∧
        existing.principalId = p.userId ∧ existing.conversationId = p.conversationId ∧
        existing.assistantMessageId = p.assistantMessageId ∧
        existing.objectiveId = p.objectiveId ∧ existing.runId = p.runId))
      (.ownership "The canonical turn already has different Pi ownership.")
    raiseIf (existing.promptSha256 ≠ digest.sha256 p.prompt ∨
        existing.visiblePromptSha256 ≠ digest.sha256 p.visiblePrompt)
      (.ownership "An owned Pi turn cannot be replayed with different text.")
    return (existing, s)
  | none => do
    raiseIf (∃ message ∈ s.messages.rows, message.turnId = p.turnId ∧ message.slot = "primary")
      (.ownership "The turn already has an accepted primary assistant response.")
    raiseIf (structured = true)
      (.ownership "The turn already belongs to a structured response producer.")
    let dispatches := (draws.take 100).map fun draw => p.dispatch digest now draw.1 draw.2
    let d ← orRaise (dispatches.find? fun d => !s.dispatches.rows.any d.clashes)
      (.runtimeError "Could not allocate a unique Pi dispatch capability.")
    return (d, { s with dispatches := s.dispatches.insertOrIgnore d })

/-- `mark_pi_adapter_acknowledged` -/
def markAdapterAcknowledged (now : ℤ) (user target incarnation acceptedSha256 : PyText)
    (s : PiStore) : Except PiFailure PiStore := do
  raiseIf (¬acceptedSha256.isSha256)
    (.ownership "The Pi adapter acknowledgement hash is malformed.")
  let row ← s.ownedRow user target incarnation
  raiseIf (row.dispatch.acceptedEnvelopeSha256 ≠ some acceptedSha256)
    (.ownership "The Pi adapter acknowledged different canonical evidence.")
  return if row.dispatch.adapterAcknowledgedAt = none then
    { s with
      dispatches := s.dispatches.update incarnation fun d =>
        { d with adapterAcknowledgedAt := some now, updatedAt := now } }
  else s

/-- `mark_pi_dispatch_attempt`, and what `get_recoverable_dispatches` does with a dispatch whose
material cannot be read. -/
def markAttempt (now : ℤ) (incarnation : PyText) (s : PiStore) : PiStore :=
  { s with
    dispatches := s.dispatches.update incarnation fun d =>
      { d with lastAttemptAt := some now, updatedAt := now } }

end PiStore

/-- An envelope as the gateway receives it. -/
structure PiDelivery where
  now : ℤ
  user : PyText
  target : PyText
  capability : PyText
  envelope : PiOwnershipEnvelope

/-- What happens to dispatches, and whatever other writers make of the other tables. -/
inductive PiStep where
  | prepare (now : ℤ) (structured : Bool) (draws : List (PyText × PyText)) (prompt : PiPrompt)
  | deliver (delivery : PiDelivery)
  | acknowledge (now : ℤ) (user target incarnation acceptedSha256 : PyText)
  | attempt (now : ℤ) (incarnation : PyText)
  | others (conversations : Table CaptainConversation.id) (turns : Table CaptainTurn.id)
      (messages : Table CaptainMessage.id) (changes : Table CaptainChange.key)

namespace PiStore

/-- A database without rows. -/
def empty : PiStore := ⟨.empty, .empty, .empty, .empty, .empty⟩

/-- The envelope is applied in a transaction of its own. -/
def deliver (digest : PiDigest) (delivery : PiDelivery) (s : PiStore) :
    Except PiFailure (PiReply × PiStore) :=
  s.applyPiOwnershipEnvelope digest delivery.now delivery.user delivery.target
    delivery.capability delivery.envelope

/-- The database after a step. -/
def next (digest : PiDigest) (s : PiStore) : PiStep → PiStore
  | .prepare now structured draws prompt =>
    commit ((s.prepareDispatch digest now structured draws prompt).map Prod.snd) s
  | .deliver delivery => commit ((s.deliver digest delivery).map Prod.snd) s
  | .acknowledge now user target incarnation acceptedSha256 =>
    commit (s.markAdapterAcknowledged now user target incarnation acceptedSha256) s
  | .attempt now incarnation => s.markAttempt now incarnation
  | .others conversations turns messages changes =>
    { s with conversations, turns, messages, changes }

end PiStore

end Magistrate
