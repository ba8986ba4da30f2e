import Magistrate.Core.CanonicalJson
import Magistrate.Core.Run

/-!
# Pi ownership envelopes

The evidence that the adapter of a captain session sends about one dispatch: which
source entries carry a prompt and its answer. The members are checked one by one and
then as a whole for the stage that the envelope reports; the checks of the source
sequence and of the visible text stand here as well. The digest of a text is a
parameter, and what is digested is its canonical JSON.
-/

namespace Magistrate

/-- What preparing a dispatch or applying an envelope can raise. -/
inductive PiFailure where
  | malformed
  | valueError (message : String)
  | ownership (message : String)
  | lookup (message : String)
  | integrityError
  | runtimeError (message : String)
  deriving DecidableEq, Repr

/-- The kinds of source entries that an envelope may name. -/
inductive PiEntryType where
  | message
  | custom
  | redacted
  deriving DecidableEq, Repr

/-- The roles of message entries. -/
inductive PiRole where
  | user
  | assistant
  deriving DecidableEq, Repr

/-- Why the model stopped. -/
inductive PiStopReason where
  | stop
  | length
  | toolUse
  | error
  | aborted
  deriving DecidableEq, Repr

/-- The stage that an envelope reports. -/
inductive PiEventType where
  | prepared
  | bound
  | finalized
  | failed
  deriving DecidableEq, Repr

/-- Whether the stage is the last one. -/
inductive PiFinality where
  | pending
  | final
  | failed
  deriving DecidableEq, Repr

namespace PiEntryType

/-- The name of a kind in the JSON of an entry. -/
def name : PiEntryType → String
  | message => "message"
  | custom => "custom"
  | redacted => "redacted"

end PiEntryType

namespace PiRole

/-- The name of a role in the JSON of an entry. -/
def name : PiRole → String
  | user => "user"
  | assistant => "assistant"

end PiRole

namespace PiStopReason

/-- The name of a reason in the JSON of an entry. -/
def name : PiStopReason → String
  | stop => "stop"
  | length => "length"
  | toolUse => "toolUse"
  | error => "error"
  | aborted => "aborted"

end PiStopReason

namespace PiEventType

/-- The name of a stage in the JSON of an envelope. -/
def name : PiEventType → String
  | prepared => "dispatch.prepared"
  | bound => "dispatch.bound"
  | finalized => "dispatch.finalized"
  | failed => "dispatch.failed"

end PiEventType

namespace PiFinality

/-- The name of a finality in the JSON of an envelope. -/
def name : PiFinality → String
  | pending => "pending"
  | final => "final"
  | failed => "failed"

end PiFinality

namespace PyText

/-- `_valid_unicode` -/
def validUnicode (value : PyText) : Bool := !value.any isSurrogate

/-- `_valid_identity_text` -/
def validIdentityText (value : PyText) : Bool :=
  value.validUnicode && !value.any fun code =>
    decide (code < 32) || decide (127 ≤ code ∧ code ≤ 159) || [0x2028, 0x2029].contains code

/-- `_valid_visible_text` -/
def validVisibleText (value : PyText) : Bool :=
  value.validUnicode && !value.any fun code =>
    decide (code < 32 ∧ code ∉ [9, 10, 13]) || decide (127 ≤ code ∧ code ≤ 159)

/-- A length between two bounds. -/
def lengthWithin (least most : ℕ) (value : PyText) : Bool :=
  decide (least ≤ value.length ∧ value.length ≤ most)

/-- `_PI_ENTRY_ID_PATTERN` -/
def isPiEntryId (value : PyText) : Bool := value.isIdentifier ['.', '_', '-'] 127

/-- `^prefix[A-Za-z0-9_-]+$`, with bounds on the length. -/
def isPrefixed (stem : String) (least most : ℕ) (value : PyText) : Bool :=
  let body := value.drop stem.length
  value.lengthWithin least most && decide (value.take stem.length = PyText.of stem) &&
    !body.isEmpty && body.all fun code => isAlnum code || [0x5F, 0x2D].contains code

/-- `^[a-f0-9]{64}$` -/
def isSha256 (value : PyText) : Bool :=
  value.lengthWithin 64 64 && value.all fun code =>
    decide (48 ≤ code ∧ code ≤ 57) || decide (97 ≤ code ∧ code ≤ 102)

/-- `^[a-z0-9][a-z0-9._-]{0,63}$` -/
def isErrorCode (value : PyText) : Bool :=
  let isLower (code : ℕ) : Bool :=
    decide (48 ≤ code ∧ code ≤ 57) || decide (97 ≤ code ∧ code ≤ 122)
  value.lengthWithin 1 64 && value.head?.any isLower &&
    value.all fun code => isLower code || [0x2E, 0x5F, 0x2D].contains code

end PyText

/-- A number between zero and the largest integer that every reader holds exactly. -/
def isPiOrder (order : ℤ) : Bool := decide (0 ≤ order ∧ order ≤ 9007199254740991)

/-- A time that the adapter may claim. -/
def isPiTime (time : ℤ) : Bool := decide (1000000000000 ≤ time)

/-- `PiSourceEntry`: the structure of one entry of the source session. -/
structure PiSourceEntry where
  order : ℤ
  entryId : PyText
  parentId : Option PyText
  entryType : PiEntryType
  role : Option PiRole
  customType : Option PyText
  stopReason : Option PiStopReason
  deriving DecidableEq

namespace PiSourceEntry

/-- The checks of the single members. -/
def fieldsValid (entry : PiSourceEntry) : Bool :=
  isPiOrder entry.order && entry.entryId.isPiEntryId && entry.parentId.all PyText.isPiEntryId &&
    entry.customType.all fun kind => kind.lengthWithin 1 128 && kind.validUnicode

/-- `validate_shape` -/
def validateShape (entry : PiSourceEntry) : Except PiFailure Unit :=
  match entry.entryType with
  | .message => do
    raiseIf (entry.role = none ∨ entry.customType ≠ none)
      (.valueError "Pi message source entries require only a structural role.")
    raiseIf (entry.role = some .assistant ∧ entry.stopReason = none)
      (.valueError "Pi assistant source entries require finality metadata.")
    raiseIf (entry.role ≠ some .assistant ∧ entry.stopReason ≠ none)
      (.valueError "Only Pi assistant entries have a stop reason.")
  | .custom =>
    raiseIf (entry.customType = none ∨ entry.role ≠ none ∨ entry.stopReason ≠ none)
      (.valueError "Pi custom source entries require only a custom type.")
  | .redacted =>
    raiseIf (entry.role ≠ none ∨ entry.customType ≠ none ∨ entry.stopReason ≠ none)
      (.valueError "Non-message Pi source entries cannot carry message metadata.")

/-- `PiSourceEntry.model_validate`, of an entry whose members have their types. -/
def validate (entry : PiSourceEntry) : Except PiFailure Unit := do
  raiseIf (¬entry.fieldsValid) .malformed
  entry.validateShape

/-- `model_dump` -/
def dump (entry : PiSourceEntry) : PyJson :=
  .object [
    ("order", .int entry.order),
    ("entry_id", .text entry.entryId),
    ("parent_id", (entry.parentId.map PyJson.text).getD .null),
    ("entry_type", .str entry.entryType.name),
    ("role", .optStr (entry.role.map PiRole.name)),
    ("custom_type", (entry.customType.map PyJson.text).getD .null),
    ("stop_reason", .optStr (entry.stopReason.map PiStopReason.name))]

/-- The entry of a message of a role. -/
def isMessageOf (role : PiRole) (entry : PiSourceEntry) : Bool :=
  decide (entry.entryType = .message ∧ entry.role = some role)

/-- The entry of a marker of the adapter. -/
def isMarker (kind : String) (entry : PiSourceEntry) : Bool :=
  decide (entry.entryType = .custom ∧ entry.customType = some (PyText.of kind))

end PiSourceEntry

/-- `PiAssistantContentBlock`: one visible block of text. -/
structure PiAssistantContentBlock where
  index : ℤ
  text : PyText
  deriving DecidableEq

namespace PiAssistantContentBlock

/-- The checks of the single members. -/
def fieldsValid (block : PiAssistantContentBlock) : Bool :=
  decide (0 ≤ block.index ∧ block.index ≤ 1000000) && block.text.validUnicode

/-- `model_dump` -/
def dump (block : PiAssistantContentBlock) : PyJson :=
  .object [("index", .int block.index), ("type", .str "text"), ("text", .text block.text)]

end PiAssistantContentBlock

/-- `PiOwnershipEnvelope`: what the adapter claims about one dispatch. -/
structure PiOwnershipEnvelope where
  eventType : PiEventType
  requestNonce : PyText
  dispatchIncarnation : PyText
  capabilitySha256 : PyText
  tenantId : PyText
  principalId : PyText
  conversationId : PyText
  turnId : PyText
  assistantMessageId : PyText
  objectiveId : PyText
  runId : PyText
  sourceRevision : ℤ
  piSessionId : Option PyText := none
  piPrepareEntryId : Option PyText := none
  piUserEntryId : Option PyText := none
  piUserEntryOrder : Option ℤ := none
  piUserContentSha256 : Option PyText := none
  piBindEntryId : Option PyText := none
  piAssistantEntryId : Option PyText := none
  piAssistantEntryOrder : Option ℤ := none
  piFinalizeEntryId : Option PyText := none
  finality : PiFinality
  stopReason : Option PiStopReason := none
  boundAt : Option ℤ := none
  finalizedAt : Option ℤ := none
  sourceStartOrder : Option ℤ := none
  sourceEndOrder : Option ℤ := none
  sourceCursor : Option PyText := none
  sourceSequence : List PiSourceEntry := []
  sourceSequenceSha256 : Option PyText := none
  visibleContentSha256 : Option PyText := none
  assistantContent : List PiAssistantContentBlock := []
  errorCode : Option PyText := none
  deriving DecidableEq

namespace PiOwnershipEnvelope

/-- The checks of the single members. -/
def fieldsValid (e : PiOwnershipEnvelope) : Bool :=
  e.requestNonce.isPrefixed "" 16 128 && e.dispatchIncarnation.isPrefixed "pdi_" 20 100 &&
    e.capabilitySha256.isSha256 &&
    [e.tenantId, e.principalId].all (fun owner =>
      owner.lengthWithin 1 256 && owner.validIdentityText) &&
    e.conversationId.isPrefixed "cv_" 4 128 && e.turnId.isPrefixed "ct_" 4 128 &&
    e.assistantMessageId.isPrefixed "cm_" 4 128 && e.objectiveId.isPrefixed "obj_" 5 128 &&
    e.runId.isPrefixed "run_" 5 128 && decide (0 ≤ e.sourceRevision ∧ e.sourceRevision ≤ 2) &&
    [e.piSessionId, e.piPrepareEntryId, e.piUserEntryId, e.piBindEntryId, e.piAssistantEntryId,
      e.piFinalizeEntryId, e.sourceCursor].all (·.all PyText.isPiEntryId) &&
    [e.piUserEntryOrder, e.piAssistantEntryOrder, e.sourceStartOrder, e.sourceEndOrder].all
      (·.all isPiOrder) &&
    [e.piUserContentSha256, e.sourceSequenceSha256, e.visibleContentSha256].all
      (·.all PyText.isSha256) &&
    [e.boundAt, e.finalizedAt].all (·.all isPiTime) &&
    decide (e.sourceSequence.length ≤ 4096) && decide (e.assistantContent.length ≤ 4096) &&
    e.assistantContent.all PiAssistantContentBlock.fieldsValid && e.errorCode.all PyText.isErrorCode

/-- Which members of `binding_identity` are there. -/
def bindingIdentity (e : PiOwnershipEnvelope) : List Bool :=
  [e.piSessionId.isSome, e.piPrepareEntryId.isSome, e.piUserEntryId.isSome,
    e.piUserEntryOrder.isSome, e.piUserContentSha256.isSome, e.piBindEntryId.isSome,
    e.boundAt.isSome]

/-- Which members of `final_identity` are there. -/
def finalIdentity (e : PiOwnershipEnvelope) : List Bool :=
  [e.piAssistantEntryId.isSome, e.piAssistantEntryOrder.isSome, e.piFinalizeEntryId.isSome,
    e.finalizedAt.isSome]

/-- Which members of `source_identity` are there. -/
def sourceIdentity (e : PiOwnershipEnvelope) : List Bool :=
  [e.sourceStartOrder.isSome, e.sourceEndOrder.isSome, e.sourceCursor.isSome,
    e.sourceSequenceSha256.isSome]

/-- `validate_stage` -/
def validateStage (e : PiOwnershipEnvelope) : Except PiFailure Unit :=
  match e.eventType with
  | .prepared =>
    raiseIf (e.sourceRevision ≠ 0 ∨ e.finality ≠ .pending ∨
        (e.bindingIdentity ++ e.finalIdentity ++ e.sourceIdentity).any id ∨
        e.stopReason ≠ none ∨ e.errorCode ≠ none ∨
        e.sourceSequence ≠ [] ∨ e.assistantContent ≠ [] ∨ e.visibleContentSha256 ≠ none)
      (.valueError "A prepared dispatch must carry no claimed Pi source state.")
  | .bound =>
    raiseIf (e.sourceRevision ≠ 1 ∨ e.finality ≠ .pending ∨
        ¬(e.bindingIdentity ++ e.sourceIdentity).all id ∨ e.finalIdentity.any id ∨
        e.stopReason ≠ none ∨ e.errorCode ≠ none ∨
        e.sourceSequence = [] ∨ e.assistantContent ≠ [] ∨ e.visibleContentSha256 ≠ none)
      (.valueError "A bound dispatch must carry only complete binding evidence.")
  | .finalized =>
    raiseIf (e.sourceRevision ≠ 2 ∨ e.finality ≠ .final ∨ e.stopReason ≠ some .stop ∨
        ¬(e.bindingIdentity ++ e.finalIdentity ++ e.sourceIdentity).all id ∨
        e.errorCode ≠ none ∨ e.sourceSequence = [] ∨ e.assistantContent = [] ∨
        e.visibleContentSha256 = none)
      (.valueError "Only a normally stopped exact Pi entry is a successful final response.")
  | .failed =>
    raiseIf (e.sourceRevision ≠ 0 ∨ e.finality ≠ .failed ∨ e.errorCode = none ∨
        (e.bindingIdentity ++ e.finalIdentity ++ e.sourceIdentity).any id ∨
        e.sourceSequence ≠ [] ∨ e.assistantContent ≠ [] ∨ e.visibleContentSha256 ≠ none ∨
        e.stopReason ≠ none)
      (.valueError "A failed dispatch cannot carry assistant content.")

/-- `PiOwnershipEnvelope.model_validate`, of an envelope whose members have their types. -/
def validate (e : PiOwnershipEnvelope) : Except PiFailure Unit := do
  raiseIf (¬e.fieldsValid) .malformed
  e.sourceSequence.forM PiSourceEntry.validate
  e.validateStage

/-- `model_dump` without the nonce of the request. -/
def semanticBody (e : PiOwnershipEnvelope) : PyJson :=
  let text (value : Option PyText) : PyJson := (value.map PyJson.text).getD .null
  let number (value : Option ℤ) : PyJson := (value.map PyJson.int).getD .null
  .object [
    ("schema_version", .str "magistrate.pi.ownership.v1"),
    ("event_type", .str e.eventType.name),
    ("dispatch_incarnation", .text e.dispatchIncarnation),
    ("capability_sha256", .text e.capabilitySha256),
    ("tenant_id", .text e.tenantId),
    ("principal_id", .text e.principalId),
    ("conversation_id", .text e.conversationId),
    ("turn_id", .text e.turnId),
    ("assistant_message_id", .text e.assistantMessageId),
    ("objective_id", .text e.objectiveId),
    ("run_id", .text e.runId),
    ("source_revision", .int e.sourceRevision),
    ("pi_session_id", text e.piSessionId),
    ("pi_prepare_entry_id", text e.piPrepareEntryId),
    ("pi_user_entry_id", text e.piUserEntryId),
    ("pi_user_entry_order", number e.piUserEntryOrder),
    ("pi_user_content_sha256", text e.piUserContentSha256),
    ("pi_bind_entry_id", text e.piBindEntryId),
    ("pi_assistant_entry_id", text e.piAssistantEntryId),
    ("pi_assistant_entry_order", number e.piAssistantEntryOrder),
    ("pi_finalize_entry_id", text e.piFinalizeEntryId),
    ("finality", .str e.finality.name),
    ("stop_reason", .optStr (e.stopReason.map PiStopReason.name)),
    ("bound_at", number e.boundAt),
    ("finalized_at", number e.finalizedAt),
    ("source_start_order", number e.sourceStartOrder),
    ("source_end_order", number e.sourceEndOrder),
    ("source_cursor", text e.sourceCursor),
    ("source_sequence", .list (e.sourceSequence.map PiSourceEntry.dump)),
    ("source_sequence_sha256", text e.sourceSequenceSha256),
    ("visible_content_sha256", text e.visibleContentSha256),
    ("assistant_content", .list (e.assistantContent.map PiAssistantContentBlock.dump)),
    ("error_code", text e.errorCode)]

end PiOwnershipEnvelope

/-- The digest of a text, in hexadecimal digits. -/
structure PiDigest where
  sha256 : PyText → PyText
  hexadecimal : ∀ text, (sha256 text).isSha256 = true

namespace PiDigest

variable (digest : PiDigest)

/-- `_capability_hash` -/
def capabilityHash (capability : PyText) : Except PiFailure PyText := do
  raiseIf (¬capability.isPrefixed "pic_" 44 100)
    (.ownership "The Pi dispatch capability is malformed.")
  return digest.sha256 capability

/-- `_semantic_envelope_hash`: retries of a request differ in their nonces only. -/
def semanticEnvelopeHash (e : PiOwnershipEnvelope) : PyText :=
  digest.sha256 e.semanticBody.canonicalJson

/-- The digest of a sequence of entries. -/
def sequenceHash (sequence : List PiSourceEntry) : PyText :=
  digest.sha256 (PyJson.list (sequence.map PiSourceEntry.dump)).canonicalJson

/-- The digest of visible blocks. -/
def visibleHash (blocks : List PiAssistantContentBlock) : PyText :=
  digest.sha256 (PyJson.list (blocks.map fun block =>
    .object [("index", .int block.index), ("text", .text block.text)])).canonicalJson

end PiDigest

namespace PiOwnershipEnvelope

/-- `PI_PREPARE_ENTRY_TYPE` -/
def prepareEntryType : String := "magistrate.pi.dispatch.prepare.v1"

/-- `PI_BIND_ENTRY_TYPE` -/
def bindEntryType : String := "magistrate.pi.dispatch.bind.v1"

/-- `PI_FINALIZE_ENTRY_TYPE` -/
def finalizeEntryType : String := "magistrate.pi.dispatch.finalize.v1"

variable (e : PiOwnershipEnvelope)

/-- `by_id.get`: the entry under an id. -/
def entryOf (id : Option PyText) : Option PiSourceEntry :=
  id.bind fun id => e.sourceSequence.find? fun entry => entry.entryId = id

/-- `positions`: where an entry stands. -/
def position (entry : PiSourceEntry) : ℕ :=
  e.sourceSequence.findIdx fun other => other.entryId = entry.entryId

/-- `_validate_sequence`: the orders are without gaps, and the entries form one chain. -/
def validateOrder : Except PiFailure Unit := do
  let sequence := e.sourceSequence
  raiseIf (sequence = [] ∨ 4096 < sequence.length)
    (.ownership "Pi source evidence is empty or oversized.")
  let start ← orRaise e.sourceStartOrder (.ownership "Pi source ordering is incomplete.")
  let stop ← orRaise e.sourceEndOrder (.ownership "Pi source ordering is incomplete.")
  raiseIf (stop < start ∨ stop - start + 1 ≠ sequence.length ∨
      sequence.map PiSourceEntry.order ≠
        (List.range sequence.length).map fun index : ℕ => start + index)
    (.ownership "Pi source ordering is gapped or ambiguous.")
  raiseIf (¬(sequence.map PiSourceEntry.entryId).Nodup)
    (.ownership "Pi source entry identity is ambiguous.")
  raiseIf (¬∀ pair ∈ sequence.zip sequence.tail, pair.2.parentId = some pair.1.entryId)
    (.ownership "Pi source entries do not form one exact parent chain.")

/-- `_validate_sequence`: the digest and the cursor are those of the sequence. -/
def validateDigest (digest : PiDigest) : Except PiFailure PyText := do
  let computed := digest.sequenceHash e.sourceSequence
  raiseIf (e.sourceSequenceSha256 ≠ some computed)
    (.ownership "Pi source sequence hash does not match its entries.")
  raiseIf (e.sourceCursor ≠ e.sourceSequence.getLast?.map PiSourceEntry.entryId)
    (.ownership "Pi source cursor does not identify the accepted tail.")
  return computed

/-- `_validate_sequence`: the prompt stands between its markers, and no other prompt beside it.
The marker of the binding is returned. -/
def validateMarkers : Except PiFailure PiSourceEntry := do
  let sequence := e.sourceSequence
  let prepare ← orRaise ((e.entryOf e.piPrepareEntryId).filter fun prepare =>
      decide (sequence.head? = some prepare) && prepare.isMarker prepareEntryType)
    (.ownership "Pi prepare marker does not anchor the source sequence.")
  let user ← orRaise ((e.entryOf e.piUserEntryId).filter (PiSourceEntry.isMessageOf .user))
    (.ownership "The initiating Pi user entry is not exact.")
  raiseIf (e.piUserEntryOrder ≠ some user.order)
    (.ownership "The initiating Pi user order does not match its entry.")
  let bind ← orRaise ((e.entryOf e.piBindEntryId).filter (PiSourceEntry.isMarker bindEntryType))
    (.ownership "Pi bind marker is missing from the source sequence.")
  raiseIf (¬(e.position prepare < e.position user ∧ e.position user < e.position bind))
    (.ownership "Pi prepare, user, and bind ordering is invalid.")
  raiseIf (some ((sequence.filter (PiSourceEntry.isMessageOf .user)).map PiSourceEntry.entryId) ≠
      e.piUserEntryId.map fun id => [id])
    (.ownership "Another Pi user boundary makes source ownership ambiguous.")
  return bind

/-- `_validate_sequence`: the answer stands behind the binding, and the last marker behind it. -/
def validateFinal (bind : PiSourceEntry) : Except PiFailure Unit := do
  let sequence := e.sourceSequence
  let assistant ← orRaise ((e.entryOf e.piAssistantEntryId).filter fun assistant =>
      assistant.isMessageOf .assistant && decide (assistant.stopReason = some .stop) &&
        decide (e.piAssistantEntryOrder = some assistant.order))
    (.ownership "The finalized Pi assistant entry is not exact.")
  let finalize ← orRaise ((e.entryOf e.piFinalizeEntryId).filter fun finalize =>
      decide (sequence.getLast? = some finalize) && finalize.isMarker finalizeEntryType)
    (.ownership "Pi finalize marker does not close the source sequence.")
  raiseIf (¬(e.position bind < e.position assistant ∧
      e.position assistant < e.position finalize))
    (.ownership "Pi bind, assistant, and finalize ordering is invalid.")
  raiseIf ((sequence.drop (e.position assistant + 1)).any (PiSourceEntry.isMessageOf .assistant))
    (.ownership "The bound Pi assistant is not the final assistant entry.")

/-- `_validate_sequence`; the digest of the sequence is returned. -/
def validateSequence (digest : PiDigest) (final : Bool) : Except PiFailure PyText := do
  e.validateOrder
  let computed ← e.validateDigest digest
  let bind ← e.validateMarkers
  if final then
    e.validateFinal bind
  else
    raiseIf (e.sourceSequence.getLast?.map PiSourceEntry.entryId ≠ e.piBindEntryId)
      (.ownership "A binding sequence must end at its durable bind marker.")
  return computed

/-- `_visible_text`: the text of the answer and its length in bytes. -/
def visibleText (digest : PiDigest) : Except PiFailure (PyText × ℕ) := do
  let blocks := e.assistantContent
  raiseIf (blocks = [] ∨
      blocks.map PiAssistantContentBlock.index ≠ (List.range blocks.length).map Int.ofNat)
    (.ownership "Pi assistant content blocks are gapped or incomplete.")
  raiseIf (e.visibleContentSha256 ≠ some (digest.visibleHash blocks))
    (.ownership "Pi visible-content hash does not match its text blocks.")
  let text : PyText := blocks.flatMap PiAssistantContentBlock.text
  let bytes ← orRaise text.utf8Length? .malformed
  raiseIf (text.isBlank = true)
    (.ownership "A finalized Pi assistant entry has no visible text.")
  raiseIf (¬text.validVisibleText)
    (.ownership "Pi finalized visible content contains unsafe control characters.")
  raiseIf (200000 < text.length ∨ 1000000 < bytes)
    (.ownership "The finalized Pi assistant content is too large.")
  return (text, bytes)

/-- What `apply_pi_ownership_envelope` checks before it reads the database: the digest of the
sequence and the answer, where the stage has them. -/
def evidence (digest : PiDigest) : Except PiFailure (PyText × (PyText × ℕ)) :=
  match e.eventType with
  | .bound => do
    let sequenceHash ← e.validateSequence digest false
    raiseIf (e.assistantContent ≠ [] ∨ e.visibleContentSha256 ≠ none)
      (.ownership "A pending Pi binding cannot carry assistant content.")
    return (sequenceHash, ([], 0))
  | .finalized => do
    let sequenceHash ← e.validateSequence digest true
    let answer ← e.visibleText digest
    return (sequenceHash, answer)
  | .prepared => do
    raiseIf (e.sourceSequence ≠ [] ∨ e.assistantContent ≠ [])
      (.ownership "A prepared adapter response cannot claim Pi entries.")
    return ([], ([], 0))
  | .failed => do
    raiseIf (e.assistantContent ≠ [])
      (.ownership "A failed adapter response cannot carry visible content.")
    return ([], ([], 0))

/-- The envelope of the binding that a final envelope contains. -/
def bindingPayload (bindingSequence : List PiSourceEntry) (bindingHash : PyText) :
    PiOwnershipEnvelope :=
  { e with
    eventType := .bound
    sourceRevision := 1
    piAssistantEntryId := none
    piAssistantEntryOrder := none
    piFinalizeEntryId := none
    finality := .pending
    stopReason := none
    finalizedAt := none
    sourceEndOrder := bindingSequence.getLast?.map PiSourceEntry.order
    sourceCursor := bindingSequence.getLast?.map PiSourceEntry.entryId
    sourceSequence := bindingSequence
    sourceSequenceSha256 := some bindingHash
    visibleContentSha256 := none
    assistantContent := []
    errorCode := none }

end PiOwnershipEnvelope

end Magistrate
