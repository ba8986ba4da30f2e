import Magistrate.Gateway.Chat.State

/-!
# The native chat store

Each operation is one serial transaction on the chat tables. Attempts compare
and set: a completion or a failure takes effect only on the pending message at
the attempt it was claimed for.
-/

namespace Magistrate

/-- A prepared submission, and whether the caller claimed its attempt. -/
structure PreparedSubmission where
  conversationId : String
  userMessageId : String
  assistantMessageId : String
  turnId : String
  attempt : ℕ
  claimed : Bool
  duplicate : Bool
  status : MessageStatus
  deriving DecidableEq, Repr

/-- A prepared generated message, and whether the caller claimed its attempt. -/
structure PreparedGeneratedMessage where
  conversationId : String
  assistantMessageId : String
  turnId : String
  attempt : ℕ
  claimed : Bool
  duplicate : Bool
  status : MessageStatus
  deriving DecidableEq, Repr

/-- The random ids that a preparation draws. -/
structure FreshIds where
  conversationId : String
  turnId : String
  userMessageId : String
  assistantMessageId : String
  deriving DecidableEq, Repr

namespace MagiMessage

/-- A failed message at its next attempt. -/
abbrev retried (now : ℤ) (m : MagiMessage) : MagiMessage :=
  { m with
    status := .pending
    content := ""
    errorCode := none
    attemptCount := m.attemptCount + 1
    revision := m.revision + 1
    updatedAt := now }

/-- A message whose attempt ended. -/
abbrev closed (status : MessageStatus) (content : String) (errorCode : Option String) (now : ℤ)
    (m : MagiMessage) : MagiMessage :=
  { m with
    content := content
    status := status
    errorCode := errorCode
    revision := m.revision + 1
    updatedAt := now }

/-- A message after a restart: failed if it was pending. -/
def recovered (now : ℤ) (m : MagiMessage) : MagiMessage :=
  if m.status = .pending then m.closed .failed "" (some "server_restart") now else m

theorem recovered_id (now : ℤ) (m : MagiMessage) : (m.recovered now).id = m.id := by
  unfold recovered
  split <;> rfl

end MagiMessage

namespace MagiChatStore

/-- `_conversation_row`: a conversation of its owner. -/
def conversationRow (owner id : String) (chat : Chat) : Except ChatFailure MagiConversation :=
  match (chat.conversations.find? id).filter fun c => c.ownerUserId = owner with
  | some conversation => .ok conversation
  | none => .error (.notFound "Native Magi conversation not found.")

/-- `_default_conversation`: the owner's default conversation, created when missing. -/
def defaultConversation (owner freshId : String) (now : ℤ) (chat : Chat) :
    Except ChatFailure (MagiConversation × Chat) :=
  match chat.defaultOf owner with
  | some conversation => .ok (conversation, chat)
  | none => do
    let conversation : MagiConversation :=
      { id := freshId, ownerUserId := owner, isDefault := true, createdAt := now, updatedAt := now }
    let chat ← chat.insertConversation conversation
    return (conversation, chat)

/-- The conversation of a request: a named one, or the default one. -/
def requestedConversation (owner : String) (conversationId : Option String) (freshId : String)
    (now : ℤ) (chat : Chat) : Except ChatFailure (MagiConversation × Chat) :=
  match conversationId.filter (· ≠ "") with
  | some id => do
    let conversation ← conversationRow owner id chat
    return (conversation, chat)
  | none => defaultConversation owner freshId now chat

/-- `_submission_rows`: the two messages of a submission, if there is one. -/
def submissionRows (owner clientMessageId : String) (chat : Chat) :
    Except ChatFailure (Option (MagiMessage × MagiMessage)) :=
  match chat.userMessage owner clientMessageId with
  | none => .ok none
  | some user =>
    match chat.reservedAssistant owner user with
    | none => .error (.conflict
        "Native Magi submission is missing its reserved assistant message.")
    | some assistant => .ok (some (user, assistant))

/-- Claim the next attempt of a failed message. -/
def retryFailed (owner conversationId : String) (assistant : MagiMessage) (now : ℤ) (chat : Chat) :
    Except ChatFailure (MagiMessage × Chat) := do
  let chat := { chat with messages := chat.messages.update assistant.id (MagiMessage.retried now) }
  let assistant := MagiMessage.retried now assistant
  let chat ← chat.appendChange conversationId assistant.id assistant.revision now
  return (assistant, chat.countDiagnostics owner now fun d => { d with retries := d.retries + 1 })

/-- A new user message. -/
def newUserMessage (owner clientMessageId content source : String)
    (attachments : List AttachmentRecord) (conversationId : String) (sequence : ℕ)
    (fresh : FreshIds) (now : ℤ) : MagiMessage where
  id := fresh.userMessageId
  conversationId := conversationId
  ownerUserId := owner
  turnId := fresh.turnId
  role := .user
  content := content
  status := .completed
  source := source
  clientMessageId := some clientMessageId
  replyToMessageId := none
  attachments := attachments
  sequenceIndex := sequence
  revision := 1
  attemptCount := 1
  errorCode := none
  createdAt := now
  updatedAt := now

/-- A new pending assistant message that replies to a user message. -/
def newAssistantMessage (owner replyTo conversationId : String) (sequence : ℕ)
    (fresh : FreshIds) (now : ℤ) : MagiMessage where
  id := fresh.assistantMessageId
  conversationId := conversationId
  ownerUserId := owner
  turnId := fresh.turnId
  role := .assistant
  content := ""
  status := .pending
  source := "magi-native"
  clientMessageId := none
  replyToMessageId := some replyTo
  attachments := []
  sequenceIndex := sequence
  revision := 1
  attemptCount := 1
  errorCode := none
  createdAt := now
  updatedAt := now

/-- The message sources that a submission may name. -/
def validSources : List String := ["text", "voice"]

/-- Bind a submission to its client message id again, and claim a failed attempt on request. -/
def prepareAgain (owner content source : String) (attachments : List AttachmentRecord)
    (wantsRetry : Bool) (conversation : MagiConversation) (user assistant : MagiMessage) (now : ℤ)
    (chat : Chat) : Except ChatFailure (PreparedSubmission × Chat) := do
  let chat := chat.countDiagnostics owner now fun d =>
    { d with duplicateSubmissions := d.duplicateSubmissions + 1 }
  raiseIf (user.conversationId ≠ conversation.id ∨ user.content ≠ content ∨
    user.source ≠ source ∨ user.attachments ≠ attachments) (.conflict
    "That client message id is already bound to a different native Magi submission.")
  let prepared (assistant : MagiMessage) (claimed : Bool) : PreparedSubmission :=
    { conversationId := conversation.id, userMessageId := user.id
      assistantMessageId := assistant.id, turnId := user.turnId, attempt := assistant.attemptCount
      claimed, duplicate := true, status := assistant.status }
  if wantsRetry = true ∧ assistant.status = .failed then
    let (assistant, chat) ← retryFailed owner conversation.id assistant now chat
    return (prepared assistant true, chat)
  else
    return (prepared assistant false, chat)

/-- Reserve both messages of a new submission. -/
def prepareNew (owner clientMessageId content source : String)
    (attachments : List AttachmentRecord) (conversation : MagiConversation) (fresh : FreshIds)
    (now : ℤ) (chat : Chat) : Except ChatFailure (PreparedSubmission × Chat) := do
  let sequence := chat.nextSequence conversation.id
  let user := newUserMessage owner clientMessageId content source attachments conversation.id
    sequence fresh now
  let assistant := newAssistantMessage owner user.id conversation.id (sequence + 1) fresh now
  let chat ← chat.insertMessage user
  let chat ← chat.insertMessage assistant
  let chat := chat.touchConversation conversation.id now
  let chat ← chat.appendChange conversation.id user.id 1 now
  let chat ← chat.appendChange conversation.id assistant.id 1 now
  let chat := chat.countDiagnostics owner now fun d =>
    { d with messagesSubmitted := d.messagesSubmitted + 1 }
  return ({ conversationId := conversation.id, userMessageId := user.id
            assistantMessageId := assistant.id, turnId := user.turnId, attempt := 1
            claimed := true, duplicate := false, status := .pending }, chat)

/-- `prepare_submission`: reserve both messages of a submission once for its client message id.
The attachments are what their canonicalisation returns or raises. -/
def prepareSubmission (owner clientMessageId content : String) (conversationId : Option String)
    (source : String) (attachments : Except ChatFailure (List AttachmentRecord))
    (wantsRetry : Bool) (fresh : FreshIds) (now : ℤ) (chat : Chat) :
    Except ChatFailure (PreparedSubmission × Chat) := do
  raiseIf (source ∉ validSources) (.valueError "Native Magi message source must be text or voice.")
  let attachments ← attachments
  let (conversation, chat) ←
    requestedConversation owner conversationId fresh.conversationId now chat
  match ← submissionRows owner clientMessageId chat with
  | some (user, assistant) =>
    prepareAgain owner content source attachments wantsRetry conversation user assistant now chat
  | none => prepareNew owner clientMessageId content source attachments conversation fresh now chat

/-- The identity of a generated message: a bounded key and a lower-case digest. -/
def generatedIdentityValid (generationKey factsSha256 : String) : Bool :=
  let chars := generationKey.toList
  (chars.head?.any Char.isAlphanum) && decide (chars.length ≤ 200) &&
    chars.all (fun c => c.isAlphanum || ['.', '_', ':', '-'].contains c) &&
    decide (factsSha256.length = 64) &&
    factsSha256.toList.all fun c => c.isDigit || ('a' ≤ c && c ≤ 'f')

/-- `prepare_generated_assistant`: reserve an assistant message once for a generation key. -/
def prepareGeneratedAssistant (owner generationKey factsSha256 conversationId
    replyToMessageId : String) (wantsRetry : Bool) (fresh : FreshIds) (now : ℤ) (chat : Chat) :
    Except ChatFailure (PreparedGeneratedMessage × Chat) := do
  raiseIf (¬generatedIdentityValid generationKey factsSha256)
    (.valueError "Generated native Magi identity is invalid.")
  let _ ← conversationRow owner conversationId chat
  raiseIf ((chat.messages.find? replyToMessageId).all fun m => ¬(m.ownerUserId = owner ∧
    m.conversationId = conversationId ∧ m.role = .user ∧ m.status = .completed))
    (.notFound "Native Magi completion origin not found.")
  let prepared (assistant : MagiMessage) (claimed duplicate : Bool) : PreparedGeneratedMessage :=
    { conversationId, assistantMessageId := assistant.id, turnId := assistant.turnId
      attempt := assistant.attemptCount, claimed, duplicate, status := assistant.status }
  match chat.generated.find? (owner, generationKey) with
  | some binding =>
    match chat.assistantMessage owner binding.messageId with
    | none => .error (.conflict
        "Generated native Magi binding has no canonical assistant message.")
    | some assistant =>
      raiseIf (binding.factsSha256 ≠ factsSha256 ∨ binding.conversationId ≠ conversationId ∨
        binding.replyToMessageId ≠ replyToMessageId ∨
        assistant.conversationId ≠ conversationId ∨
        assistant.replyToMessageId ≠ some replyToMessageId ∨
        assistant.source ≠ "magi-native") (.conflict
        "That generated message identity is already bound to different facts.")
      if wantsRetry = true ∧ assistant.status = .failed then
        let (assistant, chat) ← retryFailed owner conversationId assistant now chat
        return (prepared assistant true true, chat)
      else
        return (prepared assistant false true, chat)
  | none =>
    let assistant := newAssistantMessage owner replyToMessageId conversationId
      (chat.nextSequence conversationId) fresh now
    let chat ← chat.insertMessage assistant
    let binding : GeneratedMessage :=
      { ownerUserId := owner, generationKey, factsSha256, conversationId, replyToMessageId
        messageId := assistant.id, createdAt := now }
    raiseIf (∃ g ∈ chat.generated.rows, g.messageId = assistant.id) .integrityError
    let chat := { chat with generated := chat.generated.insertOrIgnore binding }
    let chat := chat.touchConversation conversationId now
    let chat ← chat.appendChange conversationId assistant.id 1 now
    let chat := chat.countDiagnostics owner now fun d =>
      { d with messagesSubmitted := d.messagesSubmitted + 1 }
    return (prepared assistant true false, chat)

/-- End the attempt of a message and number its revision. -/
def closeMessage (assistant : MagiMessage) (status : MessageStatus) (content : String)
    (errorCode : Option String) (now : ℤ) (chat : Chat) : Except ChatFailure Chat := do
  let chat := { chat with
    messages :=
      chat.messages.update assistant.id (MagiMessage.closed status content errorCode now) }
  let chat := chat.touchConversation assistant.conversationId now
  chat.appendChange assistant.conversationId assistant.id (assistant.revision + 1) now

/-- `_record_completion_metrics` -/
abbrev withCompletion (latencyMs characters toolCalls : ℕ) (d : ChatDiagnostics) :
    ChatDiagnostics :=
  { d with
    messagesCompleted := d.messagesCompleted + 1
    completionLatencyMs := latencyMs
    completionLatencyTotalMs := d.completionLatencyTotalMs + latencyMs
    completionLatencyMaxMs := max d.completionLatencyMaxMs latencyMs
    responseCharacters := d.responseCharacters + characters
    responseCharactersLast := characters
    responseCharactersMax := max d.responseCharactersMax characters
    toolCalls := d.toolCalls + toolCalls }

/-- `complete_submission`: store the answer of an attempt that is still pending. -/
def completeSubmission (owner assistantMessageId : String) (attempt : ℕ) (content : String)
    (latencyMs toolCalls : ℕ) (now : ℤ) (chat : Chat) : Except ChatFailure (Bool × Chat) :=
  match chat.assistantMessage owner assistantMessageId with
  | none => .error (.notFound "Native Magi assistant message not found.")
  | some row =>
    if row.status ≠ .pending ∨ row.attemptCount ≠ attempt then .ok (false, chat)
    else do
      let chat ← closeMessage row .completed content none now chat
      return (true, chat.countDiagnostics owner now
        (withCompletion latencyMs content.length toolCalls))

/-- The error code that is stored: a short one as it is. -/
def safeCode (errorCode : String) : String :=
  if errorCode ≠ "" ∧ errorCode.length ≤ 64 then errorCode else "provider_failure"

/-- `fail_submission`: store the failure of an attempt that is still pending. -/
def failSubmission (owner assistantMessageId : String) (attempt : ℕ) (errorCode : String)
    (toolCalls : ℕ) (now : ℤ) (chat : Chat) : Except ChatFailure (Bool × Chat) :=
  match chat.assistantMessage owner assistantMessageId with
  | none => .error (.notFound "Native Magi assistant message not found.")
  | some row =>
    if row.status ≠ .pending ∨ row.attemptCount ≠ attempt then .ok (false, chat)
    else do
      let chat ← closeMessage row .failed "" (some (safeCode errorCode)) now chat
      return (true, chat.countDiagnostics owner now fun d =>
        { d with
          messagesFailed := d.messagesFailed + 1
          toolCalls := d.toolCalls + toolCalls })

/-- `UPDATE magi_turn_routes SET outcome` of an owner's message. -/
def closeRoute (owner assistantMessageId : String) (outcome : RouteOutcome) (now : ℤ)
    (chat : Chat) : Chat :=
  { chat with
    turnRoutes := chat.turnRoutes.update assistantMessageId
      (fun r => if r.ownerUserId = owner then { r with outcome, updatedAt := now } else r)
      (by intro r; split <;> rfl) }

/-- Fail one pending message and its route after a restart. -/
def recoverMessage (now : ℤ) (chat : Chat) (row : MagiMessage) : Except ChatFailure Chat := do
  let chat := { chat with
    messages := chat.messages.update row.id (MagiMessage.recovered now)
      (MagiMessage.recovered_id now) }
  let chat := chat.touchConversation row.conversationId now
  let chat ← chat.appendChange row.conversationId row.id (row.revision + 1) now
  return closeRoute row.ownerUserId row.id .failed now chat

/-- `recover_orphaned_pending`: fail every pending assistant message at startup. -/
def recoverOrphanedPending (now : ℤ) (chat : Chat) : Except ChatFailure (ℕ × Chat) := do
  let rows := chat.messages.rows.filter fun m => m.role = .assistant ∧ m.status = .pending
  let chat ← rows.foldlM (recoverMessage now) chat
  let owners := rows.map (·.ownerUserId)
  let chat := owners.dedup.foldl (fun chat owner => chat.countDiagnostics owner now fun d =>
    { d with messagesFailed := d.messagesFailed + owners.count owner }) chat
  return (rows.length, chat)

/-- `cancel_submission`: cancel a submission that is still pending. -/
def cancelSubmission (owner clientMessageId : String) (now : ℤ) (chat : Chat) :
    Except ChatFailure Chat := do
  match ← submissionRows owner clientMessageId chat with
  | none => .error (.notFound "Native Magi submission not found.")
  | some (_, assistant) =>
    if assistant.status = .pending then
      let chat ← closeMessage assistant .cancelled "" none now chat
      return closeRoute owner assistant.id .cancelled now chat
    else return chat

/-- `record_turn_route`: write the route of an assistant message. -/
def recordTurnRoute (owner assistantMessageId : String) (category : RouteCategory)
    (permissionGranted explicitConfirmation : Bool) (outcome : RouteOutcome) (now : ℤ)
    (chat : Chat) : Except ChatFailure Chat :=
  match chat.assistantMessage owner assistantMessageId with
  | none => .error (.notFound "Native Magi assistant message not found.")
  | some _ =>
    match chat.turnRoutes.find? assistantMessageId with
    | none => .ok { chat with
        turnRoutes := chat.turnRoutes.insertOrIgnore
          { assistantMessageId, ownerUserId := owner, routeCategory := category
            permissionGranted, explicitConfirmation, outcome, createdAt := now
            updatedAt := now } }
    | some _ => .ok { chat with
        turnRoutes := chat.turnRoutes.update assistantMessageId
          (fun r => if r.ownerUserId = owner then
            { r with
              routeCategory := category
              permissionGranted := permissionGranted
              explicitConfirmation := explicitConfirmation
              outcome := outcome
              updatedAt := now } else r)
          (by intro r; split <;> rfl) }

end MagiChatStore

end Magistrate
