import Magistrate.Core.Run
import Magistrate.Core.Table

/-!
# Native chat tables

Conversations, messages and their changes, generated messages, turn routes and
content-free counters. Insertions raise on every unique key of the schema. Ids
that the code draws at random and the time are arguments of its transactions.
-/

namespace Magistrate

/-- What a chat transaction can raise. -/
inductive ChatFailure where
  | notFound (message : String)
  | conflict (message : String)
  | valueError (message : String)
  | integrityError
  | overflowError
  deriving DecidableEq, Repr

/-- Who wrote a message. -/
inductive Role where
  | user
  | assistant
  deriving DecidableEq, Repr

/-- The lifecycle of a message. -/
inductive MessageStatus where
  | pending
  | completed
  | failed
  | cancelled
  deriving DecidableEq, Repr

/-- A canonical attachment record. -/
structure AttachmentRecord where
  uploadId : String
  name : String
  mediaType : String
  size : ℕ
  deriving DecidableEq, Repr

/-- A row of `magi_messages`. -/
structure MagiMessage where
  id : String
  conversationId : String
  ownerUserId : String
  turnId : String
  role : Role
  content : String
  status : MessageStatus
  source : String
  clientMessageId : Option String
  replyToMessageId : Option String
  attachments : List AttachmentRecord
  sequenceIndex : ℕ
  revision : ℕ
  attemptCount : ℕ
  errorCode : Option String
  createdAt : ℤ
  updatedAt : ℤ
  deriving DecidableEq, Repr

/-- A row of `magi_conversations`. -/
structure MagiConversation where
  id : String
  ownerUserId : String
  isDefault : Bool
  createdAt : ℤ
  updatedAt : ℤ
  deriving DecidableEq, Repr

/-- A row of `magi_message_changes`. -/
structure MessageChange where
  conversationId : String
  changeSequence : ℕ
  messageId : String
  messageRevision : ℕ
  changedAt : ℤ
  deriving DecidableEq, Repr

/-- Changes are numbered within their conversation. -/
def MessageChange.key (change : MessageChange) : String × ℕ :=
  (change.conversationId, change.changeSequence)

/-- A row of `magi_generated_messages`. -/
structure GeneratedMessage where
  ownerUserId : String
  generationKey : String
  factsSha256 : String
  conversationId : String
  replyToMessageId : String
  messageId : String
  createdAt : ℤ
  deriving DecidableEq, Repr

/-- Generated messages are unique for an owner and a generation key. -/
def GeneratedMessage.key (binding : GeneratedMessage) : String × String :=
  (binding.ownerUserId, binding.generationKey)

/-- A row of `magi_chat_diagnostics`. -/
structure ChatDiagnostics where
  ownerUserId : String
  messagesSubmitted : ℕ := 0
  messagesCompleted : ℕ := 0
  messagesFailed : ℕ := 0
  duplicateSubmissions : ℕ := 0
  completionLatencyMs : ℕ := 0
  completionLatencyTotalMs : ℕ := 0
  completionLatencyMaxMs : ℕ := 0
  responseCharacters : ℕ := 0
  responseCharactersLast : ℕ := 0
  responseCharactersMax : ℕ := 0
  retries : ℕ := 0
  toolCalls : ℕ := 0
  updatedAt : ℤ
  deriving DecidableEq, Repr

/-- How a turn was classified. -/
inductive RouteCategory where
  | directConversation
  | readOnlyInvestigation
  | execution
  | decisionResponse
  | highImpactAction
  deriving DecidableEq, Repr

/-- How a turn was closed. -/
inductive RouteOutcome where
  | routing
  | directResponse
  | objectiveAccepted
  | memorySaved
  | confirmationRequired
  | failed
  | cancelled
  deriving DecidableEq, Repr

/-- A row of `magi_turn_routes`. -/
structure TurnRoute where
  assistantMessageId : String
  ownerUserId : String
  routeCategory : RouteCategory
  permissionGranted : Bool
  explicitConfirmation : Bool
  outcome : RouteOutcome
  createdAt : ℤ
  updatedAt : ℤ
  deriving DecidableEq, Repr

/-- The tables of the native chat. -/
structure Chat where
  conversations : Table MagiConversation.id
  messages : Table MagiMessage.id
  changes : Table MessageChange.key
  generated : Table GeneratedMessage.key
  diagnostics : Table ChatDiagnostics.ownerUserId
  turnRoutes : Table TurnRoute.assistantMessageId
  deriving DecidableEq

/-- The tables of a new database. -/
def Chat.initial : Chat where
  conversations := .empty
  messages := .empty
  changes := .empty
  generated := .empty
  diagnostics := .empty
  turnRoutes := .empty

namespace MagiMessage

/-- Two messages that the unique keys on client message ids and on turns keep apart. -/
def collides (m r : MagiMessage) : Bool :=
  decide (r.ownerUserId = m.ownerUserId ∧ r.clientMessageId = m.clientMessageId ∧
    m.clientMessageId ≠ none) ||
  decide (r.conversationId = m.conversationId ∧ r.turnId = m.turnId ∧ r.role = m.role) ||
  decide (r.conversationId = m.conversationId ∧ r.sequenceIndex = m.sequenceIndex)

end MagiMessage

namespace Chat

/-- `INSERT INTO magi_messages`: any taken unique key raises. -/
def insertMessage (chat : Chat) (m : MagiMessage) : Except ChatFailure Chat := do
  raiseIf (chat.messages.find? m.id ≠ none) .integrityError
  raiseIf (chat.messages.rows.any m.collides) .integrityError
  return { chat with messages := chat.messages.insertOrIgnore m }

/-- `INSERT INTO magi_conversations` of a default conversation, the only one of its owner. -/
def insertConversation (chat : Chat) (c : MagiConversation) : Except ChatFailure Chat := do
  raiseIf (chat.conversations.find? c.id ≠ none) .integrityError
  raiseIf (∃ d ∈ chat.conversations.rows, d.ownerUserId = c.ownerUserId ∧ d.isDefault = true ∧
    c.isDefault = true) .integrityError
  return { chat with conversations := chat.conversations.insertOrIgnore c }

/-- The default conversation of an owner. -/
def defaultOf (chat : Chat) (owner : String) : Option MagiConversation :=
  chat.conversations.rows.find? fun c => c.ownerUserId = owner ∧ c.isDefault = true

/-- The sequence index after the last message of a conversation. -/
def nextSequence (chat : Chat) (conversationId : String) : ℕ :=
  ((chat.messages.rows.filter fun m => m.conversationId = conversationId).map
    (·.sequenceIndex + 1)).foldr max 0

/-- The number of the last change of a conversation. -/
def latestChange (chat : Chat) (conversationId : String) : ℕ :=
  ((chat.changes.rows.filter fun c => c.conversationId = conversationId).map
    (·.changeSequence)).foldr max 0

/-- The next change of a conversation. -/
def nextChange (chat : Chat) (conversationId messageId : String) (revision : ℕ) (now : ℤ) :
    MessageChange where
  conversationId := conversationId
  changeSequence := chat.latestChange conversationId + 1
  messageId := messageId
  messageRevision := revision
  changedAt := now

/-- `_append_change`: number a new revision of a message. -/
def appendChange (chat : Chat) (conversationId messageId : String) (revision : ℕ) (now : ℤ) :
    Except ChatFailure Chat := do
  raiseIf (∃ c ∈ chat.changes.rows, c.conversationId = conversationId ∧
    c.messageId = messageId ∧ c.messageRevision = revision) .integrityError
  return { chat with
    changes := chat.changes.insertOrIgnore (chat.nextChange conversationId messageId revision now) }

/-- `UPDATE magi_conversations SET updated_at`. -/
def touchConversation (chat : Chat) (conversationId : String) (now : ℤ) : Chat :=
  { chat with conversations :=
      chat.conversations.update conversationId fun c => { c with updatedAt := now } }

/-- `_increment_diagnostics`: open an owner's counters and add to them. -/
def countDiagnostics (chat : Chat) (owner : String) (now : ℤ)
    (add : ChatDiagnostics → ChatDiagnostics)
    (hadd : ∀ d, (add d).ownerUserId = d.ownerUserId := by intro; rfl) : Chat :=
  let opened := chat.diagnostics.insertOrIgnore { ownerUserId := owner, updatedAt := now }
  { chat with diagnostics := opened.update owner (fun d => { add d with updatedAt := now }) hadd }

/-- The user message of a submission. -/
def userMessage (chat : Chat) (owner clientMessageId : String) : Option MagiMessage :=
  chat.messages.rows.find? fun m =>
    m.ownerUserId = owner ∧ m.clientMessageId = some clientMessageId ∧ m.role = .user

/-- The assistant message reserved in a user message's turn. -/
def reservedAssistant (chat : Chat) (owner : String) (user : MagiMessage) : Option MagiMessage :=
  chat.messages.rows.find? fun m =>
    m.ownerUserId = owner ∧ m.conversationId = user.conversationId ∧ m.turnId = user.turnId ∧
      m.role = .assistant

/-- The assistant message with an id, as its owner sees it. -/
def assistantMessage (chat : Chat) (owner id : String) : Option MagiMessage :=
  (chat.messages.find? id).filter fun m => m.ownerUserId = owner ∧ m.role = .assistant

end Chat

end Magistrate
