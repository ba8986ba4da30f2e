import Magistrate.Core.Json
import Magistrate.Gateway.Chat.State

/-!
# Message records in the client

A decoded value is a message record or nothing, and a page of them is taken as a
whole or not at all.
-/

namespace Magistrate.Frontend

/-- An attachment of a message. -/
structure MagiAttachment where
  name : String
  mediaType : String
  size : ℤ
  uploadId : String
  url : String
  deriving DecidableEq, Repr

/-- A message as the gateway shows it. -/
structure MagiMessageRecord where
  id : String
  conversationId : String
  turnId : String
  clientMessageId : Option String
  replyToMessageId : Option String
  role : Role
  content : String
  status : MessageStatus
  source : String
  sequenceIndex : ℤ
  revision : ℤ
  attachments : List MagiAttachment
  createdAt : ℤ
  updatedAt : ℤ
  deriving DecidableEq, Repr

/-- `MESSAGE_KEYS` -/
def messageKeys : List String :=
  ["id", "conversation_id", "turn_id", "client_message_id", "reply_to_message_id", "role",
    "content", "status", "source", "sequence_index", "revision", "attachments", "created_at",
    "updated_at"]

/-- `ATTACHMENT_KEYS` -/
def attachmentKeys : List String := ["id", "upload_id", "name", "media_type", "size", "url"]

/-- A letter, a digit, an underscore or a hyphen. -/
def isIdChar (c : Char) : Bool := c.isAlphanum || c == '_' || c == '-'

/-- `boundedId` of a pattern of the form `^start[A-Za-z0-9_-]{least,most}$`. -/
def boundedId (start : String) (least most : ℕ) (value : String) : Bool :=
  start.toList.isPrefixOf value.toList && (value.toList.drop start.length).all isIdChar &&
    decide (least ≤ value.length - start.length ∧ value.length - start.length ≤ most ∧
      value.length ≤ 128)

/-- `boundedId` of `^[A-Za-z0-9][A-Za-z0-9_-]{7,127}$`. -/
def boundedClientId (value : String) : Bool :=
  value.toList.head?.any Char.isAlphanum && value.toList.all isIdChar &&
    decide (8 ≤ value.length ∧ value.length ≤ 128)

/-- A control character other than a tab or a line break. -/
def isUnsafeControl (c : Char) : Bool :=
  (decide (c.toNat < 32) && c.toNat != 9 && c.toNat != 10 && c.toNat != 13) ||
    (decide (127 ≤ c.toNat) && decide (c.toNat ≤ 159))

/-- `hasUnsafeControl` -/
def hasUnsafeControl (value : String) : Bool := value.toList.any isUnsafeControl

/-- What `trim` of the client's language removes. -/
def isTrimmed (c : Char) : Bool :=
  [9, 10, 11, 12, 13, 32, 0xA0, 0x1680, 0x2028, 0x2029, 0x202F, 0x205F, 0x3000, 0xFEFF].contains
    c.toNat || (decide (0x2000 ≤ c.toNat) && decide (c.toNat ≤ 0x200A))

/-- `Number.isSafeInteger` -/
def safeInteger? (value : Json) : Option ℤ :=
  value.int?.filter fun n => -9007199254740991 ≤ n ∧ n ≤ 9007199254740991

/-- A part of `^[a-z0-9][a-z0-9.+-]{0,62}$`. -/
def mediaTypePart (part : List Char) : Bool :=
  part.head?.any (fun c => c.isLower || c.isDigit) &&
    part.all (fun c => c.isLower || c.isDigit || c == '.' || c == '+' || c == '-') &&
    decide (part.length ≤ 63)

/-- `^[a-z0-9][a-z0-9.+-]{0,62}\/[a-z0-9][a-z0-9.+-]{0,62}$` -/
def validMediaType (value : String) : Bool :=
  match value.toList.span (· ≠ '/') with
  | (kind, _ :: subtype) => mediaTypePart kind && mediaTypePart subtype
  | (_, []) => false

/-- One entry of `normalizeAttachments`. -/
def normalizeAttachment (item : Json) : Option MagiAttachment := do
  guard (item.namesAre attachmentKeys)
  let uploadId ← (item.get "upload_id").str?.filter fun id =>
    id.toList.all isIdChar && decide (16 ≤ id.length ∧ id.length ≤ 64)
  let url := "/api/v1/uploads/" ++ uploadId
  guard ((item.get "id").str? = some uploadId ∧ (item.get "url").str? = some url)
  let name ← (item.get "name").str?.filter fun name =>
    decide (name ≠ "" ∧ name.length ≤ 160) && !hasUnsafeControl name
  let mediaType ← (item.get "media_type").str?.filter validMediaType
  let size ← (safeInteger? (item.get "size")).filter fun size => 0 ≤ size ∧ size ≤ 25 * 1024 * 1024
  return { name, mediaType, size, uploadId, url }

/-- `normalizeAttachments` -/
def normalizeAttachments (raw : Json) : Option (List MagiAttachment) :=
  match raw with
  | .arr items => do
    guard (items.length ≤ 10)
    let attachments ← items.mapM normalizeAttachment
    guard (attachments.map (·.uploadId)).Nodup
    return attachments
  | _ => none

/-- The status of a name. -/
def messageStatus? : String → Option MessageStatus
  | "pending" => some .pending
  | "completed" => some .completed
  | "failed" => some .failed
  | "cancelled" => some .cancelled
  | _ => none

/-- The role of a name. -/
def role? : String → Option Role
  | "user" => some .user
  | "assistant" => some .assistant
  | _ => none

/-- A member that is a string or null. -/
def nullableString? : Json → Option (Option String)
  | .null => some none
  | .str value => some (some value)
  | _ => none

/-- What a user record has to be. -/
def validUserRecord (record : MagiMessageRecord) : Bool :=
  decide (record.status = .completed ∧ record.source ∈ ["text", "voice"]) &&
    record.clientMessageId.any boundedClientId && record.replyToMessageId.isNone &&
    !record.content.toList.all isTrimmed

/-- What an assistant record has to be. -/
def validAssistantRecord (record : MagiMessageRecord) : Bool :=
  decide (record.source = "magi-native") && record.clientMessageId.isNone &&
    record.replyToMessageId.any (boundedId "mgm_" 4 124) &&
    (if record.status = .completed then decide (record.content ≠ "")
      else decide (record.content = "")) && record.attachments.isEmpty

/-- What a record has to be in its role. -/
def MagiMessageRecord.validForRole (record : MagiMessageRecord) : Bool :=
  match record.role with
  | .user => validUserRecord record
  | .assistant => validAssistantRecord record

/-- `normalizeMagiMessageRecord` -/
def normalizeMagiMessageRecord (raw : Json) : Option MagiMessageRecord := do
  guard (raw.namesAre messageKeys)
  let id ← (raw.get "id").str?.filter (boundedId "mgm_" 4 124)
  let conversationId ← (raw.get "conversation_id").str?.filter (boundedId "mgc_" 4 124)
  let turnId ← (raw.get "turn_id").str?.filter (boundedId "mgt_" 4 124)
  let role ← (raw.get "role").str?.bind role?
  let status ← (raw.get "status").str?.bind messageStatus?
  let content ← (raw.get "content").str?.filter fun content =>
    decide (content.length ≤ 200000) && !hasUnsafeControl content
  let sequenceIndex ← (safeInteger? (raw.get "sequence_index")).filter (0 ≤ ·)
  let revision ← (safeInteger? (raw.get "revision")).filter (1 ≤ ·)
  let createdAt ← (safeInteger? (raw.get "created_at")).filter (1000000000000 ≤ ·)
  let updatedAt ← (safeInteger? (raw.get "updated_at")).filter (createdAt ≤ ·)
  let source ← (raw.get "source").str?
  let clientMessageId ← nullableString? (raw.get "client_message_id")
  let replyToMessageId ← nullableString? (raw.get "reply_to_message_id")
  let attachments ← normalizeAttachments (raw.get "attachments")
  let record : MagiMessageRecord :=
    { id, conversationId, turnId, clientMessageId, replyToMessageId, role, content, status, source
      sequenceIndex, revision, attachments, createdAt, updatedAt }
  guard record.validForRole
  return record

/-- `renderId` -/
def MagiMessageRecord.renderId (record : MagiMessageRecord) : String :=
  match record.role with
  | .user => record.clientMessageId.getD ""
  | .assistant => record.id

/-- What a page has to be: no identity, sequence number or role of a turn twice, one conversation,
and answers to the user messages of their turns. -/
def validPage (records : List MagiMessageRecord) : Bool :=
  decide ((records.map (·.id)).Nodup ∧ (records.map MagiMessageRecord.renderId).Nodup ∧
    (records.map (·.sequenceIndex)).Nodup ∧ (records.map fun r => (r.turnId, r.role)).Nodup) &&
    records.all (fun r => records.all fun s => r.conversationId = s.conversationId) &&
    records.all fun assistant => decide (assistant.role = .assistant →
      ∀ user ∈ records, user.role = .user → user.turnId = assistant.turnId →
        assistant.replyToMessageId = some user.id)

/-- `normalizeMagiMessageRecords` -/
def normalizeMagiMessageRecords (raw : Json) : List MagiMessageRecord :=
  match raw with
  | .arr items =>
    match items.mapM normalizeMagiMessageRecord with
    | some records =>
      if items.length ≤ 1000 ∧ validPage records = true then
        records.mergeSort fun l r => l.sequenceIndex ≤ r.sequenceIndex
      else []
    | none => []
  | _ => []

end Magistrate.Frontend
