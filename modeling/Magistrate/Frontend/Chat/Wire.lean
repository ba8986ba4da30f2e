import Magistrate.Frontend.Chat.Records
import Magistrate.Gateway.Chat.Replay

/-!
# Messages on the wire

The gateway encodes a message with all of its members; the client reads it back
when each of them is as it demands, and then with the same values.
-/

namespace Magistrate

/-- A string or null. -/
def Json.nullable : Option String → Json
  | none => .null
  | some value => .str value

/-- The name of a role. -/
def Role.name : Role → String
  | user => "user"
  | assistant => "assistant"

/-- The name of a status. -/
def MessageStatus.name : MessageStatus → String
  | pending => "pending"
  | completed => "completed"
  | failed => "failed"
  | cancelled => "cancelled"

/-- Where an upload is read. -/
def AttachmentRecord.url (a : AttachmentRecord) : String := "/api/v1/uploads/" ++ a.uploadId

/-- An attachment as the gateway encodes it. -/
def AttachmentRecord.json (a : AttachmentRecord) : Json :=
  .obj [("id", .str a.uploadId), ("upload_id", .str a.uploadId), ("name", .str a.name),
    ("media_type", .str a.mediaType), ("size", .int a.size), ("url", .str a.url)]

/-- A message as the gateway encodes it. -/
def PublicMessage.json (m : PublicMessage) : Json :=
  .obj [("id", .str m.id), ("conversation_id", .str m.conversationId), ("turn_id", .str m.turnId),
    ("client_message_id", .nullable m.clientMessageId),
    ("reply_to_message_id", .nullable m.replyToMessageId), ("role", .str m.role.name),
    ("content", .str m.content), ("status", .str m.status.name), ("source", .str m.source),
    ("sequence_index", .int m.sequenceIndex), ("revision", .int m.revision),
    ("attachments", .arr (m.attachments.map AttachmentRecord.json)),
    ("created_at", .int m.createdAt),
    ("updated_at", .int m.updatedAt)]

open Frontend

/-- An attachment as the client holds it. -/
def AttachmentRecord.attachment (a : AttachmentRecord) : MagiAttachment where
  name := a.name
  mediaType := a.mediaType
  size := a.size
  uploadId := a.uploadId
  url := a.url

/-- A message as the client holds it. -/
def PublicMessage.record (m : PublicMessage) : MagiMessageRecord where
  id := m.id
  conversationId := m.conversationId
  turnId := m.turnId
  clientMessageId := m.clientMessageId
  replyToMessageId := m.replyToMessageId
  role := m.role
  content := m.content
  status := m.status
  source := m.source
  sequenceIndex := m.sequenceIndex
  revision := m.revision
  attachments := m.attachments.map AttachmentRecord.attachment
  createdAt := m.createdAt
  updatedAt := m.updatedAt

/-- What the client demands of an attachment. -/
def AttachmentRecord.readable (a : AttachmentRecord) : Bool :=
  (a.uploadId.toList.all isIdChar && decide (16 ≤ a.uploadId.length ∧ a.uploadId.length ≤ 64)) &&
    (decide (a.name ≠ "" ∧ a.name.length ≤ 160) && !hasUnsafeControl a.name) &&
    validMediaType a.mediaType && decide (a.size ≤ 25 * 1024 * 1024)

/-- An integer that the client takes. -/
def safeInteger (n : ℤ) : Bool := decide (-9007199254740991 ≤ n ∧ n ≤ 9007199254740991)

/-- What the client demands of a message. -/
def PublicMessage.readable (m : PublicMessage) : Bool :=
  (boundedId "mgm_" 4 124 m.id && boundedId "mgc_" 4 124 m.conversationId &&
    boundedId "mgt_" 4 124 m.turnId) &&
    (decide (m.content.length ≤ 200000) && !hasUnsafeControl m.content) &&
    (safeInteger m.sequenceIndex && safeInteger m.revision && decide (1 ≤ m.revision)) &&
    (safeInteger m.createdAt && decide (1000000000000 ≤ m.createdAt) && safeInteger m.updatedAt &&
      decide (m.createdAt ≤ m.updatedAt)) &&
    (decide (m.attachments.length ≤ 10) && m.attachments.all AttachmentRecord.readable &&
      decide (m.attachments.map (·.uploadId)).Nodup) && m.record.validForRole

section Reading

@[simp] theorem Json.nullableString?_nullable (value : Option String) :
    nullableString? (Json.nullable value) = some value := by
  cases value <;> rfl

@[simp] theorem role?_name (role : Role) : role? role.name = some role := by
  cases role <;> rfl

@[simp] theorem messageStatus?_name (status : MessageStatus) :
    messageStatus? status.name = some status := by
  cases status <;> rfl

/-- The client takes a safe integer. -/
theorem safeInteger?_int (n : ℤ) : safeInteger? (.int n) = if safeInteger n then some n else none :=
  rfl

/-- A listed reading succeeds when each item's does. -/
theorem mapM_read {α β γ : Type} {f : α → Option β} {p : γ → Bool} {g : γ → β} {h : γ → α}
    (hf : ∀ c, f (h c) = if p c then some (g c) else none) (l : List γ) :
    (l.map h).mapM f = if l.all p then some (l.map g) else none := by
  induction l with
  | nil => rfl
  | cons c l ih =>
    rw [List.map_cons, List.mapM_cons, hf, ih]
    by_cases hc : p c = true
    · by_cases hl : l.all p = true
      · simp [hc, hl]
      · simp [hc, hl]
    · simp [hc]

/-- The client reads an attachment exactly when it is as it demands. -/
theorem normalizeAttachment_json (a : AttachmentRecord) :
    normalizeAttachment a.json = if a.readable then some a.attachment else none := by
  have hnames : a.json.namesAre attachmentKeys = true := rfl
  have hupload : (a.json.get "upload_id").str? = some a.uploadId := rfl
  have hid : (a.json.get "id").str? = some a.uploadId := rfl
  have hurl : (a.json.get "url").str? = some a.url := rfl
  have hname : (a.json.get "name").str? = some a.name := rfl
  have hmedia : (a.json.get "media_type").str? = some a.mediaType := rfl
  have hsize : a.json.get "size" = .int a.size := rfl
  refine Option.ext fun b => ?_
  simp only [normalizeAttachment, hnames, hupload, hid, hurl, hname, hmedia, hsize,
    safeInteger?_int, Option.bind_eq_bind, Option.bind_eq_some_iff, Option.guard_eq_some',
    Option.filter_eq_some_iff, Option.ite_none_right_eq_some, Option.some.injEq, exists_const,
    true_and, Option.pure_def, AttachmentRecord.readable, Bool.and_eq_true, decide_eq_true_eq]
  constructor
  · rintro ⟨_, ⟨rfl, hchars⟩, -, _, ⟨rfl, hname⟩, _, ⟨rfl, hmedia⟩, _, ⟨⟨-, rfl⟩, -, hsize⟩, rfl⟩
    exact ⟨⟨⟨⟨hchars, hname⟩, hmedia⟩, by exact_mod_cast hsize⟩, rfl⟩
  · rintro ⟨⟨⟨⟨hchars, hname⟩, hmedia⟩, hsize⟩, rfl⟩
    refine ⟨_, ⟨rfl, hchars⟩, ⟨rfl, rfl⟩, _, ⟨rfl, hname⟩, _, ⟨rfl, hmedia⟩, _,
      ⟨⟨?_, rfl⟩, ?_⟩, rfl⟩
    · rw [safeInteger, decide_eq_true_eq]
      omega
    · omega

/-- The client reads attachments exactly when each is as it demands and no upload is there twice. -/
theorem normalizeAttachments_json (attachments : List AttachmentRecord) :
    normalizeAttachments (.arr (attachments.map AttachmentRecord.json)) =
      if decide (attachments.length ≤ 10) && attachments.all AttachmentRecord.readable &&
        decide (attachments.map (·.uploadId)).Nodup
      then some (attachments.map AttachmentRecord.attachment) else none := by
  have huploads : (attachments.map AttachmentRecord.attachment).map (·.uploadId) =
      attachments.map (·.uploadId) := by
    rw [List.map_map]
    rfl
  refine Option.ext fun bs => ?_
  simp only [normalizeAttachments, mapM_read normalizeAttachment_json, List.length_map,
    Option.bind_eq_bind, Option.bind_eq_some_iff, Option.guard_eq_some', Option.pure_def,
    Option.ite_none_right_eq_some, Option.some.injEq, exists_const, Bool.and_eq_true,
    decide_eq_true_eq]
  constructor
  · rintro ⟨hlength, _, ⟨hall, rfl⟩, hnodup, rfl⟩
    exact ⟨⟨⟨hlength, hall⟩, huploads ▸ hnodup⟩, rfl⟩
  · rintro ⟨⟨⟨hlength, hall⟩, hnodup⟩, rfl⟩
    exact ⟨hlength, _, ⟨hall, rfl⟩, huploads ▸ hnodup, rfl⟩

/-- The client reads a message exactly when it is as it demands. -/
theorem normalizeMagiMessageRecord_json (m : PublicMessage) :
    normalizeMagiMessageRecord m.json = if m.readable then some m.record else none := by
  have hnames : m.json.namesAre messageKeys = true := rfl
  have hid : (m.json.get "id").str? = some m.id := rfl
  have hconversation : (m.json.get "conversation_id").str? = some m.conversationId := rfl
  have hturn : (m.json.get "turn_id").str? = some m.turnId := rfl
  have hclient : m.json.get "client_message_id" = .nullable m.clientMessageId := rfl
  have hreply : m.json.get "reply_to_message_id" = .nullable m.replyToMessageId := rfl
  have hrole : (m.json.get "role").str? = some m.role.name := rfl
  have hcontent : (m.json.get "content").str? = some m.content := rfl
  have hstatus : (m.json.get "status").str? = some m.status.name := rfl
  have hsource : (m.json.get "source").str? = some m.source := rfl
  have hsequence : m.json.get "sequence_index" = .int m.sequenceIndex := rfl
  have hrevision : m.json.get "revision" = .int m.revision := rfl
  have hattachments : m.json.get "attachments" =
    .arr (m.attachments.map AttachmentRecord.json) := rfl
  have hcreated : m.json.get "created_at" = .int m.createdAt := rfl
  have hupdated : m.json.get "updated_at" = .int m.updatedAt := rfl
  refine Option.ext fun record => ?_
  simp only [normalizeMagiMessageRecord, hnames, hid, hconversation, hturn, hclient, hreply, hrole,
    hcontent, hstatus, hsource, hsequence, hrevision, hattachments, hcreated, hupdated,
    safeInteger?_int, normalizeAttachments_json, Json.nullableString?_nullable, Option.bind_some,
    role?_name, messageStatus?_name, Option.bind_eq_bind, Option.bind_eq_some_iff,
    Option.guard_eq_some', Option.filter_eq_some_iff, Option.ite_none_right_eq_some,
    Option.some.injEq, exists_const, true_and, and_assoc, exists_eq_left', Option.pure_def,
    PublicMessage.readable, Bool.and_eq_true, decide_eq_true_eq]
  constructor
  · rintro ⟨hid, hconversation, hturn, hlength, hcontrol, _, hsequence, rfl, -, _, hrevision, rfl,
      hfirst, _, hcreated, rfl, hepoch, _, hupdated, rfl, hle, _, hcount, hall, hnodup, rfl, hrole,
      rfl⟩
    exact ⟨hid, hconversation, hturn, hlength, hcontrol, hsequence, hrevision,
      by exact_mod_cast hfirst, hcreated, hepoch, hupdated, hle, hcount, hall, hnodup, hrole, rfl⟩
  · rintro ⟨hid, hconversation, hturn, hlength, hcontrol, hsequence, hrevision, hfirst, hcreated,
      hepoch, hupdated, hle, hcount, hall, hnodup, hrole, rfl⟩
    exact ⟨hid, hconversation, hturn, hlength, hcontrol, _, hsequence, rfl, by omega, _, hrevision,
      rfl, by omega, _, hcreated, rfl, hepoch, _, hupdated, rfl, hle, _, hcount, hall, hnodup, rfl,
      hrole, rfl⟩

end Reading

end Magistrate
