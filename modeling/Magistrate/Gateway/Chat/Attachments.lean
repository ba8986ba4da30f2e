import Magistrate.Core.JsonRoundTrip
import Magistrate.Gateway.Chat.Store

/-!
# Stored attachments

A message stores its attachments as the encoding of canonical records. What is stored
is decoded to the same records, and a submission that is repeated is compared with it
as a text.
-/

namespace Magistrate

/-- What reading attachments can raise. -/
inductive AttachmentRaise where
  | valueError (message : String)
  | attributeError
  deriving DecidableEq, Repr

namespace StoredAttachments

/-- `MAX_ATTACHMENTS_PER_MESSAGE` -/
def maxAttachmentsPerMessage : ℕ := 10

/-- The most bytes of an attachment. -/
def maxAttachmentSize : ℕ := 25 * 1024 * 1024

/-- An upload id has letters and digits besides its hyphens and underscores. -/
def isUploadId (isAlnum : ℕ → Bool) (uploadId : PyText) : Bool :=
  let body := uploadId.filter fun code => !([0x2D, 0x5F].contains code)
  decide (16 ≤ uploadId.length ∧ uploadId.length ≤ 64) && !body.isEmpty && body.all isAlnum

/-- A text that is not empty and not longer than a bound. -/
def isBounded (most : ℕ) (value : PyText) : Bool := decide (value ≠ [] ∧ value.length ≤ most)

/-- The canonical record of an attachment. -/
def record (uploadId name mediaType : PyText) (size : ℕ) : PyJson :=
  .object [("id", .text uploadId), ("upload_id", .text uploadId), ("name", .text name),
    ("media_type", .text mediaType), ("size", .int size),
    ("url", .text (PyText.of "/api/v1/uploads/" ++ uploadId))]

section Canonical

variable (isAlnum : ℕ → Bool)

/-- One attachment of `_canonical_attachment_records`. -/
def canonicalRecord (attachment : PyJson) : Except AttachmentRaise PyJson := do
  raiseIf (¬attachment.isDict) .attributeError
  let invalid := .valueError "Invalid native Magi attachment metadata."
  let uploadId ← orRaise ((attachment.get "upload_id").text?.filter (isUploadId isAlnum)) invalid
  -- a file name that is given stands before the name, whatever it is
  let given := attachment.getD "filename" (attachment.get "name")
  let name ← orRaise (given.text?.filter (isBounded 160)) invalid
  let mediaType ← orRaise ((attachment.get "media_type").text?.filter (isBounded 128)) invalid
  let size ← orRaise ((attachment.get "size").count?.filter (· ≤ maxAttachmentSize)) invalid
  return record uploadId name mediaType size

/-- `_canonical_attachment_records` -/
def canonicalAttachmentRecords (attachments : Option (List PyJson)) :
    Except AttachmentRaise (List PyJson) := do
  let attachments := attachments.getD []
  raiseIf (maxAttachmentsPerMessage < attachments.length)
    (.valueError "A message may include at most 10 attachments.")
  attachments.mapM (canonicalRecord isAlnum)

/-- `_attachment_json` -/
def attachmentJson (attachments : Option (List PyJson)) : Except AttachmentRaise PyText := do
  let records ← canonicalAttachmentRecords isAlnum attachments
  return (PyJson.list records).canonicalJson

/-- `_decode_attachments` -/
def decodeAttachments (raw : PyText) : Except AttachmentRaise (List PyJson) :=
  match PyJson.loads (if raw = [] then PyText.of "[]" else raw) with
  | none => .ok []
  | some value =>
    match canonicalAttachmentRecords isAlnum (some (value.list?.getD [])) with
    | .ok records => .ok records
    | .error (.valueError _) => .ok []
    -- an item that is no object has no members to get
    | .error .attributeError => .error .attributeError

end Canonical

/-- The columns of a message that a repeated submission has to agree with. -/
structure Submitted where
  conversationId : String
  content : String
  source : String
  attachmentsJson : PyText
  deriving DecidableEq, Repr

/-- The conflict check of `prepare_submission`. -/
def Submitted.conflicts (stored given : Submitted) : Bool :=
  stored.conversationId != given.conversationId || stored.content != given.content ||
    stored.source != given.source || stored.attachmentsJson != given.attachmentsJson

section RoundTrip

variable {isAlnum : ℕ → Bool} {attachment stored : PyJson} {records : List PyJson}

/-- A canonical record with the members that the checks demand. -/
inductive IsRecord (isAlnum : ℕ → Bool) : PyJson → Prop
  | mk {uploadId name mediaType : PyText} {size : ℕ} (hid : isUploadId isAlnum uploadId = true)
      (hname : isBounded 160 name = true) (htype : isBounded 128 mediaType = true)
      (hsize : size ≤ maxAttachmentSize) : IsRecord isAlnum (record uploadId name mediaType size)

theorem isRecord_of_canonicalRecord (h : canonicalRecord isAlnum attachment = .ok stored) :
    IsRecord isAlnum stored := by
  simp only [canonicalRecord, bind_eq_ok, raiseIf_eq_ok, orRaise_eq_ok, Option.filter_eq_some_iff,
    decide_eq_true_eq] at h
  obtain ⟨-, -, uploadId, ⟨-, hid⟩, name, ⟨-, hname⟩, mediaType, ⟨-, htype⟩, size, ⟨-, hsize⟩,
    hrecord⟩ := h
  cases hrecord
  exact .mk hid hname htype hsize

/-- The canonicaliser reads no order of members. -/
theorem canonicalRecord_sortMembers (h : PyJson.Plain attachment) :
    canonicalRecord isAlnum attachment.sortMembers = canonicalRecord isAlnum attachment := by
  simp only [canonicalRecord, PyJson.get_sortMembers h, PyJson.getD_sortMembers h,
    PyJson.text?_sortMembers, PyJson.count?_sortMembers, PyJson.isDict_sortMembers]

theorem plain_record (uploadId name mediaType : PyText) (size : ℕ) :
    (record uploadId name mediaType size).Plain := by
  refine .dict (by simp [PyText.of]) fun field hfield => ?_
  simp only [List.map_cons, List.map_nil, List.mem_cons, List.not_mem_nil, or_false] at hfield
  rcases hfield with rfl | rfl | rfl | rfl | rfl | rfl
  · exact .text _
  · exact .text _
  · exact .text _
  · exact .text _
  · exact .int _
  · exact .text _

theorem IsRecord.plain (h : IsRecord isAlnum stored) : stored.Plain := by
  cases h
  exact plain_record ..

/-- What is read of a canonical record, its members in any order. -/
theorem reads_record (uploadId name mediaType : PyText) (size : ℕ) :
    let stored := (record uploadId name mediaType size).sortMembers
    (stored.get "upload_id").text? = some uploadId ∧
      (stored.getD "filename" (stored.get "name")).text? = some name ∧
      (stored.get "media_type").text? = some mediaType ∧
      (stored.get "size").count? = some size := by
  have hplain := plain_record uploadId name mediaType size
  simp only [PyJson.get_sortMembers hplain, PyJson.getD_sortMembers hplain,
    PyJson.text?_sortMembers, PyJson.count?_sortMembers]
  simp [record, PyJson.object, PyJson.get, PyJson.getD, PyText.of, List.lookup_cons, PyJson.text?,
    PyJson.count?]

/-- A canonical record is its own canonical record. -/
theorem IsRecord.canonicalRecord_eq (h : IsRecord isAlnum stored) :
    canonicalRecord isAlnum stored = .ok stored := by
  rw [← canonicalRecord_sortMembers h.plain]
  cases h with
  | @mk uploadId name mediaType size hid hname htype hsize =>
    obtain ⟨hreadId, hreadName, hreadType, hreadSize⟩ := reads_record uploadId name mediaType size
    have hdict : (record uploadId name mediaType size).sortMembers.isDict = true :=
      PyJson.isDict_sortMembers _
    simp only [canonicalRecord, hreadId, hreadName, hreadType, hreadSize, hdict,
      Option.filter_some, hid, hname, htype, hsize, decide_true, if_true]
    rfl

variable {attachments : Option (List PyJson)}

theorem canonicalAttachmentRecords_eq_ok :
    canonicalAttachmentRecords isAlnum attachments = .ok records ↔
      (attachments.getD []).length ≤ maxAttachmentsPerMessage ∧
        (attachments.getD []).mapM (canonicalRecord isAlnum) = .ok records := by
  simp only [canonicalAttachmentRecords, bind_eq_ok, raiseIf_eq_ok, not_lt, exists_const]

/-- What the canonicaliser returns. -/
structure Canonical (isAlnum : ℕ → Bool) (records : List PyJson) : Prop where
  length_le : records.length ≤ maxAttachmentsPerMessage
  isRecord : ∀ r ∈ records, IsRecord isAlnum r

theorem canonical_of_records (h : canonicalAttachmentRecords isAlnum attachments = .ok records) :
    Canonical isAlnum records := by
  obtain ⟨hlength, hmap⟩ := canonicalAttachmentRecords_eq_ok.mp h
  refine ⟨(mapM_forall₂ hmap).length_eq ▸ hlength, fun r hr => ?_⟩
  obtain ⟨attachment, -, hrecord⟩ := (mem_of_mapM hmap).2 r hr
  exact isRecord_of_canonicalRecord hrecord

theorem Canonical.plain (h : Canonical isAlnum records) : (PyJson.list records).Plain :=
  .list fun r hr => (h.isRecord r hr).plain

theorem mapM_eq_ok {f : PyJson → Except AttachmentRaise PyJson} {g : PyJson → PyJson}
    (h : ∀ r ∈ records, f (g r) = .ok r) : (records.map g).mapM f = .ok records := by
  induction records with
  | nil => rfl
  | cons r records ih =>
    rw [List.map_cons, List.mapM_cons, h r List.mem_cons_self,
      ih fun s hs => h s (List.mem_cons_of_mem r hs)]
    rfl

/-- Canonical records are their own canonical records, decoded or not. -/
theorem Canonical.records_eq (h : Canonical isAlnum records) :
    canonicalAttachmentRecords isAlnum (some records) = .ok records ∧
      canonicalAttachmentRecords isAlnum (some (records.map PyJson.sortMembers)) = .ok records := by
  have hrecords := mapM_eq_ok (g := id) fun r hr => (h.isRecord r hr).canonicalRecord_eq
  have hsorted := mapM_eq_ok (g := PyJson.sortMembers) fun r hr =>
    (canonicalRecord_sortMembers (h.isRecord r hr).plain).trans
      (h.isRecord r hr).canonicalRecord_eq
  rw [List.map_id] at hrecords
  refine ⟨canonicalAttachmentRecords_eq_ok.mpr ⟨h.length_le, hrecords⟩,
    canonicalAttachmentRecords_eq_ok.mpr ⟨?_, hsorted⟩⟩
  rw [Option.getD_some, List.length_map]
  exact h.length_le

theorem Canonical.decode (h : Canonical isAlnum records) :
    decodeAttachments isAlnum (PyJson.list records).canonicalJson = .ok records := by
  have hloads := PyJson.loads_canonicalJson h.plain
  have hne : (PyJson.list records).canonicalJson ≠ [] := fun hnil => by
    simp [PyJson.canonicalJson, PyText.bracketed] at hnil
  rw [PyJson.sortMembers, PyJson.sortItems_eq_map] at hloads
  simp only [decodeAttachments, if_neg hne, hloads, PyJson.list?, Option.getD_some, h.records_eq.2]

/-- Canonical records of one encoding are the same. -/
theorem Canonical.eq_of_encoding {others : List PyJson} (h : Canonical isAlnum records)
    (hothers : Canonical isAlnum others)
    (heq : (PyJson.list records).canonicalJson = (PyJson.list others).canonicalJson) :
    records = others :=
  Except.ok.inj (h.decode.symm.trans (heq ▸ hothers.decode))

theorem attachmentJson_eq_ok {raw : PyText} : attachmentJson isAlnum attachments = .ok raw ↔
    ∃ records, canonicalAttachmentRecords isAlnum attachments = .ok records ∧
      (PyJson.list records).canonicalJson = raw := by
  simp only [attachmentJson, bind_eq_ok, pure_eq_ok]

end RoundTrip

/-- What is stored of accepted attachments is decoded to their canonical records and encodes these
again; canonical records are their own; and two accepted submissions that agree otherwise conflict
exactly when their canonical records differ. -/
theorem attachments_round_trip (isAlnum : ℕ → Bool) :
    (∀ attachments records, canonicalAttachmentRecords isAlnum attachments = .ok records →
      ∃ raw, attachmentJson isAlnum attachments = .ok raw ∧
        decodeAttachments isAlnum raw = .ok records ∧
        (decodeAttachments isAlnum raw).bind (fun decoded =>
          attachmentJson isAlnum (some decoded)) =
          .ok raw ∧
        canonicalAttachmentRecords isAlnum (some records) = .ok records) ∧
    ∀ attachments others records otherRecords,
      canonicalAttachmentRecords isAlnum attachments = .ok records →
      canonicalAttachmentRecords isAlnum others = .ok otherRecords →
      ∃ raw otherRaw, attachmentJson isAlnum attachments = .ok raw ∧
        attachmentJson isAlnum others = .ok otherRaw ∧
        ∀ conversationId content source,
          Submitted.conflicts ⟨conversationId, content, source, raw⟩
              ⟨conversationId, content, source, otherRaw⟩ = false ↔ records = otherRecords := by
  refine ⟨fun attachments records h => ?_, fun attachments others records otherRecords h h' => ?_⟩
  · have hcanonical := canonical_of_records h
    have hdecoded := hcanonical.decode
    refine ⟨_, attachmentJson_eq_ok.mpr ⟨records, h, rfl⟩, hdecoded, ?_, hcanonical.records_eq.1⟩
    rw [hdecoded]
    exact attachmentJson_eq_ok.mpr ⟨records, hcanonical.records_eq.1, rfl⟩
  · refine ⟨_, _, attachmentJson_eq_ok.mpr ⟨records, h, rfl⟩,
      attachmentJson_eq_ok.mpr ⟨otherRecords, h', rfl⟩, fun conversationId content source => ?_⟩
    simp only [Submitted.conflicts, bne_self_eq_false, Bool.false_or, bne_eq_false_iff_eq]
    constructor
    · exact (canonical_of_records h).eq_of_encoding (canonical_of_records h')
    · rintro rfl
      rfl

/-- Two files, one of them named with quotes. -/
def samplePair : List PyJson :=
  [.object [("upload_id", .str "upl_0123456789ab"), ("filename", .str "the \"plan\".pdf"),
      ("media_type", .str "application/pdf"), ("size", .int 2048), ("checksum", .null)],
    .object [("size", .int 0), ("media_type", .str "text/plain"), ("name", .str "notes\n.txt"),
      ("upload_id", .str "upl-ba9876543210")]]

/-- Two files are decoded to their canonical records. -/
theorem attachments_round_trip_pair :
    ∃ records raw, canonicalAttachmentRecords PyText.isAlnum (some samplePair) = .ok records ∧
      attachmentJson PyText.isAlnum (some samplePair) = .ok raw ∧
      decodeAttachments PyText.isAlnum raw = .ok records := by
  have haccepted : (canonicalAttachmentRecords PyText.isAlnum (some samplePair)).isOk = true := by
    decide +kernel
  cases hrecords : canonicalAttachmentRecords PyText.isAlnum (some samplePair) with
  | error raised => simp [hrecords, Except.isOk, Except.toBool] at haccepted
  | ok records =>
    obtain ⟨raw, hraw, hdecoded, -⟩ := (attachments_round_trip PyText.isAlnum).1 _ _ hrecords
    exact ⟨records, raw, rfl, hraw, hdecoded⟩

end StoredAttachments

end Magistrate
