import Magistrate.Core.Versions
import Magistrate.Frontend.Chat.MagiConversation
import Magistrate.Frontend.Chat.Wire
import Magistrate.Gateway.Chat.Revisions

/-!
# Convergence of the transcript

The client's rows are those of the highest revisions that it has seen, whatever
their order, unless a cancellation is seen after a failure, or two messages are
to be shown under one id.
-/

namespace Magistrate.Frontend

/-- The revision of a record, as a count. -/
def MagiMessageRecord.version (record : MagiMessageRecord) : ℕ := record.revision.toNat

/-- The highest seen revision of a message. -/
def latest (seen : List MagiMessageRecord) (id : String) : Option MagiMessageRecord :=
  highest MagiMessageRecord.id MagiMessageRecord.version seen id

/-- Two records of one message. -/
structure MagiMessageRecord.SameMessage (r s : MagiMessageRecord) : Prop where
  id : s.id = r.id
  conversationId : s.conversationId = r.conversationId
  turnId : s.turnId = r.turnId
  clientMessageId : s.clientMessageId = r.clientMessageId
  replyToMessageId : s.replyToMessageId = r.replyToMessageId
  role : s.role = r.role
  source : s.source = r.source
  sequenceIndex : s.sequenceIndex = r.sequenceIndex
  attachments : s.attachments = r.attachments
  createdAt : s.createdAt = r.createdAt

/-- Records that agree with each other as the versions of a conversation's messages do: what is
fixed of a message is the same in all of them, a revision is one record, only an open answer has a
later one, and turns and positions are not shared. -/
structure Versioned (V : MagiMessageRecord → Prop) : Prop where
  fixed : ∀ {r s}, V r → V s → r.id = s.id → r.SameMessage s
  counted : ∀ {r}, V r → r.revision = r.version
  same : ∀ {r s}, V r → V s → r.id = s.id → r.version = s.version → r = s
  wasOpen : ∀ {r s}, V r → V s → r.id = s.id → r.version < s.version →
    r.role = .assistant ∧ r.status.final = false
  turns : ∀ {r s}, V r → V s → r.role = .assistant → s.role = .assistant →
    r.turnId = s.turnId → r.id = s.id
  positions : ∀ {r s}, V r → V s → r.sequenceIndex = s.sequenceIndex → r.id = s.id
  named : ∀ {r}, V r → r.id ≠ "" ∧ r.turnId ≠ ""

/-- What the client can observe of a conversation over a run of the store: the versions of its
messages, as the client reads them. -/
def Observable (steps : List StoreStep) (conversationId : String) (record : MagiMessageRecord) :
    Prop :=
  ∃ m, StoredVersion steps conversationId m ∧
    normalizeMagiMessageRecord m.toPublic.json = some record

/-- A message that is stored after some steps can be observed, if the client can read it. -/
theorem observable_of_find? (steps : List StoreStep) (n : ℕ) (m : Magistrate.MagiMessage)
    (h : (run storeStep .initial (steps.take n)).messages.find? m.id = some m)
    (hreadable : m.toPublic.readable = true) :
    Observable steps m.conversationId m.toPublic.record :=
  ⟨m, ⟨_, List.take_prefix n steps, (Table.mem_of_find? h).1, rfl⟩, by
    rw [normalizeMagiMessageRecord_json, if_pos hreadable]⟩

/-- An id of a pattern with a start is not empty. -/
theorem ne_empty_of_boundedId {start value : String} {least most : ℕ} (hleast : 0 < least)
    (h : boundedId start least most value = true) : value ≠ "" := by
  rintro rfl
  simp only [boundedId, Bool.and_eq_true, decide_eq_true_eq] at h
  have hlength : "".length - start.length = 0 := by simp
  omega

theorem MagiMessageRecord.SameMessage.symm {r s : MagiMessageRecord} (h : r.SameMessage s) :
    s.SameMessage r where
  id := h.id.symm
  conversationId := h.conversationId.symm
  turnId := h.turnId.symm
  clientMessageId := h.clientMessageId.symm
  replyToMessageId := h.replyToMessageId.symm
  role := h.role.symm
  source := h.source.symm
  sequenceIndex := h.sequenceIndex.symm
  attachments := h.attachments.symm
  createdAt := h.createdAt.symm

/-- A version of a message is read as a record of the same message. -/
theorem sameMessage_of_revises {m m' : Magistrate.MagiMessage} (h : m.Revises m') :
    m.toPublic.record.SameMessage m'.toPublic.record where
  id := h.id
  conversationId := h.conversationId
  turnId := h.turnId
  clientMessageId := h.clientMessageId
  replyToMessageId := h.replyToMessageId
  role := h.role
  source := h.source
  sequenceIndex := congrArg Nat.cast h.sequenceIndex
  attachments := congrArg (List.map AttachmentRecord.attachment) h.attachments
  createdAt := h.createdAt

/-- An observed record is read off a stored version. -/
theorem Observable.read {steps : List StoreStep} {conversationId : String}
    {record : MagiMessageRecord} (h : Observable steps conversationId record) :
    ∃ m, StoredVersion steps conversationId m ∧ m.toPublic.record = record ∧
      m.toPublic.readable = true := by
  obtain ⟨m, hm, hread⟩ := h
  rw [normalizeMagiMessageRecord_json, Option.ite_none_right_eq_some] at hread
  exact ⟨m, hm, Option.some.inj hread.2, hread.1⟩

/-- What can be observed of a conversation agrees. -/
theorem Observable.versioned (steps : List StoreStep) (conversationId : String) :
    Versioned (Observable steps conversationId) where
  fixed hr hs hid := by
    obtain ⟨m, hm, rfl, -⟩ := hr.read
    obtain ⟨n, hn, rfl, -⟩ := hs.read
    rcases hm.revises hn hid with h | h
    · exact sameMessage_of_revises h
    · exact (sameMessage_of_revises h).symm
  counted hr := by
    obtain ⟨m, -, rfl, -⟩ := hr.read
    rfl
  same hr hs hid hversion := by
    obtain ⟨m, hm, rfl, -⟩ := hr.read
    obtain ⟨n, hn, rfl, -⟩ := hs.read
    have hrevision : m.revision = n.revision := hversion
    rcases hm.revises hn hid with h | h
    · rw [h.same hrevision.symm]
    · rw [h.same hrevision]
  wasOpen hr hs hid hlt := by
    obtain ⟨m, hm, rfl, -⟩ := hr.read
    obtain ⟨n, hn, rfl, -⟩ := hs.read
    rcases hm.revises hn hid with h | h
    · exact h.wasOpen hlt
    · exact absurd hlt (not_lt.mpr h.revision_le)
  turns hr hs hrole hrole' hturn := by
    obtain ⟨m, hm, rfl, -⟩ := hr.read
    obtain ⟨n, hn, rfl, -⟩ := hs.read
    obtain ⟨-, -, -, hconversation⟩ := id hm
    obtain ⟨-, -, -, hconversation'⟩ := id hn
    refine (hm.id_eq hn ?_).symm
    have hsame : n.conversationId = m.conversationId ∧ n.turnId = m.turnId ∧ n.role = m.role :=
      ⟨hconversation'.trans hconversation.symm, hturn.symm, hrole'.trans hrole.symm⟩
    simp [MagiMessage.collides, hsame]
  positions hr hs hposition := by
    obtain ⟨m, hm, rfl, -⟩ := hr.read
    obtain ⟨n, hn, rfl, -⟩ := hs.read
    obtain ⟨-, -, -, hconversation⟩ := id hm
    obtain ⟨-, -, -, hconversation'⟩ := id hn
    refine (hm.id_eq hn ?_).symm
    have hsame : n.conversationId = m.conversationId ∧ n.sequenceIndex = m.sequenceIndex :=
      ⟨hconversation'.trans hconversation.symm, (Int.ofNat.inj hposition).symm⟩
    simp [MagiMessage.collides, hsame]
  named hr := by
    obtain ⟨m, -, rfl, hreadable⟩ := hr.read
    simp only [PublicMessage.readable, Bool.and_eq_true, and_assoc] at hreadable
    exact ⟨ne_empty_of_boundedId (by decide) hreadable.1,
      ne_empty_of_boundedId (by decide) hreadable.2.2.1⟩

/-- No two seen messages are shown under one id. -/
def Apart (seen : List MagiMessageRecord) : Prop :=
  ∀ r ∈ seen, ∀ s ∈ seen, r.renderId = s.renderId → r.id = s.id

/-- A record that the client can take in after others: no other message was seen under its render
id, and it is no cancellation of a message that was last seen failed. -/
structure Admissible (seen : List MagiMessageRecord) (record : MagiMessageRecord) : Prop where
  apart : ∀ other ∈ seen, other.renderId = record.renderId → other.id = record.id
  follows : ∀ old, latest seen record.id = some old →
    ¬(old.status = .failed ∧ record.status = .cancelled)

/-- Records that the client can take in one after the other. -/
def Smooth (seen records : List MagiMessageRecord) : Prop :=
  RunMeets (fun seen record => seen ++ [record]) Admissible seen records

/-- A row that shows a record. -/
def MagiMessage.Shows (row : MagiMessage) (record : MagiMessageRecord) : Prop :=
  ∃ pairStatus, row = record.row pairStatus

section Merging

variable {V : MagiMessageRecord → Prop} {seen : List MagiMessageRecord}
  {old record : MagiMessageRecord} {rows : Table MagiMessage.id} {serverKeys : ServerKeys}

theorem MagiMessageRecord.SameMessage.renderId {r s : MagiMessageRecord} (h : r.SameMessage s) :
    s.renderId = r.renderId := by
  simp only [MagiMessageRecord.renderId, h.role, h.clientMessageId, h.id]

/-- What becomes of a record where a row shows another record under its render id: it is stale if
its revision is lower, and else accepted if it is of the same message and can follow. -/
theorem disposition_row (hV : Versioned V) (hold : V old) (hrecord : V record)
    (pairStatus : MessageStatus) :
    reconciliationDisposition (some (old.row pairStatus)) record =
      if record.version < old.version then .stale
      else if old.id = record.id ∧ ¬(old.status = .failed ∧ record.status = .cancelled)
      then .accept else .conflict := by
  have hpending : (old.row pairStatus).localPending = false := by
    simp [MagiMessage.localPending, MagiMessageRecord.row]
  have hstale : (old.row pairStatus).revision.any (record.revision < ·) =
      decide (record.version < old.version) := by
    simp [MagiMessageRecord.row, hV.counted hold, hV.counted hrecord]
  simp only [reconciliationDisposition, hpending, hstale, Bool.false_eq_true, if_false,
    decide_eq_true_eq]
  by_cases hlt : record.version < old.version
  · rw [if_pos hlt, if_pos hlt]
  rw [if_neg hlt, if_neg hlt]
  by_cases hid : old.id = record.id
  · have hfixed := hV.fixed hold hrecord hid
    have hidentity : (old.row pairStatus).changesIdentity record = false := by
      simp [MagiMessage.changesIdentity, MagiMessageRecord.row, MagiMessageRecord.renderSource,
        hfixed.id, hfixed.renderId, hfixed.role, hfixed.conversationId, hfixed.clientMessageId,
        hfixed.replyToMessageId, hfixed.turnId, hfixed.sequenceIndex, hfixed.createdAt,
        hfixed.source, hfixed.attachments]
    rcases (not_lt.mp hlt).lt_or_eq with hnew | hsame
    · -- A later revision is one of an open answer.
      obtain ⟨hrole, hopen⟩ := hV.wasOpen hold hrecord hid hnew
      have hrevision : old.revision < record.revision := by
        rw [hV.counted hold, hV.counted hrecord]
        exact_mod_cast hnew
      have htext : (old.row pairStatus).changesText record = false := by
        have hassistant : record.role = .assistant := hfixed.role.trans hrole
        cases hstatus : old.status <;>
          simp [MessageStatus.final, hstatus] at hopen <;>
          simp [MagiMessage.changesText, MagiMessageRecord.row, hassistant, hrevision.ne, hstatus]
      have hchange : (old.row pairStatus).changesStatus record =
          decide (old.status = .failed ∧ record.status = .cancelled) := by
        cases hstatus : old.status <;>
          simp [MessageStatus.final, hstatus] at hopen <;>
          cases hnext : record.status <;>
          simp [MagiMessage.changesStatus, MagiMessageRecord.row, hrevision, hrevision.ne, hstatus,
            hnext, isMagiStatusTransitionAllowed]
      rw [hidentity, htext, hchange, Bool.false_or, Bool.false_or]
      by_cases hcancelled : old.status = .failed ∧ record.status = .cancelled
      · rw [if_pos (decide_eq_true hcancelled), if_neg fun h => h.2 hcancelled]
      · rw [if_neg (by simpa using hcancelled), if_pos ⟨hid, hcancelled⟩]
    · obtain rfl := hV.same hold hrecord hid hsame
      have htext : (old.row pairStatus).changesText old = false := by
        simp [MagiMessage.changesText, MagiMessageRecord.row]
      have hchange : (old.row pairStatus).changesStatus old = false := by
        simp [MagiMessage.changesStatus, MagiMessageRecord.row]
      have hstays : ¬(old.status = .failed ∧ old.status = .cancelled) := by
        rintro ⟨hfailed, hcancelled⟩
        rw [hfailed] at hcancelled
        cases hcancelled
      rw [hidentity, htext, hchange, if_neg (by simp), if_pos ⟨rfl, hstays⟩]
  · have hidentity : (old.row pairStatus).changesIdentity record = true := by
      simp [MagiMessage.changesIdentity, MagiMessageRecord.row, hid]
    rw [hidentity, Bool.true_or, Bool.true_or, if_pos rfl, if_neg fun h => hid h.1]

theorem forall_mem_concat (hseen : ∀ r ∈ seen, V r) (hrecord : V record) :
    ∀ r ∈ seen ++ [record], V r :=
  List.forall_mem_append.mpr ⟨hseen, List.forall_mem_singleton.mpr hrecord⟩

/-- The highest seen revision of a message, among records that agree. -/
theorem latest_eq_some_iff (hV : Versioned V) (hseen : ∀ r ∈ seen, V r) {id : String} :
    latest seen id = some record ↔
      record ∈ seen ∧ record.id = id ∧ ∀ s ∈ seen, s.id = id → s.version ≤ record.version :=
  highest_eq_some_iff fun r hr s hs => hV.same (hseen r hr) (hseen s hs)

/-- A record of another message leaves the highest seen revision of a message. -/
theorem latest_concat_ne {id : String} (h : record.id ≠ id) :
    latest (seen ++ [record]) id = latest seen id := by
  simp [latest, highest, List.filter_append, h]

/-- Every seen message has a highest seen revision. -/
theorem exists_latest (h : record ∈ seen) : ∃ r, latest seen r.id = some r ∧ r.id = record.id := by
  obtain ⟨r, hr⟩ := exists_highest MagiMessageRecord.id MagiMessageRecord.version h
  obtain ⟨-, hid, -⟩ := mem_of_highest hr
  exact ⟨r, hid ▸ hr, hid⟩

/-- The client's rows, by their render ids: one for each seen message, showing its highest seen
revision. -/
structure Holds (seen : List MagiMessageRecord) (rows : Table MagiMessage.id) : Prop where
  found : ∀ r, latest seen r.id = some r → ∃ row, rows.find? r.renderId = some row ∧ row.Shows r
  shown : ∀ row ∈ rows.rows, ∃ r, latest seen r.id = some r ∧ row.Shows r

/-- The server ids that are known are those of seen messages. -/
def Bound (seen : List MagiMessageRecord) (serverKeys : ServerKeys) : Prop :=
  ∀ key ∈ serverKeys.rows, ∃ r ∈ seen, r.id = key.1 ∧ r.renderId = key.2

theorem MagiMessage.Shows.id {row : MagiMessage} (h : row.Shows record) :
    row.id = record.renderId := by
  obtain ⟨pairStatus, rfl⟩ := h
  rfl

theorem MagiMessage.Shows.serverId {row : MagiMessage} (h : row.Shows record) :
    row.serverId = some record.id := by
  obtain ⟨pairStatus, rfl⟩ := h
  rfl

/-- Under a render id is the row of a seen message that has it, if there is one. -/
theorem Holds.find?_cases (h : Holds seen rows) (hV : Versioned V) (hseen : ∀ r ∈ seen, V r)
    (renderId : String) :
    (rows.find? renderId = none ∧ ∀ s ∈ seen, s.renderId ≠ renderId) ∨
      ∃ old pairStatus, latest seen old.id = some old ∧ old.renderId = renderId ∧
        rows.find? renderId = some (old.row pairStatus) := by
  cases hfind : rows.find? renderId with
  | none =>
    refine .inl ⟨rfl, fun s hs hrender => ?_⟩
    obtain ⟨r, hr, hid⟩ := exists_latest hs
    obtain ⟨row, hrow, -⟩ := h.found r hr
    have hsame := hV.fixed (hseen r (mem_of_highest hr).1) (hseen s hs) hid
    rw [← hsame.renderId, hrender, hfind] at hrow
    cases hrow
  | some row =>
    obtain ⟨hmem, hid⟩ := Table.mem_of_find? hfind
    obtain ⟨old, hold, pairStatus, rfl⟩ := h.shown row hmem
    exact .inr ⟨old, pairStatus, hold, hid, rfl⟩

/-- A record that the client can take in is no conflict, and the row of its message then shows the
highest revision seen, which is the record if it is accepted. -/
theorem Holds.merged (h : Holds seen rows) (hV : Versioned V) (hseen : ∀ r ∈ seen, V r)
    (hrecord : V record) (hadmissible : Admissible seen record) (pairStatus : MessageStatus) :
    ∃ r, latest (seen ++ [record]) record.id = some r ∧ r.id = record.id ∧
      (mergeRecord (rows.find? record.renderId) record pairStatus).Shows r ∧
      ((reconciliationDisposition (rows.find? record.renderId) record = .accept ∧ r = record ∧
          mergeRecord (rows.find? record.renderId) record pairStatus = record.row pairStatus) ∨
        reconciliationDisposition (rows.find? record.renderId) record = .stale ∧
          latest seen r.id = some r ∧ record.version < r.version ∧
          rows.find? record.renderId =
            some (mergeRecord (rows.find? record.renderId) record pairStatus)) := by
  have hall := forall_mem_concat hseen hrecord
  have hmem : record ∈ seen ++ [record] := by simp
  rcases h.find?_cases hV hseen record.renderId with ⟨hnone, hfree⟩ | ⟨old, st, hold, hrender, hrow⟩
  · have hnew : ∀ s ∈ seen, s.id ≠ record.id := fun s hs hid =>
      hfree s hs (hV.fixed (hseen s hs) hrecord hid).renderId.symm
    refine ⟨record, (latest_eq_some_iff hV hall).mpr ⟨hmem, rfl, fun s hs hid => ?_⟩, rfl, ?_⟩
    · rcases List.mem_append.mp hs with hs | hs
      · exact absurd hid (hnew s hs)
      · rw [List.mem_singleton.mp hs]
    · rw [hnone]
      exact ⟨⟨pairStatus, rfl⟩, .inl ⟨rfl, rfl, rfl⟩⟩
  · obtain ⟨hseenOld, -, hle⟩ := mem_of_highest hold
    have hid : old.id = record.id := hadmissible.apart old hseenOld hrender
    have hstays := hadmissible.follows old (hid ▸ hold)
    have hdisposition := disposition_row hV (hseen old hseenOld) hrecord st
    rw [hrow]
    by_cases hlt : record.version < old.version
    · rw [if_pos hlt] at hdisposition
      have hmerged : mergeRecord (some (old.row st)) record pairStatus = old.row st := by
        simp [mergeRecord, hdisposition]
      refine ⟨old, (latest_eq_some_iff hV hall).mpr
        ⟨List.mem_append_left _ hseenOld, hid, fun s hs hsid => ?_⟩, hid, ?_⟩
      · rcases List.mem_append.mp hs with hs | hs
        · exact hle s hs (hsid.trans hid.symm)
        · rw [List.mem_singleton.mp hs]
          exact hlt.le
      · rw [hmerged]
        exact ⟨⟨st, rfl⟩, .inr ⟨hdisposition, hold, hlt, rfl⟩⟩
    · rw [if_neg hlt, if_pos ⟨hid, hstays⟩] at hdisposition
      have hmerged : mergeRecord (some (old.row st)) record pairStatus = record.row pairStatus := by
        simp [mergeRecord, hdisposition]
      refine ⟨record, (latest_eq_some_iff hV hall).mpr ⟨hmem, rfl, fun s hs hsid => ?_⟩, rfl, ?_⟩
      · rcases List.mem_append.mp hs with hs | hs
        · exact (hle s hs (hsid.trans hid.symm)).trans (not_lt.mp hlt)
        · rw [List.mem_singleton.mp hs]
      · rw [hmerged]
        exact ⟨⟨pairStatus, rfl⟩, .inl ⟨hdisposition, rfl, rfl⟩⟩

/-- The rows with the row of a taken record show what is seen with it. -/
theorem Holds.put (h : Holds seen rows) (hV : Versioned V) (hseen : ∀ r ∈ seen, V r)
    (hrecord : V record) (hadmissible : Admissible seen record) (pairStatus : MessageStatus) :
    Holds (seen ++ [record])
      (rows.put (mergeRecord (rows.find? record.renderId) record pairStatus)) := by
  obtain ⟨r, hr, hid, hshows, -⟩ := h.merged hV hseen hrecord hadmissible pairStatus
  have hV' : V r := forall_mem_concat hseen hrecord r (mem_of_highest hr).1
  have hrender : r.renderId = record.renderId := (hV.fixed hrecord hV' hid.symm).renderId
  constructor
  · intro s hs
    by_cases hsid : record.id = s.id
    · obtain rfl : r = s := Option.some.inj (hr.symm.trans (hsid ▸ hs))
      exact ⟨_, by rw [Table.find?_put, if_pos hshows.id], hshows⟩
    · rw [latest_concat_ne hsid] at hs
      obtain ⟨row, hrow, hshown⟩ := h.found s hs
      refine ⟨row, ?_, hshown⟩
      rw [Table.find?_put, if_neg, hrow]
      intro hkey
      rw [hshows.id, hrender] at hkey
      exact hsid (hadmissible.apart s (mem_of_highest hs).1 hkey.symm).symm
  · intro row hrow
    rcases Table.mem_put.mp hrow with rfl | ⟨hrow, hkey⟩
    · exact ⟨r, hid.symm ▸ hr, hshows⟩
    · obtain ⟨s, hs, hshown⟩ := h.shown row hrow
      refine ⟨s, ?_, hshown⟩
      rw [latest_concat_ne, hs]
      intro hsid
      have hsame := hV.fixed hrecord (hseen s (mem_of_highest hs).1) hsid
      rw [hshown.id, hshows.id, hrender, hsame.renderId] at hkey
      exact hkey rfl

/-- A record of an agreeing message has no other render id. -/
theorem Bound.boundElsewhere_eq_none (h : Bound seen serverKeys) (hV : Versioned V)
    (hseen : ∀ r ∈ seen, V r) (hrecord : V record) : boundElsewhere serverKeys record = none := by
  cases hfind : serverKeys.find? record.id with
  | none => simp [boundElsewhere, hfind, given]
  | some key =>
    obtain ⟨hmem, hid⟩ := Table.mem_of_find? hfind
    obtain ⟨r, hr, hrid, hrender⟩ := h key hmem
    have hsame := hV.fixed (hseen r hr) hrecord (hrid.trans hid)
    have hkey : key.2 = record.renderId := hrender.symm.trans hsame.renderId.symm
    refine Option.filter_eq_none_iff.mpr fun renderId hgiven => ?_
    simp only [given, hfind, Option.map_some, Option.filter_eq_some_iff] at hgiven
    obtain rfl := Option.some.inj hgiven.1
    simp [hkey]

/-- A server id that is bound to the render id of its record. -/
theorem Bound.put (h : Bound seen serverKeys) :
    Bound (seen ++ [record]) (serverKeys.put (record.id, record.renderId)) := by
  intro key hkey
  rcases Table.mem_put.mp hkey with rfl | ⟨hkey, -⟩
  · exact ⟨record, by simp, rfl, rfl⟩
  · obtain ⟨r, hr, hid⟩ := h key hkey
    exact ⟨r, List.mem_append_left _ hr, hid⟩

/-- The conflict check goes on after a record that the client can take in. -/
theorem conflictFrom_cons {incoming : List MagiMessageRecord} (hV : Versioned V)
    (hseen : ∀ r ∈ seen, V r) (hrecord : V record) (h : Holds seen rows)
    (hbound : Bound seen serverKeys) (hadmissible : Admissible seen record) :
    conflictFrom rows serverKeys (record :: incoming) =
      conflictFrom (rows.put (mergeRecord (rows.find? record.renderId) record record.status))
        (serverKeys.put (record.id, record.renderId)) incoming := by
  obtain ⟨r, hr, hid, hshows, hcase⟩ := h.merged hV hseen hrecord hadmissible record.status
  have hdisposition : reconciliationDisposition (rows.find? record.renderId) record ≠
      .conflict := by
    rcases hcase with ⟨haccept, -⟩ | ⟨hstale, -⟩
    · rw [haccept]
      decide
    · rw [hstale]
      decide
  have hserver : (mergeRecord (rows.find? record.renderId) record record.status).serverId =
      some record.id := hid ▸ hshows.serverId
  simp only [conflictFrom, hbound.boundElsewhere_eq_none hV hseen hrecord, Option.isSome_none,
    Bool.false_eq_true, if_false, if_neg hdisposition, if_pos hserver]

/-- The conflict check finds none among records that the client can take in. -/
theorem conflictFrom_eq_false {incoming : List MagiMessageRecord} (hV : Versioned V)
    (hseen : ∀ r ∈ seen, V r) (hincoming : ∀ r ∈ incoming, V r) (h : Holds seen rows)
    (hbound : Bound seen serverKeys) (hsmooth : Smooth seen incoming) :
    conflictFrom rows serverKeys incoming = false := by
  induction incoming generalizing seen rows serverKeys with
  | nil => rfl
  | cons record incoming ih =>
    obtain ⟨hadmissible, hrest⟩ := hsmooth
    have hrecord := hincoming record List.mem_cons_self
    rw [conflictFrom_cons hV hseen hrecord h hbound hadmissible]
    exact ih (forall_mem_concat hseen hrecord)
      (fun r hr => hincoming r (List.mem_cons_of_mem _ hr))
      (h.put hV hseen hrecord hadmissible record.status) hbound.put hrest

/-- A reconciliation that takes in a record writes its row and binds its server id. -/
theorem reconcileRecord_eq {s : Reconciliation} (hV : Versioned V) (hseen : ∀ r ∈ seen, V r)
    (hrecord : V record) (h : Holds seen s.rows) (hbound : Bound seen s.serverKeys)
    (hadmissible : Admissible seen record) :
    reconcileRecord s record =
      { rows := s.rows.put (mergeRecord (s.rows.find? record.renderId) record
          (((s.pairStatuses.find? record.turnId).map Prod.snd).getD record.status))
        delivered := record.renderId :: s.delivered
        serverKeys := s.serverKeys.put (record.id, record.renderId)
        pairStatuses :=
          if record.role = .assistant ∧
            reconciliationDisposition (s.rows.find? record.renderId) record = .accept
          then s.pairStatuses.put (record.turnId, record.status) else s.pairStatuses } := by
  obtain ⟨r, hr, hid, hshows, -⟩ := h.merged hV hseen hrecord hadmissible
    (((s.pairStatuses.find? record.turnId).map Prod.snd).getD record.status)
  have hserver := hid ▸ hshows.serverId
  simp only [reconcileRecord, hbound.boundElsewhere_eq_none hV hseen hrecord, hserver, if_true,
    true_and, decide_eq_true_eq]

end Merging

/-- The status of the seen answer of a turn. -/
def answerStatus (seen : List MagiMessageRecord) (turnId : String) : Option MessageStatus :=
  (seen.find? fun r => r.role = .assistant ∧ r.turnId = turnId).bind fun r =>
    (latest seen r.id).map (·.status)

/-- The row that shows a record when others are seen. -/
def MagiMessageRecord.shownRow (seen : List MagiMessageRecord) (record : MagiMessageRecord) :
    MagiMessage :=
  record.row ((answerStatus seen record.turnId).getD record.status)

/-- The transcript of what is seen: a row for the highest revision of each message, in the order of
the conversation. -/
structure IsTranscript (seen : List MagiMessageRecord) (rows : List MagiMessage) : Prop where
  mem : ∀ row, row ∈ rows ↔ ∃ r, latest seen r.id = some r ∧ row = r.shownRow seen
  sorted : rows.Pairwise fun a b => a.sequenceIndex.getD 0 < b.sequenceIndex.getD 0

/-- A reconciliation that has taken in what is seen. -/
structure Tracks (seen : List MagiMessageRecord) (s : Reconciliation) : Prop where
  holds : Holds seen s.rows
  bound : Bound seen s.serverKeys
  statuses : ∀ turnId, (s.pairStatuses.find? turnId).map Prod.snd = answerStatus seen turnId
  unanswered : ∀ row ∈ s.rows.rows, ∀ r, latest seen r.id = some r → row.Shows r →
    answerStatus seen r.turnId = none → row = r.row r.status

section Tracking

variable {V : MagiMessageRecord → Prop} {seen : List MagiMessageRecord}
  {record : MagiMessageRecord} {s : Reconciliation}

/-- A turn's status is that of the highest seen revision of its answer. -/
theorem answerStatus_eq_some_iff (hV : Versioned V) (hseen : ∀ r ∈ seen, V r) {turnId : String}
    {status : MessageStatus} : answerStatus seen turnId = some status ↔
      ∃ r, latest seen r.id = some r ∧ r.role = .assistant ∧ r.turnId = turnId ∧
        r.status = status := by
  simp only [answerStatus, Option.bind_eq_some_iff, Option.map_eq_some_iff]
  constructor
  · rintro ⟨a, hfind, r, hr, rfl⟩
    obtain ⟨hmem, hid, -⟩ := mem_of_highest hr
    have ha := List.find?_some hfind
    simp only [Bool.decide_and, Bool.and_eq_true, decide_eq_true_eq] at ha
    have hsame := hV.fixed (hseen a (List.mem_of_find?_eq_some hfind)) (hseen r hmem) hid.symm
    exact ⟨r, hid ▸ hr, hsame.role.trans ha.1, hsame.turnId.trans ha.2, rfl⟩
  · rintro ⟨r, hr, hrole, rfl, rfl⟩
    obtain ⟨hmem, -⟩ := mem_of_highest hr
    cases hfind : seen.find? fun a => a.role = .assistant ∧ a.turnId = r.turnId with
    | none =>
      have hnone := List.find?_eq_none.mp hfind r hmem
      simp [hrole] at hnone
    | some a =>
      have ha := List.find?_some hfind
      simp only [Bool.decide_and, Bool.and_eq_true, decide_eq_true_eq] at ha
      have hid := hV.turns (hseen a (List.mem_of_find?_eq_some hfind)) (hseen r hmem) ha.1 hrole
        ha.2
      exact ⟨a, rfl, r, hid ▸ hr, rfl⟩

/-- A record changes the status of its own turn, if it is the answer's highest revision. -/
theorem answerStatus_concat (hV : Versioned V) (hseen : ∀ r ∈ seen, V r) (hrecord : V record)
    (turnId : String) : answerStatus (seen ++ [record]) turnId =
      if record.role = .assistant ∧ record.turnId = turnId ∧
        latest (seen ++ [record]) record.id = some record
      then some record.status else answerStatus seen turnId := by
  have hall := forall_mem_concat hseen hrecord
  split
  · next h => exact (answerStatus_eq_some_iff hV hall).mpr ⟨record, h.2.2, h.1, h.2.1, rfl⟩
  · next h =>
    refine Option.ext fun status => ?_
    rw [answerStatus_eq_some_iff hV hall, answerStatus_eq_some_iff hV hseen]
    constructor
    · rintro ⟨r, hr, hrole, hturn, hstatus⟩
      refine ⟨r, ?_, hrole, hturn, hstatus⟩
      obtain ⟨hmem, -, hle⟩ := mem_of_highest hr
      rcases List.mem_append.mp hmem with hmem | hmem
      · exact (latest_eq_some_iff hV hseen).mpr
          ⟨hmem, rfl, fun s hs hid => hle s (List.mem_append_left _ hs) hid⟩
      · obtain rfl := List.mem_singleton.mp hmem
        exact absurd ⟨hrole, hturn, hr⟩ h
    · rintro ⟨r, hr, hrole, hturn, hstatus⟩
      refine ⟨r, ?_, hrole, hturn, hstatus⟩
      obtain ⟨hmem, -, hle⟩ := mem_of_highest hr
      by_cases hid : record.id = r.id
      · -- The record is of this answer, so it is not its highest revision.
        have hsame := hV.fixed (hseen r hmem) hrecord hid.symm
        obtain ⟨best, hbest, hbestId⟩ := exists_latest (List.mem_append_right seen
          (List.mem_singleton_self record))
        obtain ⟨hbestMem, -, hbestLe⟩ := mem_of_highest hbest
        rcases List.mem_append.mp hbestMem with hold | hnew
        · have hone : best = r := hV.same (hseen best hold) (hseen r hmem) (hbestId.trans hid)
            ((hle best hold (hbestId.trans hid)).antisymm
              (hbestLe r (List.mem_append_left _ hmem) (hid.symm.trans hbestId.symm)))
          exact hone ▸ hbest
        · obtain rfl := List.mem_singleton.mp hnew
          exact absurd ⟨hsame.role.trans hrole, hsame.turnId.trans hturn, hbest⟩ h
      · rw [latest_concat_ne hid, hr]

/-- A turn that is unanswered was so before. -/
theorem answerStatus_eq_none_of_concat (hV : Versioned V) (hseen : ∀ r ∈ seen, V r)
    (hrecord : V record) {turnId : String}
    (h : answerStatus (seen ++ [record]) turnId = none) : answerStatus seen turnId = none := by
  rw [answerStatus_concat hV hseen hrecord] at h
  split at h
  · cases h
  · exact h

/-- A record that the client can take in is taken in. -/
theorem Tracks.step (h : Tracks seen s) (hV : Versioned V) (hseen : ∀ r ∈ seen, V r)
    (hrecord : V record) (hadmissible : Admissible seen record) :
    Tracks (seen ++ [record]) (reconcileRecord s record) := by
  have hstatus := h.statuses record.turnId
  obtain ⟨r, hr, hid, hshows, hcase⟩ := h.holds.merged hV hseen hrecord hadmissible
    (((s.pairStatuses.find? record.turnId).map Prod.snd).getD record.status)
  have hholds := h.holds.put hV hseen hrecord hadmissible
    (((s.pairStatuses.find? record.turnId).map Prod.snd).getD record.status)
  rw [hstatus] at hshows hcase hholds
  have hserver : (mergeRecord (s.rows.find? record.renderId) record
      ((answerStatus seen record.turnId).getD record.status)).serverId = some record.id :=
    hid ▸ hshows.serverId
  rw [reconcileRecord_eq hV hseen hrecord h.holds h.bound hadmissible, hstatus]
  refine ⟨hholds, h.bound.put, fun turnId => ?_, fun row hrow r' hr' hshown hnone => ?_⟩
  · rw [answerStatus_concat hV hseen hrecord]
    rcases hcase with ⟨haccept, rfl, -⟩ | ⟨hstale, -, hlt, -⟩
    · by_cases hrole : r.role = .assistant
      · rw [if_pos ⟨hrole, haccept⟩, Table.find?_put]
        by_cases hturn : r.turnId = turnId
        · rw [if_pos hturn, if_pos ⟨hrole, hturn, hr⟩, Option.map_some]
        · rw [if_neg hturn, if_neg fun hc => hturn hc.2.1, h.statuses]
      · rw [if_neg fun hc => hrole hc.1, if_neg fun hc => hrole hc.1, h.statuses]
    · have hother : ¬latest (seen ++ [record]) record.id = some record := by
        intro hsame
        obtain rfl : r = record := Option.some.inj (hr.symm.trans hsame)
        exact absurd hlt (lt_irrefl _)
      have hstays : ¬(record.role = .assistant ∧
          reconciliationDisposition (s.rows.find? record.renderId) record = .accept) := by
        rw [hstale]
        rintro ⟨-, haccept⟩
        cases haccept
      rw [if_neg hstays, if_neg fun hc => hother hc.2.2, h.statuses]
  · have hnone' := answerStatus_eq_none_of_concat hV hseen hrecord hnone
    rcases Table.mem_put.mp hrow with rfl | ⟨hrow, hkey⟩
    · have hsame : r'.id = record.id :=
        Option.some.inj (hshown.serverId.symm.trans hserver)
      obtain rfl : r = r' := Option.some.inj (hr.symm.trans (hsame ▸ hr'))
      rcases hcase with ⟨-, rfl, hmerged⟩ | ⟨-, hold, -, hfind⟩
      · rw [hmerged, hnone', Option.getD_none]
      · exact h.unanswered _ (Table.mem_of_find? hfind).1 r hold hshown hnone'
    · have hother : record.id ≠ r'.id := by
        intro hsame
        have hV' : V r' := forall_mem_concat hseen hrecord r' (mem_of_highest hr').1
        have hV'' : V r := forall_mem_concat hseen hrecord r (mem_of_highest hr).1
        rw [hshown.id, hshows.id, (hV.fixed hV'' hV' (hid.trans hsame)).renderId] at hkey
        exact hkey rfl
      rw [latest_concat_ne hother] at hr'
      exact h.unanswered row hrow r' hr' hshown hnone'

/-- Records that the client can take in one after the other are taken in. -/
theorem Tracks.foldl {incoming : List MagiMessageRecord} (h : Tracks seen s) (hV : Versioned V)
    (hseen : ∀ r ∈ seen, V r) (hincoming : ∀ r ∈ incoming, V r) (hsmooth : Smooth seen incoming) :
    Tracks (seen ++ incoming) (incoming.foldl reconcileRecord s) := by
  induction incoming generalizing seen s with
  | nil => rwa [List.append_nil]
  | cons record incoming ih =>
    obtain ⟨hadmissible, hrest⟩ := hsmooth
    have hrecord := hincoming record List.mem_cons_self
    rw [List.append_cons]
    exact ih (h.step hV hseen hrecord hadmissible) (forall_mem_concat hseen hrecord)
      (fun r hr => hincoming r (List.mem_cons_of_mem _ hr)) hrest

/-- The row of a message is projected onto the status of its turn. -/
theorem Tracks.projectStatus_row (h : Tracks seen s) (hV : Versioned V) (hseen : ∀ r ∈ seen, V r)
    {row : MagiMessage} (hrow : row ∈ s.rows.rows) (hrecord : latest seen record.id = some record)
    (hshows : row.Shows record) :
    projectStatus s.pairStatuses row = record.shownRow seen := by
  have hnamed := (hV.named (hseen record (mem_of_highest hrecord).1)).2
  have hunanswered := h.unanswered row hrow record hrecord hshows
  obtain ⟨pairStatus, rfl⟩ := hshows
  have hstatus := h.statuses record.turnId
  cases hrole : record.role with
  | assistant =>
    simp [projectStatus, MagiMessageRecord.shownRow, MagiMessageRecord.row, hrole]
  | user =>
    have hgiven : given (record.row pairStatus).turnId = some record.turnId := by
      simp [given, MagiMessageRecord.row, hnamed]
    have huser : (record.row pairStatus).role = .user := hrole
    rw [projectStatus, if_pos huser, hgiven, Option.bind_some]
    cases hfind : s.pairStatuses.find? record.turnId with
    | none =>
      rw [hfind, Option.map_none] at hstatus
      rw [hunanswered hstatus.symm, MagiMessageRecord.shownRow, ← hstatus, Option.getD_none]
    | some pair =>
      rw [hfind, Option.map_some] at hstatus
      simp [MagiMessageRecord.shownRow, MagiMessageRecord.row, hrole, ← hstatus]

/-- The end of a reconciliation that has taken in what is seen is its transcript. -/
theorem Tracks.transcript (h : Tracks seen s) (hV : Versioned V) (hseen : ∀ r ∈ seen, V r) :
    IsTranscript seen (s.transcript false) := by
  let projected := s.rows.updateWhere (fun _ => true) (projectStatus s.pairStatuses)
    (projectStatus_id s.pairStatuses)
  have hmem : ∀ row, row ∈ projected.rows ↔
      ∃ r, latest seen r.id = some r ∧ row = r.shownRow seen := by
    intro row
    refine Table.mem_updateWhere.trans ⟨?_, ?_⟩
    · rintro ⟨old, hold, rfl⟩
      obtain ⟨r, hr, hshows⟩ := h.holds.shown old hold
      exact ⟨r, hr, by rw [if_pos rfl, h.projectStatus_row hV hseen hold hr hshows]⟩
    · rintro ⟨r, hr, rfl⟩
      obtain ⟨old, hfind, hshows⟩ := h.holds.found r hr
      have hold := (Table.mem_of_find? hfind).1
      exact ⟨old, hold, by rw [if_pos rfl, h.projectStatus_row hV hseen hold hr hshows]⟩
  have hrecorded : ∀ row ∈ projected.rows, row.sequenceIndex.isSome = true := by
    intro row hrow
    obtain ⟨r, -, rfl⟩ := (hmem row).mp hrow
    rfl
  have htranscript : s.transcript false = projected.rows.mergeSort
      fun l r => l.sequenceIndex.getD 0 ≤ r.sequenceIndex.getD 0 := by
    have hall : projected.rows.filter (fun row => row.sequenceIndex.isSome &&
        (!false || s.delivered.contains row.id || row.fromCache)) = projected.rows :=
      List.filter_eq_self.mpr fun row hrow => by simp [hrecorded row hrow]
    have hnone : projected.rows.filter (fun row => row.sequenceIndex.isNone &&
        decide (row.role = .user ∧ (row.delivery = some .sending ∨ row.delivery = some .failed))) =
          [] :=
      List.filter_eq_nil_iff.mpr fun row hrow => by
        have hsome := hrecorded row hrow
        cases hposition : row.sequenceIndex <;> simp [hposition] at hsome ⊢
    simp only [Reconciliation.transcript]
    rw [hall, hnone, List.append_nil]
  refine ⟨fun row => ?_, ?_⟩
  · rw [htranscript, List.mem_mergeSort, hmem]
  · -- Rows at one position are of one message, so there is one row at each position.
    rw [htranscript]
    let atOrBefore : MagiMessage → MagiMessage → Bool := fun l r =>
      l.sequenceIndex.getD 0 ≤ r.sequenceIndex.getD 0
    have hsorted : (projected.rows.mergeSort atOrBefore).Pairwise (atOrBefore · ·) :=
      List.pairwise_mergeSort
        (fun a b c hab hbc => decide_eq_true
          ((of_decide_eq_true hab).trans (of_decide_eq_true hbc)))
        (fun a b => by simpa [atOrBefore] using le_total _ _) projected.rows
    have hnodup : (projected.rows.mergeSort atOrBefore).Nodup :=
      (List.mergeSort_perm _ _).nodup_iff.mpr (List.Nodup.of_map _ projected.unique)
    refine (hsorted.and hnodup).imp_of_mem ?_
    rintro a b ha hb ⟨hle, hne⟩
    refine lt_of_le_of_ne (of_decide_eq_true hle) fun hsame => hne ?_
    rw [List.mem_mergeSort] at ha hb
    obtain ⟨r, hr, rfl⟩ := (hmem a).mp ha
    obtain ⟨r', hr', rfl⟩ := (hmem b).mp hb
    have hid := hV.positions (hseen r (mem_of_highest hr).1) (hseen r' (mem_of_highest hr').1) hsame
    rw [← hid] at hr'
    rw [Option.some.inj (hr.symm.trans hr')]

/-- Nothing is seen in an empty transcript. -/
theorem IsTranscript.nil : IsTranscript [] [] where
  mem row := by simp [latest, highest]
  sorted := .nil

/-- A reconciliation that starts from a transcript has taken in what is seen. -/
theorem IsTranscript.start {rows : List MagiMessage} (h : IsTranscript seen rows)
    (hV : Versioned V) (hseen : ∀ r ∈ seen, V r) (hapart : Apart seen) :
    Tracks seen (.start rows) := by
  -- Rows of one render id are of one message.
  have hone : ∀ r r', latest seen r.id = some r → latest seen r'.id = some r' →
      r.renderId = r'.renderId → r = r' := by
    intro r r' hr hr' hrender
    have hid := hapart r (mem_of_highest hr).1 r' (mem_of_highest hr').1 hrender
    rw [← hid] at hr'
    exact Option.some.inj (hr.symm.trans hr')
  have hrows : ∀ row, row ∈ (Reconciliation.start rows).rows.rows →
      ∃ r, latest seen r.id = some r ∧ row = r.shownRow seen := by
    intro row hrow
    have hfind := Table.find?_of_mem hrow
    simp only [Reconciliation.start, Table.find?_ofList] at hfind
    exact (h.mem row).mp (List.mem_reverse.mp (List.mem_of_find?_eq_some hfind))
  -- An answer's row tells the status of its turn.
  have hpairs : ∀ r, latest seen r.id = some r →
      answeredTurn (r.shownRow seen) =
        if r.role = .assistant then some (r.turnId, r.status) else none := by
    intro r hr
    have hnamed := (hV.named (hseen r (mem_of_highest hr).1)).2
    simp [answeredTurn, MagiMessageRecord.shownRow, MagiMessageRecord.row, given,
      Option.filter_some, hnamed]
  refine ⟨⟨fun r hr => ⟨r.shownRow seen, ?_, _, rfl⟩, fun row hrow => ?_⟩, fun key hkey => ?_,
    fun turnId => ?_, fun row hrow r hr hshows hnone => ?_⟩
  · have hrow := (h.mem _).mpr ⟨r, hr, rfl⟩
    simp only [Reconciliation.start, Table.find?_ofList]
    cases hfind : rows.reverse.find? fun row => row.id = r.renderId with
    | none =>
      have hfree : ¬(r.shownRow seen).id = r.renderId := by
        simpa using List.find?_eq_none.mp hfind _ (List.mem_reverse.mpr hrow)
      exact absurd rfl hfree
    | some row =>
      obtain ⟨r', hr', rfl⟩ :=
        (h.mem row).mp (List.mem_reverse.mp (List.mem_of_find?_eq_some hfind))
      have hid : (r'.shownRow seen).id = r.renderId := by simpa using List.find?_some hfind
      rw [hone r' r hr' hr hid]
  · obtain ⟨r, hr, rfl⟩ := hrows row hrow
    exact ⟨r, hr, _, rfl⟩
  · have hfind := Table.find?_of_mem hkey
    simp only [Reconciliation.start, serverKeysOf, Table.find?_ofList] at hfind
    have hmem := List.mem_reverse.mp (List.mem_of_find?_eq_some hfind)
    obtain ⟨row, hrow, hgiven⟩ := List.mem_filterMap.mp hmem
    obtain ⟨r, hr, rfl⟩ := (h.mem row).mp hrow
    obtain ⟨serverId, hserver, rfl⟩ := Option.map_eq_some_iff.mp hgiven
    obtain rfl := Option.some.inj (Option.filter_eq_some_iff.mp hserver).1
    exact ⟨r, (mem_of_highest hr).1, rfl, rfl⟩
  · refine Option.ext fun status => ?_
    rw [answerStatus_eq_some_iff hV hseen]
    simp only [Reconciliation.start, pairStatusesOf, Table.find?_ofList, Option.map_eq_some_iff]
    constructor
    · rintro ⟨pair, hfind, rfl⟩
      obtain ⟨row, hrow, hpair⟩ :=
        List.mem_filterMap.mp (List.mem_reverse.mp (List.mem_of_find?_eq_some hfind))
      obtain ⟨r, hr, rfl⟩ := (h.mem row).mp hrow
      rw [hpairs r hr, Option.ite_none_right_eq_some] at hpair
      obtain ⟨hrole, rfl⟩ : r.role = .assistant ∧ (r.turnId, r.status) = pair :=
        ⟨hpair.1, Option.some.inj hpair.2⟩
      exact ⟨r, hr, hrole, by simpa using List.find?_some hfind, rfl⟩
    · rintro ⟨r, hr, hrole, rfl, rfl⟩
      have hmem := List.mem_filterMap.mpr
        ⟨_, (h.mem _).mpr ⟨r, hr, rfl⟩, (hpairs r hr).trans (if_pos hrole)⟩
      cases hfind : (rows.filterMap answeredTurn).reverse.find? fun pair => pair.1 = r.turnId with
      | none =>
        have hfree := List.find?_eq_none.mp hfind _ (List.mem_reverse.mpr hmem)
        simp at hfree
      | some pair =>
        obtain ⟨row, hrow, hpair⟩ :=
          List.mem_filterMap.mp (List.mem_reverse.mp (List.mem_of_find?_eq_some hfind))
        obtain ⟨r', hr', rfl⟩ := (h.mem row).mp hrow
        rw [hpairs r' hr', Option.ite_none_right_eq_some] at hpair
        obtain ⟨hrole', rfl⟩ : r'.role = .assistant ∧ (r'.turnId, r'.status) = pair :=
          ⟨hpair.1, Option.some.inj hpair.2⟩
        have hturn : r'.turnId = r.turnId := by simpa using List.find?_some hfind
        have hid := hV.turns (hseen r' (mem_of_highest hr').1) (hseen r (mem_of_highest hr).1)
          hrole' hrole hturn
        rw [hid] at hr'
        obtain rfl := Option.some.inj (hr'.symm.trans hr)
        exact ⟨_, rfl, rfl⟩
  · obtain ⟨r', hr', rfl⟩ := hrows row hrow
    obtain rfl : r' = r := by
      have hid : r'.id = r.id := Option.some.inj hshows.serverId
      rw [hid] at hr'
      exact Option.some.inj (hr'.symm.trans hr)
    rw [MagiMessageRecord.shownRow, hnone, Option.getD_none]

end Tracking

/-- The rows show the highest seen revision of each message, once, and nothing else. -/
structure Retains (seen : List MagiMessageRecord) (rows : List MagiMessage) : Prop where
  kept : ∀ r, latest seen r.id = some r → ∃ row ∈ rows, row.Shows r
  shown : ∀ row ∈ rows, ∃ r, latest seen r.id = some r ∧ row.Shows r
  once : (rows.map (·.serverId)).Nodup

/-- Every user row has the progress of its turn's answer. -/
def FollowsAnswers (rows : List MagiMessage) : Prop :=
  ∀ user ∈ rows, user.role = .user → ∀ answer ∈ rows, answer.role = .assistant →
    answer.turnId = user.turnId → ∀ status, answer.serverStatus = some status →
      user.progress = some (progressFor status)

/-- A batch that is observed when some records have been seen is taken in: it is no conflict, the
highest revisions are retained, taking it in again changes nothing, and user rows follow their
answers. -/
structure Converges (seen : List MagiMessageRecord) (rows : List MagiMessage)
    (batch : List MagiMessageRecord) : Prop where
  agreed : hasMagiReconciliationConflict rows batch = false
  retained : Retains (seen ++ batch) (reconcileMagiMessages rows batch false)
  again : reconcileMagiMessages (reconcileMagiMessages rows batch false) batch false =
    reconcileMagiMessages rows batch false
  progress : FollowsAnswers (reconcileMagiMessages rows batch false)

section Converging

variable {V : MagiMessageRecord → Prop} {seen seen' batch : List MagiMessageRecord}
  {rows rows' : List MagiMessage}

/-- What is seen has one transcript, in whatever order and however often it is seen. -/
theorem IsTranscript.eq (h : IsTranscript seen rows) (h' : IsTranscript seen' rows')
    (hV : Versioned V) (hseen : ∀ r ∈ seen, V r) (hseen' : ∀ r ∈ seen', V r)
    (hsame : ∀ r, r ∈ seen ↔ r ∈ seen') : rows = rows' := by
  have hlatest : ∀ id r, latest seen id = some r ↔ latest seen' id = some r := by
    intro id r
    rw [latest_eq_some_iff hV hseen, latest_eq_some_iff hV hseen', hsame]
    simp only [hsame]
  have hanswers : ∀ turnId, answerStatus seen turnId = answerStatus seen' turnId := by
    intro turnId
    refine Option.ext fun status => ?_
    rw [answerStatus_eq_some_iff hV hseen, answerStatus_eq_some_iff hV hseen']
    simp only [hlatest]
  have hirrefl : Std.Irrefl fun a b : MagiMessage =>
      a.sequenceIndex.getD 0 < b.sequenceIndex.getD 0 := ⟨fun _ => lt_irrefl _⟩
  have hantisymm : Std.Antisymm fun a b : MagiMessage =>
      a.sequenceIndex.getD 0 < b.sequenceIndex.getD 0 :=
    ⟨fun _ _ hab hba => absurd hba (lt_asymm hab)⟩
  refine h.sorted.eq_of_mem_iff h'.sorted fun row => ?_
  rw [h.mem, h'.mem]
  simp only [hlatest, MagiMessageRecord.shownRow, hanswers]

/-- A transcript retains what is seen. -/
theorem IsTranscript.retains (h : IsTranscript seen rows) : Retains seen rows where
  kept r hr := ⟨r.shownRow seen, (h.mem _).mpr ⟨r, hr, rfl⟩, _, rfl⟩
  shown row hrow := by
    obtain ⟨r, hr, rfl⟩ := (h.mem row).mp hrow
    exact ⟨r, hr, _, rfl⟩
  once := by
    rw [List.Nodup, List.pairwise_map]
    refine h.sorted.imp_of_mem fun {a b} ha hb hlt hsame => ?_
    obtain ⟨r, hr, rfl⟩ := (h.mem a).mp ha
    obtain ⟨r', hr', rfl⟩ := (h.mem b).mp hb
    have hid : r.id = r'.id := Option.some.inj hsame
    rw [← hid] at hr'
    obtain rfl := Option.some.inj (hr.symm.trans hr')
    exact absurd hlt (lt_irrefl _)

/-- In a transcript, user rows follow their answers. -/
theorem IsTranscript.followsAnswers (h : IsTranscript seen rows) (hV : Versioned V)
    (hseen : ∀ r ∈ seen, V r) : FollowsAnswers rows := by
  intro user huser huserRole answer hanswer hanswerRole hturn status hstatus
  obtain ⟨r, hr, rfl⟩ := (h.mem user).mp huser
  obtain ⟨a, ha, rfl⟩ := (h.mem answer).mp hanswer
  have hrole : r.role = .user := huserRole
  have hturns : a.turnId = r.turnId := Option.some.inj hturn
  obtain rfl : a.status = status := Option.some.inj hstatus
  have hanswered := (answerStatus_eq_some_iff hV hseen).mpr ⟨a, ha, hanswerRole, hturns, rfl⟩
  simp [MagiMessageRecord.shownRow, MagiMessageRecord.row, hrole, hanswered]

/-- What the client can take in keeps render ids apart. -/
theorem Smooth.apart (h : Smooth seen batch) (hapart : Apart seen) : Apart (seen ++ batch) := by
  induction batch generalizing seen with
  | nil => rwa [List.append_nil]
  | cons record batch ih =>
    rw [List.append_cons]
    refine ih h.2 fun r hr s hs hrender => ?_
    rcases List.mem_append.mp hr with hold | hnew <;>
      rcases List.mem_append.mp hs with hold' | hnew'
    · exact hapart r hold s hold' hrender
    · obtain rfl := List.mem_singleton.mp hnew'
      exact h.1.apart r hold hrender
    · obtain rfl := List.mem_singleton.mp hnew
      exact (h.1.apart s hold' hrender.symm).symm
    · rw [List.mem_singleton.mp hnew, List.mem_singleton.mp hnew']

/-- What is seen already can be taken in again. -/
theorem smooth_again (hV : Versioned V) (hseen : ∀ r ∈ seen, V r) (hapart : Apart seen)
    (hbatch : ∀ r ∈ batch, r ∈ seen) : Smooth seen batch := by
  induction batch generalizing seen with
  | nil => trivial
  | cons record batch ih =>
    have hmem := hbatch record List.mem_cons_self
    have hadmissible : Admissible seen record := by
      refine ⟨fun other hother => hapart other hother record hmem, ?_⟩
      rintro old hold ⟨hfailed, hcancelled⟩
      obtain ⟨hmemOld, hid, hle⟩ := mem_of_highest hold
      rcases (hle record hmem rfl).lt_or_eq with hlt | hversion
      · -- A cancelled revision has no later one.
        obtain ⟨-, hopen⟩ := hV.wasOpen (hseen record hmem) (hseen old hmemOld) hid.symm hlt
        rw [hcancelled] at hopen
        cases hopen
      · obtain rfl := hV.same (hseen record hmem) (hseen old hmemOld) hid.symm hversion
        rw [hfailed] at hcancelled
        cases hcancelled
    have hone : Smooth seen [record] := ⟨hadmissible, trivial⟩
    refine ⟨hadmissible, ih (forall_mem_concat hseen (hseen record hmem)) (hone.apart hapart)
      fun r hr => List.mem_append_left _ (hbatch r (List.mem_cons_of_mem _ hr))⟩

/-- A batch that the client can take in leads to the transcript of what is then seen. -/
theorem IsTranscript.reconcile (h : IsTranscript seen rows) (hV : Versioned V)
    (hseen : ∀ r ∈ seen, V r) (hbatch : ∀ r ∈ batch, V r) (hapart : Apart seen)
    (hsmooth : Smooth seen batch) :
    IsTranscript (seen ++ batch) (reconcileMagiMessages rows batch false) :=
  ((h.start hV hseen hapart).foldl hV hseen hbatch hsmooth).transcript hV
    (List.forall_mem_append.mpr ⟨hseen, hbatch⟩)

/-- A batch that the client can take in converges. -/
theorem IsTranscript.converges (h : IsTranscript seen rows) (hV : Versioned V)
    (hseen : ∀ r ∈ seen, V r) (hbatch : ∀ r ∈ batch, V r) (hapart : Apart seen)
    (hsmooth : Smooth seen batch) : Converges seen rows batch := by
  have hall : ∀ r ∈ seen ++ batch, V r := List.forall_mem_append.mpr ⟨hseen, hbatch⟩
  have hstart := h.start hV hseen hapart
  have hafter := h.reconcile hV hseen hbatch hapart hsmooth
  have hagain := hafter.reconcile hV hall hbatch (hsmooth.apart hapart)
    (smooth_again hV hall (hsmooth.apart hapart) fun r hr => List.mem_append_right _ hr)
  refine ⟨conflictFrom_eq_false hV hseen hbatch hstart.holds hstart.bound hsmooth, hafter.retains,
    hagain.eq hafter hV (List.forall_mem_append.mpr ⟨hall, hbatch⟩) hall fun r => ?_,
    hafter.followsAnswers hV hall⟩
  simp only [List.mem_append, or_assoc, or_self]

/-- A message has its row under a render id, among rows that show observed records. -/
def Occupied (V : MagiMessageRecord → Prop) (id renderId : String) (rows : Table MagiMessage.id) :
    Prop :=
  (∀ row ∈ rows.rows, ∃ r, V r ∧ row.Shows r) ∧
    ∃ r pairStatus, V r ∧ r.id = id ∧ r.renderId = renderId ∧
      rows.find? renderId = some (r.row pairStatus)

/-- A row leaves its render id to no other message. -/
theorem Occupied.reconcileRecord {id renderId : String} {s : Reconciliation}
    {record : MagiMessageRecord} (h : Occupied V id renderId s.rows) (hV : Versioned V)
    (hrecord : V record) : Occupied V id renderId (reconcileRecord s record).rows := by
  unfold Frontend.reconcileRecord
  split
  · exact h
  · obtain ⟨hall, r, st, hr, hid, hrender, hfind⟩ := h
    refine ⟨fun row hrow => ?_, ?_⟩
    · rcases Table.mem_put.mp hrow with rfl | ⟨hrow, -⟩
      · cases hprevious : s.rows.find? record.renderId with
        | none => exact ⟨record, hrecord, _, rfl⟩
        | some previous =>
          simp only [mergeRecord]
          split
          · exact hall previous (Table.mem_of_find? hprevious).1
          · exact ⟨record, hrecord, _, rfl⟩
      · exact hall row hrow
    · by_cases hsame : record.renderId = renderId
      · -- The row yields to a record of its own message only.
        subst hsame
        simp only [Table.find?_put, hfind, mergeRecord]
        by_cases haccept : reconciliationDisposition (some (r.row st)) record = .accept
        · have hone : r.id = record.id := by
            rw [disposition_row hV hr hrecord] at haccept
            split at haccept
            · cases haccept
            · split at haccept
              · next hsame => exact hsame.1
              · cases haccept
          refine ⟨record, ((s.pairStatuses.find? record.turnId).map Prod.snd).getD record.status,
            hrecord, hone.symm.trans hid, rfl, ?_⟩
          rw [if_neg (not_not.mpr haccept), if_pos]
          rfl
        · refine ⟨r, st, hr, hid, hrender, ?_⟩
          rw [if_pos haccept, if_pos]
          exact hrender
      · refine ⟨r, st, hr, hid, hrender, ?_⟩
        rw [Table.find?_put, if_neg, hfind]
        intro hkey
        refine hsame (Eq.trans ?_ hkey)
        cases hprevious : s.rows.find? record.renderId with
        | none => rfl
        | some previous =>
          simp only [mergeRecord]
          split
          · exact (Table.mem_of_find? hprevious).2.symm
          · rfl

/-- Under a render id that another message has, no row of a message is found. -/
theorem Occupied.serverId_ne {id renderId : String} {table : Table MagiMessage.id}
    {record : MagiMessageRecord} (h : Occupied V id renderId table) (hV : Versioned V)
    (hrecord : V record) (hrender : record.renderId = renderId) (hne : id ≠ record.id) :
    ∀ row ∈ table.rows, row.serverId ≠ some record.id := by
  obtain ⟨hall, r, st, hr, hid, -, hfind⟩ := h
  intro row hrow hserver
  obtain ⟨r', hr', hshows⟩ := hall row hrow
  have hone : r'.id = record.id := Option.some.inj (hshows.serverId.symm.trans hserver)
  have hkey : row.id = renderId :=
    hshows.id.trans ((hV.fixed hr' hrecord hone).renderId.symm.trans hrender)
  have hsame := hkey ▸ Table.find?_of_mem hrow
  rw [hfind] at hsame
  rw [← Option.some.inj hsame] at hserver
  exact hne (hid.symm.trans (Option.some.inj hserver))

/-- Where the conflict check finds none and every record is retained, the client could take them
in. -/
theorem smooth_of_taken {table : Table MagiMessage.id} {serverKeys : ServerKeys}
    {s : Reconciliation} (hV : Versioned V) (hseen : ∀ r ∈ seen, V r) (hbatch : ∀ r ∈ batch, V r)
    (h : Holds seen table) (hbound : Bound seen serverKeys) (hs : Holds seen s.rows)
    (hsbound : Bound seen s.serverKeys) (hagreed : conflictFrom table serverKeys batch = false)
    (hkept : ∀ r ∈ batch,
      ∃ row ∈ (batch.foldl reconcileRecord s).rows.rows, row.serverId = some r.id) :
    Smooth seen batch := by
  induction batch generalizing seen table serverKeys s with
  | nil => trivial
  | cons record batch ih =>
    have hrecord := hbatch record List.mem_cons_self
    have hrest : ∀ r ∈ batch, V r := fun r hr => hbatch r (List.mem_cons_of_mem _ hr)
    have hnoconflict :
        reconciliationDisposition (table.find? record.renderId) record ≠ .conflict := by
      intro hconflict
      simp only [conflictFrom, hbound.boundElsewhere_eq_none hV hseen hrecord, Option.isSome_none,
        Bool.false_eq_true, if_false, if_pos hconflict, Bool.true_eq_false] at hagreed
    have hadmissible : Admissible seen record := by
      constructor
      · intro other hother hrender
        by_contra hne
        obtain ⟨old, hold, hid⟩ := exists_latest hother
        have hmem := (mem_of_highest hold).1
        have holdRender : old.renderId = record.renderId :=
          (hV.fixed (hseen other hother) (hseen old hmem) hid.symm).renderId.trans hrender
        -- The record is stale, so the other message keeps the render id to the end.
        obtain ⟨row, hrow, st, rfl⟩ := hs.found old hold
        have hoccupied : Occupied V old.id record.renderId s.rows :=
          ⟨fun row hrow => (hs.shown row hrow).imp fun r hr =>
            ⟨hseen r (mem_of_highest hr.1).1, hr.2⟩,
            old, st, hseen old hmem, rfl, holdRender, holdRender ▸ hrow⟩
        have hend : Occupied V old.id record.renderId
            ((record :: batch).foldl reconcileRecord s).rows := by
          refine List.foldlRecOn (motive := fun s : Reconciliation =>
            Occupied V old.id record.renderId s.rows) _ _
            hoccupied fun s hs r hr => ?_
          exact hs.reconcileRecord hV (hbatch r hr)
        obtain ⟨row, hrow, hserver⟩ := hkept record List.mem_cons_self
        exact hend.serverId_ne hV hrecord rfl (fun hsame => hne (hid.symm.trans hsame)) row hrow
          hserver
      · rintro old hold ⟨hfailed, hcancelled⟩
        obtain ⟨hmem, hid, -⟩ := mem_of_highest hold
        obtain ⟨row, hrow, st, rfl⟩ := h.found old (hid.symm ▸ hold)
        rw [← (hV.fixed (hseen old hmem) hrecord hid).renderId] at hrow
        rw [hrow, disposition_row hV (hseen old hmem) hrecord] at hnoconflict
        have hlast : ¬record.version < old.version := by
          intro hlt
          obtain ⟨-, hopen⟩ := hV.wasOpen hrecord (hseen old hmem) hid.symm hlt
          rw [hcancelled] at hopen
          cases hopen
        rw [if_neg hlast, if_neg fun hc => hc.2 ⟨hfailed, hcancelled⟩] at hnoconflict
        exact hnoconflict rfl
    refine ⟨hadmissible, ?_⟩
    have hstep := reconcileRecord_eq hV hseen hrecord hs hsbound hadmissible
    refine ih (forall_mem_concat hseen hrecord) hrest
      (h.put hV hseen hrecord hadmissible record.status)
      hbound.put ?_ ?_ ?_ fun r hr => hkept r (List.mem_cons_of_mem _ hr)
    · rw [hstep]
      exact hs.put hV hseen hrecord hadmissible _
    · rw [hstep]
      exact hsbound.put
    · rw [← conflictFrom_cons hV hseen hrecord h hbound hadmissible]
      exact hagreed

/-- The rows of a transcript are of messages that have a row. -/
theorem serverId_of_transcript {s : Reconciliation} {authoritative : Bool} {row : MagiMessage}
    (h : row ∈ s.transcript authoritative) : ∃ old ∈ s.rows.rows, old.serverId = row.serverId := by
  have hmem : row ∈ (s.rows.updateWhere (fun _ => true) (projectStatus s.pairStatuses)
      (projectStatus_id s.pairStatuses)).rows := by
    rcases List.mem_append.mp h with h | h
    · exact (List.mem_filter.mp (List.mem_mergeSort.mp h)).1
    · exact (List.mem_filter.mp h).1
  obtain ⟨old, hold, rfl⟩ := Table.mem_updateWhere.mp hmem
  refine ⟨old, hold, ?_⟩
  rw [if_pos rfl]
  unfold projectStatus
  split <;> rfl

/-- A batch that converges is one that the client can take in. -/
theorem IsTranscript.smooth (h : IsTranscript seen rows) (hV : Versioned V)
    (hseen : ∀ r ∈ seen, V r) (hbatch : ∀ r ∈ batch, V r) (hapart : Apart seen)
    (hconverges : Converges seen rows batch) : Smooth seen batch := by
  have hstart := h.start hV hseen hapart
  refine smooth_of_taken hV hseen hbatch hstart.holds hstart.bound hstart.holds hstart.bound
    hconverges.agreed fun r hr => ?_
  obtain ⟨best, hbest, hid⟩ := exists_latest (List.mem_append_right seen hr)
  obtain ⟨row, hrow, hshows⟩ := hconverges.retained.kept best hbest
  obtain ⟨old, hold, hserver⟩ := serverId_of_transcript hrow
  exact ⟨old, hold, by rw [hserver, hshows.serverId, hid]⟩

/-- Batches converge one after the other exactly when their records can be taken in one after the
other. -/
theorem IsTranscript.smooth_flatten_iff (h : IsTranscript seen rows) (hV : Versioned V)
    (hseen : ∀ r ∈ seen, V r) (hapart : Apart seen) {batches : List (List MagiMessageRecord)}
    (hbatches : ∀ batch ∈ batches, ∀ r ∈ batch, V r) :
    Smooth seen batches.flatten ↔ ∀ before batch after, batches = before ++ batch :: after →
      Converges (seen ++ before.flatten)
        (run (fun rows batch => reconcileMagiMessages rows batch false) rows before) batch := by
  induction batches generalizing seen rows with
  | nil => exact iff_of_true trivial fun before batch after hsplit => by simp at hsplit
  | cons first batches ih =>
    have hfirst := hbatches first List.mem_cons_self
    have hrest : ∀ batch ∈ batches, ∀ r ∈ batch, V r :=
      fun batch hbatch => hbatches batch (List.mem_cons_of_mem _ hbatch)
    have hsplit : Smooth seen (first :: batches).flatten ↔
        Smooth seen first ∧ Smooth (seen ++ first) batches.flatten := by
      have hrun : ∀ (seen records : List MagiMessageRecord),
          run (fun seen record => seen ++ [record]) seen records = seen ++ records := by
        intro seen records
        induction records generalizing seen with
        | nil => simp
        | cons record records ih => rw [run_cons, ih, List.append_assoc, List.singleton_append]
      rw [List.flatten_cons, Smooth, runMeets_append, hrun]
      rfl
    rw [hsplit]
    constructor
    · rintro ⟨hsmooth, hlater⟩ before batch after hbatches
      cases before with
      | nil =>
        obtain ⟨rfl, rfl⟩ := List.cons.inj hbatches
        rw [List.flatten_nil, List.append_nil]
        exact h.converges hV hseen hfirst hapart hsmooth
      | cons b before =>
        obtain ⟨rfl, hlist⟩ := List.cons.inj hbatches
        have hafter := h.reconcile hV hseen hfirst hapart hsmooth
        rw [List.flatten_cons, ← List.append_assoc]
        exact (ih hafter (List.forall_mem_append.mpr ⟨hseen, hfirst⟩) (hsmooth.apart hapart)
          hrest).mp hlater before batch after hlist
    · intro hall
      have hconverges := hall [] first batches rfl
      rw [List.flatten_nil, List.append_nil] at hconverges
      have hsmooth := h.smooth hV hseen hfirst hapart hconverges
      refine ⟨hsmooth, (ih (h.reconcile hV hseen hfirst hapart hsmooth)
        (List.forall_mem_append.mpr ⟨hseen, hfirst⟩) (hsmooth.apart hapart) hrest).mpr ?_⟩
      rintro before batch after rfl
      have hlater := hall (first :: before) batch after rfl
      rwa [List.flatten_cons, ← List.append_assoc] at hlater

end Converging

/-- The client's chat converges to the server's. Whatever versions of a conversation's messages it
observes over a run of the store, batch by batch, in any order, with any of them left out or
repeated: at every batch there is no conflict, the rows show the highest observed revision of each
message, applying the batch again changes nothing and user rows follow their answers, exactly when
no cancelled revision arrives after a failed one as the highest seen, and no message under the
render id of another one. -/
theorem chat_client_converges (steps : List StoreStep) (conversationId : String)
    (batches : List (List MagiMessageRecord))
    (observed : ∀ batch ∈ batches, ∀ record ∈ batch, Observable steps conversationId record) :
    Smooth [] batches.flatten ↔ ∀ before batch after, batches = before ++ batch :: after →
      Converges before.flatten
        (run (fun rows batch => reconcileMagiMessages rows batch false) [] before) batch := by
  have hiff := IsTranscript.nil.smooth_flatten_iff (Observable.versioned steps conversationId)
    (List.forall_mem_nil _) (fun r hr => absurd hr (List.not_mem_nil)) observed
  simpa only [List.nil_append] using hiff

/-- A submission whose answer fails, is attempted again, and is cancelled. -/
def cancelledAgain : List StoreStep :=
  let fresh : FreshIds :=
    { conversationId := "mgc_default", turnId := "mgt_first", userMessageId := "mgm_question"
      assistantMessageId := "mgm_answer" }
  [.write (.prepareSubmission "ada" "client-0001" "hello" none "text" (.ok []) false fresh
      1000000000000),
    .write (.failSubmission "ada" "mgm_answer" 1 "timeout" 0 1000000000001),
    .write (.prepareSubmission "ada" "client-0001" "hello" none "text" (.ok []) true fresh
      1000000000002),
    .write (.cancelSubmission "ada" "client-0001" 1000000000003)]

/-- A version of the answer to the submission. -/
def answerVersion (status : MessageStatus) (revision attemptCount : ℕ) (errorCode : Option String)
    (updatedAt : ℤ) : Magistrate.MagiMessage where
  id := "mgm_answer"
  conversationId := "mgc_default"
  ownerUserId := "ada"
  turnId := "mgt_first"
  role := .assistant
  content := ""
  status := status
  source := "magi-native"
  clientMessageId := none
  replyToMessageId := some "mgm_question"
  attachments := []
  sequenceIndex := 1
  revision := revision
  attemptCount := attemptCount
  errorCode := errorCode
  createdAt := 1000000000000
  updatedAt := updatedAt

/-- The client can observe the failed answer. -/
theorem observable_failed : Observable cancelledAgain "mgc_default"
    (answerVersion .failed 2 1 (some "timeout") 1000000000001).toPublic.record :=
  observable_of_find? cancelledAgain 2 (answerVersion .failed 2 1 (some "timeout") 1000000000001)
    (by decide) (by decide)

/-- The client can observe the cancelled answer. -/
theorem observable_cancelled : Observable cancelledAgain "mgc_default"
    (answerVersion .cancelled 4 2 none 1000000000003).toPublic.record :=
  observable_of_find? cancelledAgain 4 (answerVersion .cancelled 4 2 none 1000000000003)
    (by decide) (by decide)

/-- Where the next attempt of a failed answer is cancelled before the client has seen it pending,
the client sees a conflict. -/
theorem cancelled_after_failed_conflicts :
    (∀ record ∈ [(answerVersion .failed 2 1 (some "timeout") 1000000000001).toPublic.record,
        (answerVersion .cancelled 4 2 none 1000000000003).toPublic.record],
      Observable cancelledAgain "mgc_default" record) ∧
    hasMagiReconciliationConflict (reconcileMagiMessages []
      [(answerVersion .failed 2 1 (some "timeout") 1000000000001).toPublic.record] false)
      [(answerVersion .cancelled 4 2 none 1000000000003).toPublic.record] = true := by
  refine ⟨fun record hrecord => ?_, by decide +kernel⟩
  rcases List.mem_cons.mp hrecord with rfl | hrecord
  · exact observable_failed
  · exact List.mem_singleton.mp hrecord ▸ observable_cancelled

instance (seen : List MagiMessageRecord) (record : MagiMessageRecord) :
    Decidable (Admissible seen record) :=
  decidable_of_iff
    ((∀ other ∈ seen, other.renderId = record.renderId → other.id = record.id) ∧
      (latest seen record.id).all (fun old =>
        !decide (old.status = .failed ∧ record.status = .cancelled)) = true)
    ⟨fun h => ⟨h.1, fun old hold hboth => by simp [hold, hboth] at h⟩, fun h => ⟨h.apart, by
      cases hold : latest seen record.id with
      | none => rfl
      | some old => simpa [imp_iff_not_or] using h.follows old hold⟩⟩

/-- The versions of the answer in three batches, the last of which repeats the failed one. -/
def answerBatches : List (List MagiMessageRecord) :=
  let failed := (answerVersion .failed 2 1 (some "timeout") 1000000000001).toPublic.record
  [[(answerVersion .pending 1 1 none 1000000000000).toPublic.record, failed],
    [(answerVersion .pending 3 2 none 1000000000002).toPublic.record],
    [(answerVersion .cancelled 4 2 none 1000000000003).toPublic.record, failed]]

/-- The client can observe each version of the answer. -/
theorem observable_answer :
    ∀ record ∈ answerBatches.flatten, Observable cancelledAgain "mgc_default" record := by
  simp only [answerBatches, List.flatten_cons, List.flatten_nil, List.forall_mem_append,
    List.forall_mem_cons]
  have hfirst := observable_of_find? cancelledAgain 1
    (answerVersion .pending 1 1 none 1000000000000) (by decide) (by decide)
  have hagain := observable_of_find? cancelledAgain 3
    (answerVersion .pending 3 2 none 1000000000002) (by decide) (by decide)
  exact ⟨⟨hfirst, observable_failed, List.forall_mem_nil _⟩, ⟨hagain, List.forall_mem_nil _⟩,
    ⟨observable_cancelled, observable_failed, List.forall_mem_nil _⟩, List.forall_mem_nil _⟩

/-- The client converges at every batch, and shows the cancelled answer after the last one. -/
theorem failed_answer_converges :
    (run (fun rows batch => reconcileMagiMessages rows batch false) [] answerBatches).map
        (fun row => (row.serverStatus, row.revision)) = [(some .cancelled, some 4)] ∧
      ∀ before batch after, answerBatches = before ++ batch :: after →
        Converges before.flatten
          (run (fun rows batch => reconcileMagiMessages rows batch false) [] before) batch := by
  refine ⟨by decide +kernel, (chat_client_converges cancelledAgain "mgc_default" answerBatches
    fun batch hbatch record hrecord => ?_).mp ?_⟩
  · exact observable_answer record (List.mem_flatten.mpr ⟨batch, hbatch, hrecord⟩)
  · unfold Smooth
    decide +kernel

end Magistrate.Frontend
