import Magistrate.Core.Ranking
import Magistrate.Gateway.Chat.Messages

/-!
# Numbered message changes

Every writer of the chat store numbers each new revision of a message once, in
the transaction that writes it. So the changes of a conversation are numbered
without gaps, and a message has one change for each of its revisions.
-/

namespace Magistrate

open MagiChatStore

/-- The numbers of a conversation's changes, in the order they were written. -/
def Chat.sequences (chat : Chat) (conversationId : String) : List ℕ :=
  (chat.changes.rows.filter fun c => c.conversationId = conversationId).map (·.changeSequence)

/-- The revisions of a message that were numbered, in the order they were written. -/
def Chat.revisions (chat : Chat) (messageId : String) : List ℕ :=
  (chat.changes.rows.filter fun c => c.messageId = messageId).map (·.messageRevision)

/-- The changes of each conversation are 1 to n, every message has one change for each revision
from 1 to its own, and every change is of a message of its conversation. -/
structure Numbered (chat : Chat) : Prop where
  sequences : ∀ id, ∃ n, chat.sequences id = List.range' 1 n
  revisions : ∀ m ∈ chat.messages.rows, chat.revisions m.id = List.range' 1 m.revision
  known : ∀ c ∈ chat.changes.rows, ∃ m ∈ chat.messages.rows,
    m.id = c.messageId ∧ m.conversationId = c.conversationId

/-- One write of a chat transaction, as far as messages and their changes are concerned. -/
inductive ChatWrite : Chat → Chat → Prop where
  | other {chat chat' : Chat} (messages : chat'.messages = chat.messages)
      (changes : chat'.changes = chat.changes) : ChatWrite chat chat'
  | create {chat chat' : Chat} (m : MagiMessage) (now : ℤ)
      (free : chat.messages.find? m.id = none) (revision : m.revision = 1)
      (messages : chat'.messages = chat.messages.insertOrIgnore m)
      (changes : chat'.changes =
        chat.changes.insertOrIgnore (chat.nextChange m.conversationId m.id 1 now)) :
      ChatWrite chat chat'
  | revise {chat chat' : Chat} (m m' : MagiMessage) (now : ℤ) (stored : m ∈ chat.messages.rows)
      (id : m'.id = m.id) (conversation : m'.conversationId = m.conversationId)
      (revision : m'.revision = m.revision + 1)
      (message : chat'.messages.find? m.id = some m')
      (others : ∀ id ≠ m.id, chat'.messages.find? id = chat.messages.find? id)
      (changes : chat'.changes = chat.changes.insertOrIgnore
        (chat.nextChange m.conversationId m.id (m.revision + 1) now)) : ChatWrite chat chat'

/-- The writes of a chat transaction. -/
abbrev ChatWrites : Chat → Chat → Prop := Relation.ReflTransGen ChatWrite

namespace Numbered

variable {chat chat' : Chat}

theorem initial : Numbered .initial where
  sequences _ := ⟨0, rfl⟩
  revisions _ hm := by simp [Chat.initial] at hm
  known _ hc := by simp [Chat.initial] at hc

/-- The last change of a conversation has the number of its changes. -/
theorem latestChange_eq (h : Numbered chat) (id : String) :
    chat.sequences id = List.range' 1 (chat.latestChange id) := by
  obtain ⟨n, hn⟩ := h.sequences id
  have hlatest : chat.latestChange id = n := by
    have hfold : chat.latestChange id = (chat.sequences id).foldr max 0 := rfl
    rw [hfold, hn, foldr_max_range']
  rw [hn, hlatest]

/-- A change is numbered up to its conversation's last one. -/
theorem le_latestChange (h : Numbered chat) {c : MessageChange} (hc : c ∈ chat.changes.rows) :
    1 ≤ c.changeSequence ∧ c.changeSequence ≤ chat.latestChange c.conversationId := by
  have hmem : c.changeSequence ∈ chat.sequences c.conversationId :=
    List.mem_map_of_mem (List.mem_filter.mpr ⟨hc, decide_eq_true rfl⟩)
  rw [h.latestChange_eq, List.mem_range'_1] at hmem
  omega

/-- The next change's number is free. -/
theorem nextChange_free (h : Numbered chat) (conversationId messageId : String) (revision : ℕ)
    (now : ℤ) : chat.changes.find? (chat.nextChange conversationId messageId revision now).key =
      none := by
  rw [Table.find?_eq_none_iff]
  intro c hc hkey
  simp only [MessageChange.key, Chat.nextChange, Prod.mk.injEq] at hkey
  have hle := (h.le_latestChange hc).2
  rw [hkey.1, hkey.2] at hle
  omega

/-- A numbered change is the last one of its conversation and of its message. -/
theorem rows_append (h : Numbered chat) {conversationId messageId : String} {revision : ℕ}
    {now : ℤ} (changes : chat'.changes =
      chat.changes.insertOrIgnore (chat.nextChange conversationId messageId revision now)) :
    chat'.changes.rows = chat.changes.rows ++
      [chat.nextChange conversationId messageId revision now] := by
  rw [changes, Table.rows_insertOrIgnore (h.nextChange_free conversationId messageId revision now)]

/-- A numbered change continues the numbers of its conversation. -/
theorem sequences_append (h : Numbered chat) {conversationId messageId : String} {revision : ℕ}
    {now : ℤ} (changes : chat'.changes =
      chat.changes.insertOrIgnore (chat.nextChange conversationId messageId revision now))
    (id : String) : ∃ n, chat'.sequences id = List.range' 1 n := by
  have hrows := h.rows_append changes
  have hbefore := h.latestChange_eq id
  simp only [Chat.sequences] at hbefore ⊢
  rw [hrows, List.filter_append, List.map_append, hbefore]
  by_cases hid : conversationId = id
  · refine ⟨chat.latestChange id + 1, ?_⟩
    rw [List.range'_1_concat]
    simp [Chat.nextChange, hid, Nat.add_comm]
  · exact ⟨chat.latestChange id, by simp [Chat.nextChange, hid]⟩

/-- A numbered change continues the revisions of its message. -/
theorem revisions_append (h : Numbered chat) {conversationId messageId : String} {revision : ℕ}
    {now : ℤ} (changes : chat'.changes =
      chat.changes.insertOrIgnore (chat.nextChange conversationId messageId revision now))
    (id : String) : chat'.revisions id =
      chat.revisions id ++ if messageId = id then [revision] else [] := by
  simp only [Chat.revisions]
  rw [h.rows_append changes, List.filter_append, List.map_append]
  by_cases hid : messageId = id <;> simp [Chat.nextChange, hid]

/-- Every write keeps changes numbered. -/
theorem write (h : Numbered chat) (hwrite : ChatWrite chat chat') : Numbered chat' := by
  cases hwrite with
  | other messages changes =>
    refine ⟨fun id => ?_, fun m hm => ?_, ?_⟩
    · simpa only [Chat.sequences, changes] using h.sequences id
    · simpa only [Chat.revisions, changes] using h.revisions m (messages ▸ hm)
    · rw [changes, messages]
      exact h.known
  | create m now free revision messages changes =>
    have hnone : chat.revisions m.id = [] := by
      rw [Chat.revisions, List.map_eq_nil_iff, List.filter_eq_nil_iff]
      intro c hc
      obtain ⟨r, hr, hid, -⟩ := h.known c hc
      have hne := Table.find?_eq_none_iff.mp free r hr
      simp only [decide_eq_true_eq]
      exact fun he => hne (hid.trans he)
    refine ⟨h.sequences_append changes, fun r hr => ?_, fun c hc => ?_⟩
    · rw [h.revisions_append changes]
      rcases Table.mem_insertOrIgnore (messages ▸ hr) with hr | ⟨-, rfl⟩
      · have hne := Table.find?_eq_none_iff.mp free r hr
        rw [if_neg (Ne.symm hne), List.append_nil]
        exact h.revisions r hr
      · rw [if_pos rfl, hnone, revision]
        rfl
    · rw [h.rows_append changes, List.mem_append, List.mem_singleton] at hc
      rw [messages]
      rcases hc with hc | rfl
      · obtain ⟨r, hr, hknown⟩ := h.known c hc
        exact ⟨r, Table.mem_insertOrIgnore_of_mem hr, hknown⟩
      · exact ⟨m, Table.mem_insertOrIgnore_self free, rfl, rfl⟩
  | revise m m' now stored id conversation revision message others changes =>
    have hm' : m' ∈ chat'.messages.rows := (Table.mem_of_find? message).1
    refine ⟨h.sequences_append changes, fun r hr => ?_, fun c hc => ?_⟩
    · rw [h.revisions_append changes]
      by_cases hid : r.id = m.id
      · obtain rfl : r = m' := Table.eq_of_mem hr hm' (hid.trans id.symm)
        rw [hid, if_pos rfl, h.revisions m stored, revision, List.range'_1_concat, Nat.add_comm]
      · rw [if_neg (Ne.symm hid), List.append_nil]
        have hold : chat.messages.find? r.id = some r := by
          rw [← others r.id hid]
          exact Table.find?_of_mem hr
        exact h.revisions r (Table.mem_of_find? hold).1
    · rw [h.rows_append changes, List.mem_append, List.mem_singleton] at hc
      rcases hc with hc | rfl
      · obtain ⟨r, hr, hid, hconversation⟩ := h.known c hc
        by_cases he : r.id = m.id
        · obtain rfl := Table.eq_of_mem hr stored he
          exact ⟨m', hm', id.trans hid, conversation.trans hconversation⟩
        · have hnew : chat'.messages.find? r.id = some r := by
            rw [others r.id he]
            exact Table.find?_of_mem hr
          exact ⟨r, (Table.mem_of_find? hnew).1, hid, hconversation⟩
      · exact ⟨m', hm', id, conversation⟩

/-- The writes of a transaction keep changes numbered. -/
theorem writes (h : Numbered chat) (hwrites : ChatWrites chat chat') : Numbered chat' := by
  induction hwrites with
  | refl => exact h
  | tail _ hwrite ih => exact ih.write hwrite

end Numbered

section Operations

variable {chat chat' : Chat} {owner clientMessageId content source : String}
  {attachments : List AttachmentRecord} {wantsRetry : Bool} {fresh : FreshIds} {now : ℤ}

/-- A write of other tables. -/
theorem ChatWrites.other (messages : chat'.messages = chat.messages)
    (changes : chat'.changes = chat.changes) : ChatWrites chat chat' :=
  .single (.other messages changes)

/-- Counting writes no message. -/
theorem countDiagnostics_writes (chat : Chat) (owner : String) (now : ℤ)
    (add : ChatDiagnostics → ChatDiagnostics)
    (hadd : ∀ d, (add d).ownerUserId = d.ownerUserId) :
    ChatWrites chat (chat.countDiagnostics owner now add hadd) := .other rfl rfl

/-- Requesting a conversation writes no message. -/
theorem requestedConversation_writes {conversationId : Option String} {freshId : String}
    {c : MagiConversation}
    (h : requestedConversation owner conversationId freshId now chat = .ok (c, chat')) :
    chat'.messages = chat.messages ∧ chat'.changes = chat.changes := by
  unfold requestedConversation at h
  split at h
  · simp only [bind_eq_ok, pure_eq_ok, Prod.mk.injEq] at h
    obtain ⟨_, -, -, rfl⟩ := h
    exact ⟨rfl, rfl⟩
  · unfold defaultConversation at h
    split at h
    · obtain ⟨-, rfl⟩ : _ = c ∧ chat = chat' := by simpa using h
      exact ⟨rfl, rfl⟩
    · simp only [Chat.insertConversation, bind_eq_ok, raiseIf_eq_ok, pure_eq_ok, exists_const,
        Prod.mk.injEq] at h
      obtain ⟨_, ⟨-, -, rfl⟩, -, rfl⟩ := h
      exact ⟨rfl, rfl⟩

/-- Ending an attempt revises its message. -/
theorem closeMessage_writes {m : MagiMessage} {status : MessageStatus} {content : String}
    {errorCode : Option String} (stored : m ∈ chat.messages.rows)
    (h : closeMessage m status content errorCode now chat = .ok chat') :
    ChatWrites chat chat' := by
  obtain ⟨-, rfl⟩ := appendChange_eq_ok.mp h
  refine .single (.revise m (m.closed status content errorCode now) now stored rfl rfl rfl ?_
    (fun id hne => ?_) rfl)
  · simp only [Chat.touchConversation]
    rw [Table.find?_update_self, Table.find?_of_mem stored, Option.map_some]
  · simp only [Chat.touchConversation]
    rw [Table.find?_update_ne _ hne]

/-- Claiming the next attempt revises its message. -/
theorem retryFailed_writes {conversationId : String} {m m' : MagiMessage}
    (stored : m ∈ chat.messages.rows) (conversation : m.conversationId = conversationId)
    (h : retryFailed owner conversationId m now chat = .ok (m', chat')) :
    ChatWrites chat chat' := by
  simp only [retryFailed, bind_eq_ok, pure_eq_ok, Prod.mk.injEq] at h
  obtain ⟨mid, happend, -, rfl⟩ := h
  obtain ⟨-, rfl⟩ := appendChange_eq_ok.mp happend
  subst conversation
  refine .single (.revise m (m.retried now) now stored rfl rfl rfl ?_ (fun id hne => ?_) rfl)
  · simp only [Chat.countDiagnostics]
    rw [Table.find?_update_self, Table.find?_of_mem stored, Option.map_some]
  · simp only [Chat.countDiagnostics]
    rw [Table.find?_update_ne _ hne]

/-- A new submission creates its two messages. -/
theorem prepareNew_writes {conversation : MagiConversation} {prepared : PreparedSubmission}
    (h : prepareNew owner clientMessageId content source attachments conversation fresh now chat =
      .ok (prepared, chat')) : ChatWrites chat chat' := by
  simp only [prepareNew, bind_eq_ok, pure_eq_ok, Prod.mk.injEq, insertMessage_eq_ok] at h
  obtain ⟨_, ⟨insertUser, rfl⟩, _, ⟨insertAssistant, rfl⟩, mid, happend, mid', happend', -,
    rfl⟩ := h
  obtain ⟨-, rfl⟩ := appendChange_eq_ok.mp happend
  obtain ⟨-, rfl⟩ := appendChange_eq_ok.mp happend'
  let user := newUserMessage owner clientMessageId content source attachments conversation.id
    (chat.nextSequence conversation.id) fresh now
  let created : Chat := { chat with
    messages := chat.messages.insertOrIgnore user
    changes := chat.changes.insertOrIgnore (chat.nextChange conversation.id user.id 1 now) }
  have hfirst : ChatWrite chat created := .create user now insertUser.freeId rfl rfl rfl
  exact (Relation.ReflTransGen.single hfirst).trans
    (.single (.create _ now insertAssistant.freeId rfl rfl rfl))

/-- A preparation is a sequence of numbered writes. -/
theorem prepareSubmission_numbered {conversationId : Option String}
    {requested : Except ChatFailure (List AttachmentRecord)} {prepared : PreparedSubmission}
    (h : prepareSubmission owner clientMessageId content conversationId source requested wantsRetry
      fresh now chat = .ok (prepared, chat')) : ChatWrites chat chat' := by
  obtain ⟨attachments, conversation, mid, -, hconversation,
    ⟨user, assistant, -, hassistant, hagain⟩ | ⟨-, hnew⟩⟩ := prepareSubmission_cases h
  · obtain ⟨hmessages, hchanges⟩ := requestedConversation_writes hconversation
    refine (ChatWrites.other hmessages hchanges).trans ?_
    obtain ⟨stored, -, hconv, -, -⟩ := of_reservedAssistant hassistant
    simp only [prepareAgain, bind_eq_ok, raiseIf_eq_ok, exists_const, not_or, not_not] at hagain
    obtain ⟨⟨hsame, -, -, -⟩, hagain⟩ := hagain
    split at hagain
    · simp only [bind_eq_ok, pure_eq_ok, Prod.exists, Prod.mk.injEq] at hagain
      obtain ⟨m, after, hretry, -, rfl⟩ := hagain
      have hwrites := retryFailed_writes (by exact stored) (hconv.trans hsame) hretry
      exact (countDiagnostics_writes mid owner now _ _).trans hwrites
    · simp only [pure_eq_ok, Prod.mk.injEq] at hagain
      exact hagain.2 ▸ ChatWrites.other rfl rfl
  · obtain ⟨hmessages, hchanges⟩ := requestedConversation_writes hconversation
    exact (ChatWrites.other hmessages hchanges).trans (prepareNew_writes hnew)

/-- A generation is a sequence of numbered writes. -/
theorem prepareGeneratedAssistant_numbered {generationKey factsSha256 conversationId
    replyToMessageId : String} {prepared : PreparedGeneratedMessage}
    (h : prepareGeneratedAssistant owner generationKey factsSha256 conversationId replyToMessageId
      wantsRetry fresh now chat = .ok (prepared, chat')) : ChatWrites chat chat' := by
  simp only [prepareGeneratedAssistant, bind_eq_ok, raiseIf_eq_ok, exists_const] at h
  obtain ⟨-, -, -, -, h⟩ := h
  split at h
  · split at h
    · simp at h
    · next assistant hassistant =>
      simp only [bind_eq_ok, raiseIf_eq_ok, exists_const, not_or, not_not] at h
      obtain ⟨⟨-, -, -, hconv, -, -⟩, h⟩ := h
      split at h
      · simp only [bind_eq_ok, pure_eq_ok, Prod.exists, Prod.mk.injEq] at h
        obtain ⟨m, mid, hretry, -, rfl⟩ := h
        exact retryFailed_writes (of_assistantMessage hassistant).1 hconv hretry
      · simp only [pure_eq_ok, Prod.mk.injEq] at h
        exact h.2 ▸ .refl
  · simp only [bind_eq_ok, raiseIf_eq_ok, pure_eq_ok, exists_const, Prod.mk.injEq,
      insertMessage_eq_ok] at h
    obtain ⟨_, ⟨insertable, rfl⟩, -, mid, happend, -, rfl⟩ := h
    obtain ⟨-, rfl⟩ := appendChange_eq_ok.mp happend
    exact .single (.create _ now insertable.freeId rfl rfl rfl)

/-- A completion is a sequence of numbered writes. -/
theorem completeSubmission_numbered {id : String} {attempt latencyMs toolCalls : ℕ} {took : Bool}
    (h : completeSubmission owner id attempt content latencyMs toolCalls now chat =
      .ok (took, chat')) : ChatWrites chat chat' := by
  unfold completeSubmission at h
  split at h
  · simp at h
  · next m found =>
    split at h
    · obtain ⟨-, rfl⟩ : false = took ∧ chat = chat' := by simpa using h
      exact .refl
    · simp only [bind_eq_ok, pure_eq_ok, Prod.mk.injEq] at h
      obtain ⟨mid, hclose, -, rfl⟩ := h
      exact (closeMessage_writes (of_assistantMessage found).1 hclose).trans
        (ChatWrites.other rfl rfl)

/-- A failure is a sequence of numbered writes. -/
theorem failSubmission_numbered {id errorCode : String} {attempt toolCalls : ℕ} {took : Bool}
    (h : failSubmission owner id attempt errorCode toolCalls now chat = .ok (took, chat')) :
    ChatWrites chat chat' := by
  unfold failSubmission at h
  split at h
  · simp at h
  · next m found =>
    split at h
    · obtain ⟨-, rfl⟩ : false = took ∧ chat = chat' := by simpa using h
      exact .refl
    · simp only [bind_eq_ok, pure_eq_ok, Prod.mk.injEq] at h
      obtain ⟨mid, hclose, -, rfl⟩ := h
      exact (closeMessage_writes (of_assistantMessage found).1 hclose).trans
        (ChatWrites.other rfl rfl)

/-- A cancellation is a sequence of numbered writes. -/
theorem cancelSubmission_numbered
    (h : cancelSubmission owner clientMessageId now chat = .ok chat') : ChatWrites chat chat' := by
  simp only [cancelSubmission, bind_eq_ok] at h
  obtain ⟨rows, hrows, h⟩ := h
  split at h
  · simp at h
  · split at h
    · simp only [bind_eq_ok, pure_eq_ok] at h
      obtain ⟨mid, hclose, rfl⟩ := h
      have stored := (of_reservedAssistant (submissionRows_eq_some hrows).2).1
      exact (closeMessage_writes stored hclose).trans (ChatWrites.other rfl rfl)
    · rw [pure_eq_ok] at h
      exact h ▸ .refl

/-- Recovering one pending message revises it, and keeps the others. -/
theorem recoverMessage_numbered {row : MagiMessage} (stored : row ∈ chat.messages.rows)
    (pending : row.status = .pending) (h : recoverMessage now chat row = .ok chat') :
    ChatWrites chat chat' ∧ ∀ r ∈ chat.messages.rows, r.id ≠ row.id → r ∈ chat'.messages.rows := by
  simp only [recoverMessage, bind_eq_ok, pure_eq_ok] at h
  obtain ⟨mid, happend, rfl⟩ := h
  obtain ⟨-, rfl⟩ := appendChange_eq_ok.mp happend
  have hothers : ∀ id ≠ row.id, (chat.messages.update row.id (MagiMessage.recovered now)
      (MagiMessage.recovered_id now)).find? id = chat.messages.find? id := by
    intro id hne
    rw [Table.find?_update_ne _ hne]
  refine ⟨.single (.revise row (row.closed .failed "" (some "server_restart") now) now stored rfl
    rfl rfl ?_ hothers rfl), fun r hr hne => ?_⟩
  · have hrecovered : row.recovered now = row.closed .failed "" (some "server_restart") now :=
      if_pos pending
    simp only [closeRoute, Chat.touchConversation]
    rw [Table.find?_update_self, Table.find?_of_mem stored, Option.map_some, hrecovered]
  · have hfind := Table.find?_of_mem hr
    rw [← hothers r.id hne] at hfind
    exact (Table.mem_of_find? hfind).1

/-- Recovering pending messages with distinct ids is a sequence of numbered writes. -/
theorem recoverMessages_numbered {rows : List MagiMessage} (unique : (rows.map (·.id)).Nodup)
    (stored : ∀ row ∈ rows, row ∈ chat.messages.rows)
    (pending : ∀ row ∈ rows, row.status = .pending)
    (h : rows.foldlM (recoverMessage now) chat = .ok chat') : ChatWrites chat chat' := by
  induction rows generalizing chat with
  | nil =>
    obtain rfl : chat = chat' := by simpa [pure, Except.pure] using h
    exact .refl
  | cons row rows ih =>
    simp only [List.foldlM_cons, bind_eq_ok] at h
    obtain ⟨mid, hone, hrest⟩ := h
    rw [List.map_cons, List.nodup_cons] at unique
    obtain ⟨hwrites, hkept⟩ := recoverMessage_numbered (stored row List.mem_cons_self)
      (pending row List.mem_cons_self) hone
    refine hwrites.trans (ih unique.2 (fun r hr => ?_) (fun r hr => ?_) hrest)
    · refine hkept r (stored r (List.mem_cons_of_mem row hr)) fun he => unique.1 ?_
      exact he ▸ List.mem_map_of_mem hr
    · exact pending r (List.mem_cons_of_mem row hr)

/-- Counting for several owners numbers nothing. -/
theorem countEach_numbered (owners : List String) (now : ℤ)
    (add : String → ChatDiagnostics → ChatDiagnostics)
    (hadd : ∀ owner d, (add owner d).ownerUserId = d.ownerUserId) (chat : Chat) :
    ChatWrites chat (owners.foldl (fun chat owner =>
      chat.countDiagnostics owner now (add owner) (hadd owner)) chat) := by
  induction owners generalizing chat with
  | nil => exact .refl
  | cons owner owners ih => exact (countDiagnostics_writes chat owner now _ _).trans (ih _)

/-- A recovery is a sequence of numbered writes. -/
theorem recoverOrphanedPending_numbered {count : ℕ}
    (h : recoverOrphanedPending now chat = .ok (count, chat')) : ChatWrites chat chat' := by
  simp only [recoverOrphanedPending, bind_eq_ok, pure_eq_ok, Prod.mk.injEq] at h
  obtain ⟨mid, hrows, -, rfl⟩ := h
  refine (recoverMessages_numbered ?_ (fun row hrow => ?_) (fun row hrow => ?_) hrows).trans
    (countEach_numbered _ now _ _ mid)
  · exact chat.messages.unique.sublist (List.filter_sublist.map _)
  · exact (List.mem_filter.mp hrow).1
  · exact (of_decide_eq_true (List.mem_filter.mp hrow).2).2

/-- Recording a route numbers nothing. -/
theorem recordTurnRoute_numbered {id : String} {category : RouteCategory}
    {permissionGranted explicitConfirmation : Bool} {outcome : RouteOutcome}
    (h : recordTurnRoute owner id category permissionGranted explicitConfirmation outcome now chat =
      .ok chat') : ChatWrites chat chat' := by
  unfold recordTurnRoute at h
  split at h
  · simp at h
  · split at h <;> exact Except.ok.inj h ▸ ChatWrites.other rfl rfl

/-- A committed transaction is a sequence of numbered writes. -/
theorem chatStep_numbered (chat : Chat) (op : ChatOp) : ChatWrites chat (chatStep chat op) := by
  refine commit_of (P := fun chat' => ChatWrites chat chat') .refl fun chat' h => ?_
  cases op <;> simp only [ChatOp.apply, stateOf_eq_ok] at h
  case prepareSubmission => exact prepareSubmission_numbered h.choose_spec
  case prepareGeneratedAssistant => exact prepareGeneratedAssistant_numbered h.choose_spec
  case completeSubmission => exact completeSubmission_numbered h.choose_spec
  case failSubmission => exact failSubmission_numbered h.choose_spec
  case recoverOrphanedPending => exact recoverOrphanedPending_numbered h.choose_spec
  case cancelSubmission => exact cancelSubmission_numbered h
  case recordTurnRoute => exact recordTurnRoute_numbered h

end Operations

end Magistrate
