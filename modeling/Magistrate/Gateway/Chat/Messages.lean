import Magistrate.Gateway.Chat.Store
import Mathlib.Logic.Relation

/-!
# The life of a message

What the transactions of the chat store can do to the messages: reserve a pair,
generate one, claim the next attempt of a failed one, and end a pending one.
Messages keep their identity, attempts only grow, and what is completed or
cancelled stays as it is.
-/

namespace Magistrate

open MagiChatStore

/-- A transaction of the chat store. -/
inductive ChatOp where
  | prepareSubmission (owner clientMessageId content : String) (conversationId : Option String)
      (source : String) (attachments : Except ChatFailure (List AttachmentRecord))
      (wantsRetry : Bool) (fresh : FreshIds) (now : ℤ)
  | prepareGeneratedAssistant (owner generationKey factsSha256 conversationId
      replyToMessageId : String) (wantsRetry : Bool) (fresh : FreshIds) (now : ℤ)
  | completeSubmission (owner assistantMessageId : String) (attempt : ℕ) (content : String)
      (latencyMs toolCalls : ℕ) (now : ℤ)
  | failSubmission (owner assistantMessageId : String) (attempt : ℕ) (errorCode : String)
      (toolCalls : ℕ) (now : ℤ)
  | recoverOrphanedPending (now : ℤ)
  | cancelSubmission (owner clientMessageId : String) (now : ℤ)
  | recordTurnRoute (owner assistantMessageId : String) (category : RouteCategory)
      (permissionGranted explicitConfirmation : Bool) (outcome : RouteOutcome) (now : ℤ)

/-- The tables a transaction returns, unless it raises. -/
def ChatOp.apply (chat : Chat) : ChatOp → Except ChatFailure Chat
  | prepareSubmission owner clientMessageId content conversationId source attachments wantsRetry
      fresh now => stateOf (MagiChatStore.prepareSubmission owner clientMessageId content
        conversationId source attachments wantsRetry fresh now chat)
  | prepareGeneratedAssistant owner generationKey factsSha256 conversationId replyToMessageId
      wantsRetry fresh now => stateOf (MagiChatStore.prepareGeneratedAssistant owner generationKey
        factsSha256 conversationId replyToMessageId wantsRetry fresh now chat)
  | completeSubmission owner assistantMessageId attempt content latencyMs toolCalls now =>
    stateOf (MagiChatStore.completeSubmission owner assistantMessageId attempt content latencyMs
      toolCalls now chat)
  | failSubmission owner assistantMessageId attempt errorCode toolCalls now =>
    stateOf (MagiChatStore.failSubmission owner assistantMessageId attempt errorCode toolCalls now
      chat)
  | recoverOrphanedPending now => stateOf (MagiChatStore.recoverOrphanedPending now chat)
  | cancelSubmission owner clientMessageId now =>
    MagiChatStore.cancelSubmission owner clientMessageId now chat
  | recordTurnRoute owner assistantMessageId category permissionGranted explicitConfirmation
      outcome now => MagiChatStore.recordTurnRoute owner assistantMessageId category
        permissionGranted explicitConfirmation outcome now chat

/-- Commit a transaction. -/
def chatStep (chat : Chat) (op : ChatOp) : Chat := commit (op.apply chat) chat

/-- Conversations are kept, and so are their owners. -/
def KeepsConversations (chat chat' : Chat) : Prop :=
  ∀ c ∈ chat.conversations.rows, ∃ c' ∈ chat'.conversations.rows,
    c'.id = c.id ∧ c'.ownerUserId = c.ownerUserId

/-- A message may be inserted: none of its unique keys is taken. -/
structure Insertable (messages : Table MagiMessage.id) (m : MagiMessage) : Prop where
  freeId : messages.find? m.id = none
  apart : ∀ r ∈ messages.rows, m.collides r = false

/-- A conversation of the message's owner. -/
def Hosted (chat : Chat) (m : MagiMessage) : Prop :=
  ∃ c ∈ chat.conversations.rows, c.id = m.conversationId ∧ c.ownerUserId = m.ownerUserId

/-- One write of a chat transaction, as far as messages are concerned. -/
inductive ChatMove : Chat → Chat → Prop where
  | other {chat chat' : Chat} (messages : chat'.messages = chat.messages)
      (conversations : KeepsConversations chat chat') : ChatMove chat chat'
  | reserve {chat : Chat} (user assistant : MagiMessage) (userRole : user.role = .user)
      (assistantRole : assistant.role = .assistant)
      (paired : assistant.ownerUserId = user.ownerUserId ∧
        assistant.conversationId = user.conversationId ∧ assistant.turnId = user.turnId)
      (hosted : Hosted chat user) (insertUser : Insertable chat.messages user)
      (insertAssistant : Insertable (chat.messages.insertOrIgnore user) assistant) :
      ChatMove chat { chat with
        messages := (chat.messages.insertOrIgnore user).insertOrIgnore assistant }
  | generate {chat : Chat} (assistant : MagiMessage) (assistantRole : assistant.role = .assistant)
      (hosted : Hosted chat assistant) (insertable : Insertable chat.messages assistant) :
      ChatMove chat { chat with messages := chat.messages.insertOrIgnore assistant }
  | retry {chat : Chat} (m : MagiMessage) (now : ℤ) (stored : m ∈ chat.messages.rows)
      (failed : m.status = .failed) :
      ChatMove chat { chat with messages := chat.messages.update m.id (MagiMessage.retried now) }
  | close {chat : Chat} (m : MagiMessage) (status : MessageStatus) (content : String)
      (errorCode : Option String) (now : ℤ) (stored : m ∈ chat.messages.rows)
      (pending : m.status = .pending) :
      ChatMove chat { chat with
        messages := chat.messages.update m.id (MagiMessage.closed status content errorCode now) }

/-- The writes of a chat transaction. -/
abbrev ChatMoves : Chat → Chat → Prop := Relation.ReflTransGen ChatMove

section Writes

variable {chat chat' : Chat}

theorem KeepsConversations.refl (chat : Chat) : KeepsConversations chat chat :=
  fun c hc => ⟨c, hc, rfl, rfl⟩

theorem KeepsConversations.trans {chat'' : Chat} (h : KeepsConversations chat chat')
    (h' : KeepsConversations chat' chat'') : KeepsConversations chat chat'' := by
  intro c hc
  obtain ⟨c', hc', hid, howner⟩ := h c hc
  obtain ⟨c'', hc'', hid', howner'⟩ := h' c' hc'
  exact ⟨c'', hc'', hid'.trans hid, howner'.trans howner⟩

/-- A write of other tables, conversations and messages kept. -/
theorem ChatMoves.other (messages : chat'.messages = chat.messages)
    (conversations : chat'.conversations = chat.conversations) : ChatMoves chat chat' :=
  .single (.other messages fun c hc => ⟨c, conversations ▸ hc, rfl, rfl⟩)

/-- A touched conversation is kept. -/
theorem ChatMove.touch (chat : Chat) (conversationId : String) (now : ℤ) :
    ChatMove chat (chat.touchConversation conversationId now) := by
  refine .other rfl fun c hc => ?_
  refine ⟨if c.id = conversationId then { c with updatedAt := now } else c, ?_, ?_, ?_⟩
  · simp only [Chat.touchConversation]
    rw [Table.mem_update]
    exact ⟨c, hc, rfl⟩
  · split <;> rfl
  · split <;> rfl

/-- A numbered change is a new row of its own table. -/
theorem appendChange_eq_ok {conversationId messageId : String} {revision : ℕ} {now : ℤ} :
    chat.appendChange conversationId messageId revision now = .ok chat' ↔
      (¬∃ c ∈ chat.changes.rows, c.conversationId = conversationId ∧ c.messageId = messageId ∧
        c.messageRevision = revision) ∧
      { chat with
        changes := chat.changes.insertOrIgnore
          (chat.nextChange conversationId messageId revision now) } = chat' := by
  simp only [Chat.appendChange, bind_eq_ok, raiseIf_eq_ok, pure_eq_ok, exists_const]

/-- Numbering a change keeps messages and conversations. -/
theorem appendChange_moves {conversationId messageId : String} {revision : ℕ} {now : ℤ}
    (h : chat.appendChange conversationId messageId revision now = .ok chat') :
    ChatMoves chat chat' := by
  obtain ⟨-, rfl⟩ := appendChange_eq_ok.mp h
  exact .other rfl rfl

/-- Counting keeps messages and conversations. -/
theorem countDiagnostics_moves (chat : Chat) (owner : String) (now : ℤ)
    (add : ChatDiagnostics → ChatDiagnostics)
    (hadd : ∀ d, (add d).ownerUserId = d.ownerUserId) :
    ChatMoves chat (chat.countDiagnostics owner now add hadd) := .other rfl rfl

/-- An inserted message had free keys. -/
theorem insertMessage_eq_ok {m : MagiMessage} : chat.insertMessage m = .ok chat' ↔
    Insertable chat.messages m ∧
      { chat with messages := chat.messages.insertOrIgnore m } = chat' := by
  simp only [Chat.insertMessage, bind_eq_ok, raiseIf_eq_ok, pure_eq_ok, exists_const, not_not,
    List.any_eq_true, not_exists, not_and, Bool.not_eq_true]
  constructor
  · rintro ⟨freeId, apart, h⟩
    exact ⟨⟨freeId, apart⟩, h⟩
  · rintro ⟨⟨freeId, apart⟩, h⟩
    exact ⟨freeId, apart, h⟩

/-- Ending an attempt closes its message. -/
theorem closeMessage_moves {m : MagiMessage} {status : MessageStatus} {content : String}
    {errorCode : Option String} {now : ℤ} (stored : m ∈ chat.messages.rows)
    (pending : m.status = .pending)
    (h : closeMessage m status content errorCode now chat = .ok chat') : ChatMoves chat chat' :=
  (Relation.ReflTransGen.single (.close m status content errorCode now stored pending)).trans
    ((Relation.ReflTransGen.single (.touch _ _ _)).trans (appendChange_moves h))

/-- Claiming the next attempt retries its message. -/
theorem retryFailed_moves {owner conversationId : String} {m m' : MagiMessage} {now : ℤ}
    (stored : m ∈ chat.messages.rows) (failed : m.status = .failed)
    (h : retryFailed owner conversationId m now chat = .ok (m', chat')) : ChatMoves chat chat' := by
  simp only [retryFailed, bind_eq_ok, pure_eq_ok, Prod.mk.injEq] at h
  obtain ⟨mid, happend, -, rfl⟩ := h
  exact (Relation.ReflTransGen.single (.retry m now stored failed)).trans
    ((appendChange_moves happend).trans (countDiagnostics_moves _ _ _ _ _))

end Writes

section Operations

variable {chat chat' : Chat} {owner clientMessageId content source : String}
  {attachments : List AttachmentRecord} {wantsRetry : Bool} {fresh : FreshIds} {now : ℤ}

/-- A found user message is one of its client message id. -/
theorem of_userMessage {user : MagiMessage}
    (h : chat.userMessage owner clientMessageId = some user) :
    user ∈ chat.messages.rows ∧ user.ownerUserId = owner ∧
      user.clientMessageId = some clientMessageId ∧ user.role = .user := by
  have hp := List.find?_some h
  simp only [Bool.decide_and, Bool.and_eq_true, decide_eq_true_eq] at hp
  exact ⟨List.mem_of_find?_eq_some h, hp⟩

/-- A found assistant message is one of its user message's turn. -/
theorem of_reservedAssistant {user assistant : MagiMessage}
    (h : chat.reservedAssistant owner user = some assistant) :
    assistant ∈ chat.messages.rows ∧ assistant.ownerUserId = owner ∧
      assistant.conversationId = user.conversationId ∧ assistant.turnId = user.turnId ∧
      assistant.role = .assistant := by
  have hp := List.find?_some h
  simp only [Bool.decide_and, Bool.and_eq_true, decide_eq_true_eq] at hp
  exact ⟨List.mem_of_find?_eq_some h, hp⟩

/-- A found assistant message is its owner's. -/
theorem of_assistantMessage {id : String} {assistant : MagiMessage}
    (h : chat.assistantMessage owner id = some assistant) :
    assistant ∈ chat.messages.rows ∧ assistant.id = id ∧ assistant.ownerUserId = owner ∧
      assistant.role = .assistant := by
  obtain ⟨hfind, hp⟩ := Option.filter_eq_some_iff.mp h
  simp only [Bool.decide_and, Bool.and_eq_true, decide_eq_true_eq] at hp
  obtain ⟨hm, hid⟩ := Table.mem_of_find? hfind
  exact ⟨hm, hid, hp⟩

/-- The rows of a submission are found in one turn. -/
theorem submissionRows_eq_some {user assistant : MagiMessage}
    (h : submissionRows owner clientMessageId chat = .ok (some (user, assistant))) :
    chat.userMessage owner clientMessageId = some user ∧
      chat.reservedAssistant owner user = some assistant := by
  unfold submissionRows at h
  split at h
  · simp at h
  · next u hu =>
    split at h
    · simp at h
    · next a ha =>
      obtain ⟨rfl, rfl⟩ : u = user ∧ a = assistant := by simpa using h
      exact ⟨hu, ha⟩

/-- Without a user message there is no submission. -/
theorem submissionRows_eq_none (h : submissionRows owner clientMessageId chat = .ok none) :
    chat.userMessage owner clientMessageId = none := by
  unfold submissionRows at h
  split at h
  · assumption
  · split at h <;> simp at h

/-- Reading a conversation finds one of the owner. -/
theorem of_conversationRow {id : String} {c : MagiConversation}
    (h : conversationRow owner id chat = .ok c) :
    c ∈ chat.conversations.rows ∧ c.id = id ∧ c.ownerUserId = owner := by
  unfold conversationRow at h
  split at h
  · next found =>
    obtain rfl := Except.ok.inj h
    obtain ⟨hfind, howner⟩ := Option.filter_eq_some_iff.mp found
    obtain ⟨hm, hid⟩ := Table.mem_of_find? hfind
    exact ⟨hm, hid, by simpa using howner⟩
  · simp at h

/-- The requested conversation is stored for its owner, and is new at most. -/
theorem requestedConversation_moves {conversationId : Option String} {freshId : String}
    {c : MagiConversation}
    (h : requestedConversation owner conversationId freshId now chat = .ok (c, chat')) :
    ChatMoves chat chat' ∧ (chat'.messages = chat.messages ∧ chat'.turnRoutes = chat.turnRoutes) ∧
      c ∈ chat'.conversations.rows ∧ c.ownerUserId = owner := by
  unfold requestedConversation at h
  split at h
  · simp only [bind_eq_ok, pure_eq_ok, Prod.mk.injEq] at h
    obtain ⟨_, hrow, rfl, rfl⟩ := h
    obtain ⟨hm, -, howner⟩ := of_conversationRow hrow
    exact ⟨.refl, ⟨rfl, rfl⟩, hm, howner⟩
  · unfold defaultConversation at h
    split at h
    · next found =>
      obtain ⟨rfl, rfl⟩ : _ = c ∧ chat = chat' := by simpa using h
      have hp := List.find?_some found
      simp only [Bool.decide_and, Bool.and_eq_true, decide_eq_true_eq] at hp
      exact ⟨.refl, ⟨rfl, rfl⟩, List.mem_of_find?_eq_some found, hp.1⟩
    · simp only [Chat.insertConversation, bind_eq_ok, raiseIf_eq_ok, pure_eq_ok, exists_const,
        Prod.mk.injEq, not_not] at h
      obtain ⟨_, ⟨free, -, rfl⟩, rfl, rfl⟩ := h
      refine ⟨.single (.other rfl fun d hd => ⟨d, Table.mem_insertOrIgnore_of_mem hd, rfl, rfl⟩),
        ⟨rfl, rfl⟩, Table.mem_insertOrIgnore_self free, rfl⟩

/-- A submission that is bound again keeps the stored one, and claims a failed attempt at most. -/
theorem prepareAgain_cases {conversation : MagiConversation} {user assistant : MagiMessage}
    {prepared : PreparedSubmission}
    (h : prepareAgain owner content source attachments wantsRetry conversation user assistant now
      chat = .ok (prepared, chat')) (stored : assistant ∈ chat.messages.rows) :
    (user.conversationId = conversation.id ∧ user.content = content ∧ user.source = source ∧
      user.attachments = attachments) ∧ ChatMoves chat chat' ∧
    chat'.turnRoutes = chat.turnRoutes ∧ prepared.assistantMessageId = assistant.id ∧
    ((prepared.claimed = false ∧ chat'.messages = chat.messages) ∨
      prepared.claimed = true ∧ assistant.status = .failed ∧
        prepared.attempt = assistant.attemptCount + 1 ∧
        chat'.messages = chat.messages.update assistant.id (MagiMessage.retried now)) := by
  simp only [prepareAgain, bind_eq_ok, raiseIf_eq_ok, exists_const, not_or, not_not] at h
  obtain ⟨hsame, h⟩ := h
  have hcount := countDiagnostics_moves chat owner now
    (fun d => { d with duplicateSubmissions := d.duplicateSubmissions + 1 }) fun _ => rfl
  split at h
  · next hretry =>
    simp only [bind_eq_ok, pure_eq_ok, Prod.exists, Prod.mk.injEq] at h
    obtain ⟨m, mid, hm, rfl, rfl⟩ := h
    have hmoves := retryFailed_moves (by exact stored) hretry.2 hm
    simp only [retryFailed, bind_eq_ok, pure_eq_ok, Prod.mk.injEq] at hm
    obtain ⟨after, happend, rfl, rfl⟩ := hm
    obtain ⟨-, rfl⟩ := appendChange_eq_ok.mp happend
    exact ⟨hsame, hcount.trans hmoves, rfl, rfl, .inr ⟨rfl, hretry.2, rfl, rfl⟩⟩
  · simp only [pure_eq_ok, Prod.mk.injEq] at h
    obtain ⟨rfl, rfl⟩ := h
    exact ⟨hsame, hcount, rfl, rfl, .inl ⟨rfl, rfl⟩⟩

/-- A user message and its pending assistant message that may be inserted together. -/
structure ReservedPair (messages : Table MagiMessage.id) (owner clientMessageId : String)
    (user assistant : MagiMessage) : Prop where
  insertUser : Insertable messages user
  insertAssistant : Insertable (messages.insertOrIgnore user) assistant
  userRole : user.role = .user
  userOwner : user.ownerUserId = owner
  client : user.clientMessageId = some clientMessageId
  userStatus : user.status = .completed
  assistantRole : assistant.role = .assistant
  assistantOwner : assistant.ownerUserId = owner
  conversation : assistant.conversationId = user.conversationId
  turn : assistant.turnId = user.turnId
  assistantStatus : assistant.status = .pending
  attempt : assistant.attemptCount = 1

/-- A new submission reserves its pair. -/
theorem prepareNew_cases {conversation : MagiConversation} {prepared : PreparedSubmission}
    (h : prepareNew owner clientMessageId content source attachments conversation fresh now chat =
      .ok (prepared, chat')) :
    chat'.turnRoutes = chat.turnRoutes ∧ prepared.claimed = true ∧ prepared.attempt = 1 ∧
      ∃ user assistant, ReservedPair chat.messages owner clientMessageId user assistant ∧
        user.conversationId = conversation.id ∧ assistant.id = prepared.assistantMessageId ∧
        chat'.messages = (chat.messages.insertOrIgnore user).insertOrIgnore assistant := by
  simp only [prepareNew, bind_eq_ok, pure_eq_ok, Prod.mk.injEq, insertMessage_eq_ok] at h
  obtain ⟨_, ⟨insertUser, rfl⟩, _, ⟨insertAssistant, rfl⟩, mid, happend, mid', happend', rfl,
    rfl⟩ := h
  obtain ⟨-, rfl⟩ := appendChange_eq_ok.mp happend
  obtain ⟨-, rfl⟩ := appendChange_eq_ok.mp happend'
  exact ⟨rfl, rfl, rfl, _, _, ⟨insertUser, insertAssistant, rfl, rfl, rfl, rfl, rfl, rfl, rfl, rfl,
    rfl, rfl⟩, rfl, rfl, rfl⟩

/-- A new submission is a sequence of writes. -/
theorem prepareNew_moves {conversation : MagiConversation} {prepared : PreparedSubmission}
    (h : prepareNew owner clientMessageId content source attachments conversation fresh now chat =
      .ok (prepared, chat'))
    (hosted : conversation ∈ chat.conversations.rows) (howner : conversation.ownerUserId = owner) :
    ChatMoves chat chat' := by
  simp only [prepareNew, bind_eq_ok, pure_eq_ok, Prod.mk.injEq, insertMessage_eq_ok] at h
  obtain ⟨_, ⟨insertUser, rfl⟩, _, ⟨insertAssistant, rfl⟩, mid, happend, mid', happend', -,
    rfl⟩ := h
  have hreserve := ChatMove.reserve (newUserMessage owner clientMessageId content source
    attachments conversation.id (chat.nextSequence conversation.id) fresh now)
    (newAssistantMessage owner fresh.userMessageId conversation.id
      (chat.nextSequence conversation.id + 1) fresh now) rfl rfl ⟨rfl, rfl, rfl⟩
    ⟨conversation, hosted, rfl, howner⟩ insertUser insertAssistant
  refine (Relation.ReflTransGen.single hreserve).trans ?_
  refine (Relation.ReflTransGen.single (.touch _ conversation.id now)).trans ?_
  exact (appendChange_moves happend).trans ((appendChange_moves happend').trans
    (countDiagnostics_moves _ _ _ _ _))

/-- A preparation claims a new pair, or the next attempt of a failed message, or nothing. -/
theorem prepareSubmission_cases {conversationId : Option String}
    {requested : Except ChatFailure (List AttachmentRecord)} {prepared : PreparedSubmission}
    (h : prepareSubmission owner clientMessageId content conversationId source requested wantsRetry
      fresh now chat = .ok (prepared, chat')) :
    ∃ attachments conversation mid, requested = .ok attachments ∧
      requestedConversation owner conversationId fresh.conversationId now chat =
        .ok (conversation, mid) ∧
      ((∃ user assistant, mid.userMessage owner clientMessageId = some user ∧
          mid.reservedAssistant owner user = some assistant ∧
          prepareAgain owner content source attachments wantsRetry conversation user assistant now
            mid = .ok (prepared, chat')) ∨
        mid.userMessage owner clientMessageId = none ∧
          prepareNew owner clientMessageId content source attachments conversation fresh now mid =
            .ok (prepared, chat')) := by
  simp only [prepareSubmission, bind_eq_ok, raiseIf_eq_ok, exists_const, Prod.exists] at h
  obtain ⟨-, attachments, hattachments, conversation, mid, hconversation, rows, hrows, h⟩ := h
  refine ⟨attachments, conversation, mid, hattachments, hconversation, ?_⟩
  cases rows with
  | none => exact .inr ⟨submissionRows_eq_none hrows, h⟩
  | some pair =>
    obtain ⟨user, assistant⟩ := pair
    obtain ⟨huser, hassistant⟩ := submissionRows_eq_some hrows
    exact .inl ⟨user, assistant, huser, hassistant, h⟩

/-- A preparation writes no route, and claims a failed message or a new pair at most. -/
theorem prepareSubmission_writes {conversationId : Option String}
    {requested : Except ChatFailure (List AttachmentRecord)} {prepared : PreparedSubmission}
    (h : prepareSubmission owner clientMessageId content conversationId source requested wantsRetry
      fresh now chat = .ok (prepared, chat')) :
    chat'.turnRoutes = chat.turnRoutes ∧
      ((prepared.claimed = false ∧ chat'.messages = chat.messages) ∨
      (prepared.claimed = true ∧ ∃ assistant ∈ chat.messages.rows,
        assistant.role = .assistant ∧ assistant.ownerUserId = owner ∧ assistant.status = .failed ∧
        prepared.assistantMessageId = assistant.id ∧
        prepared.attempt = assistant.attemptCount + 1 ∧
        chat'.messages = chat.messages.update assistant.id (MagiMessage.retried now)) ∨
      prepared.claimed = true ∧ prepared.attempt = 1 ∧ ∃ user assistant,
        ReservedPair chat.messages owner clientMessageId user assistant ∧
        assistant.id = prepared.assistantMessageId ∧
        chat'.messages = (chat.messages.insertOrIgnore user).insertOrIgnore assistant) := by
  obtain ⟨_, _, mid, -, hconversation, ⟨user, assistant, -, hassistant, hagain⟩ | ⟨-, hnew⟩⟩ :=
    prepareSubmission_cases h
  · obtain ⟨-, ⟨hmessages, hroutes⟩, -, -⟩ := requestedConversation_moves hconversation
    obtain ⟨ha, howner, -, -, hrole⟩ := of_reservedAssistant hassistant
    obtain ⟨-, -, hsame, hid, hcase⟩ := prepareAgain_cases hagain ha
    rw [hmessages] at ha hcase
    refine ⟨hsame.trans hroutes, ?_⟩
    rcases hcase with hunclaimed | ⟨hclaimed, hfailed, hattempt, hwritten⟩
    · exact .inl hunclaimed
    · exact .inr (.inl ⟨hclaimed, assistant, ha, hrole, howner, hfailed, hid, hattempt, hwritten⟩)
  · obtain ⟨-, ⟨hmessages, hroutes⟩, -, -⟩ := requestedConversation_moves hconversation
    obtain ⟨hsame, hclaimed, hattempt, user, assistant, hpair, -, hid, hwritten⟩ :=
      prepareNew_cases hnew
    rw [hmessages] at hpair hwritten
    exact ⟨hsame.trans hroutes, .inr (.inr ⟨hclaimed, hattempt, user, assistant, hpair, hid,
      hwritten⟩)⟩

/-- A preparation is a sequence of writes. -/
theorem prepareSubmission_moves {conversationId : Option String}
    {requested : Except ChatFailure (List AttachmentRecord)} {prepared : PreparedSubmission}
    (h : prepareSubmission owner clientMessageId content conversationId source requested wantsRetry
      fresh now chat = .ok (prepared, chat')) : ChatMoves chat chat' := by
  obtain ⟨attachments, conversation, mid, -, hconversation,
    ⟨user, assistant, -, hassistant, h⟩ | ⟨-, h⟩⟩ := prepareSubmission_cases h
  · exact (requestedConversation_moves hconversation).1.trans
      (prepareAgain_cases h (of_reservedAssistant hassistant).1).2.1
  · obtain ⟨hmoves, -, hosted, howner⟩ := requestedConversation_moves hconversation
    exact hmoves.trans (prepareNew_moves h hosted howner)

/-- A generation is a sequence of writes. -/
theorem prepareGeneratedAssistant_moves {generationKey factsSha256 conversationId
    replyToMessageId : String} {prepared : PreparedGeneratedMessage}
    (h : prepareGeneratedAssistant owner generationKey factsSha256 conversationId replyToMessageId
      wantsRetry fresh now chat = .ok (prepared, chat')) : ChatMoves chat chat' := by
  simp only [prepareGeneratedAssistant, bind_eq_ok, raiseIf_eq_ok, exists_const] at h
  obtain ⟨-, conversation, hconversation, -, h⟩ := h
  obtain ⟨hosted, hid, howner⟩ := of_conversationRow hconversation
  split at h
  · split at h
    · simp at h
    · next assistant hassistant =>
      simp only [bind_eq_ok, raiseIf_eq_ok, exists_const] at h
      obtain ⟨-, h⟩ := h
      split at h
      · next hretry =>
        simp only [bind_eq_ok, pure_eq_ok, Prod.exists, Prod.mk.injEq] at h
        obtain ⟨m, mid, hm, -, rfl⟩ := h
        exact retryFailed_moves (of_assistantMessage hassistant).1 hretry.2 hm
      · simp only [pure_eq_ok, Prod.mk.injEq] at h
        exact h.2 ▸ .refl
  · simp only [bind_eq_ok, raiseIf_eq_ok, pure_eq_ok, exists_const, Prod.mk.injEq,
      insertMessage_eq_ok] at h
    obtain ⟨_, ⟨insertable, rfl⟩, -, mid, happend, -, rfl⟩ := h
    have hgenerate := ChatMove.generate _ rfl ⟨conversation, hosted, hid, howner⟩ insertable
    have hrest := (appendChange_moves happend).trans (countDiagnostics_moves mid owner now
      (fun d => { d with messagesSubmitted := d.messagesSubmitted + 1 }) fun _ => rfl)
    refine (Relation.ReflTransGen.single hgenerate).trans (.trans (ChatMoves.other ?_ ?_)
      ((Relation.ReflTransGen.single (.touch _ conversationId now)).trans hrest))
    · rfl
    · rfl

/-- A completion that takes effect finds its message pending at its attempt, and closes it. -/
theorem completeSubmission_cases {id : String} {attempt latencyMs toolCalls : ℕ} {took : Bool}
    (h : completeSubmission owner id attempt content latencyMs toolCalls now chat =
      .ok (took, chat')) :
    (took = false ∧ chat = chat') ∨ took = true ∧ ChatMoves chat chat' ∧
      ∃ m ∈ chat.messages.rows, m.id = id ∧ m.ownerUserId = owner ∧ m.role = .assistant ∧
        m.status = .pending ∧ m.attemptCount = attempt ∧
        chat'.messages =
          chat.messages.update id (MagiMessage.closed .completed content none now) ∧
        chat'.turnRoutes = chat.turnRoutes := by
  unfold completeSubmission at h
  split at h
  · simp at h
  · next m found =>
    split at h
    · obtain ⟨rfl, rfl⟩ : false = took ∧ chat = chat' := by simpa using h
      exact .inl ⟨rfl, rfl⟩
    · next open' =>
      obtain ⟨pending, current⟩ : m.status = .pending ∧ m.attemptCount = attempt := by
        simpa [not_or] using open'
      obtain ⟨stored, hid, howner, hrole⟩ := of_assistantMessage found
      subst hid
      simp only [bind_eq_ok, pure_eq_ok, Prod.mk.injEq] at h
      obtain ⟨mid, hclose, rfl, rfl⟩ := h
      refine .inr ⟨rfl, (closeMessage_moves stored pending hclose).trans
        (countDiagnostics_moves _ _ _ _ _), m, stored, rfl, howner, hrole, pending, current, ?_⟩
      obtain ⟨-, rfl⟩ := appendChange_eq_ok.mp hclose
      exact ⟨rfl, rfl⟩

/-- A failure that takes effect finds its message pending at its attempt, and closes it. -/
theorem failSubmission_cases {id errorCode : String} {attempt toolCalls : ℕ} {took : Bool}
    (h : failSubmission owner id attempt errorCode toolCalls now chat = .ok (took, chat')) :
    (took = false ∧ chat = chat') ∨ took = true ∧ ChatMoves chat chat' ∧
      ∃ m ∈ chat.messages.rows, m.id = id ∧ m.ownerUserId = owner ∧ m.role = .assistant ∧
        m.status = .pending ∧ m.attemptCount = attempt ∧
        chat'.messages =
          chat.messages.update id (MagiMessage.closed .failed "" (some (safeCode errorCode)) now) ∧
        chat'.turnRoutes = chat.turnRoutes := by
  unfold failSubmission at h
  split at h
  · simp at h
  · next m found =>
    split at h
    · obtain ⟨rfl, rfl⟩ : false = took ∧ chat = chat' := by simpa using h
      exact .inl ⟨rfl, rfl⟩
    · next open' =>
      obtain ⟨pending, current⟩ : m.status = .pending ∧ m.attemptCount = attempt := by
        simpa [not_or] using open'
      obtain ⟨stored, hid, howner, hrole⟩ := of_assistantMessage found
      subst hid
      simp only [bind_eq_ok, pure_eq_ok, Prod.mk.injEq] at h
      obtain ⟨mid, hclose, rfl, rfl⟩ := h
      refine .inr ⟨rfl, (closeMessage_moves stored pending hclose).trans
        (countDiagnostics_moves _ _ _ _ _), m, stored, rfl, howner, hrole, pending, current, ?_⟩
      obtain ⟨-, rfl⟩ := appendChange_eq_ok.mp hclose
      exact ⟨rfl, rfl⟩

/-- A cancellation changes nothing, or closes a pending message and its route. -/
theorem cancelSubmission_cases (h : cancelSubmission owner clientMessageId now chat = .ok chat') :
    chat = chat' ∨ ∃ m ∈ chat.messages.rows, m.ownerUserId = owner ∧ m.status = .pending ∧
      chat'.messages = chat.messages.update m.id (MagiMessage.closed .cancelled "" none now) ∧
      chat'.turnRoutes = (closeRoute owner m.id .cancelled now chat).turnRoutes := by
  simp only [cancelSubmission, bind_eq_ok] at h
  obtain ⟨rows, hrows, h⟩ := h
  split at h
  · simp at h
  · next assistant =>
    split at h
    · next pending =>
      simp only [closeMessage, bind_eq_ok, pure_eq_ok] at h
      obtain ⟨mid, happend, rfl⟩ := h
      obtain ⟨-, rfl⟩ := appendChange_eq_ok.mp happend
      obtain ⟨hm, howner, -⟩ := of_reservedAssistant (submissionRows_eq_some hrows).2
      exact .inr ⟨assistant, hm, howner, pending, rfl, rfl⟩
    · rw [pure_eq_ok] at h
      exact .inl h

/-- Recovering one message writes it and its route. -/
theorem recoverMessage_cases {row : MagiMessage} (h : recoverMessage now chat row = .ok chat') :
    chat'.messages = chat.messages.update row.id (MagiMessage.recovered now)
      (MagiMessage.recovered_id now) ∧
      chat'.turnRoutes = (closeRoute row.ownerUserId row.id .failed now chat).turnRoutes := by
  simp only [recoverMessage, bind_eq_ok, pure_eq_ok] at h
  obtain ⟨mid, happend, rfl⟩ := h
  obtain ⟨-, rfl⟩ := appendChange_eq_ok.mp happend
  exact ⟨rfl, rfl⟩

/-- Recovering a message closes it if it is pending. -/
theorem recovered_moves (chat : Chat) (id : String) (now : ℤ) :
    ChatMoves chat { chat with
      messages := chat.messages.update id (MagiMessage.recovered now)
        (MagiMessage.recovered_id now) } := by
  by_cases h : ∃ m, chat.messages.find? id = some m ∧ m.status = .pending
  · obtain ⟨m, found, pending⟩ := h
    obtain ⟨stored, rfl⟩ := Table.mem_of_find? found
    have hsame : chat.messages.update m.id (MagiMessage.recovered now)
        (MagiMessage.recovered_id now) = chat.messages.update m.id
          (MagiMessage.closed .failed "" (some "server_restart") now) := by
      refine Table.update_congr fun r hr => ?_
      obtain rfl : m = r := Option.some.inj (found.symm.trans hr)
      exact if_pos pending
    rw [hsame]
    exact .single (.close m _ _ _ now stored pending)
  · have hsame : chat.messages.update id (MagiMessage.recovered now)
        (MagiMessage.recovered_id now) = chat.messages := by
      have hkeep : ∀ r, chat.messages.find? id = some r → MagiMessage.recovered now r = r :=
        fun r hr => if_neg fun pending => h ⟨r, hr, pending⟩
      exact Table.update_eq_self hkeep
    exact ChatMoves.other hsame rfl

/-- Recovering one message is a sequence of writes. -/
theorem recoverMessage_moves {row : MagiMessage} (h : recoverMessage now chat row = .ok chat') :
    ChatMoves chat chat' := by
  simp only [recoverMessage, bind_eq_ok, pure_eq_ok] at h
  obtain ⟨mid, happend, rfl⟩ := h
  exact (recovered_moves chat row.id now).trans ((Relation.ReflTransGen.single
    (.touch _ row.conversationId now)).trans
      ((appendChange_moves happend).trans (ChatMoves.other rfl rfl)))

/-- Recovering a list of messages is a sequence of writes. -/
theorem recoverMessages_moves {rows : List MagiMessage}
    (h : rows.foldlM (recoverMessage now) chat = .ok chat') : ChatMoves chat chat' := by
  induction rows generalizing chat with
  | nil =>
    obtain rfl : chat = chat' := by simpa [pure, Except.pure] using h
    exact .refl
  | cons row rows ih =>
    simp only [List.foldlM_cons, bind_eq_ok] at h
    obtain ⟨mid, hrow, hrest⟩ := h
    exact (recoverMessage_moves hrow).trans (ih hrest)

/-- Counting for several owners keeps messages and conversations. -/
theorem countEach_moves (owners : List String) (now : ℤ)
    (add : String → ChatDiagnostics → ChatDiagnostics)
    (hadd : ∀ owner d, (add owner d).ownerUserId = d.ownerUserId) (chat : Chat) :
    ChatMoves chat (owners.foldl (fun chat owner =>
      chat.countDiagnostics owner now (add owner) (hadd owner)) chat) := by
  induction owners generalizing chat with
  | nil => exact .refl
  | cons owner owners ih => exact (countDiagnostics_moves chat owner now _ _).trans (ih _)

/-- Counting for several owners keeps messages and routes. -/
theorem countEach_same (owners : List String) (now : ℤ)
    (add : String → ChatDiagnostics → ChatDiagnostics)
    (hadd : ∀ owner d, (add owner d).ownerUserId = d.ownerUserId) (chat : Chat) :
    (owners.foldl (fun chat owner =>
      chat.countDiagnostics owner now (add owner) (hadd owner)) chat).messages = chat.messages ∧
    (owners.foldl (fun chat owner =>
      chat.countDiagnostics owner now (add owner) (hadd owner)) chat).turnRoutes =
        chat.turnRoutes := by
  induction owners generalizing chat with
  | nil => exact ⟨rfl, rfl⟩
  | cons owner owners ih => exact ih _

/-- A recovery is a sequence of writes. -/
theorem recoverOrphanedPending_moves {count : ℕ}
    (h : recoverOrphanedPending now chat = .ok (count, chat')) : ChatMoves chat chat' := by
  simp only [recoverOrphanedPending, bind_eq_ok, pure_eq_ok, Prod.mk.injEq] at h
  obtain ⟨mid, hrows, -, rfl⟩ := h
  exact (recoverMessages_moves hrows).trans (countEach_moves _ now _ _ mid)

/-- A cancellation closes a pending message at most. -/
theorem cancelSubmission_moves (h : cancelSubmission owner clientMessageId now chat = .ok chat') :
    ChatMoves chat chat' := by
  simp only [cancelSubmission, bind_eq_ok] at h
  obtain ⟨rows, hrows, h⟩ := h
  split at h
  · simp at h
  · next assistant =>
    split at h
    · next pending =>
      simp only [bind_eq_ok, pure_eq_ok] at h
      obtain ⟨mid, hclose, rfl⟩ := h
      obtain ⟨-, hassistant⟩ := submissionRows_eq_some hrows
      exact (closeMessage_moves (of_reservedAssistant hassistant).1 pending hclose).trans
        (ChatMoves.other rfl rfl)
    · rw [pure_eq_ok] at h
      exact h ▸ .refl

/-- Recording a route writes its own table only. -/
theorem recordTurnRoute_moves {id : String} {category : RouteCategory}
    {permissionGranted explicitConfirmation : Bool} {outcome : RouteOutcome}
    (h : recordTurnRoute owner id category permissionGranted explicitConfirmation outcome now chat =
      .ok chat') : ChatMoves chat chat' := by
  unfold recordTurnRoute at h
  split at h
  · simp at h
  · split at h <;> exact Except.ok.inj h ▸ ChatMoves.other rfl rfl

/-- A transaction that returns is a sequence of writes. -/
theorem ChatOp.apply_moves {op : ChatOp} (h : op.apply chat = .ok chat') :
    ChatMoves chat chat' := by
  cases op <;> simp only [ChatOp.apply, stateOf_eq_ok] at h
  case prepareSubmission => exact prepareSubmission_moves h.choose_spec
  case prepareGeneratedAssistant => exact prepareGeneratedAssistant_moves h.choose_spec
  case completeSubmission =>
    obtain ⟨took, h⟩ := h
    rcases completeSubmission_cases h with ⟨-, rfl⟩ | ⟨-, hmoves, -⟩
    · exact .refl
    · exact hmoves
  case failSubmission =>
    obtain ⟨took, h⟩ := h
    rcases failSubmission_cases h with ⟨-, rfl⟩ | ⟨-, hmoves, -⟩
    · exact .refl
    · exact hmoves
  case recoverOrphanedPending => exact recoverOrphanedPending_moves h.choose_spec
  case cancelSubmission => exact cancelSubmission_moves h
  case recordTurnRoute => exact recordTurnRoute_moves h

/-- A committed transaction is a sequence of writes; a raise is the empty one. -/
theorem chatStep_moves (chat : Chat) (op : ChatOp) : ChatMoves chat (chatStep chat op) :=
  commit_of (P := fun chat' => ChatMoves chat chat') .refl fun _ h => ChatOp.apply_moves h

end Operations

end Magistrate
