import Magistrate.Gateway.Chat.Messages

/-!
# Native submissions

A client message id has one user message and one assistant message. Attempts of
the assistant message only grow, each of them is claimed once and ended once, and
a completed or cancelled message is never written again.
-/

namespace Magistrate

open MagiChatStore

/-- What no transaction changes of a message. -/
structure MagiMessage.SameIdentity (m m' : MagiMessage) : Prop where
  id : m'.id = m.id
  conversationId : m'.conversationId = m.conversationId
  ownerUserId : m'.ownerUserId = m.ownerUserId
  turnId : m'.turnId = m.turnId
  role : m'.role = m.role
  clientMessageId : m'.clientMessageId = m.clientMessageId
  sequenceIndex : m'.sequenceIndex = m.sequenceIndex

/-- A status that no transaction leaves. -/
def MessageStatus.final : MessageStatus → Bool
  | completed | cancelled => true
  | pending | failed => false

/-- A message later on: attempts only grow, and it is written again only by a new attempt. -/
structure MagiMessage.Kept (m m' : MagiMessage) : Prop extends m.SameIdentity m' where
  attempts : m.attemptCount ≤ m'.attemptCount
  ended : m.status ≠ .pending → m'.attemptCount = m.attemptCount → m' = m
  final : m.status.final → m' = m

/-- Every message is still there later on. -/
def Chat.Grows (chat chat' : Chat) : Prop :=
  ∀ m ∈ chat.messages.rows, ∃ m' ∈ chat'.messages.rows, m.Kept m'

namespace MagiMessage

variable {m m' m'' r r' : MagiMessage}

theorem SameIdentity.refl (m : MagiMessage) : m.SameIdentity m :=
  ⟨rfl, rfl, rfl, rfl, rfl, rfl, rfl⟩

theorem SameIdentity.trans (h : m.SameIdentity m') (h' : m'.SameIdentity m'') :
    m.SameIdentity m'' where
  id := h'.id.trans h.id
  conversationId := h'.conversationId.trans h.conversationId
  ownerUserId := h'.ownerUserId.trans h.ownerUserId
  turnId := h'.turnId.trans h.turnId
  role := h'.role.trans h.role
  clientMessageId := h'.clientMessageId.trans h.clientMessageId
  sequenceIndex := h'.sequenceIndex.trans h.sequenceIndex

/-- Unique keys read the identity of a message only. -/
theorem SameIdentity.collides (hm : m.SameIdentity m') (hr : r.SameIdentity r') :
    m'.collides r' = m.collides r := by
  simp only [MagiMessage.collides, hm.conversationId, hm.ownerUserId, hm.turnId, hm.role,
    hm.clientMessageId, hm.sequenceIndex, hr.conversationId, hr.ownerUserId, hr.turnId, hr.role,
    hr.clientMessageId, hr.sequenceIndex]

/-- Taking each other's unique keys is symmetric. -/
theorem collides_comm (m r : MagiMessage) : m.collides r = r.collides m := by
  unfold collides
  rw [Bool.eq_iff_iff]
  simp only [Bool.or_eq_true, decide_eq_true_eq]
  grind

theorem Kept.refl (m : MagiMessage) : m.Kept m where
  toSameIdentity := .refl m
  attempts := Nat.le_refl _
  ended _ _ := rfl
  final _ := rfl

theorem Kept.trans (h : m.Kept m') (h' : m'.Kept m'') : m.Kept m'' where
  toSameIdentity := h.toSameIdentity.trans h'.toSameIdentity
  attempts := h.attempts.trans h'.attempts
  ended hpending hattempts := by
    have hle := h.attempts
    have hle' := h'.attempts
    obtain rfl := h.ended hpending (by omega)
    exact h'.ended hpending hattempts
  final hfinal := by
    obtain rfl := h.final hfinal
    exact h'.final hfinal

theorem sameIdentity_retried (now : ℤ) (m : MagiMessage) : m.SameIdentity (m.retried now) :=
  ⟨rfl, rfl, rfl, rfl, rfl, rfl, rfl⟩

theorem sameIdentity_closed (status : MessageStatus) (content : String)
    (errorCode : Option String) (now : ℤ) (m : MagiMessage) :
    m.SameIdentity (m.closed status content errorCode now) :=
  ⟨rfl, rfl, rfl, rfl, rfl, rfl, rfl⟩

/-- A failed message is kept when its next attempt is claimed. -/
theorem kept_retried (now : ℤ) (failed : m.status = .failed) : m.Kept (m.retried now) where
  toSameIdentity := sameIdentity_retried now m
  attempts := Nat.le_succ _
  ended _ hattempts := absurd hattempts (Nat.succ_ne_self _)
  final hfinal := by simp [failed, MessageStatus.final] at hfinal

/-- A pending message is kept when its attempt ends. -/
theorem kept_closed (status : MessageStatus) (content : String) (errorCode : Option String)
    (now : ℤ) (pending : m.status = .pending) :
    m.Kept (m.closed status content errorCode now) where
  toSameIdentity := sameIdentity_closed status content errorCode now m
  attempts := Nat.le_refl _
  ended hpending _ := absurd pending hpending
  final hfinal := by simp [pending, MessageStatus.final] at hfinal

end MagiMessage

section Growth

variable {chat chat' chat'' : Chat}

theorem Chat.Grows.refl (chat : Chat) : chat.Grows chat := fun m hm => ⟨m, hm, .refl m⟩

theorem Chat.Grows.trans (h : chat.Grows chat') (h' : chat'.Grows chat'') : chat.Grows chat'' := by
  intro m hm
  obtain ⟨m', hm', hkept⟩ := h m hm
  obtain ⟨m'', hm'', hkept'⟩ := h' m' hm'
  exact ⟨m'', hm'', hkept.trans hkept'⟩

/-- Replacing a message by a later version of it keeps every message. -/
theorem Chat.grows_update {f : MagiMessage → MagiMessage} {hf : ∀ m, (f m).id = m.id}
    {m : MagiMessage} (stored : m ∈ chat.messages.rows) (h : m.Kept (f m)) :
    chat.Grows { chat with messages := chat.messages.update m.id f hf } := by
  intro r hr
  by_cases hid : r.id = m.id
  · obtain rfl := Table.eq_of_mem hr stored hid
    refine ⟨f r, ?_, h⟩
    rw [Table.mem_update]
    exact ⟨r, hr, if_pos rfl⟩
  · refine ⟨r, ?_, .refl r⟩
    rw [Table.mem_update]
    exact ⟨r, hr, if_neg hid⟩

/-- Every write keeps every message. -/
theorem ChatMove.grows (h : ChatMove chat chat') : chat.Grows chat' := by
  cases h with
  | other messages conversations =>
    intro m hm
    exact ⟨m, messages ▸ hm, .refl m⟩
  | reserve user assistant =>
    intro m hm
    exact ⟨m, Table.mem_insertOrIgnore_of_mem (Table.mem_insertOrIgnore_of_mem hm), .refl m⟩
  | generate assistant =>
    intro m hm
    exact ⟨m, Table.mem_insertOrIgnore_of_mem hm, .refl m⟩
  | retry m now stored failed =>
    exact Chat.grows_update stored (MagiMessage.kept_retried now failed)
  | close m status content errorCode now stored pending =>
    exact Chat.grows_update stored (MagiMessage.kept_closed status content errorCode now pending)

/-- Every transaction keeps every message. -/
theorem ChatMoves.grows (h : ChatMoves chat chat') : chat.Grows chat' := by
  induction h with
  | refl => exact .refl chat
  | tail _ hmove ih => exact ih.trans hmove.grows

/-- Every run keeps every message. -/
theorem Chat.grows_run (chat : Chat) (steps : List ChatOp) : chat.Grows (run chatStep chat steps) :=
  run_monotone Chat.Grows.refl (fun _ _ _ => Chat.Grows.trans)
    (fun chat op => (chatStep_moves chat op).grows) chat steps

end Growth

/-- The messages of submissions: keys are unique, every user message has an assistant message
in its turn, and every message is in a conversation of its owner. -/
structure Submissions (chat : Chat) : Prop where
  apart : ∀ m ∈ chat.messages.rows, ∀ r ∈ chat.messages.rows, m.collides r = true → r = m
  answered : ∀ m ∈ chat.messages.rows, m.role = .user → ∃ a ∈ chat.messages.rows,
    a.ownerUserId = m.ownerUserId ∧ a.conversationId = m.conversationId ∧ a.turnId = m.turnId ∧
      a.role = .assistant
  hosted : ∀ m ∈ chat.messages.rows, Hosted chat m

namespace Submissions

variable {chat chat' : Chat}

theorem initial : Submissions .initial where
  apart _ hm := by simp [Chat.initial] at hm
  answered _ hm := by simp [Chat.initial] at hm
  hosted _ hm := by simp [Chat.initial] at hm

/-- A write of other tables keeps the submissions. -/
theorem other (h : Submissions chat) (messages : chat'.messages = chat.messages)
    (conversations : KeepsConversations chat chat') : Submissions chat' where
  apart := messages ▸ h.apart
  answered := messages ▸ h.answered
  hosted m hm := by
    obtain ⟨c, hc, hid, howner⟩ := h.hosted m (messages ▸ hm)
    obtain ⟨c', hc', hid', howner'⟩ := conversations c hc
    exact ⟨c', hc', hid'.trans hid, howner'.trans howner⟩

/-- A message with free keys stays apart from the stored ones. -/
theorem apart_insert {messages : Table MagiMessage.id} {m : MagiMessage}
    (h : ∀ m ∈ messages.rows, ∀ r ∈ messages.rows, m.collides r = true → r = m)
    (insertable : Insertable messages m) :
    ∀ s ∈ (messages.insertOrIgnore m).rows, ∀ r ∈ (messages.insertOrIgnore m).rows,
      s.collides r = true → r = s := by
  intro s hs r hr hcollides
  rcases Table.mem_insertOrIgnore hs with olds | ⟨-, rfl⟩
  · rcases Table.mem_insertOrIgnore hr with oldr | ⟨-, rfl⟩
    · exact h s olds r oldr hcollides
    · rw [MagiMessage.collides_comm, insertable.apart s olds] at hcollides
      exact absurd hcollides (by simp)
  · rcases Table.mem_insertOrIgnore hr with oldr | ⟨-, rfl⟩
    · rw [insertable.apart r oldr] at hcollides
      exact absurd hcollides (by simp)
    · rfl

/-- Replacing a message under its identity keeps the submissions. -/
theorem update (h : Submissions chat) {f : MagiMessage → MagiMessage}
    {hf : ∀ m, (f m).id = m.id} (same : ∀ m, MagiMessage.SameIdentity m (f m)) (id : String) :
    Submissions { chat with messages := chat.messages.update id f hf } := by
  have hsame : ∀ r : MagiMessage, r.SameIdentity (if r.id = id then f r else r) := by
    intro r
    split
    · exact same r
    · exact .refl r
  have hrows : ∀ s ∈ (chat.messages.update id f hf).rows,
      ∃ r ∈ chat.messages.rows, (if r.id = id then f r else r) = s := by
    intro s hs
    rwa [Table.mem_update] at hs
  refine ⟨fun m' hm' r' hr' hcollides => ?_, fun m' hm' hrole => ?_, fun m' hm' => ?_⟩
  · obtain ⟨m, hm, rfl⟩ := hrows m' hm'
    obtain ⟨r, hr, rfl⟩ := hrows r' hr'
    rw [(hsame m).collides (hsame r)] at hcollides
    rw [h.apart m hm r hr hcollides]
  · obtain ⟨m, hm, rfl⟩ := hrows m' hm'
    obtain ⟨a, ha, howner, hconversation, hturn, hassistant⟩ :=
      h.answered m hm ((hsame m).role.symm.trans hrole)
    refine ⟨_, Table.mem_update_of_mem hf ha id, ?_⟩
    exact ⟨(hsame a).ownerUserId.trans (howner.trans (hsame m).ownerUserId.symm),
      (hsame a).conversationId.trans (hconversation.trans (hsame m).conversationId.symm),
      (hsame a).turnId.trans (hturn.trans (hsame m).turnId.symm),
      (hsame a).role.trans hassistant⟩
  · obtain ⟨m, hm, rfl⟩ := hrows m' hm'
    obtain ⟨c, hc, hid, howner⟩ := h.hosted m hm
    exact ⟨c, hc, hid.trans (hsame m).conversationId.symm,
      howner.trans (hsame m).ownerUserId.symm⟩

/-- A reserved pair is a submission. -/
theorem reserve (h : Submissions chat) {user assistant : MagiMessage}
    (userRole : user.role = .user) (assistantRole : assistant.role = .assistant)
    (paired : assistant.ownerUserId = user.ownerUserId ∧
      assistant.conversationId = user.conversationId ∧ assistant.turnId = user.turnId)
    (hosted : Hosted chat user) (insertUser : Insertable chat.messages user)
    (insertAssistant : Insertable (chat.messages.insertOrIgnore user) assistant) :
    Submissions { chat with
      messages := (chat.messages.insertOrIgnore user).insertOrIgnore assistant } := by
  have hstored : assistant ∈
      ((chat.messages.insertOrIgnore user).insertOrIgnore assistant).rows :=
    Table.mem_insertOrIgnore_self insertAssistant.freeId
  refine ⟨apart_insert (apart_insert h.apart insertUser) insertAssistant, fun m hm hrole => ?_,
    fun m hm => ?_⟩
  · rcases Table.mem_insertOrIgnore hm with hm | ⟨-, rfl⟩
    · rcases Table.mem_insertOrIgnore hm with hm | ⟨-, rfl⟩
      · obtain ⟨a, ha, hpaired⟩ := h.answered m hm hrole
        exact ⟨a, Table.mem_insertOrIgnore_of_mem (Table.mem_insertOrIgnore_of_mem ha), hpaired⟩
      · exact ⟨assistant, hstored, paired.1, paired.2.1, paired.2.2, assistantRole⟩
    · exact absurd (hrole.symm.trans assistantRole) (by simp)
  · rcases Table.mem_insertOrIgnore hm with hm | ⟨-, rfl⟩
    · rcases Table.mem_insertOrIgnore hm with hm | ⟨-, rfl⟩
      · exact h.hosted m hm
      · exact hosted
    · obtain ⟨c, hc, hid, howner⟩ := hosted
      exact ⟨c, hc, hid.trans paired.2.1.symm, howner.trans paired.1.symm⟩

/-- A generated message joins no submission. -/
theorem generate (h : Submissions chat) {assistant : MagiMessage}
    (assistantRole : assistant.role = .assistant) (hosted : Hosted chat assistant)
    (insertable : Insertable chat.messages assistant) :
    Submissions { chat with messages := chat.messages.insertOrIgnore assistant } := by
  refine ⟨apart_insert h.apart insertable, fun m hm hrole => ?_, fun m hm => ?_⟩
  · rcases Table.mem_insertOrIgnore hm with hm | ⟨-, rfl⟩
    · obtain ⟨a, ha, hpaired⟩ := h.answered m hm hrole
      exact ⟨a, Table.mem_insertOrIgnore_of_mem ha, hpaired⟩
    · exact absurd (hrole.symm.trans assistantRole) (by simp)
  · rcases Table.mem_insertOrIgnore hm with hm | ⟨-, rfl⟩
    · exact h.hosted m hm
    · exact hosted

/-- Every write keeps the submissions. -/
theorem move (h : Submissions chat) (hmove : ChatMove chat chat') : Submissions chat' := by
  cases hmove with
  | other messages conversations => exact h.other messages conversations
  | reserve user assistant userRole assistantRole paired hosted insertUser insertAssistant =>
    exact h.reserve userRole assistantRole paired hosted insertUser insertAssistant
  | generate assistant assistantRole hosted insertable =>
    exact h.generate assistantRole hosted insertable
  | retry m now => exact h.update (MagiMessage.sameIdentity_retried now) m.id
  | close m status content errorCode now =>
    exact h.update (MagiMessage.sameIdentity_closed status content errorCode now) m.id

/-- Every transaction keeps the submissions. -/
theorem moves (h : Submissions chat) (hmoves : ChatMoves chat chat') : Submissions chat' := by
  induction hmoves with
  | refl => exact h
  | tail _ hmove ih => exact ih.move hmove

/-- Every run from a new database keeps the submissions. -/
theorem of_run (steps : List ChatOp) : Submissions (run chatStep .initial steps) :=
  run_invariant' (fun chat op h => h.moves (chatStep_moves chat op)) steps initial

end Submissions

/-- A preparation of an owner's client message id that claims an attempt. -/
def Claims (chat : Chat) (owner clientMessageId : String) (attempt : ℕ) : ChatOp → Prop
  | .prepareSubmission o c content conversationId source attachments wantsRetry fresh now =>
    o = owner ∧ c = clientMessageId ∧ ∃ prepared chat',
      prepareSubmission o c content conversationId source attachments wantsRetry fresh now chat =
        .ok (prepared, chat') ∧ prepared.claimed = true ∧ prepared.attempt = attempt
  | _ => False

/-- A completion or a failure that takes effect on an attempt of an assistant message. -/
def Ends (chat : Chat) (assistantMessageId : String) (attempt : ℕ) : ChatOp → Prop
  | .completeSubmission owner id a content latencyMs toolCalls now =>
    id = assistantMessageId ∧ a = attempt ∧ ∃ chat',
      completeSubmission owner id a content latencyMs toolCalls now chat = .ok (true, chat')
  | .failSubmission owner id a errorCode toolCalls now =>
    id = assistantMessageId ∧ a = attempt ∧ ∃ chat',
      failSubmission owner id a errorCode toolCalls now chat = .ok (true, chat')
  | _ => False

/-- The user messages of an owner's client message id. -/
def Chat.usersOf (chat : Chat) (owner clientMessageId : String) : List MagiMessage :=
  chat.messages.rows.filter fun m =>
    m.ownerUserId = owner ∧ m.clientMessageId = some clientMessageId ∧ m.role = .user

/-- The assistant messages in the turn of a user message. -/
def Chat.assistantsOf (chat : Chat) (user : MagiMessage) : List MagiMessage :=
  chat.messages.rows.filter fun m =>
    m.conversationId = user.conversationId ∧ m.turnId = user.turnId ∧ m.role = .assistant

/-- The id of the conversation a request names, if it is there. -/
def Chat.requestedId (chat : Chat) (owner : String) (conversationId : Option String) :
    Option String :=
  match conversationId.filter (· ≠ "") with
  | some id => some id
  | none => (chat.defaultOf owner).map (·.id)

/-- A request that is not the one its client message id is bound to. -/
def Differs (chat : Chat) (owner content : String) (conversationId : Option String)
    (source : String) (attachments : Except ChatFailure (List AttachmentRecord))
    (user : MagiMessage) : Prop :=
  chat.requestedId owner conversationId ≠ some user.conversationId ∨ user.content ≠ content ∨
    user.source ≠ source ∨ attachments ≠ .ok user.attachments

namespace Submissions

variable {chat chat' : Chat} {owner clientMessageId : String}

/-- The user message of a client message id is the one that is found. -/
theorem userMessage_eq (h : Submissions chat) {user m : MagiMessage}
    (found : chat.userMessage owner clientMessageId = some user) (stored : m ∈ chat.messages.rows)
    (howner : m.ownerUserId = owner) (hclient : m.clientMessageId = some clientMessageId) :
    m = user := by
  obtain ⟨huser, howner', hclient', -⟩ := of_userMessage found
  refine h.apart user huser m stored ?_
  simp [MagiMessage.collides, howner, howner', hclient, hclient']

/-- The assistant message of a turn is the one that is found. -/
theorem reservedAssistant_eq (h : Submissions chat) {user assistant m : MagiMessage}
    (found : chat.reservedAssistant owner user = some assistant) (stored : m ∈ chat.messages.rows)
    (hconversation : m.conversationId = user.conversationId) (hturn : m.turnId = user.turnId)
    (hrole : m.role = .assistant) : m = assistant := by
  obtain ⟨hassistant, -, hconversation', hturn', hrole'⟩ := of_reservedAssistant found
  refine h.apart assistant hassistant m stored ?_
  simp [MagiMessage.collides, hconversation, hconversation', hturn, hturn', hrole, hrole']

/-- A client message id has at most one user message. -/
theorem usersOf_le (h : Submissions chat) (owner clientMessageId : String) :
    (chat.usersOf owner clientMessageId).length ≤ 1 := by
  have hnodup : (chat.usersOf owner clientMessageId).Nodup :=
    (List.Nodup.of_map _ chat.messages.unique).filter _
  refine length_le_one_of_unique hnodup fun m hm r hr => ?_
  simp only [Chat.usersOf, List.mem_filter, decide_eq_true_eq] at hm hr
  obtain ⟨hm, howner, hclient, -⟩ := hm
  obtain ⟨hr, howner', hclient', -⟩ := hr
  refine h.apart r hr m hm ?_
  simp [MagiMessage.collides, howner, howner', hclient, hclient']

/-- A user message has one assistant message. -/
theorem assistantsOf_eq_one (h : Submissions chat) {user : MagiMessage}
    (hu : user ∈ chat.messages.rows) (hrole : user.role = .user) :
    (chat.assistantsOf user).length = 1 := by
  obtain ⟨a, ha, -, hconversation, hturn, hassistant⟩ := h.answered user hu hrole
  rw [Chat.assistantsOf, ← List.countP_eq_length_filter]
  refine countP_eq_one_of_unique (List.Nodup.of_map _ chat.messages.unique) ha ?_
    fun m hm hp => h.apart a ha m hm ?_
  · simp [hconversation, hturn, hassistant]
  · obtain ⟨hconversation', hturn', hrole'⟩ := of_decide_eq_true hp
    simp [MagiMessage.collides, hconversation, hconversation', hturn, hturn', hassistant, hrole']

/-- A claim leaves the assistant message of its client message id at the claimed attempt. -/
theorem attempt_of_claims {op : ChatOp} {attempt : ℕ}
    (hclaim : Claims chat owner clientMessageId attempt op) :
    ∃ user ∈ (chatStep chat op).messages.rows, ∃ assistant ∈ (chatStep chat op).messages.rows,
      user.ownerUserId = owner ∧ user.clientMessageId = some clientMessageId ∧
      user.role = .user ∧ assistant.conversationId = user.conversationId ∧
      assistant.turnId = user.turnId ∧ assistant.role = .assistant ∧
      assistant.attemptCount = attempt := by
  cases op with
  | prepareSubmission o c content conversationId source attachments wantsRetry fresh now =>
    obtain ⟨rfl, rfl, prepared, chat', hprepare, hclaimed, rfl⟩ := hclaim
    have hstep : chatStep chat (.prepareSubmission o c content conversationId source attachments
        wantsRetry fresh now) = chat' := by
      simp [chatStep, ChatOp.apply, hprepare]
    rw [hstep]
    obtain ⟨_, _, mid, -, hconversation,
      ⟨user, assistant, huser, hassistant, hagain⟩ | ⟨-, hnew⟩⟩ :=
      prepareSubmission_cases hprepare
    · obtain ⟨ha, -, hconv, hturn, harole⟩ := of_reservedAssistant hassistant
      obtain ⟨-, hmoves, -, -, ⟨hunclaimed, -⟩ | ⟨-, -, hattempt, hmessages⟩⟩ :=
        prepareAgain_cases hagain ha
      · exact absurd (hunclaimed.symm.trans hclaimed) (by simp)
      · obtain ⟨hu, howner, hclient, hrole⟩ := of_userMessage huser
        obtain ⟨user', hu', hkept⟩ := hmoves.grows user hu
        have hstored : MagiMessage.retried now assistant ∈ chat'.messages.rows := by
          rw [hmessages, Table.mem_update]
          exact ⟨assistant, ha, if_pos rfl⟩
        exact ⟨user', hu', _, hstored, hkept.ownerUserId.trans howner,
          hkept.clientMessageId.trans hclient, hkept.role.trans hrole,
          hconv.trans hkept.conversationId.symm, hturn.trans hkept.turnId.symm, harole,
          hattempt.symm⟩
    · obtain ⟨-, -, hattempt, user, assistant, hpair, -, -, hmessages⟩ := prepareNew_cases hnew
      have ha : assistant ∈ chat'.messages.rows := by
        rw [hmessages]
        exact Table.mem_insertOrIgnore_self hpair.insertAssistant.freeId
      have hu : user ∈ chat'.messages.rows := by
        rw [hmessages]
        exact Table.mem_insertOrIgnore_of_mem
          (Table.mem_insertOrIgnore_self hpair.insertUser.freeId)
      exact ⟨user, hu, assistant, ha, hpair.userOwner, hpair.client, hpair.userRole,
        hpair.conversation, hpair.turn, hpair.assistantRole, hpair.attempt.trans hattempt.symm⟩
  | _ => exact hclaim.elim

/-- A claim is a later attempt than every one its client message id has reached. -/
theorem lt_of_claims (h : Submissions chat) {op : ChatOp} {attempt : ℕ}
    (hclaim : Claims chat owner clientMessageId attempt op) {user assistant : MagiMessage}
    (hu : user ∈ chat.messages.rows) (ha : assistant ∈ chat.messages.rows)
    (howner : user.ownerUserId = owner) (hclient : user.clientMessageId = some clientMessageId)
    (hrole : user.role = .user) (hconv : assistant.conversationId = user.conversationId)
    (hturn : assistant.turnId = user.turnId) (harole : assistant.role = .assistant) :
    assistant.attemptCount < attempt := by
  cases op with
  | prepareSubmission o c content conversationId source attachments wantsRetry fresh now =>
    obtain ⟨rfl, rfl, prepared, chat', hprepare, hclaimed, rfl⟩ := hclaim
    obtain ⟨_, _, mid, -, hconversation, hcase⟩ := prepareSubmission_cases hprepare
    obtain ⟨hmoves, ⟨hmessages, -⟩, -, -⟩ := requestedConversation_moves hconversation
    have hmid := h.moves hmoves
    rw [← hmessages] at hu ha
    rcases hcase with ⟨user', assistant', huser', hassistant', hagain⟩ | ⟨hnone, -⟩
    · obtain rfl := hmid.userMessage_eq huser' hu howner hclient
      obtain rfl := hmid.reservedAssistant_eq hassistant' ha hconv hturn harole
      obtain ⟨-, -, -, -, ⟨hunclaimed, -⟩ | ⟨-, -, hattempt, -⟩⟩ := prepareAgain_cases hagain ha
      · exact absurd (hunclaimed.symm.trans hclaimed) (by simp)
      · omega
    · have hno := List.find?_eq_none.mp hnone user hu
      simp [howner, hclient, hrole] at hno
  | _ => exact hclaim.elim

/-- Two claims of one client message id are of different attempts. -/
theorem claims_lt (h : Submissions chat) {first second : ChatOp} {between : List ChatOp}
    {a b : ℕ} (hfirst : Claims chat owner clientMessageId a first)
    (hsecond : Claims (run chatStep chat (first :: between)) owner clientMessageId b second) :
    a < b := by
  obtain ⟨user, hu, assistant, ha, howner, hclient, hrole, hconv, hturn, harole, rfl⟩ :=
    attempt_of_claims hfirst
  have hgrows := Chat.grows_run (chatStep chat first) between
  obtain ⟨user', hu', hkept⟩ := hgrows user hu
  obtain ⟨assistant', ha', hkept'⟩ := hgrows assistant ha
  have hlater := run_invariant' (fun chat op h => h.moves (chatStep_moves chat op))
    (first :: between) h
  have hlt := hlater.lt_of_claims hsecond hu' ha' (hkept.ownerUserId.trans howner)
    (hkept.clientMessageId.trans hclient) (hkept.role.trans hrole)
    (hkept'.conversationId.trans (hconv.trans hkept.conversationId.symm))
    (hkept'.turnId.trans (hturn.trans hkept.turnId.symm)) (hkept'.role.trans harole)
  exact lt_of_le_of_lt hkept'.attempts hlt

/-- A request that returns names a stored conversation or opens a new one. -/
theorem requestedId_of_ok {conversationId : Option String} {freshId : String} {now : ℤ}
    {c : MagiConversation}
    (h : requestedConversation owner conversationId freshId now chat = .ok (c, chat')) :
    chat.requestedId owner conversationId = some c.id ∨
      ∀ d ∈ chat.conversations.rows, d.id ≠ c.id := by
  unfold requestedConversation at h
  split at h
  · next named =>
    simp only [bind_eq_ok, pure_eq_ok, Prod.mk.injEq] at h
    obtain ⟨_, hrow, rfl, rfl⟩ := h
    obtain ⟨-, hid, -⟩ := of_conversationRow hrow
    exact .inl (by rw [Chat.requestedId, named, hid])
  · next unnamed =>
    unfold defaultConversation at h
    split at h
    · next found =>
      obtain ⟨rfl, rfl⟩ : _ = c ∧ chat = chat' := by simpa using h
      exact .inl (by rw [Chat.requestedId, unnamed, found, Option.map_some])
    · simp only [Chat.insertConversation, bind_eq_ok, raiseIf_eq_ok, pure_eq_ok, exists_const,
        Prod.mk.injEq, not_not] at h
      obtain ⟨_, ⟨free, -, rfl⟩, rfl, rfl⟩ := h
      exact .inr (Table.find?_eq_none_iff.mp free)

/-- A request that differs from the one its client message id is bound to raises. -/
theorem prepareSubmission_raises (h : Submissions chat) {content source : String}
    {conversationId : Option String}
    {attachments : Except ChatFailure (List AttachmentRecord)} {user : MagiMessage}
    (hu : user ∈ chat.usersOf owner clientMessageId)
    (hdiffers : Differs chat owner content conversationId source attachments user)
    (wantsRetry : Bool) (fresh : FreshIds) (now : ℤ) :
    ∃ e, prepareSubmission owner clientMessageId content conversationId source attachments
      wantsRetry fresh now chat = .error e := by
  obtain ⟨hu, howner, hclient, hrole⟩ : user ∈ chat.messages.rows ∧ user.ownerUserId = owner ∧
      user.clientMessageId = some clientMessageId ∧ user.role = .user := by
    simpa [Chat.usersOf] using hu
  cases hprepare : prepareSubmission owner clientMessageId content conversationId source
      attachments wantsRetry fresh now chat with
  | error e => exact ⟨e, rfl⟩
  | ok result =>
    exfalso
    obtain ⟨prepared, chat'⟩ := result
    obtain ⟨stored, conversation, mid, hattachments, hconversation, hcase⟩ :=
      prepareSubmission_cases hprepare
    obtain ⟨hmoves, ⟨hmessages, -⟩, -, -⟩ := requestedConversation_moves hconversation
    rcases hcase with ⟨user', assistant, huser', hassistant, hagain⟩ | ⟨hnone, -⟩
    · have hstored : user ∈ mid.messages.rows := hmessages ▸ hu
      obtain rfl := (h.moves hmoves).userMessage_eq huser' hstored howner hclient
      obtain ⟨⟨hconv, hcontent, hsource, hsame⟩, -⟩ :=
        prepareAgain_cases hagain (of_reservedAssistant hassistant).1
      rcases hdiffers with hid | hother | hother | hother
      · rcases requestedId_of_ok hconversation with heq | hnew
        · exact hid (heq.trans (congrArg some hconv.symm))
        · obtain ⟨c, hc, hcid, -⟩ := h.hosted user hu
          exact hnew c hc (hcid.trans hconv)
      · exact hother hcontent
      · exact hother hsource
      · exact hother (hattachments.trans (congrArg Except.ok hsame.symm))
    · have hno := List.find?_eq_none.mp hnone user (hmessages ▸ hu)
      simp [howner, hclient, hrole] at hno

end Submissions

/-- An attempt that ends was pending, and is not afterwards. -/
theorem Ends.message {chat : Chat} {id : String} {attempt : ℕ} {op : ChatOp}
    (h : Ends chat id attempt op) :
    (∃ m ∈ chat.messages.rows, m.id = id ∧ m.status = .pending ∧ m.attemptCount = attempt) ∧
      ∃ m ∈ (chatStep chat op).messages.rows, m.id = id ∧ m.status ≠ .pending ∧
        m.attemptCount = attempt := by
  cases op with
  | completeSubmission owner i a content latencyMs toolCalls now =>
    obtain ⟨rfl, rfl, chat', hcomplete⟩ := h
    have hstep : chatStep chat (.completeSubmission owner i a content latencyMs toolCalls now) =
        chat' := by simp [chatStep, ChatOp.apply, hcomplete]
    rcases completeSubmission_cases hcomplete with ⟨hfalse, -⟩ | ⟨-, -, m, hm, hid, -, -, pending,
      current, hmessages, -⟩
    · exact absurd hfalse (by simp)
    · refine ⟨⟨m, hm, hid, pending, current⟩, m.closed .completed content none now, ?_, hid,
        by simp, current⟩
      rw [hstep, hmessages, Table.mem_update]
      exact ⟨m, hm, if_pos hid⟩
  | failSubmission owner i a errorCode toolCalls now =>
    obtain ⟨rfl, rfl, chat', hfail⟩ := h
    have hstep : chatStep chat (.failSubmission owner i a errorCode toolCalls now) = chat' := by
      simp [chatStep, ChatOp.apply, hfail]
    rcases failSubmission_cases hfail with ⟨hfalse, -⟩ | ⟨-, -, m, hm, hid, -, -, pending,
      current, hmessages, -⟩
    · exact absurd hfalse (by simp)
    · refine ⟨⟨m, hm, hid, pending, current⟩,
        m.closed .failed "" (some (safeCode errorCode)) now, ?_, hid, by simp, current⟩
      rw [hstep, hmessages, Table.mem_update]
      exact ⟨m, hm, if_pos hid⟩
  | _ => exact h.elim

/-- Two ends of one message are of different attempts. -/
theorem ends_lt {chat : Chat} {id : String} {a b : ℕ} {first second : ChatOp}
    {between : List ChatOp} (hfirst : Ends chat id a first)
    (hsecond : Ends (run chatStep chat (first :: between)) id b second) : a < b := by
  obtain ⟨-, m, hm, hid, ended, rfl⟩ := hfirst.message
  obtain ⟨⟨m', hm', hid', pending, rfl⟩, -⟩ := hsecond.message
  obtain ⟨r, hr, hkept⟩ := Chat.grows_run (chatStep chat first) between m hm
  obtain rfl := Table.eq_of_mem hr hm' (hkept.id.trans (hid.trans hid'.symm))
  rcases Nat.lt_or_eq_of_le hkept.attempts with hlt | heq
  · exact hlt
  · rw [hkept.ended ended heq.symm] at pending
    exact absurd pending ended

/-- Native submission is exactly once. Along every run of the chat store, a client message id has
at most one user message, and that has one assistant message; the attempts that are claimed for it
are distinct, and so are those of a message that completions and failures end; a completed or
cancelled assistant message stays as it is; and a request that differs from the stored one raises
and writes nothing. -/
theorem native_submission_exactly_once (owner clientMessageId : String) (before : List ChatOp) :
    let chat := run chatStep .initial before
    ((chat.usersOf owner clientMessageId).length ≤ 1 ∧
      ∀ user ∈ chat.usersOf owner clientMessageId, (chat.assistantsOf user).length = 1) ∧
    (∀ first between second a b, Claims chat owner clientMessageId a first →
      Claims (run chatStep chat (first :: between)) owner clientMessageId b second → a < b) ∧
    (∀ first between second id a b, Ends chat id a first →
      Ends (run chatStep chat (first :: between)) id b second → a < b) ∧
    (∀ after, ∀ m ∈ chat.messages.rows, m.role = .assistant →
      m.status = .completed ∨ m.status = .cancelled →
      m ∈ (run chatStep .initial (before ++ after)).messages.rows) ∧
    ∀ user ∈ chat.usersOf owner clientMessageId,
      ∀ content conversationId source attachments wantsRetry fresh now,
      Differs chat owner content conversationId source attachments user →
      (∃ e, prepareSubmission owner clientMessageId content conversationId source attachments
        wantsRetry fresh now chat = .error e) ∧
      chatStep chat (.prepareSubmission owner clientMessageId content conversationId source
        attachments wantsRetry fresh now) = chat := by
  intro chat
  have hchat : Submissions chat := Submissions.of_run before
  refine ⟨⟨hchat.usersOf_le owner clientMessageId, fun user hu => ?_⟩,
    fun _ _ _ _ _ hfirst hsecond => hchat.claims_lt hfirst hsecond,
    fun _ _ _ _ _ _ hfirst hsecond => ends_lt hfirst hsecond, fun after m hm _ hstatus => ?_,
    fun user hu content conversationId source attachments wantsRetry fresh now hdiffers => ?_⟩
  · obtain ⟨hstored, -, -, hrole⟩ : user ∈ chat.messages.rows ∧ user.ownerUserId = owner ∧
        user.clientMessageId = some clientMessageId ∧ user.role = .user := by
      simpa [Chat.usersOf] using hu
    exact hchat.assistantsOf_eq_one hstored hrole
  · rw [run_append]
    obtain ⟨m', hm', hkept⟩ := Chat.grows_run chat after m hm
    have hfinal : m.status.final := by rcases hstatus with h | h <;> rw [h] <;> rfl
    exact hkept.final hfinal ▸ hm'
  · obtain ⟨e, hraises⟩ := hchat.prepareSubmission_raises hu hdiffers wantsRetry fresh now
    refine ⟨⟨e, hraises⟩, ?_⟩
    simp [chatStep, ChatOp.apply, hraises]

end Magistrate
