import Magistrate.Gateway.Chat.Revisions

/-!
# Paging a conversation

A client pages a conversation from its newest messages back to its first one while
others write to it. New messages come after every message that was there, so that
what is before a cursor does not change any more.
-/

namespace Magistrate

open MagiChatStore

/-- A client that pages a conversation: the store, the messages of the pages that it has, in the
order of the pages, and the cursor of what is left. -/
structure PagingSession where
  chat : Chat
  messages : List PublicMessage
  nextBefore : Option ℕ

/-- What happens in a session: somebody's transaction, or the client's next call. -/
inductive PagingStep where
  | store (step : StoreStep)
  | list (requested : Option String) (limit : ℤ) (freshId : String) (now : ℤ)

/-- An older page goes before those that the client has. -/
def PagingSession.receive (s : PagingSession) (page : ConversationPage) (chat : Chat) :
    PagingSession where
  chat := chat
  messages := page.messages ++ s.messages
  nextBefore := page.nextBefore

/-- The session after a step: the client lists what is before its cursor until nothing is left, and
takes no page of another conversation. -/
def pagingStep (owner conversationId : String) (s : PagingSession) : PagingStep → PagingSession
  | .store step => { s with chat := storeStep s.chat step }
  | .list requested limit freshId now =>
    match s.nextBefore with
    | none => s
    | some before =>
      match listConversation owner requested (some before) limit freshId now s.chat with
      | .ok (page, chat) =>
        if page.conversationId = conversationId then s.receive page chat else { s with chat }
      | .error _ => s

/-- Paging begins with the newest page of the conversation. -/
inductive Opens (owner conversationId : String) (chat : Chat) : PagingSession → Prop where
  | newest {requested : Option String} {limit : ℤ} {freshId : String} {now : ℤ}
      {page : ConversationPage} {chat' : Chat}
      (listed : listConversation owner requested none limit freshId now chat = .ok (page, chat'))
      (conversation : page.conversationId = conversationId) :
      Opens owner conversationId chat ⟨chat', page.messages, page.nextBefore⟩

/-- Messages that are written later are versions of earlier ones, or come after every earlier one of
their conversation. -/
structure AppendsTo (messages messages' : Table MagiMessage.id) : Prop where
  revised : AllRevised messages messages'
  appended : ∀ m' ∈ messages'.rows, (∃ m ∈ messages.rows, m.SameIdentity m') ∨
    ∀ m ∈ messages.rows, m.conversationId = m'.conversationId → m.sequenceIndex < m'.sequenceIndex

/-- The operation reserves messages. -/
def ChatOp.reserves : ChatOp → Bool
  | prepareSubmission .. | prepareGeneratedAssistant .. => true
  | _ => false

namespace AppendsTo

variable {messages messages' messages'' : Table MagiMessage.id}

theorem refl (messages : Table MagiMessage.id) : AppendsTo messages messages :=
  ⟨.refl messages, fun m hm => .inl ⟨m, hm, .refl m⟩⟩

theorem trans (h : AppendsTo messages messages') (h' : AppendsTo messages' messages'') :
    AppendsTo messages messages'' := by
  refine ⟨h.revised.trans h'.revised, fun m'' hm'' => ?_⟩
  rcases h'.appended m'' hm'' with ⟨m', hm', hsame⟩ | hafter
  · rcases h.appended m' hm' with ⟨m, hm, hsame'⟩ | hafter
    · exact .inl ⟨m, hm, hsame'.trans hsame⟩
    · refine .inr fun m hm hconv => ?_
      rw [hsame.sequenceIndex]
      exact hafter m hm (hconv.trans hsame.conversationId)
  · refine .inr fun m hm hconv => ?_
    obtain ⟨m', hm', hrevises⟩ := h.revised m hm
    rw [← hrevises.sequenceIndex]
    exact hafter m' hm' (hrevises.conversationId.trans hconv)

/-- A message after all of its conversation is appended. -/
theorem insert {m : MagiMessage} (after : ∀ r ∈ messages.rows,
    r.conversationId = m.conversationId → r.sequenceIndex < m.sequenceIndex) :
    AppendsTo messages (messages.insertOrIgnore m) := by
  refine ⟨fun r hr => ⟨r, Table.mem_insertOrIgnore_of_mem hr, .refl r⟩, fun r hr => ?_⟩
  rcases Table.mem_insertOrIgnore hr with hold | ⟨-, rfl⟩
  · exact .inl ⟨r, hold, .refl r⟩
  · exact .inr after

/-- A revised message stays where it is. -/
theorem update {f : MagiMessage → MagiMessage} (hf : ∀ m, (f m).id = m.id) {m : MagiMessage}
    (stored : m ∈ messages.rows) (h : m.Revises (f m)) :
    AppendsTo messages (messages.update m.id f hf) := by
  refine ⟨.update stored h, fun r' hr' => ?_⟩
  obtain ⟨r, hr, rfl⟩ := Table.mem_update.mp hr'
  refine .inl ⟨r, hr, ?_⟩
  split
  · next hid =>
    obtain rfl := Table.eq_of_mem hr stored hid
    exact h.toSameIdentity
  · exact .refl r

/-- An operation that reserves no message appends none. -/
theorem writes {op : ChatOp} (hop : op.reserves = false) (h : MessageWrites op messages messages') :
    AppendsTo messages messages' := by
  induction h with
  | refl => exact .refl messages
  | tail _ hwrite ih =>
    refine ih.trans ?_
    cases hwrite with
    | reserve | generate => cases hop
    | retry m stored role failed => exact update _ stored (.retried _ role failed)
    | complete m stored role pending => exact update _ stored (.closed _ _ _ _ role pending)
    | abandon m status errorCode stored role pending =>
      exact update _ stored (.closed _ _ _ _ role pending)

end AppendsTo

section Operations

variable {chat chat' : Chat} {owner : String} {wantsRetry : Bool} {fresh : FreshIds} {now : ℤ}

/-- The next place of a conversation is after its messages. -/
theorem lt_nextSequence {m : MagiMessage} (hm : m ∈ chat.messages.rows) :
    m.sequenceIndex < chat.nextSequence m.conversationId := by
  refine Nat.lt_of_succ_le (le_foldr_max (List.mem_map.mpr ⟨m, ?_, rfl⟩))
  exact List.mem_filter.mpr ⟨hm, decide_eq_true rfl⟩

/-- A retried answer stays where it is. -/
theorem retryFailed_appends {conversationId : String} {m m' : MagiMessage}
    (stored : m ∈ chat.messages.rows) (role : m.role = .assistant) (failed : m.status = .failed)
    (h : retryFailed owner conversationId m now chat = .ok (m', chat')) :
    AppendsTo chat.messages chat'.messages := by
  simp only [retryFailed, bind_eq_ok, pure_eq_ok, Prod.mk.injEq] at h
  obtain ⟨after, happend, -, rfl⟩ := h
  obtain ⟨-, rfl⟩ := appendChange_eq_ok.mp happend
  exact AppendsTo.update (f := MagiMessage.retried now) (fun _ => rfl) stored
    (.retried now role failed)

/-- A new pair comes after every message of its conversation. -/
theorem prepareNew_appends {clientMessageId content source : String}
    {attachments : List AttachmentRecord} {conversation : MagiConversation}
    {prepared : PreparedSubmission}
    (h : prepareNew owner clientMessageId content source attachments conversation fresh now chat =
      .ok (prepared, chat')) : AppendsTo chat.messages chat'.messages := by
  simp only [prepareNew, bind_eq_ok, pure_eq_ok, Prod.mk.injEq, insertMessage_eq_ok] at h
  obtain ⟨_, ⟨-, rfl⟩, _, ⟨-, rfl⟩, _, happend, _, happend', -, rfl⟩ := h
  obtain ⟨-, rfl⟩ := appendChange_eq_ok.mp happend
  obtain ⟨-, rfl⟩ := appendChange_eq_ok.mp happend'
  refine (AppendsTo.insert fun r hr hconv => ?_).trans (AppendsTo.insert fun r hr hconv => ?_)
  · have hlt := lt_nextSequence hr
    rwa [hconv] at hlt
  · rcases Table.mem_insertOrIgnore hr with hold | ⟨-, rfl⟩
    · have hlt := lt_nextSequence hold
      rw [hconv] at hlt
      exact Nat.lt_succ_of_lt hlt
    · exact Nat.lt_succ_self _

/-- A preparation appends a pair at most. -/
theorem prepareSubmission_appends {clientMessageId content source : String}
    {conversationId : Option String} {requested : Except ChatFailure (List AttachmentRecord)}
    {prepared : PreparedSubmission}
    (h : prepareSubmission owner clientMessageId content conversationId source requested wantsRetry
      fresh now chat = .ok (prepared, chat')) : AppendsTo chat.messages chat'.messages := by
  obtain ⟨attachments, conversation, mid, -, hconversation,
    ⟨user, assistant, -, hassistant, hagain⟩ | ⟨-, hnew⟩⟩ := prepareSubmission_cases h
  · obtain ⟨-, ⟨hmessages, -⟩, -⟩ := requestedConversation_moves hconversation
    obtain ⟨stored, -, -, -, role⟩ := of_reservedAssistant hassistant
    obtain ⟨-, -, -, -, hcase⟩ := prepareAgain_cases hagain stored
    rw [hmessages] at stored hcase
    rcases hcase with ⟨-, hsame⟩ | ⟨-, failed, -, hretried⟩
    · exact hsame ▸ .refl _
    · rw [hretried]
      exact AppendsTo.update (f := MagiMessage.retried now) (fun _ => rfl) stored
        (.retried now role failed)
  · obtain ⟨-, ⟨hmessages, -⟩, -⟩ := requestedConversation_moves hconversation
    exact hmessages ▸ prepareNew_appends hnew

/-- A generation appends an answer at most. -/
theorem prepareGeneratedAssistant_appends {generationKey factsSha256 conversationId
    replyToMessageId : String} {prepared : PreparedGeneratedMessage}
    (h : prepareGeneratedAssistant owner generationKey factsSha256 conversationId replyToMessageId
      wantsRetry fresh now chat = .ok (prepared, chat')) :
    AppendsTo chat.messages chat'.messages := by
  simp only [prepareGeneratedAssistant, bind_eq_ok, raiseIf_eq_ok, exists_const] at h
  obtain ⟨-, conversation, -, -, h⟩ := h
  split at h
  · split at h
    · simp at h
    · next assistant hassistant =>
      simp only [bind_eq_ok, raiseIf_eq_ok, exists_const] at h
      obtain ⟨-, h⟩ := h
      split at h
      · next hretry =>
        simp only [bind_eq_ok, pure_eq_ok, Prod.exists, Prod.mk.injEq] at h
        obtain ⟨m, mid, hm, -, rfl⟩ := h
        obtain ⟨stored, -, -, role⟩ := of_assistantMessage hassistant
        exact retryFailed_appends stored role hretry.2 hm
      · simp only [pure_eq_ok, Prod.mk.injEq] at h
        exact h.2 ▸ .refl _
  · simp only [bind_eq_ok, raiseIf_eq_ok, pure_eq_ok, exists_const, Prod.mk.injEq,
      insertMessage_eq_ok] at h
    obtain ⟨_, ⟨-, rfl⟩, -, mid, happend, -, rfl⟩ := h
    obtain ⟨-, rfl⟩ := appendChange_eq_ok.mp happend
    refine AppendsTo.insert fun r hr hconv => ?_
    have hlt := lt_nextSequence hr
    rwa [hconv] at hlt

/-- Transactions append to conversations. -/
theorem chatStep_appends (chat : Chat) (op : ChatOp) :
    AppendsTo chat.messages (chatStep chat op).messages := by
  cases hop : op.reserves with
  | false => exact .writes hop (chatStep_messageWrites chat op)
  | true =>
    refine commit_of (P := fun s : Chat => AppendsTo chat.messages s.messages) (.refl _)
      fun chat' h => ?_
    cases op with
    | prepareSubmission =>
      obtain ⟨prepared, hprepared⟩ := stateOf_eq_ok.mp h
      exact prepareSubmission_appends hprepared
    | prepareGeneratedAssistant =>
      obtain ⟨prepared, hprepared⟩ := stateOf_eq_ok.mp h
      exact prepareGeneratedAssistant_appends hprepared
    | completeSubmission | failSubmission | recoverOrphanedPending | cancelSubmission
    | recordTurnRoute => cases hop

theorem storeStep_appends (chat : Chat) (step : StoreStep) :
    AppendsTo chat.messages (storeStep chat step).messages := by
  cases step with
  | write op => exact chatStep_appends chat op
  | list => exact storeStep_list_messages chat ▸ .refl chat.messages

end Operations

/-- The messages of an owner's conversation before a cursor. -/
def Chat.older (chat : Chat) (owner conversationId : String) (before : Option ℤ) :
    List MagiMessage :=
  chat.messages.rows.filter fun m => m.ownerUserId = owner ∧ m.conversationId = conversationId ∧
    before.all ((m.sequenceIndex : ℤ) < ·)

theorem Chat.mem_older {chat : Chat} {owner conversationId : String} {before : Option ℤ}
    {m : MagiMessage} : m ∈ chat.older owner conversationId before ↔ m ∈ chat.messages.rows ∧
      (m.ownerUserId = owner ∧ m.conversationId = conversationId) ∧
        ∀ c ∈ before, (m.sequenceIndex : ℤ) < c := by
  cases before <;> simp [Chat.older, and_assoc]

/-- What a listing returns: the messages before the cursor from the page's own cursor on, in their
order; the page's cursor is the place of its first message, and there is a message before it. -/
structure ListsPage (older : List MagiMessage) (page : ConversationPage) : Prop where
  sorted : page.messages.Pairwise fun a b => a.sequenceIndex < b.sequenceIndex
  mem_iff : ∀ m, m ∈ page.messages ↔ ∃ row ∈ older,
    (∀ c ∈ page.nextBefore, c ≤ row.sequenceIndex) ∧ row.toPublic = m
  cursor : ∀ c ∈ page.nextBefore, (∃ row ∈ older, row.sequenceIndex = c) ∧
    ∃ row ∈ older, row.sequenceIndex < c

/-- The first rows of a ranking, in their order, are a page. -/
theorem ListsPage.of_topRows {older : List MagiMessage} (hnodup : older.Nodup)
    (hkey : ∀ a ∈ older, ∀ b ∈ older, a.sequenceIndex = b.sequenceIndex → a = b) {count : ℕ}
    (hcount : 0 < count) {page : ConversationPage}
    (messages : page.messages =
      (topRows (·.sequenceIndex) count older).reverse.map MagiMessage.toPublic)
    (nextBefore : page.nextBefore = if count < older.length then
      (topRows (·.sequenceIndex) count older).reverse.head?.map (·.sequenceIndex) else none) :
    ListsPage older page := by
  have hmem (m : PublicMessage) : m ∈ page.messages ↔
      ∃ row ∈ topRows (·.sequenceIndex) count older, row.toPublic = m := by
    rw [messages]
    simp only [List.mem_map, List.mem_reverse]
  have hsorted : page.messages.Pairwise fun a b => a.sequenceIndex < b.sequenceIndex := by
    rw [messages, List.pairwise_map, List.pairwise_reverse]
    exact (rankRows_strict hnodup hkey).sublist (List.take_sublist _ _)
  by_cases hmore : count < older.length
  · have hne : topRows (·.sequenceIndex) count older ≠ [] := by
      rw [topRows, Ne, List.take_eq_nil_iff, ← List.length_eq_zero_iff, length_rankRows]
      omega
    obtain ⟨last, hlast⟩ := Option.isSome_iff_exists.mp (List.getLast?_isSome.mpr hne)
    have hfirst : page.nextBefore = some last.sequenceIndex := by
      rw [nextBefore, if_pos hmore, List.head?_reverse, hlast, Option.map_some]
    have htop := List.mem_of_getLast? hlast
    refine ⟨hsorted, fun m => ?_, fun c hc => ?_⟩
    · rw [hmem, hfirst]
      refine exists_congr fun row => ?_
      rw [mem_topRows_iff_last hnodup hkey hlast, and_assoc]
      simp
    · obtain rfl := Option.some.inj (hfirst.symm.trans hc)
      obtain ⟨row, hrow, hless⟩ := exists_lt_topRows hnodup hkey hmore
      exact ⟨⟨last, mem_of_mem_topRows htop, rfl⟩, row, hrow, hless last htop⟩
  · have hnone : page.nextBefore = none := by rw [nextBefore, if_neg hmore]
    refine ⟨hsorted, fun m => ?_, fun c hc => ?_⟩
    · rw [hmem, hnone]
      refine exists_congr fun row => ?_
      have hall : row ∈ topRows (·.sequenceIndex) count older ↔ row ∈ older :=
        ⟨mem_of_mem_topRows, mem_topRows_of_fits (Nat.le_of_not_lt hmore)⟩
      rw [hall]
      simp
    · rw [hnone] at hc
      cases hc

/-- A page of messages that are left has some. -/
theorem ListsPage.ne_nil {older : List MagiMessage} {page : ConversationPage} {row : MagiMessage}
    (h : ListsPage older page) (hrow : row ∈ older) : page.messages ≠ [] := by
  cases hcursor : page.nextBefore with
  | none =>
    refine List.ne_nil_of_mem ((h.mem_iff row.toPublic).mpr ⟨row, hrow, fun c hc => ?_, rfl⟩)
    rw [hcursor] at hc
    cases hc
  | some c =>
    obtain ⟨⟨first, hfirst, hplace⟩, -⟩ := h.cursor c hcursor
    refine List.ne_nil_of_mem ((h.mem_iff first.toPublic).mpr ⟨first, hfirst, fun d hd => ?_, rfl⟩)
    obtain rfl := Option.some.inj (hcursor.symm.trans hd)
    exact hplace.ge

section Listing

variable {chat chat' : Chat} {owner freshId : String} {requested : Option String}
  {before : Option ℤ} {limit now : ℤ} {page : ConversationPage}

/-- The messages of a conversation are told apart by their places. -/
theorem Submissions.older_apart (h : Submissions chat) {conversationId : String} :
    ∀ a ∈ chat.older owner conversationId before, ∀ b ∈ chat.older owner conversationId before,
      a.sequenceIndex = b.sequenceIndex → a = b := by
  intro a ha b hb hsequence
  obtain ⟨ha, ⟨-, haconv⟩, -⟩ := Chat.mem_older.mp ha
  obtain ⟨hb, ⟨-, hbconv⟩, -⟩ := Chat.mem_older.mp hb
  refine h.apart b hb a ha ?_
  simp [MagiMessage.collides, haconv, hbconv, hsequence]

/-- A listing ranks the messages before its cursor by their places. -/
theorem listConversation_eq
    (h : listConversation owner requested before limit freshId now chat = .ok (page, chat')) :
    let rows := chat.older owner page.conversationId before
    0 < limit.toNat ∧
      page.messages = (topRows (·.sequenceIndex) limit.toNat rows).reverse.map
        MagiMessage.toPublic ∧
      page.nextBefore = if limit.toNat < rows.length then
        (topRows (·.sequenceIndex) limit.toNat rows).reverse.head?.map (·.sequenceIndex)
          else none := by
  simp only [listConversation, bind_eq_ok, raiseIf_eq_ok, pure_eq_ok, Prod.exists, exists_const,
    Prod.mk.injEq, not_not] at h
  obtain ⟨⟨hpositive, -⟩, -, c, mid, hconversation, rfl, rfl⟩ := h
  obtain ⟨hmessages, -⟩ := requestedConversation_writes hconversation
  have hrows : ((mid.messages.rows.filter fun m => decide (m.ownerUserId = owner ∧
      m.conversationId = c.id ∧ before.all ((m.sequenceIndex : ℤ) < ·) = true)).mergeSort
        fun a b => decide (b.sequenceIndex ≤ a.sequenceIndex)) =
      rankRows (·.sequenceIndex) (chat.older owner c.id before) := by
    rw [hmessages]
    rfl
  have htop : ((rankRows (·.sequenceIndex) (chat.older owner c.id before)).take
      (limit.toNat + 1)).take limit.toNat =
        topRows (·.sequenceIndex) limit.toNat (chat.older owner c.id before) := by
    rw [List.take_take, Nat.min_eq_left (Nat.le_succ _), topRows]
  -- the row beyond the page shows whether there is more
  have hmore : limit < ((rankRows (·.sequenceIndex) (chat.older owner c.id before)).take
      (limit.toNat + 1)).length ↔ limit.toNat < (chat.older owner c.id before).length := by
    rw [List.length_take, length_rankRows]
    omega
  refine ⟨by omega, ?_, ?_⟩
  · simp only [hrows, htop]
  · simp only [hrows, htop, hmore, decide_eq_true_eq]

/-- A listing returns a page of the messages before its cursor. -/
theorem listConversation_page (hsubmissions : Submissions chat)
    (h : listConversation owner requested before limit freshId now chat = .ok (page, chat')) :
    ListsPage (chat.older owner page.conversationId before) page := by
  have hnodup : (chat.older owner page.conversationId before).Nodup :=
    (List.Nodup.of_map _ chat.messages.unique).filter _
  obtain ⟨hcount, hmessages, hnextBefore⟩ := listConversation_eq h
  exact .of_topRows hnodup hsubmissions.older_apart hcount hmessages hnextBefore

/-- A listing writes no message, and the conversation that it reads is its owner's. -/
theorem listConversation_moves
    (h : listConversation owner requested before limit freshId now chat = .ok (page, chat')) :
    ChatMoves chat chat' ∧ chat'.messages = chat.messages ∧
      ∃ c ∈ chat'.conversations.rows, c.id = page.conversationId ∧ c.ownerUserId = owner := by
  simp only [listConversation, bind_eq_ok, raiseIf_eq_ok, pure_eq_ok, Prod.exists, exists_const,
    Prod.mk.injEq] at h
  obtain ⟨-, -, c, mid, hconversation, rfl, rfl⟩ := h
  obtain ⟨hmoves, ⟨hmessages, -⟩, hstored, howner⟩ := requestedConversation_moves hconversation
  exact ⟨hmoves, hmessages, c, hstored, rfl, howner⟩

end Listing

/-- Transactions keep conversations. -/
theorem ChatMoves.keepsConversations {chat chat' : Chat} (h : ChatMoves chat chat') :
    KeepsConversations chat chat' := by
  induction h with
  | refl => exact .refl chat
  | tail _ hmove ih =>
    refine ih.trans ?_
    cases hmove with
    | other _ conversations => exact conversations
    | reserve | generate | retry | close => exact fun c hc => ⟨c, hc, rfl, rfl⟩

/-- Every transaction of a client is a sequence of writes. -/
theorem storeStep_moves (chat : Chat) (step : StoreStep) :
    ChatMoves chat (storeStep chat step) := by
  cases step with
  | write op => exact chatStep_moves chat op
  | list owner requested before limit freshId now =>
    refine commit_of (P := ChatMoves chat) .refl fun chat' h => ?_
    obtain ⟨page, hpage⟩ := stateOf_eq_ok.mp h
    exact (listConversation_moves hpage).1

/-- A message of the conversation that was there when paging began. -/
def Listed (owner conversationId : String) (begun : Table MagiMessage.id) (row : MagiMessage) :
    Prop :=
  row ∈ begun.rows ∧ row.ownerUserId = owner ∧ row.conversationId = conversationId

/-- The messages of pages: those that were there at some places, in their order. -/
structure Gathered (owner conversationId : String) (begun : Table MagiMessage.id)
    (messages : List PublicMessage) (taken : ℕ → Prop) : Prop where
  sorted : messages.Pairwise fun a b => a.sequenceIndex < b.sequenceIndex
  listed : ∀ m ∈ messages, ∃ row, Listed owner conversationId begun row ∧ row.id = m.id ∧
    row.sequenceIndex = m.sequenceIndex ∧ taken row.sequenceIndex
  complete : ∀ row, Listed owner conversationId begun row → taken row.sequenceIndex →
    row.id ∈ messages.map (·.id)

/-- A session has the messages that were there from its cursor on; one is left before a cursor. -/
structure Paged (owner conversationId : String) (begun : Table MagiMessage.id)
    (s : PagingSession) : Prop where
  submissions : Submissions s.chat
  owned : ∃ c ∈ s.chat.conversations.rows, c.id = conversationId ∧ c.ownerUserId = owner
  appends : AppendsTo begun s.chat.messages
  collected : Gathered owner conversationId begun s.messages fun n => ∀ c ∈ s.nextBefore, c ≤ n
  cursor : ∀ c ∈ s.nextBefore,
    (∃ row, Listed owner conversationId begun row ∧ row.sequenceIndex = c) ∧
      ∃ row, Listed owner conversationId begun row ∧ row.sequenceIndex < c

section Pages

variable {owner conversationId : String} {begun : Table MagiMessage.id} {older : List MagiMessage}
  {messages : List PublicMessage} {taken : ℕ → Prop} {page : ConversationPage}

/-- A page of the messages that are left is collected. -/
theorem Gathered.receive (h : Gathered owner conversationId begun messages taken)
    (hpage : ListsPage older page)
    (hlisted : ∀ row' ∈ older, ∃ row, Listed owner conversationId begun row ∧ row.SameIdentity row')
    (hbefore : ∀ row ∈ older, ∀ n, taken n → row.sequenceIndex < n)
    (hleft : ∀ row, Listed owner conversationId begun row → ¬taken row.sequenceIndex →
      ∃ row' ∈ older, row.SameIdentity row') :
    Gathered owner conversationId begun (page.messages ++ messages)
      fun n => ∀ c ∈ page.nextBefore, c ≤ n := by
  refine ⟨List.pairwise_append.mpr ⟨hpage.sorted, h.sorted, fun a ha b hb => ?_⟩, fun m hm => ?_,
    fun row hrow hreach => ?_⟩
  · obtain ⟨row, hrow, -, rfl⟩ := (hpage.mem_iff a).mp ha
    obtain ⟨row', -, -, hsequence, htaken⟩ := h.listed b hb
    exact hsequence ▸ hbefore row hrow row'.sequenceIndex htaken
  · rcases List.mem_append.mp hm with hm | hm
    · obtain ⟨row', hrow', hreach, rfl⟩ := (hpage.mem_iff m).mp hm
      obtain ⟨row, hrow, hsame⟩ := hlisted row' hrow'
      refine ⟨row, hrow, hsame.id.symm, hsame.sequenceIndex.symm, fun c hc => ?_⟩
      exact hsame.sequenceIndex ▸ hreach c hc
    · obtain ⟨row, hrow, hid, hsequence, htaken⟩ := h.listed m hm
      refine ⟨row, hrow, hid, hsequence, fun c hc => ?_⟩
      obtain ⟨⟨first, hfirst, rfl⟩, -⟩ := hpage.cursor c hc
      exact (hbefore first hfirst _ htaken).le
  · rw [List.map_append, List.mem_append]
    by_cases htaken : taken row.sequenceIndex
    · exact .inr (h.complete row hrow htaken)
    · obtain ⟨row', hrow', hsame⟩ := hleft row hrow htaken
      refine .inl (List.mem_map.mpr ⟨row'.toPublic, ?_, hsame.id⟩)
      exact (hpage.mem_iff _).mpr ⟨row', hrow', hsame.sequenceIndex ▸ hreach, rfl⟩

/-- No message is collected twice. -/
theorem Gathered.nodup (h : Gathered owner conversationId begun messages taken) :
    (messages.map (·.id)).Nodup := by
  rw [List.Nodup, List.pairwise_map]
  refine h.sorted.imp_of_mem fun {a b} ha hb hless hid => ?_
  obtain ⟨row, ⟨hrow, -⟩, hrowid, hsequence, -⟩ := h.listed a ha
  obtain ⟨row', ⟨hrow', -⟩, hrowid', hsequence', -⟩ := h.listed b hb
  obtain rfl := Table.eq_of_mem hrow hrow' (hrowid.trans (hid.trans hrowid'.symm))
  omega

end Pages

namespace Paged

variable {owner conversationId : String} {begun : Table MagiMessage.id} {s : PagingSession}

/-- Somebody's transaction leaves the pages as they are. -/
theorem store (h : Paged owner conversationId begun s) (step : StoreStep) :
    Paged owner conversationId begun { s with chat := storeStep s.chat step } where
  submissions := h.submissions.moves (storeStep_moves s.chat step)
  owned := by
    obtain ⟨c, hc, hid, howner⟩ := h.owned
    obtain ⟨c', hc', hid', howner'⟩ := (storeStep_moves s.chat step).keepsConversations c hc
    exact ⟨c', hc', hid'.trans hid, howner'.trans howner⟩
  appends := h.appends.trans (storeStep_appends s.chat step)
  collected := h.collected
  cursor := h.cursor

/-- Every message of the conversation is its owner's. -/
theorem listed (h : Paged owner conversationId begun s) {row : MagiMessage}
    (hrow : row ∈ begun.rows)
    (hconv : row.conversationId = conversationId) : Listed owner conversationId begun row := by
  obtain ⟨row', hrow', hrevises⟩ := h.appends.revised row hrow
  obtain ⟨c, hc, hid, howner⟩ := h.submissions.hosted row' hrow'
  obtain ⟨d, hd, hdid, hdowner⟩ := h.owned
  obtain rfl := Table.eq_of_mem hc hd
    (hid.trans (hrevises.conversationId.trans (hconv.trans hdid.symm)))
  exact ⟨hrow, hrevises.ownerUserId.symm.trans (howner.symm.trans hdowner), hconv⟩

/-- What is before the cursor was there. -/
theorem of_older (h : Paged owner conversationId begun s) {before : ℕ}
    (hbefore : s.nextBefore = some before) {row' : MagiMessage}
    (hrow' : row' ∈ s.chat.older owner conversationId (some (before : ℤ))) :
    row'.sequenceIndex < before ∧
      ∃ row, Listed owner conversationId begun row ∧ row.SameIdentity row' := by
  obtain ⟨hstored, ⟨howner, hconv⟩, hless⟩ := Chat.mem_older.mp hrow'
  have hless : row'.sequenceIndex < before := by exact_mod_cast hless _ rfl
  refine ⟨hless, ?_⟩
  rcases h.appends.appended row' hstored with ⟨row, hrow, hsame⟩ | hafter
  · exact ⟨row, ⟨hrow, hsame.ownerUserId.symm.trans howner,
      hsame.conversationId.symm.trans hconv⟩, hsame⟩
  · -- a message that was appended is not before the cursor
    obtain ⟨⟨first, hfirst, rfl⟩, -⟩ := h.cursor before hbefore
    exact absurd (hafter first hfirst.1 (hfirst.2.2.trans hconv.symm)) hless.not_gt

/-- What was there before the cursor is. -/
theorem to_older (h : Paged owner conversationId begun s) {before : ℕ} {row : MagiMessage}
    (hrow : Listed owner conversationId begun row) (hless : row.sequenceIndex < before) :
    ∃ row' ∈ s.chat.older owner conversationId (some (before : ℤ)), row.SameIdentity row' := by
  obtain ⟨row', hrow', hrevises⟩ := h.appends.revised row hrow.1
  refine ⟨row', Chat.mem_older.mpr ⟨hrow', ⟨hrevises.ownerUserId.trans hrow.2.1,
    hrevises.conversationId.trans hrow.2.2⟩, fun c hc => ?_⟩, hrevises.toSameIdentity⟩
  obtain rfl := Option.some.inj hc
  rw [hrevises.sequenceIndex]
  exact_mod_cast hless

/-- A listing of what is left. -/
theorem list (h : Paged owner conversationId begun s) {before : ℕ}
    (hbefore : s.nextBefore = some before) {requested : Option String} {limit : ℤ}
    {freshId : String} {now : ℤ} {page : ConversationPage} {chat : Chat}
    (hlist : listConversation owner requested (some before) limit freshId now s.chat =
      .ok (page, chat)) :
    Paged owner conversationId begun { s with chat } ∧
      (page.conversationId = conversationId →
        Paged owner conversationId begun (s.receive page chat)) := by
  obtain ⟨hmoves, hmessages, -⟩ := listConversation_moves hlist
  have hsubmissions := h.submissions.moves hmoves
  have howned : ∃ c ∈ chat.conversations.rows, c.id = conversationId ∧ c.ownerUserId = owner := by
    obtain ⟨c, hc, hid, howner⟩ := h.owned
    obtain ⟨c', hc', hid', howner'⟩ := hmoves.keepsConversations c hc
    exact ⟨c', hc', hid'.trans hid, howner'.trans howner⟩
  have happends : AppendsTo begun chat.messages := hmessages ▸ h.appends
  refine ⟨⟨hsubmissions, howned, happends, h.collected, h.cursor⟩, ?_⟩
  rintro rfl
  have hpage := listConversation_page h.submissions hlist
  refine ⟨hsubmissions, howned, happends, h.collected.receive hpage ?_ ?_ ?_, fun c hc => ?_⟩
  · exact fun row' hrow' => (h.of_older hbefore hrow').2
  · intro row hrow n htaken
    exact (h.of_older hbefore hrow).1.trans_le (htaken before hbefore)
  · intro row hrow huntaken
    refine h.to_older hrow (Nat.lt_of_not_le fun hle => huntaken fun c hc => ?_)
    obtain rfl := Option.some.inj (hbefore.symm.trans hc)
    exact hle
  · obtain ⟨⟨first, hfirst, rfl⟩, less, hless, hlt⟩ := hpage.cursor c hc
    obtain ⟨row, hrow, hsame⟩ := (h.of_older hbefore hfirst).2
    obtain ⟨row', hrow', hsame'⟩ := (h.of_older hbefore hless).2
    exact ⟨⟨row, hrow, hsame.sequenceIndex.symm⟩, row', hrow', hsame'.sequenceIndex ▸ hlt⟩

/-- Whatever happens, the session has the messages from its cursor on. -/
theorem step (h : Paged owner conversationId begun s) (step : PagingStep) :
    Paged owner conversationId begun (pagingStep owner conversationId s step) := by
  cases step with
  | store step => exact h.store step
  | list requested limit freshId now =>
    simp only [pagingStep]
    split
    · exact h
    · next before hbefore =>
      split
      · next page chat hlist =>
        obtain ⟨hother, hpage⟩ := h.list hbefore hlist
        split
        · next hconversation => exact hpage hconversation
        · exact hother
      · exact h

end Paged

/-- Paging begins with a page of what is there. -/
theorem Opens.paged {owner conversationId : String} {chat : Chat} {s : PagingSession}
    (hsubmissions : Submissions chat) (h : Opens owner conversationId chat s) :
    Paged owner conversationId chat.messages s := by
  cases h with
  | @newest requested limit freshId now page chat' listed conversation =>
    subst conversation
    obtain ⟨hmoves, hmessages, howned⟩ := listConversation_moves listed
    have hpage := listConversation_page hsubmissions listed
    have hnone : Gathered owner page.conversationId chat.messages [] fun _ => False :=
      ⟨.nil, fun _ hm => absurd hm List.not_mem_nil, fun _ _ => False.elim⟩
    have holder (row : MagiMessage) : row ∈ chat.older owner page.conversationId none ↔
        Listed owner page.conversationId chat.messages row := by
      rw [Chat.mem_older, Listed, and_congr_right_iff]
      exact fun _ => and_iff_left fun _ hc => nomatch hc
    have hpages := hnone.receive hpage (fun row hrow => ⟨row, (holder row).mp hrow, .refl row⟩)
      (fun _ _ _ => False.elim) fun row hrow _ => ⟨row, (holder row).mpr hrow, .refl row⟩
    rw [List.append_nil] at hpages
    refine ⟨hsubmissions.moves hmoves, howned, hmessages ▸ .refl _, hpages, fun c hc => ?_⟩
    obtain ⟨⟨first, hfirst, hplace⟩, less, hless, hlt⟩ := hpage.cursor c hc
    exact ⟨⟨first, (holder first).mp hfirst, hplace⟩, less, (holder less).mp hless, hlt⟩

/-- While a message is left, a call for the conversation returns older ones. -/
theorem Paged.advances {owner conversationId : String} {begun : Table MagiMessage.id}
    {s : PagingSession} (h : Paged owner conversationId begun s) (hleft : s.nextBefore ≠ none)
    (hnamed : conversationId ≠ "") {limit : ℤ} (hlimit : 1 ≤ limit ∧ limit ≤ maxHistoryMessages)
    (freshId : String) (now : ℤ) :
    s.messages.length < (pagingStep owner conversationId s
      (.list (some conversationId) limit freshId now)).messages.length := by
  obtain ⟨before, hbefore⟩ := Option.ne_none_iff_exists'.mp hleft
  obtain ⟨-, row, hrow, hless⟩ := h.cursor before hbefore
  obtain ⟨row', hrow', -⟩ := h.to_older hrow hless
  obtain ⟨c, hc, hid, howner⟩ := h.owned
  have hfound : conversationRow owner conversationId s.chat = .ok c := by
    rw [conversationRow, ← hid, Table.find?_of_mem hc, Option.filter_some,
      if_pos (decide_eq_true howner)]
  have hrequested : requestedConversation owner (some conversationId) freshId now s.chat =
      .ok (c, s.chat) := by
    rw [requestedConversation, Option.filter_some, if_pos (decide_eq_true hnamed)]
    simp only [hfound]
    rfl
  have hcursor : ¬(some (before : ℤ)).any (· < 1) := by
    simp only [Option.any_some, decide_eq_true_eq]
    omega
  obtain ⟨page, hlist, hconversation⟩ : ∃ page, listConversation owner (some conversationId)
      (some (before : ℤ)) limit freshId now s.chat = .ok (page, s.chat) ∧
        page.conversationId = conversationId := by
    simp only [listConversation, raiseIf_ok (not_not.mpr hlimit), raiseIf_ok hcursor, ok_bind,
      hrequested]
    exact ⟨_, rfl, hid⟩
  have hpage := listConversation_page h.submissions hlist
  rw [hconversation] at hpage
  have hmore := List.length_pos_iff.mpr (hpage.ne_nil hrow')
  simp only [pagingStep, hbefore, hlist, if_pos hconversation, PagingSession.receive,
    List.length_append]
  omega

/-- For every run of the store and every conversation that is paged from its newest page on,
whatever is written between the calls: the messages of the pages are messages that were there when
paging began, in the order of the conversation; when nothing is left, each of those has been
returned exactly once; and while something is left, every call for the conversation returns more. -/
theorem paging_complete (steps : List StoreStep) (owner conversationId : String) :
    let begun := run storeStep .initial steps
    ∀ opened, Opens owner conversationId begun opened → ∀ between : List PagingStep,
      let s := run (pagingStep owner conversationId) opened between
      s.messages.Pairwise (fun a b => a.sequenceIndex < b.sequenceIndex) ∧
      (∀ m ∈ s.messages, ∃ row ∈ begun.messages.rows, row.conversationId = conversationId ∧
        row.id = m.id ∧ row.sequenceIndex = m.sequenceIndex) ∧
      (s.nextBefore = none → ∀ row ∈ begun.messages.rows, row.conversationId = conversationId →
        (s.messages.map (·.id)).count row.id = 1) ∧
      (s.nextBefore ≠ none → conversationId ≠ "" →
        ∀ limit, 1 ≤ limit ∧ limit ≤ maxHistoryMessages → ∀ freshId now,
          s.messages.length < (pagingStep owner conversationId s
            (.list (some conversationId) limit freshId now)).messages.length) := by
  intro begun opened hopens between s
  have hsubmissions := Submissions.of_store steps
  have hopened := hopens.paged hsubmissions
  have hpaged : Paged owner conversationId begun.messages s :=
    run_invariant' (fun _ step h => h.step step) between hopened
  refine ⟨hpaged.collected.sorted, fun m hm => ?_, fun hdone row hrow hconv => ?_,
    fun hleft hnamed limit hlimit freshId now => hpaged.advances hleft hnamed hlimit freshId now⟩
  · obtain ⟨row, ⟨hstored, -, hconv⟩, hid, hsequence, -⟩ := hpaged.collected.listed m hm
    exact ⟨row, hstored, hconv, hid, hsequence⟩
  · have hlisted : Listed owner conversationId begun.messages row :=
      hopened.listed hrow hconv
    refine List.count_eq_one_of_mem hpaged.collected.nodup
      (hpaged.collected.complete row hlisted ?_)
    rw [hdone]
    exact fun _ hc => nomatch hc

section Example

/-- One message is submitted. -/
private def submittedOnce : List StoreStep :=
  [.write (.prepareSubmission "u" "c1" "hello" none "text" (.ok []) false
    ⟨"mgc_0", "mgt_0", "mgm_0", "mgm_1"⟩ 1000)]

/-- Its pair is paged one by one, and both are returned once. -/
theorem paging_complete_pair : ∃ opened,
    Opens "u" "mgc_0" (run storeStep .initial submittedOnce) opened ∧
      let s := run (pagingStep "u" "mgc_0") opened [.list (some "mgc_0") 1 "" 1002]
      opened.nextBefore = some 1 ∧ s.nextBefore = none ∧
        (s.messages.map (·.id)).count "mgm_0" = 1 ∧ (s.messages.map (·.id)).count "mgm_1" = 1 := by
  set chat := run storeStep .initial submittedOnce with hchat
  have hboth : rankRows (·.sequenceIndex) (chat.older "u" "mgc_0" none) =
      (chat.older "u" "mgc_0" none).reverse :=
    rankRows_eq (by decide) (List.reverse_perm _) (by decide)
  have hfirst : rankRows (·.sequenceIndex) (chat.older "u" "mgc_0" (some 1)) =
      chat.older "u" "mgc_0" (some 1) :=
    rankRows_eq (by decide) (.refl _) (by decide)
  obtain ⟨page, hlist, hconversation⟩ : ∃ page, listConversation "u" none none 1 "" 1001 chat =
      .ok (page, chat) ∧ page.conversationId = "mgc_0" := ⟨_, rfl, rfl⟩
  obtain ⟨page', hlist', hconversation'⟩ : ∃ page', listConversation "u" (some "mgc_0")
      (some (1 : ℕ)) 1 "" 1002 chat = .ok (page', chat) ∧ page'.conversationId = "mgc_0" :=
    ⟨_, rfl, rfl⟩
  have hcursor : page.nextBefore = some 1 := by
    rw [(listConversation_eq hlist).2.2, hconversation, topRows, hboth]
    decide
  have hcursor' : page'.nextBefore = none := by
    rw [(listConversation_eq hlist').2.2, hconversation', topRows, Nat.cast_one, hfirst]
    decide
  have hlast : (run (pagingStep "u" "mgc_0") ⟨chat, page.messages, page.nextBefore⟩
      [.list (some "mgc_0") 1 "" 1002]).nextBefore = none := by
    simp only [run_cons, run_nil, pagingStep, hcursor, hlist', if_pos hconversation',
      PagingSession.receive, hcursor']
  have hopens : Opens "u" "mgc_0" chat _ := .newest hlist hconversation
  have hpaged := paging_complete submittedOnce "u" "mgc_0" _ hopens [.list (some "mgc_0") 1 "" 1002]
  obtain ⟨user, huser, hconv, hid⟩ : ∃ user ∈ chat.messages.rows,
      user.conversationId = "mgc_0" ∧ user.id = "mgm_0" := by decide
  obtain ⟨answer, hanswer, hconv', hid'⟩ : ∃ answer ∈ chat.messages.rows,
      answer.conversationId = "mgc_0" ∧ answer.id = "mgm_1" := by decide
  exact ⟨_, hopens, hcursor, hlast, hid ▸ hpaged.2.2.1 hlast user huser hconv,
    hid' ▸ hpaged.2.2.1 hlast answer hanswer hconv'⟩

end Example

end Magistrate
