import Magistrate.Gateway.Chat.Replay

/-!
# Revisions of messages

Each write of the store to its messages, with the data that it writes. Of two
stored versions of one message, one revises the other: it has a higher revision
and only an open answer is revised.
-/

namespace Magistrate

open MagiChatStore

/-- The time of a transaction. -/
def ChatOp.now : ChatOp → ℤ
  | prepareSubmission _ _ _ _ _ _ _ _ now => now
  | prepareGeneratedAssistant _ _ _ _ _ _ _ now => now
  | completeSubmission _ _ _ _ _ _ now => now
  | failSubmission _ _ _ _ _ now => now
  | recoverOrphanedPending now => now
  | cancelSubmission _ _ now => now
  | recordTurnRoute _ _ _ _ _ _ now => now

/-- One write of a transaction to the messages. -/
inductive MessageWrite : ChatOp → Table MagiMessage.id → Table MagiMessage.id → Prop where
  | reserve {owner clientMessageId content source : String} {requested : Option String}
      {attachments : List AttachmentRecord} {wantsRetry : Bool} {fresh : FreshIds} {now : ℤ}
      {messages : Table MagiMessage.id} (conversationId : String) (sequence : ℕ)
      (validSource : source ∈ validSources)
      (insertUser : Insertable messages (newUserMessage owner clientMessageId content source
        attachments conversationId sequence fresh now))
      (insertAssistant : Insertable (messages.insertOrIgnore (newUserMessage owner clientMessageId
        content source attachments conversationId sequence fresh now))
        (newAssistantMessage owner fresh.userMessageId conversationId (sequence + 1) fresh now)) :
      MessageWrite (.prepareSubmission owner clientMessageId content requested source
        (.ok attachments) wantsRetry fresh now) messages
        ((messages.insertOrIgnore (newUserMessage owner clientMessageId content source attachments
          conversationId sequence fresh now)).insertOrIgnore
          (newAssistantMessage owner fresh.userMessageId conversationId (sequence + 1) fresh now))
  | generate {owner generationKey factsSha256 conversationId replyToMessageId : String}
      {wantsRetry : Bool} {fresh : FreshIds} {now : ℤ} {messages : Table MagiMessage.id}
      (sequence : ℕ) (origin : ∃ m ∈ messages.rows, m.id = replyToMessageId)
      (insertable : Insertable messages
        (newAssistantMessage owner replyToMessageId conversationId sequence fresh now)) :
      MessageWrite (.prepareGeneratedAssistant owner generationKey factsSha256 conversationId
        replyToMessageId wantsRetry fresh now) messages
        (messages.insertOrIgnore
          (newAssistantMessage owner replyToMessageId conversationId sequence fresh now))
  | retry {op : ChatOp} {messages : Table MagiMessage.id} (m : MagiMessage)
      (stored : m ∈ messages.rows) (role : m.role = .assistant) (failed : m.status = .failed) :
      MessageWrite op messages (messages.update m.id (MagiMessage.retried op.now))
  | complete {owner id content : String} {attempt latencyMs toolCalls : ℕ} {now : ℤ}
      {messages : Table MagiMessage.id} (m : MagiMessage) (stored : m ∈ messages.rows)
      (role : m.role = .assistant) (pending : m.status = .pending) :
      MessageWrite (.completeSubmission owner id attempt content latencyMs toolCalls now) messages
        (messages.update m.id (MagiMessage.closed .completed content none now))
  | abandon {op : ChatOp} {messages : Table MagiMessage.id} (m : MagiMessage)
      (status : MessageStatus) (errorCode : Option String) (stored : m ∈ messages.rows)
      (role : m.role = .assistant) (pending : m.status = .pending)
      (ended : status = .failed ∨ status = .cancelled) :
      MessageWrite op messages (messages.update m.id
        (MagiMessage.closed status "" errorCode op.now))

/-- The writes of a transaction to the messages. -/
abbrev MessageWrites (op : ChatOp) :
    Table MagiMessage.id → Table MagiMessage.id → Prop := Relation.ReflTransGen (MessageWrite op)

section Operations

variable {chat chat' : Chat}

/-- A preparation inserts its pair, or claims the next attempt of a failed answer. -/
theorem prepareSubmission_messageWrites {owner clientMessageId content source : String}
    {conversationId : Option String} {requested : Except ChatFailure (List AttachmentRecord)}
    {wantsRetry : Bool} {fresh : FreshIds} {now : ℤ} {prepared : PreparedSubmission}
    (h : prepareSubmission owner clientMessageId content conversationId source requested wantsRetry
      fresh now chat = .ok (prepared, chat')) :
    MessageWrites (.prepareSubmission owner clientMessageId content conversationId source requested
      wantsRetry fresh now) chat.messages chat'.messages := by
  have hsource : source ∈ validSources := by
    simp only [prepareSubmission, bind_eq_ok, raiseIf_eq_ok, exists_const, not_not] at h
    exact h.1
  obtain ⟨attachments, conversation, mid, rfl, hconversation,
    ⟨user, assistant, -, hassistant, hagain⟩ | ⟨-, hnew⟩⟩ := prepareSubmission_cases h
  · obtain ⟨-, ⟨hmessages, -⟩, -, -⟩ := requestedConversation_moves hconversation
    obtain ⟨stored, -, -, -, role⟩ := of_reservedAssistant hassistant
    obtain ⟨-, -, -, -, hcase⟩ := prepareAgain_cases hagain stored
    rw [hmessages] at stored hcase
    rcases hcase with ⟨-, hsame⟩ | ⟨-, failed, -, hretried⟩
    · rw [hsame]
    · rw [hretried]
      exact .single (.retry assistant stored role failed)
  · obtain ⟨-, ⟨hmessages, -⟩, -, -⟩ := requestedConversation_moves hconversation
    simp only [prepareNew, bind_eq_ok, pure_eq_ok, Prod.mk.injEq, insertMessage_eq_ok] at hnew
    obtain ⟨_, ⟨insertUser, rfl⟩, _, ⟨insertAssistant, rfl⟩, _, happend, _,
      happend', -, rfl⟩ := hnew
    obtain ⟨-, rfl⟩ := appendChange_eq_ok.mp happend
    obtain ⟨-, rfl⟩ := appendChange_eq_ok.mp happend'
    rw [← hmessages]
    exact .single (.reserve conversation.id (mid.nextSequence conversation.id) hsource insertUser
      insertAssistant)

/-- A generation inserts its answer, or claims the next attempt of a failed one. -/
theorem prepareGeneratedAssistant_messageWrites {owner generationKey factsSha256 conversationId
    replyToMessageId : String} {wantsRetry : Bool} {fresh : FreshIds} {now : ℤ}
    {prepared : PreparedGeneratedMessage}
    (h : prepareGeneratedAssistant owner generationKey factsSha256 conversationId replyToMessageId
      wantsRetry fresh now chat = .ok (prepared, chat')) :
    MessageWrites (.prepareGeneratedAssistant owner generationKey factsSha256 conversationId
      replyToMessageId wantsRetry fresh now) chat.messages chat'.messages := by
  simp only [prepareGeneratedAssistant, bind_eq_ok, raiseIf_eq_ok, exists_const] at h
  obtain ⟨-, conversation, -, horigin, h⟩ := h
  split at h
  · split at h
    · simp at h
    · next assistant hassistant =>
      simp only [bind_eq_ok, raiseIf_eq_ok, exists_const] at h
      obtain ⟨-, h⟩ := h
      split at h
      · next hretry =>
        simp only [bind_eq_ok, pure_eq_ok, Prod.exists, Prod.mk.injEq] at h
        obtain ⟨m, mid, hm, -, rfl⟩ := h
        obtain ⟨stored, -, -, role⟩ := of_assistantMessage hassistant
        simp only [retryFailed, bind_eq_ok, pure_eq_ok, Prod.mk.injEq] at hm
        obtain ⟨after, happend, -, rfl⟩ := hm
        obtain ⟨-, rfl⟩ := appendChange_eq_ok.mp happend
        exact .single (.retry assistant stored role hretry.2)
      · simp only [pure_eq_ok, Prod.mk.injEq] at h
        rw [h.2]
  · simp only [bind_eq_ok, raiseIf_eq_ok, pure_eq_ok, exists_const, Prod.mk.injEq,
      insertMessage_eq_ok] at h
    obtain ⟨_, ⟨insertable, rfl⟩, -, mid, happend, -, rfl⟩ := h
    obtain ⟨-, rfl⟩ := appendChange_eq_ok.mp happend
    refine .single (.generate (chat.nextSequence conversationId) ?_ insertable)
    cases hfind : chat.messages.find? replyToMessageId with
    | none => simp [hfind] at horigin
    | some m => exact ⟨m, (Table.mem_of_find? hfind).1, (Table.mem_of_find? hfind).2⟩

/-- A cancellation abandons a pending answer at most. -/
theorem cancelSubmission_messageWrites {owner clientMessageId : String} {now : ℤ}
    (h : cancelSubmission owner clientMessageId now chat = .ok chat') :
    MessageWrites (.cancelSubmission owner clientMessageId now) chat.messages chat'.messages := by
  simp only [cancelSubmission, bind_eq_ok] at h
  obtain ⟨rows, hrows, h⟩ := h
  split at h
  · simp at h
  · next assistant =>
    split at h
    · next pending =>
      simp only [closeMessage, bind_eq_ok, pure_eq_ok] at h
      obtain ⟨mid, happend, rfl⟩ := h
      obtain ⟨-, rfl⟩ := appendChange_eq_ok.mp happend
      obtain ⟨stored, -, -, -, role⟩ := of_reservedAssistant (submissionRows_eq_some hrows).2
      exact .single (.abandon assistant .cancelled none stored role pending (.inr rfl))
    · rw [pure_eq_ok] at h
      rw [h]

/-- Recovering answers abandons the pending ones. -/
theorem recoverMessages_messageWrites {now : ℤ} {rows : List MagiMessage}
    (h : rows.foldlM (recoverMessage now) chat = .ok chat')
    (hroles : ∀ row ∈ rows, ∀ m ∈ chat.messages.rows, m.id = row.id → m.role = .assistant) :
    MessageWrites (.recoverOrphanedPending now) chat.messages chat'.messages := by
  induction rows generalizing chat with
  | nil =>
    obtain rfl : chat = chat' := by simpa [pure, Except.pure] using h
    exact .refl
  | cons row rows ih =>
    simp only [List.foldlM_cons, bind_eq_ok] at h
    obtain ⟨mid, hrow, hrest⟩ := h
    obtain ⟨hmessages, -⟩ := recoverMessage_cases hrow
    have hfirst : MessageWrites (.recoverOrphanedPending now) chat.messages mid.messages := by
      rw [hmessages]
      cases hfind : chat.messages.find? row.id with
      | none =>
        rw [Table.update_eq_self]
        simp [hfind]
      | some m =>
        obtain ⟨stored, hid⟩ := Table.mem_of_find? hfind
        by_cases pending : m.status = .pending
        · have hclosed : chat.messages.update row.id (MagiMessage.recovered now)
              (MagiMessage.recovered_id now) = chat.messages.update m.id
                (MagiMessage.closed .failed "" (some "server_restart") now) := by
            rw [hid]
            refine Table.update_congr fun r hr => ?_
            obtain rfl : m = r := Option.some.inj (hfind.symm.trans hr)
            exact if_pos pending
          rw [hclosed]
          exact .single (.abandon m .failed (some "server_restart") stored
            (hroles row List.mem_cons_self m stored hid) pending (.inl rfl))
        · rw [Table.update_eq_self]
          intro r hr
          obtain rfl : m = r := Option.some.inj (hfind.symm.trans hr)
          exact if_neg pending
    refine hfirst.trans (ih hrest fun other hother m hm hid => ?_)
    rw [hmessages] at hm
    obtain ⟨old, hold, rfl⟩ := Table.mem_update.mp hm
    by_cases hsame : old.id = row.id
    · rw [if_pos hsame] at hid ⊢
      rw [MagiMessage.recovered_id] at hid
      have hrole := hroles other (List.mem_cons_of_mem _ hother) old hold hid
      unfold MagiMessage.recovered
      split <;> exact hrole
    · rw [if_neg hsame] at hid ⊢
      exact hroles other (List.mem_cons_of_mem _ hother) old hold hid

/-- A recovery abandons the pending answers. -/
theorem recoverOrphanedPending_messageWrites {now : ℤ} {count : ℕ}
    (h : recoverOrphanedPending now chat = .ok (count, chat')) :
    MessageWrites (.recoverOrphanedPending now) chat.messages chat'.messages := by
  simp only [recoverOrphanedPending, bind_eq_ok, pure_eq_ok, Prod.mk.injEq] at h
  obtain ⟨mid, hrows, -, rfl⟩ := h
  rw [(countEach_same _ _ _ _ mid).1]
  refine recoverMessages_messageWrites hrows fun row hrow m hm hid => ?_
  simp only [List.mem_filter, decide_eq_true_eq] at hrow
  rw [Table.eq_of_mem hm hrow.1 hid]
  exact hrow.2.1

/-- Recording a route writes no message. -/
theorem recordTurnRoute_messages {owner id : String} {category : RouteCategory}
    {permissionGranted explicitConfirmation : Bool} {outcome : RouteOutcome} {now : ℤ}
    (h : recordTurnRoute owner id category permissionGranted explicitConfirmation outcome now chat =
      .ok chat') : chat'.messages = chat.messages := by
  unfold recordTurnRoute at h
  split at h
  · simp at h
  · split at h <;> rw [← Except.ok.inj h]

/-- A transaction that returns is a sequence of writes. -/
theorem ChatOp.apply_messageWrites {op : ChatOp} (h : op.apply chat = .ok chat') :
    MessageWrites op chat.messages chat'.messages := by
  cases op <;> simp only [ChatOp.apply, stateOf_eq_ok] at h
  case prepareSubmission => exact prepareSubmission_messageWrites h.choose_spec
  case prepareGeneratedAssistant => exact prepareGeneratedAssistant_messageWrites h.choose_spec
  case completeSubmission =>
    obtain ⟨took, h⟩ := h
    rcases completeSubmission_cases h with
      ⟨-, rfl⟩ | ⟨-, -, m, stored, rfl, -, role, pending, -, hmessages, -⟩
    · exact .refl
    · rw [hmessages]
      exact .single (.complete m stored role pending)
  case failSubmission =>
    obtain ⟨took, h⟩ := h
    rcases failSubmission_cases h with
      ⟨-, rfl⟩ | ⟨-, -, m, stored, rfl, -, role, pending, -, hmessages, -⟩
    · exact .refl
    · rw [hmessages]
      exact .single (.abandon m .failed _ stored role pending (.inl rfl))
  case recoverOrphanedPending => exact recoverOrphanedPending_messageWrites h.choose_spec
  case cancelSubmission => exact cancelSubmission_messageWrites h
  case recordTurnRoute => rw [recordTurnRoute_messages h]

/-- The messages after a transaction, whether it returns or raises. -/
theorem chatStep_messageWrites (chat : Chat) (op : ChatOp) :
    MessageWrites op chat.messages (chatStep chat op).messages :=
  commit_of (P := fun chat' : Chat => MessageWrites op chat.messages chat'.messages) .refl
    fun _ h => ChatOp.apply_messageWrites h

/-- A listing writes no message. -/
theorem storeStep_list_messages (chat : Chat) {owner : String} {conversationId : Option String}
    {before : Option ℤ} {limit : ℤ} {freshId : String} {now : ℤ} :
    (storeStep chat (.list owner conversationId before limit freshId now)).messages =
      chat.messages := by
  refine commit_of (P := fun chat' : Chat => chat'.messages = chat.messages) rfl fun chat' h => ?_
  obtain ⟨page, h⟩ := stateOf_eq_ok.mp h
  exact (listConversation_cases h).1.1

end Operations

/-- A later version of a message: only an open answer is revised, and no revision is written
twice. -/
structure MagiMessage.Revises (m m' : MagiMessage) : Prop extends m.SameIdentity m' where
  source : m'.source = m.source
  replyToMessageId : m'.replyToMessageId = m.replyToMessageId
  attachments : m'.attachments = m.attachments
  createdAt : m'.createdAt = m.createdAt
  revision_le : m.revision ≤ m'.revision
  same : m'.revision = m.revision → m' = m
  wasOpen : m.revision < m'.revision → m.role = .assistant ∧ m.status.final = false

namespace MagiMessage.Revises

variable {m m' m'' : MagiMessage}

theorem refl (m : MagiMessage) : m.Revises m where
  toSameIdentity := .refl m
  source := rfl
  replyToMessageId := rfl
  attachments := rfl
  createdAt := rfl
  revision_le := le_rfl
  same _ := rfl
  wasOpen h := absurd h (lt_irrefl _)

theorem trans (h : m.Revises m') (h' : m'.Revises m'') : m.Revises m'' where
  toSameIdentity := h.toSameIdentity.trans h'.toSameIdentity
  source := h'.source.trans h.source
  replyToMessageId := h'.replyToMessageId.trans h.replyToMessageId
  attachments := h'.attachments.trans h.attachments
  createdAt := h'.createdAt.trans h.createdAt
  revision_le := h.revision_le.trans h'.revision_le
  same hrevision := by
    have hmid : m'.revision = m.revision :=
      (h'.revision_le.trans hrevision.le).antisymm h.revision_le
    obtain rfl := h.same hmid
    exact h'.same hrevision
  wasOpen hlt := by
    rcases h.revision_le.lt_or_eq with hfirst | hsame
    · exact h.wasOpen hfirst
    · obtain rfl := h.same hsame.symm
      exact h'.wasOpen hlt

/-- The next attempt revises a failed answer. -/
theorem retried (now : ℤ) (role : m.role = .assistant) (failed : m.status = .failed) :
    m.Revises (m.retried now) where
  toSameIdentity := sameIdentity_retried now m
  source := rfl
  replyToMessageId := rfl
  attachments := rfl
  createdAt := rfl
  revision_le := Nat.le_succ _
  same h := absurd h (Nat.succ_ne_self _)
  wasOpen _ := ⟨role, by rw [failed]; rfl⟩

/-- The end of its attempt revises a pending answer. -/
theorem closed (status : MessageStatus) (content : String) (errorCode : Option String) (now : ℤ)
    (role : m.role = .assistant) (pending : m.status = .pending) :
    m.Revises (m.closed status content errorCode now) where
  toSameIdentity := sameIdentity_closed status content errorCode now m
  source := rfl
  replyToMessageId := rfl
  attachments := rfl
  createdAt := rfl
  revision_le := Nat.le_succ _
  same h := absurd h (Nat.succ_ne_self _)
  wasOpen _ := ⟨role, by rw [pending]; rfl⟩

end MagiMessage.Revises

/-- Every message has a version that revises it. -/
def AllRevised (messages messages' : Table MagiMessage.id) : Prop :=
  ∀ m ∈ messages.rows, ∃ m' ∈ messages'.rows, m.Revises m'

namespace AllRevised

variable {messages messages' messages'' : Table MagiMessage.id}

theorem refl (messages : Table MagiMessage.id) : AllRevised messages messages :=
  fun m hm => ⟨m, hm, .refl m⟩

theorem trans (h : AllRevised messages messages') (h' : AllRevised messages' messages'') :
    AllRevised messages messages'' := by
  intro m hm
  obtain ⟨m', hm', hrevises⟩ := h m hm
  obtain ⟨m'', hm'', hrevises'⟩ := h' m' hm'
  exact ⟨m'', hm'', hrevises.trans hrevises'⟩

/-- Writing a revision of one message revises every message. -/
theorem update {f : MagiMessage → MagiMessage} {hf : ∀ m, (f m).id = m.id} {m : MagiMessage}
    (stored : m ∈ messages.rows) (h : m.Revises (f m)) :
    AllRevised messages (messages.update m.id f hf) := by
  intro r hr
  by_cases hid : r.id = m.id
  · obtain rfl := Table.eq_of_mem hr stored hid
    exact ⟨f r, Table.mem_update.mpr ⟨r, hr, if_pos rfl⟩, h⟩
  · exact ⟨r, Table.mem_update.mpr ⟨r, hr, if_neg hid⟩, .refl r⟩

/-- Every write revises. -/
theorem write {op : ChatOp} (h : MessageWrite op messages messages') :
    AllRevised messages messages' := by
  cases h with
  | reserve conversationId sequence =>
    intro m hm
    exact ⟨m, Table.mem_insertOrIgnore_of_mem (Table.mem_insertOrIgnore_of_mem hm), .refl m⟩
  | generate sequence =>
    intro m hm
    exact ⟨m, Table.mem_insertOrIgnore_of_mem hm, .refl m⟩
  | retry m stored role failed => exact update stored (.retried _ role failed)
  | complete m stored role pending => exact update stored (.closed _ _ _ _ role pending)
  | abandon m status errorCode stored role pending =>
    exact update stored (.closed _ _ _ _ role pending)

theorem writes {op : ChatOp} (h : MessageWrites op messages messages') :
    AllRevised messages messages' := by
  induction h with
  | refl => exact .refl messages
  | tail _ hwrite ih => exact ih.trans (.write hwrite)

/-- Every run revises. -/
theorem run (chat : Chat) (steps : List StoreStep) :
    AllRevised chat.messages (run storeStep chat steps).messages := by
  refine run_monotone (R := fun chat chat' : Chat => AllRevised chat.messages chat'.messages)
    (fun chat => .refl chat.messages) (fun _ _ _ => .trans) (fun chat step => ?_) chat steps
  cases step with
  | write op => exact .writes (chatStep_messageWrites chat op)
  | list => exact storeStep_list_messages chat ▸ .refl chat.messages

end AllRevised

/-- A message of a conversation as it is stored at some point of a run. -/
def StoredVersion (steps : List StoreStep) (conversationId : String) (m : MagiMessage) : Prop :=
  ∃ before, before <+: steps ∧ m ∈ (run storeStep .initial before).messages.rows ∧
    m.conversationId = conversationId

namespace StoredVersion

variable {steps : List StoreStep} {conversationId : String} {m m' : MagiMessage}

/-- Two stored versions are seen at one time, up to a revision of the earlier one. -/
theorem together (hm : StoredVersion steps conversationId m)
    (hm' : StoredVersion steps conversationId m') :
    ∃ before r r', r ∈ (run storeStep .initial before).messages.rows ∧
      r' ∈ (run storeStep .initial before).messages.rows ∧ m.Revises r ∧ m'.Revises r' ∧
      (r = m ∨ r' = m') := by
  obtain ⟨before, hbefore, hmem, -⟩ := hm
  obtain ⟨before', hbefore', hmem', -⟩ := hm'
  rcases List.prefix_or_prefix_of_prefix hbefore hbefore' with ⟨between, rfl⟩ | ⟨between, rfl⟩
  · obtain ⟨r, hr, hrevises⟩ := AllRevised.run _ between m hmem
    rw [← run_append] at hr
    exact ⟨_, r, m', hr, hmem', hrevises, .refl m', .inr rfl⟩
  · obtain ⟨r', hr', hrevises⟩ := AllRevised.run _ between m' hmem'
    rw [← run_append] at hr'
    exact ⟨_, m, r', hmem, hr', .refl m, hrevises, .inl rfl⟩

/-- Of two stored versions of a message one revises the other. -/
theorem revises (hm : StoredVersion steps conversationId m)
    (hm' : StoredVersion steps conversationId m') (hid : m.id = m'.id) :
    m.Revises m' ∨ m'.Revises m := by
  obtain ⟨before, r, r', hr, hr', hrevises, hrevises', hlast⟩ := hm.together hm'
  obtain rfl : r = r' := Table.eq_of_mem hr hr' (hrevises.id.trans (hid.trans hrevises'.id.symm))
  rcases hlast with rfl | rfl
  · exact .inr hrevises'
  · exact .inl hrevises

/-- Stored versions that a unique key does not keep apart are of one message. -/
theorem id_eq (hm : StoredVersion steps conversationId m)
    (hm' : StoredVersion steps conversationId m') (hcollides : m.collides m' = true) :
    m'.id = m.id := by
  obtain ⟨before, r, r', hr, hr', hrevises, hrevises', -⟩ := hm.together hm'
  rw [← hrevises.toSameIdentity.collides hrevises'.toSameIdentity] at hcollides
  have hsame := (Submissions.of_store before).apart r hr r' hr' hcollides
  exact hrevises'.id.symm.trans (hsame ▸ hrevises.id)

end StoredVersion

end Magistrate
