import Magistrate.Gateway.Chat.Submission

/-!
# Generated messages

A generation key is bound once to an assistant message and to the facts that it
reports. The binding stays, each of its messages belongs to it alone, and each
attempt of a message is claimed once.
-/

namespace Magistrate

open MagiChatStore

/-- Every binding names an assistant message of its own. -/
structure GeneratedBindings (chat : Chat) : Prop where
  named : ∀ b ∈ chat.generated.rows, ∃ m ∈ chat.messages.rows, m.id = b.messageId ∧
    m.ownerUserId = b.ownerUserId ∧ m.role = .assistant
  distinct : ∀ b ∈ chat.generated.rows, ∀ b' ∈ chat.generated.rows,
    b'.messageId = b.messageId → b' = b

section Operations

variable {chat chat' : Chat} {owner : String} {wantsRetry : Bool} {fresh : FreshIds} {now : ℤ}

/-- Numbering a change keeps the bindings. -/
theorem appendChange_generated {conversationId messageId : String} {revision : ℕ}
    (h : chat.appendChange conversationId messageId revision now = .ok chat') :
    chat'.generated = chat.generated := by
  obtain ⟨-, rfl⟩ := appendChange_eq_ok.mp h
  rfl

/-- Ending an attempt keeps the bindings. -/
theorem closeMessage_generated {m : MagiMessage} {status : MessageStatus} {content : String}
    {errorCode : Option String} (h : closeMessage m status content errorCode now chat = .ok chat') :
    chat'.generated = chat.generated := by
  rw [appendChange_generated h]
  rfl

/-- A claimed retry leaves its message at its next attempt. -/
theorem retryFailed_cases {conversationId : String} {m m' : MagiMessage}
    (h : retryFailed owner conversationId m now chat = .ok (m', chat')) :
    m' = m.retried now ∧ chat'.generated = chat.generated ∧
      chat'.messages = chat.messages.update m.id (MagiMessage.retried now) := by
  simp only [retryFailed, bind_eq_ok, pure_eq_ok, Prod.mk.injEq] at h
  obtain ⟨mid, happend, rfl, rfl⟩ := h
  obtain ⟨-, rfl⟩ := appendChange_eq_ok.mp happend
  exact ⟨rfl, rfl, rfl⟩

/-- A submission keeps the bindings. -/
theorem prepareSubmission_generated {clientMessageId content source : String}
    {conversationId : Option String} {requested : Except ChatFailure (List AttachmentRecord)}
    {prepared : PreparedSubmission}
    (h : prepareSubmission owner clientMessageId content conversationId source requested wantsRetry
      fresh now chat = .ok (prepared, chat')) : chat'.generated = chat.generated := by
  obtain ⟨_, conversation, mid, -, hconversation, hcase⟩ := prepareSubmission_cases h
  have hmid : mid.generated = chat.generated := by
    unfold requestedConversation defaultConversation at hconversation
    split at hconversation
    · simp only [bind_eq_ok, pure_eq_ok, Prod.mk.injEq] at hconversation
      obtain ⟨-, -, -, rfl⟩ := hconversation
      rfl
    · split at hconversation
      · rw [← (Prod.mk.inj (Except.ok.inj hconversation)).2]
      · simp only [Chat.insertConversation, bind_eq_ok, raiseIf_eq_ok, pure_eq_ok, exists_const,
          Prod.mk.injEq] at hconversation
        obtain ⟨_, ⟨-, -, rfl⟩, -, rfl⟩ := hconversation
        rfl
  rw [← hmid]
  rcases hcase with ⟨user, assistant, -, -, hagain⟩ | ⟨-, hnew⟩
  · simp only [prepareAgain, bind_eq_ok, raiseIf_eq_ok, exists_const] at hagain
    obtain ⟨-, hagain⟩ := hagain
    split at hagain
    · simp only [bind_eq_ok, pure_eq_ok, Prod.exists, Prod.mk.injEq] at hagain
      obtain ⟨m, last, hm, -, rfl⟩ := hagain
      exact (retryFailed_cases hm).2.1
    · simp only [pure_eq_ok, Prod.mk.injEq] at hagain
      rw [← hagain.2]
      rfl
  · simp only [prepareNew, bind_eq_ok, pure_eq_ok, Prod.mk.injEq, insertMessage_eq_ok] at hnew
    obtain ⟨_, ⟨-, rfl⟩, _, ⟨-, rfl⟩, last, happend, last', happend', -, rfl⟩ := hnew
    have hlast := appendChange_generated happend
    exact (appendChange_generated happend').trans hlast

/-- A completion keeps the bindings. -/
theorem completeSubmission_generated {id content : String} {attempt latencyMs toolCalls : ℕ}
    {took : Bool} (h : completeSubmission owner id attempt content latencyMs toolCalls now chat =
      .ok (took, chat')) : chat'.generated = chat.generated := by
  unfold completeSubmission at h
  split at h
  · exact absurd h (by simp)
  · split at h
    · rw [(Prod.mk.inj (Except.ok.inj h)).2]
    · simp only [bind_eq_ok, pure_eq_ok, Prod.mk.injEq] at h
      obtain ⟨mid, hclose, -, rfl⟩ := h
      have hmid := closeMessage_generated hclose
      exact hmid

/-- A failure keeps the bindings. -/
theorem failSubmission_generated {id errorCode : String} {attempt toolCalls : ℕ} {took : Bool}
    (h : failSubmission owner id attempt errorCode toolCalls now chat = .ok (took, chat')) :
    chat'.generated = chat.generated := by
  unfold failSubmission at h
  split at h
  · exact absurd h (by simp)
  · split at h
    · rw [(Prod.mk.inj (Except.ok.inj h)).2]
    · simp only [bind_eq_ok, pure_eq_ok, Prod.mk.injEq] at h
      obtain ⟨mid, hclose, -, rfl⟩ := h
      have hmid := closeMessage_generated hclose
      exact hmid

/-- A cancellation keeps the bindings. -/
theorem cancelSubmission_generated {clientMessageId : String}
    (h : cancelSubmission owner clientMessageId now chat = .ok chat') :
    chat'.generated = chat.generated := by
  simp only [cancelSubmission, bind_eq_ok] at h
  obtain ⟨rows, -, h⟩ := h
  split at h
  · exact absurd h (by simp)
  · split at h
    · simp only [bind_eq_ok, pure_eq_ok] at h
      obtain ⟨mid, hclose, rfl⟩ := h
      have hmid := closeMessage_generated hclose
      exact hmid
    · rw [pure_eq_ok] at h
      rw [h]

/-- Recording a route keeps the bindings. -/
theorem recordTurnRoute_generated {id : String} {category : RouteCategory}
    {permissionGranted explicitConfirmation : Bool} {outcome : RouteOutcome}
    (h : recordTurnRoute owner id category permissionGranted explicitConfirmation outcome now chat =
      .ok chat') : chat'.generated = chat.generated := by
  unfold recordTurnRoute at h
  split at h
  · exact absurd h (by simp)
  · split at h <;> rw [← Except.ok.inj h]

/-- A recovery keeps the bindings. -/
theorem recoverOrphanedPending_generated {count : ℕ}
    (h : recoverOrphanedPending now chat = .ok (count, chat')) :
    chat'.generated = chat.generated := by
  have hrows : ∀ (rows : List MagiMessage) (chat chat' : Chat),
      rows.foldlM (recoverMessage now) chat = .ok chat' → chat'.generated = chat.generated := by
    intro rows
    induction rows with
    | nil =>
      intro chat chat' h
      obtain rfl : chat = chat' := by simpa [pure, Except.pure] using h
      rfl
    | cons row rows ih =>
      intro chat chat' h
      simp only [List.foldlM_cons, bind_eq_ok] at h
      obtain ⟨mid, hrow, hrest⟩ := h
      simp only [recoverMessage, bind_eq_ok, pure_eq_ok] at hrow
      obtain ⟨last, happend, rfl⟩ := hrow
      have hlast := appendChange_generated happend
      exact (ih _ _ hrest).trans hlast
  have hcounts : ∀ (owners : List String) (add : String → ChatDiagnostics → ChatDiagnostics)
      (hadd : ∀ owner d, (add owner d).ownerUserId = d.ownerUserId) (chat : Chat),
      (owners.foldl (fun chat owner =>
        chat.countDiagnostics owner now (add owner) (hadd owner)) chat).generated =
          chat.generated := by
    intro owners add hadd chat
    induction owners generalizing chat with
    | nil => rfl
    | cons owner owners ih => exact ih _
  simp only [recoverOrphanedPending, bind_eq_ok, pure_eq_ok, Prod.mk.injEq] at h
  obtain ⟨mid, hmid, -, rfl⟩ := h
  exact (hcounts _ _ _ mid).trans (hrows _ _ _ hmid)

/-- A preparation returns the message of its key's binding: a stored one to its own facts, or a new
one with a new message. -/
theorem prepareGeneratedAssistant_cases {generationKey factsSha256 conversationId
    replyToMessageId : String} {prepared : PreparedGeneratedMessage}
    (h : prepareGeneratedAssistant owner generationKey factsSha256 conversationId replyToMessageId
      wantsRetry fresh now chat = .ok (prepared, chat')) :
    ∃ b, b.key = (owner, generationKey) ∧ b.factsSha256 = factsSha256 ∧
      b.messageId = prepared.assistantMessageId ∧
      ((chat.generated.find? b.key = some b ∧ chat'.generated = chat.generated ∧
          prepared.duplicate = true ∧
          ∃ m ∈ chat.messages.rows, m.id = b.messageId ∧
            ((prepared.claimed = false ∧ chat' = chat) ∨
              (prepared.claimed = true ∧ prepared.attempt = m.attemptCount + 1 ∧
                chat'.messages = chat.messages.update m.id (MagiMessage.retried now)))) ∨
        (chat.generated.find? b.key = none ∧
          (∀ g ∈ chat.generated.rows, g.messageId ≠ b.messageId) ∧
          chat'.generated = chat.generated.insertOrIgnore b ∧
          prepared.duplicate = false ∧ prepared.claimed = true ∧
          ∃ m, chat.messages.find? m.id = none ∧ m.id = b.messageId ∧ m.ownerUserId = owner ∧
            m.role = .assistant ∧ m.attemptCount = prepared.attempt ∧
            chat'.messages = chat.messages.insertOrIgnore m)) := by
  simp only [prepareGeneratedAssistant, bind_eq_ok, raiseIf_eq_ok, exists_const] at h
  obtain ⟨-, conversation, -, -, h⟩ := h
  split at h
  · next b hb =>
    obtain ⟨-, hkey⟩ := Table.mem_of_find? hb
    split at h
    · exact absurd h (by simp)
    · next assistant hassistant =>
      simp only [bind_eq_ok, raiseIf_eq_ok, exists_const, not_or, not_not] at h
      obtain ⟨⟨hfacts, -⟩, h⟩ := h
      obtain ⟨hm, hid, -⟩ := of_assistantMessage hassistant
      split at h
      · simp only [bind_eq_ok, pure_eq_ok, Prod.exists, Prod.mk.injEq] at h
        obtain ⟨m, mid, hretry, rfl, rfl⟩ := h
        obtain ⟨rfl, hgenerated, hmessages⟩ := retryFailed_cases hretry
        exact ⟨b, hkey, hfacts, hid.symm, .inl ⟨hkey ▸ hb, hgenerated, rfl, assistant, hm, hid,
          .inr ⟨rfl, rfl, hmessages⟩⟩⟩
      · simp only [pure_eq_ok, Prod.mk.injEq] at h
        obtain ⟨rfl, rfl⟩ := h
        exact ⟨b, hkey, hfacts, hid.symm, .inl ⟨hkey ▸ hb, rfl, rfl, assistant, hm, hid,
          .inl ⟨rfl, rfl⟩⟩⟩
  · next hnone =>
    simp only [bind_eq_ok, raiseIf_eq_ok, pure_eq_ok, exists_const, Prod.mk.injEq,
      insertMessage_eq_ok, not_exists, not_and] at h
    obtain ⟨_, ⟨insertable, rfl⟩, hfree, mid, happend, rfl, rfl⟩ := h
    obtain ⟨-, rfl⟩ := appendChange_eq_ok.mp happend
    exact ⟨_, rfl, rfl, rfl,
      .inr ⟨by exact hnone, hfree, rfl, rfl, rfl, _, insertable.freeId, rfl, rfl, rfl, rfl, rfl⟩⟩

/-- A transaction keeps the bindings, or adds one for a new message. -/
theorem ChatOp.apply_generated {op : ChatOp} (h : op.apply chat = .ok chat') :
    chat'.generated = chat.generated ∨
      ∃ b, chat.generated.find? b.key = none ∧
        (∀ g ∈ chat.generated.rows, g.messageId ≠ b.messageId) ∧
        chat'.generated = chat.generated.insertOrIgnore b ∧
        ∃ m ∈ chat'.messages.rows, m.id = b.messageId ∧ m.ownerUserId = b.ownerUserId ∧
          m.role = .assistant := by
  cases op <;> simp only [ChatOp.apply, stateOf_eq_ok] at h
  case prepareSubmission => exact .inl (prepareSubmission_generated h.choose_spec)
  case prepareGeneratedAssistant =>
    obtain ⟨prepared, h⟩ := h
    obtain ⟨b, hkey, -, -, ⟨-, hgenerated, -⟩ | ⟨hnone, hfree, hgenerated, -, -, m, hm, hid, howner,
      hrole, -, hmessages⟩⟩ := prepareGeneratedAssistant_cases h
    · exact .inl hgenerated
    · refine .inr ⟨b, hnone, hfree, hgenerated, m, ?_, hid,
        howner.trans (Prod.mk.inj hkey).1.symm, hrole⟩
      rw [hmessages]
      exact Table.mem_insertOrIgnore_self hm
  case completeSubmission => exact .inl (completeSubmission_generated h.choose_spec)
  case failSubmission => exact .inl (failSubmission_generated h.choose_spec)
  case recoverOrphanedPending => exact .inl (recoverOrphanedPending_generated h.choose_spec)
  case cancelSubmission => exact .inl (cancelSubmission_generated h)
  case recordTurnRoute => exact .inl (recordTurnRoute_generated h)

end Operations

namespace GeneratedBindings

variable {chat chat' : Chat} {op : ChatOp}

theorem initial : GeneratedBindings .initial :=
  ⟨fun _ hb => by simp [Chat.initial] at hb, fun _ hb => by simp [Chat.initial] at hb⟩

/-- A step keeps the bindings of every message to its own. -/
theorem step (h : GeneratedBindings chat) (op : ChatOp) : GeneratedBindings (chatStep chat op) := by
  refine commit_of h fun chat' hok => ?_
  have hgrows := (ChatOp.apply_moves hok).grows
  have hnamed : ∀ b ∈ chat.generated.rows, ∃ m ∈ chat'.messages.rows, m.id = b.messageId ∧
      m.ownerUserId = b.ownerUserId ∧ m.role = .assistant := by
    intro b hb
    obtain ⟨m, hm, hid, howner, hrole⟩ := h.named b hb
    obtain ⟨m', hm', hkept⟩ := hgrows m hm
    exact ⟨m', hm', hkept.id.trans hid, hkept.ownerUserId.trans howner, hkept.role.trans hrole⟩
  rcases ChatOp.apply_generated hok with hsame | ⟨new, -, hfree, hgenerated, hnew⟩
  · exact ⟨hsame ▸ hnamed, hsame ▸ h.distinct⟩
  · constructor
    · intro b hb
      rw [hgenerated] at hb
      rcases Table.mem_insertOrIgnore hb with hb | ⟨-, rfl⟩
      · exact hnamed b hb
      · exact hnew
    · intro b hb b' hb' hid
      rw [hgenerated] at hb hb'
      rcases Table.mem_insertOrIgnore hb with hold | ⟨-, hnew⟩ <;>
        rcases Table.mem_insertOrIgnore hb' with hold' | ⟨-, hnew'⟩
      · exact h.distinct b hold b' hold' hid
      · exact absurd (hid.symm.trans (hnew' ▸ rfl)) (hfree b hold)
      · exact absurd (hid.trans (hnew ▸ rfl)) (hfree b' hold')
      · exact hnew'.trans hnew.symm

/-- A binding names an assistant message of its owner. -/
theorem assistantMessage (h : GeneratedBindings chat) {b : GeneratedMessage}
    (hb : b ∈ chat.generated.rows) : ∃ m,
      chat.assistantMessage b.ownerUserId b.messageId = some m := by
  obtain ⟨m, hm, hid, howner, hrole⟩ := h.named b hb
  refine ⟨m, Option.filter_eq_some_iff.mpr ⟨hid ▸ Table.find?_of_mem hm, ?_⟩⟩
  simp [howner, hrole]

end GeneratedBindings

/-- A binding stays. -/
theorem chatStep_generated {chat : Chat} {key : String × String} {b : GeneratedMessage}
    (h : chat.generated.find? key = some b) (op : ChatOp) :
    (chatStep chat op).generated.find? key = some b := by
  refine commit_of (P := fun chat' : Chat => chat'.generated.find? key = some b) h
    fun chat' hok => ?_
  rcases ChatOp.apply_generated hok with hsame | ⟨new, -, -, hgenerated, -⟩
  · rw [hsame, h]
  · rw [hgenerated, Table.find?_insertOrIgnore, h, Option.some_or]

/-- A preparation under a bound key with other facts is refused. -/
theorem prepareGeneratedAssistant_refused {chat : Chat} {owner generationKey factsSha256 : String}
    {b : GeneratedMessage} (h : chat.generated.find? (owner, generationKey) = some b)
    (hfacts : b.factsSha256 ≠ factsSha256) (conversationId replyToMessageId : String)
    (wantsRetry : Bool) (fresh : FreshIds) (now : ℤ) :
    ∃ e, prepareGeneratedAssistant owner generationKey factsSha256 conversationId replyToMessageId
      wantsRetry fresh now chat = .error e := by
  cases hprepare : prepareGeneratedAssistant owner generationKey factsSha256 conversationId
      replyToMessageId wantsRetry fresh now chat with
  | error e => exact ⟨e, rfl⟩
  | ok result =>
    obtain ⟨prepared, chat'⟩ := result
    obtain ⟨b', hkey, hfacts', -, ⟨hfound, -⟩ | ⟨hnone, -⟩⟩ :=
      prepareGeneratedAssistant_cases hprepare
    · rw [hkey, h] at hfound
      rw [← Option.some.inj hfound] at hfacts'
      exact absurd hfacts' hfacts
    · rw [hkey, h] at hnone
      exact absurd hnone (by simp)

/-- An attempt of a generated message that a preparation claims comes after the attempts that were
claimed before. -/
theorem generated_attempt_lt {chat chat' later later' : Chat} {owner generationKey : String}
    {factsSha256 conversationId replyToMessageId factsSha256' conversationId'
      replyToMessageId' : String}
    {wantsRetry wantsRetry' : Bool} {fresh fresh' : FreshIds} {now now' : ℤ}
    {prepared prepared' : PreparedGeneratedMessage}
    (hfirst : prepareGeneratedAssistant owner generationKey factsSha256 conversationId
      replyToMessageId wantsRetry fresh now chat = .ok (prepared, chat'))
    (hclaimed : prepared.claimed = true) (hgrows : chat'.Grows later)
    (hbound : ∀ key b, chat'.generated.find? key = some b → later.generated.find? key = some b)
    (hsecond : prepareGeneratedAssistant owner generationKey factsSha256' conversationId'
      replyToMessageId' wantsRetry' fresh' now' later = .ok (prepared', later'))
    (hclaimed' : prepared'.claimed = true) : prepared.attempt < prepared'.attempt := by
  obtain ⟨b, hkey, -, -, hcase⟩ := prepareGeneratedAssistant_cases hfirst
  have hmessage : ∃ m ∈ chat'.messages.rows, m.id = b.messageId ∧
      m.attemptCount = prepared.attempt := by
    rcases hcase with ⟨-, -, -, m, hm, hid, ⟨hunclaimed, -⟩ | ⟨-, hattempt, hmessages⟩⟩ |
      ⟨-, -, -, -, -, m, hfree, hid, -, -, hattempt, hmessages⟩
    · rw [hunclaimed] at hclaimed
      exact absurd hclaimed (by simp)
    · refine ⟨m.retried now, ?_, hid, hattempt.symm⟩
      rw [hmessages, Table.mem_update]
      exact ⟨m, hm, if_pos rfl⟩
    · refine ⟨m, ?_, hid, hattempt⟩
      rw [hmessages]
      exact Table.mem_insertOrIgnore_self hfree
  have hstored : chat'.generated.find? (owner, generationKey) = some b := by
    rw [← hkey]
    rcases hcase with ⟨hfound, hgenerated, -⟩ | ⟨hnone, -, hgenerated, -⟩
    · rw [hgenerated, hfound]
    · rw [hgenerated]
      exact Table.find?_of_mem (Table.mem_insertOrIgnore_self hnone)
  obtain ⟨m, hm, hid, hattempt⟩ := hmessage
  obtain ⟨m', hm', hkept⟩ := hgrows m hm
  obtain ⟨b', hkey', -, -, ⟨hfound', -, -, n, hn, hnid, hclaim⟩ | ⟨hnone, -⟩⟩ :=
    prepareGeneratedAssistant_cases hsecond
  · rw [hkey', hbound _ _ hstored] at hfound'
    obtain rfl := Option.some.inj hfound'
    obtain rfl : m' = n := Table.eq_of_mem hm' hn (hkept.id.trans (hid.trans hnid.symm))
    rcases hclaim with ⟨hunclaimed, -⟩ | ⟨-, hattempt', -⟩
    · rw [hunclaimed] at hclaimed'
      exact absurd hclaimed' (by simp)
    · have hle := hkept.attempts
      omega
  · rw [hkey', hbound _ _ hstored] at hnone
    exact absurd hnone (by simp)

end Magistrate
