import Magistrate.Gateway.Chat.Revisions

/-!
# Conversations

What the store draws and stamps its rows with. A conversation keeps its drawn id
and its first stamp; each write of it only touches its last stamp.
-/

namespace Magistrate

open MagiChatStore

/-- A character of a token in the alphabet of URLs. -/
def isTokenChar (c : Char) : Bool := c.isAlphanum || c == '_' || c == '-'

/-- `_new_id`: a kind and the text of 18 random bytes. -/
def DrawnId (kind id : String) : Prop :=
  ∃ token : String, token.length = 24 ∧ token.toList.all isTokenChar = true ∧
    id = kind ++ "_" ++ token

/-- `_now_ms`: milliseconds of a clock between 2001 and the last safe integer. -/
def Stamp (now : ℤ) : Prop := 1000000000000 ≤ now ∧ now ≤ 9007199254740991

/-- The ids of a preparation are drawn. -/
structure FreshIds.Drawn (fresh : FreshIds) : Prop where
  conversation : DrawnId "mgc" fresh.conversationId
  turn : DrawnId "mgt" fresh.turnId
  user : DrawnId "mgm" fresh.userMessageId
  assistant : DrawnId "mgm" fresh.assistantMessageId

/-- What a transaction of the store draws and its clock. -/
def ChatOp.Real : ChatOp → Prop
  | prepareSubmission _ _ _ _ _ _ _ fresh now => fresh.Drawn ∧ Stamp now
  | prepareGeneratedAssistant _ _ _ _ _ _ fresh now => fresh.Drawn ∧ Stamp now
  | op => Stamp op.now

/-- What a transaction of any client draws and its clock. -/
def StoreStep.Real : StoreStep → Prop
  | .write op => op.Real
  | .list _ _ _ _ freshId now => DrawnId "mgc" freshId ∧ Stamp now

/-- A conversation as the store creates and touches it. -/
structure MagiConversation.Real (c : MagiConversation) : Prop where
  drawn : DrawnId "mgc" c.id
  created : Stamp c.createdAt
  updated : Stamp c.updatedAt

/-- Every stored conversation is one that the store created and touched. -/
def ConversationsReal (chat : Chat) : Prop := ∀ c ∈ chat.conversations.rows, c.Real

namespace ConversationsReal

variable {chat chat' : Chat} {owner : String} {now : ℤ}

theorem initial : ConversationsReal .initial := by
  intro c hc
  simp [Chat.initial] at hc

/-- Touching a conversation stamps it. -/
theorem touch (h : ConversationsReal chat) (hnow : Stamp now) (id : String) :
    ConversationsReal (chat.touchConversation id now) := by
  intro c hc
  simp only [Chat.touchConversation] at hc
  obtain ⟨d, hd, rfl⟩ := Table.mem_update.mp hc
  split
  · exact ⟨(h d hd).drawn, (h d hd).created, hnow⟩
  · exact h d hd

/-- Requesting a conversation creates one at most. -/
theorem requested {conversationId : Option String} {freshId : String} {c : MagiConversation}
    (h : ConversationsReal chat) (hfresh : DrawnId "mgc" freshId) (hnow : Stamp now)
    (hrequest : requestedConversation owner conversationId freshId now chat = .ok (c, chat')) :
    ConversationsReal chat' := by
  unfold requestedConversation at hrequest
  split at hrequest
  · simp only [bind_eq_ok, pure_eq_ok, Prod.mk.injEq] at hrequest
    obtain ⟨_, -, -, rfl⟩ := hrequest
    exact h
  · unfold defaultConversation at hrequest
    split at hrequest
    · obtain ⟨-, rfl⟩ : _ = c ∧ chat = chat' := by simpa using hrequest
      exact h
    · simp only [Chat.insertConversation, bind_eq_ok, raiseIf_eq_ok, pure_eq_ok, exists_const,
        Prod.mk.injEq] at hrequest
      obtain ⟨_, ⟨-, -, rfl⟩, -, rfl⟩ := hrequest
      intro d hd
      rcases Table.mem_insertOrIgnore hd with hd | ⟨-, rfl⟩
      · exact h d hd
      · exact ⟨hfresh, hnow, hnow⟩

/-- Ending an attempt touches its conversation. -/
theorem closed {m : MagiMessage} {status : MessageStatus} {content : String}
    {errorCode : Option String} (h : ConversationsReal chat) (hnow : Stamp now)
    (hclose : closeMessage m status content errorCode now chat = .ok chat') :
    ConversationsReal chat' := by
  obtain ⟨-, rfl⟩ := appendChange_eq_ok.mp hclose
  exact h.touch hnow m.conversationId

/-- Claiming the next attempt of a message touches no conversation. -/
theorem retried {conversationId : String} {m m' : MagiMessage} (h : ConversationsReal chat)
    (hretry : retryFailed owner conversationId m now chat = .ok (m', chat')) :
    ConversationsReal chat' := by
  simp only [retryFailed, bind_eq_ok, pure_eq_ok, Prod.mk.injEq] at hretry
  obtain ⟨mid, happend, -, rfl⟩ := hretry
  obtain ⟨-, rfl⟩ := appendChange_eq_ok.mp happend
  exact h

/-- A preparation creates its conversation at most and touches it. -/
theorem prepared {clientMessageId content source : String} {conversationId : Option String}
    {requested : Except ChatFailure (List AttachmentRecord)} {wantsRetry : Bool}
    {fresh : FreshIds} {prepared : PreparedSubmission} (h : ConversationsReal chat)
    (hfresh : fresh.Drawn) (hnow : Stamp now)
    (hprepare : prepareSubmission owner clientMessageId content conversationId source requested
      wantsRetry fresh now chat = .ok (prepared, chat')) : ConversationsReal chat' := by
  obtain ⟨attachments, conversation, mid, -, hconversation,
    ⟨user, assistant, -, -, hagain⟩ | ⟨-, hnew⟩⟩ := prepareSubmission_cases hprepare
  · have hmid := h.requested hfresh.conversation hnow hconversation
    simp only [prepareAgain, bind_eq_ok, raiseIf_eq_ok, exists_const] at hagain
    obtain ⟨-, hagain⟩ := hagain
    split at hagain
    · simp only [bind_eq_ok, pure_eq_ok, Prod.exists, Prod.mk.injEq] at hagain
      obtain ⟨m, after, hretry, -, rfl⟩ := hagain
      exact retried (by exact hmid) hretry
    · simp only [pure_eq_ok, Prod.mk.injEq] at hagain
      exact hagain.2 ▸ hmid
  · have hmid := h.requested hfresh.conversation hnow hconversation
    simp only [prepareNew, bind_eq_ok, pure_eq_ok, Prod.mk.injEq, insertMessage_eq_ok] at hnew
    obtain ⟨_, ⟨-, rfl⟩, _, ⟨-, rfl⟩, _, happend, _, happend', -, rfl⟩ := hnew
    obtain ⟨-, rfl⟩ := appendChange_eq_ok.mp happend
    obtain ⟨-, rfl⟩ := appendChange_eq_ok.mp happend'
    exact hmid.touch hnow conversation.id

/-- A generation touches its conversation at most. -/
theorem generated {generationKey factsSha256 conversationId replyToMessageId : String}
    {wantsRetry : Bool} {fresh : FreshIds} {prepared : PreparedGeneratedMessage}
    (h : ConversationsReal chat) (hnow : Stamp now)
    (hprepare : prepareGeneratedAssistant owner generationKey factsSha256 conversationId
      replyToMessageId wantsRetry fresh now chat = .ok (prepared, chat')) :
    ConversationsReal chat' := by
  simp only [prepareGeneratedAssistant, bind_eq_ok, raiseIf_eq_ok, exists_const] at hprepare
  obtain ⟨-, -, -, -, hprepare⟩ := hprepare
  split at hprepare
  · split at hprepare
    · simp at hprepare
    · simp only [bind_eq_ok, raiseIf_eq_ok, exists_const] at hprepare
      obtain ⟨-, hprepare⟩ := hprepare
      split at hprepare
      · simp only [bind_eq_ok, pure_eq_ok, Prod.exists, Prod.mk.injEq] at hprepare
        obtain ⟨m, mid, hretry, -, rfl⟩ := hprepare
        exact h.retried hretry
      · simp only [pure_eq_ok, Prod.mk.injEq] at hprepare
        exact hprepare.2 ▸ h
  · simp only [bind_eq_ok, raiseIf_eq_ok, pure_eq_ok, exists_const, Prod.mk.injEq,
      insertMessage_eq_ok] at hprepare
    obtain ⟨_, ⟨-, rfl⟩, -, mid, happend, -, rfl⟩ := hprepare
    obtain ⟨-, rfl⟩ := appendChange_eq_ok.mp happend
    exact h.touch hnow conversationId

/-- Recovering messages touches their conversations. -/
theorem recoveredMessages {rows : List MagiMessage} (h : ConversationsReal chat) (hnow : Stamp now)
    (hrecover : rows.foldlM (recoverMessage now) chat = .ok chat') : ConversationsReal chat' := by
  induction rows generalizing chat with
  | nil =>
    obtain rfl : chat = chat' := by simpa [pure, Except.pure] using hrecover
    exact h
  | cons row rows ih =>
    simp only [List.foldlM_cons, recoverMessage, bind_eq_ok, pure_eq_ok] at hrecover
    obtain ⟨_, ⟨mid, happend, rfl⟩, hrest⟩ := hrecover
    obtain ⟨-, rfl⟩ := appendChange_eq_ok.mp happend
    refine ih ?_ hrest
    exact h.touch hnow row.conversationId

/-- Counting for several owners touches no conversation. -/
theorem counted (owners : List String) (add : String → ChatDiagnostics → ChatDiagnostics)
    (hadd : ∀ owner d, (add owner d).ownerUserId = d.ownerUserId) (h : ConversationsReal chat) :
    ConversationsReal (owners.foldl (fun chat owner =>
      chat.countDiagnostics owner now (add owner) (hadd owner)) chat) := by
  induction owners generalizing chat with
  | nil => exact h
  | cons owner owners ih =>
    refine ih ?_
    exact h

/-- A transaction that returns stores conversations that it created and touched. -/
theorem apply {op : ChatOp} (h : ConversationsReal chat) (hop : op.Real)
    (happly : op.apply chat = .ok chat') : ConversationsReal chat' := by
  cases op <;> simp only [ChatOp.apply, stateOf_eq_ok] at happly
  case prepareSubmission => exact h.prepared hop.1 hop.2 happly.choose_spec
  case prepareGeneratedAssistant => exact h.generated hop.2 happly.choose_spec
  case completeSubmission =>
    obtain ⟨took, hcomplete⟩ := happly
    unfold completeSubmission at hcomplete
    split at hcomplete
    · simp at hcomplete
    · split at hcomplete
      · exact (Prod.mk.inj (Except.ok.inj hcomplete)).2 ▸ h
      · simp only [bind_eq_ok, pure_eq_ok, Prod.mk.injEq] at hcomplete
        obtain ⟨mid, hclose, -, rfl⟩ := hcomplete
        have hmid : ConversationsReal mid := h.closed hop hclose
        exact hmid
  case failSubmission =>
    obtain ⟨took, hfail⟩ := happly
    unfold failSubmission at hfail
    split at hfail
    · simp at hfail
    · split at hfail
      · exact (Prod.mk.inj (Except.ok.inj hfail)).2 ▸ h
      · simp only [bind_eq_ok, pure_eq_ok, Prod.mk.injEq] at hfail
        obtain ⟨mid, hclose, -, rfl⟩ := hfail
        have hmid : ConversationsReal mid := h.closed hop hclose
        exact hmid
  case recoverOrphanedPending =>
    obtain ⟨count, hrecover⟩ := happly
    simp only [recoverOrphanedPending, bind_eq_ok, pure_eq_ok, Prod.mk.injEq] at hrecover
    obtain ⟨mid, hrows, -, rfl⟩ := hrecover
    exact counted _ _ _ (h.recoveredMessages hop hrows)
  case cancelSubmission =>
    simp only [cancelSubmission, bind_eq_ok] at happly
    obtain ⟨rows, -, hcancel⟩ := happly
    split at hcancel
    · simp at hcancel
    · split at hcancel
      · simp only [bind_eq_ok, pure_eq_ok] at hcancel
        obtain ⟨mid, hclose, rfl⟩ := hcancel
        have hmid : ConversationsReal mid := h.closed hop hclose
        exact hmid
      · exact pure_eq_ok.mp hcancel ▸ h
  case recordTurnRoute =>
    unfold recordTurnRoute at happly
    split at happly
    · simp at happly
    · split at happly <;> exact Except.ok.inj happly ▸ h

/-- A transaction of any client stores conversations that the store created and touched. -/
theorem step (h : ConversationsReal chat) {step : StoreStep} (hstep : step.Real) :
    ConversationsReal (storeStep chat step) := by
  cases step with
  | write op => exact commit_of (P := ConversationsReal) h fun _ happly => h.apply hstep happly
  | list owner conversationId before limit freshId now =>
    refine commit_of (P := ConversationsReal) h fun chat' hlist => ?_
    simp only [stateOf_eq_ok, listConversation, bind_eq_ok, pure_eq_ok, Prod.exists,
      Prod.mk.injEq] at hlist
    obtain ⟨_, _, -, _, -, _, mid, hconversation, -, rfl⟩ := hlist
    exact h.requested hstep.1 hstep.2 hconversation

/-- Every run of the store stores conversations that it created and touched. -/
theorem of_run {steps : List StoreStep} (hsteps : ∀ step ∈ steps, step.Real) :
    ConversationsReal (run storeStep .initial steps) :=
  run_invariant (fun _ _ h hstep => h.step hstep) (runMeets_of_mem hsteps _) initial

end ConversationsReal

end Magistrate
