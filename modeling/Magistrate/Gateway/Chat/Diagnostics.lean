import Mathlib.Data.List.Dedup
import Magistrate.Gateway.Chat.Replay

/-!
# The counters of the chat

Every attempt is counted when it is opened, as a submission or a retry, and when it is
completed or failed; an attempt that is pending or cancelled is the difference. A reset
of the counters forgets what was counted, and the messages stay.
-/

namespace Magistrate

open MagiChatStore

/-- The attempts that were opened without those that were completed or failed. -/
def ChatDiagnostics.net (d : ChatDiagnostics) : ℤ :=
  d.messagesSubmitted + d.retries - d.messagesCompleted - d.messagesFailed

/-- A message of an owner whose attempt is neither completed nor failed. -/
def MagiMessage.unsettled (owner : String) (m : MagiMessage) : Bool :=
  m.ownerUserId == owner && (m.status == .pending || m.status == .cancelled)

namespace Chat

/-- The counters of an owner as `diagnostics` reads them. -/
def counters (chat : Chat) (owner : String) : ChatDiagnostics :=
  (chat.diagnostics.find? owner).getD { ownerUserId := owner, updatedAt := 0 }

/-- The messages of an owner with a status. -/
def statusCount (chat : Chat) (owner : String) (status : MessageStatus) : ℕ :=
  chat.messages.rows.countP fun m => m.ownerUserId == owner && m.status == status

/-- What an owner's counters say is open without what is. -/
def balance (chat : Chat) (owner : String) : ℤ :=
  (chat.counters owner).net - chat.messages.rows.countP (MagiMessage.unsettled owner)

/-- `record_compatibility_read`, as far as the counters of submissions go. -/
def recordCompatibilityRead (chat : Chat) (owner : String) (now : ℤ) : Chat :=
  chat.countDiagnostics owner now id

/-- `reset_diagnostics` -/
def resetDiagnostics (chat : Chat) (owner : String) : Chat :=
  { chat with
    diagnostics := ⟨chat.diagnostics.rows.filter fun d => d.ownerUserId ≠ owner,
      chat.diagnostics.unique.sublist (List.filter_sublist.map _)⟩ }

/-- A message is pending or cancelled, not both. -/
theorem countP_unsettled (chat : Chat) (owner : String) :
    chat.messages.rows.countP (MagiMessage.unsettled owner) =
      chat.statusCount owner .pending + chat.statusCount owner .cancelled := by
  rw [statusCount, statusCount]
  induction chat.messages.rows with
  | nil => rfl
  | cons m rest ih =>
    rw [List.countP_cons, List.countP_cons, List.countP_cons, ih]
    unfold MagiMessage.unsettled
    cases hstatus : m.status <;> cases hmine : m.ownerUserId == owner <;> simp <;> omega

section Balance

variable {chat chat' : Chat}

/-- What is open follows from the messages and the counters. -/
theorem balance_congr (owner : String) (messages : chat'.messages = chat.messages)
    (diagnostics : chat'.diagnostics = chat.diagnostics) :
    chat'.balance owner = chat.balance owner := by
  rw [balance, balance, counters, counters, messages, diagnostics]

/-- Counting moves the balance of its owner by what is added. -/
theorem balance_count (chat : Chat) (counted : String) (now : ℤ) {n : ℤ}
    (add : ChatDiagnostics → ChatDiagnostics) (hadd : ∀ d, (add d).ownerUserId = d.ownerUserId)
    (hnet : ∀ d, (add d).net = d.net + n) (owner : String) :
    (chat.countDiagnostics counted now add hadd).balance owner =
      chat.balance owner + if counted = owner then n else 0 := by
  have hfound : ((chat.countDiagnostics counted now add hadd).counters owner).net =
      (chat.counters owner).net + if counted = owner then n else 0 := by
    rw [counters, countDiagnostics, Table.find?_upsert]
    by_cases h : counted = owner
    · subst h
      rw [if_pos rfl, if_pos rfl, Option.getD_some]
      refine (hnet _).trans ?_
      rw [counters]
      cases chat.diagnostics.find? counted <;> rfl
    · rw [if_neg (Ne.symm h), if_neg h, add_zero, counters]
  rw [balance, hfound, balance]
  show _ - (chat.messages.rows.countP _ : ℤ) = _
  omega

/-- A new message counts as unsettled. -/
theorem balance_insert (owner : String) {m : MagiMessage} (h : Insertable chat.messages m)
    (messages : chat'.messages = chat.messages.insertOrIgnore m)
    (diagnostics : chat'.diagnostics = chat.diagnostics) :
    chat'.balance owner = chat.balance owner - (m.unsettled owner).toNat := by
  rw [balance, balance, counters, counters, messages, diagnostics,
    Table.rows_insertOrIgnore h.freeId, List.countP_append, List.countP_singleton]
  cases m.unsettled owner with
  | false => simp
  | true =>
    simp only [if_true, Bool.toNat_true, Nat.cast_add, Nat.cast_one]
    omega

/-- A message that is replaced counts as it is now. -/
theorem balance_update (owner : String) {m : MagiMessage} {f : MagiMessage → MagiMessage}
    (hf : ∀ m, (f m).id = m.id) (stored : m ∈ chat.messages.rows)
    (messages : chat'.messages = chat.messages.update m.id f hf)
    (diagnostics : chat'.diagnostics = chat.diagnostics) :
    chat'.balance owner =
      chat.balance owner + (m.unsettled owner).toNat - ((f m).unsettled owner).toNat := by
  have hcount : (chat.messages.update m.id f hf).rows.countP (MagiMessage.unsettled owner) +
      (m.unsettled owner).toNat = chat.messages.rows.countP (MagiMessage.unsettled owner) +
        ((f m).unsettled owner).toNat :=
    Table.countP_update _ (Table.find?_of_mem stored)
  rw [balance, balance, counters, counters, messages, diagnostics]
  omega

end Balance

end Chat

section Operations

variable {chat chat' : Chat} {owner counted clientMessageId content source : String} {now : ℤ}

/-- A message that its owner closes as completed or failed settles an attempt. -/
theorem unsettled_closed {m : MagiMessage} (pending : m.status = .pending) (status : MessageStatus)
    (content : String) (errorCode : Option String) (now : ℤ) (owner : String) :
    ((m.unsettled owner).toNat :
      ℤ) - ((m.closed status content errorCode now).unsettled owner).toNat =
      if m.ownerUserId = owner ∧ (status = .completed ∨ status = .failed) then 1 else 0 := by
  unfold MagiMessage.unsettled MagiMessage.closed
  by_cases hmine : m.ownerUserId = owner
  · cases status <;> simp [hmine, pending]
  · simp [hmine, beq_eq_false_iff_ne.mpr hmine]

/-- A failed message that is retried opens an attempt. -/
theorem unsettled_retried {m : MagiMessage} (failed : m.status = .failed) (now : ℤ)
    (owner : String) :
    ((m.unsettled owner).toNat : ℤ) - ((m.retried now).unsettled owner).toNat =
      if m.ownerUserId = owner then -1 else 0 := by
  unfold MagiMessage.unsettled MagiMessage.retried
  by_cases hmine : m.ownerUserId = owner
  · simp [hmine, failed]
  · simp [hmine, beq_eq_false_iff_ne.mpr hmine]

/-- Closing a message settles its attempt, unless it is cancelled. -/
theorem closeMessage_balance {m : MagiMessage} {status : MessageStatus} {errorCode : Option String}
    (stored : m ∈ chat.messages.rows) (pending : m.status = .pending)
    (h : closeMessage m status content errorCode now chat = .ok chat') :
    chat'.balance owner = chat.balance owner +
      if m.ownerUserId = owner ∧ (status = .completed ∨ status = .failed) then 1 else 0 := by
  obtain ⟨-, rfl⟩ := appendChange_eq_ok.mp h
  rw [← unsettled_closed pending status content errorCode now owner]
  refine (Chat.balance_update owner (f := MagiMessage.closed status content errorCode now)
    (fun _ => rfl) stored ?_ ?_).trans ?_
  · rfl
  · rfl
  · omega

/-- A retry opens an attempt and counts it. -/
theorem retryFailed_balance {conversationId : String} {m m' : MagiMessage}
    (stored : m ∈ chat.messages.rows) (howner : m.ownerUserId = counted)
    (failed : m.status = .failed)
    (h : retryFailed counted conversationId m now chat = .ok (m', chat')) :
    chat'.balance owner = chat.balance owner := by
  obtain ⟨mid, happend, hdone⟩ := bind_eq_ok.mp h
  obtain ⟨-, rfl⟩ := Prod.ext_iff.mp (pure_eq_ok.mp hdone)
  obtain ⟨-, rfl⟩ := appendChange_eq_ok.mp happend
  have hmoved := unsettled_retried failed now owner
  refine (Chat.balance_count _ counted now (n := 1) _ _ (fun d => ?_) owner).trans ?_
  · simp only [ChatDiagnostics.net]
    push_cast
    omega
  · rw [← howner]
    refine (congrArg (· + _) (Chat.balance_update owner (f := MagiMessage.retried now)
      (fun _ => rfl) stored ?_ ?_)).trans ?_
    · rfl
    · rfl
    · split at hmoved
      · next hmine =>
        rw [if_pos hmine]
        omega
      · next hother =>
        rw [if_neg hother]
        omega

/-- A conversation that is requested opens no attempt. -/
theorem requestedConversation_balance {conversationId : Option String} {freshId : String}
    {c : MagiConversation}
    (h : requestedConversation counted conversationId freshId now chat = .ok (c, chat')) :
    chat'.balance owner = chat.balance owner := by
  unfold requestedConversation at h
  split at h
  · obtain ⟨_, -, hdone⟩ := bind_eq_ok.mp h
    obtain ⟨-, rfl⟩ := Prod.ext_iff.mp (pure_eq_ok.mp hdone)
    rfl
  · unfold defaultConversation at h
    split at h
    · obtain ⟨-, rfl⟩ := Prod.ext_iff.mp (Except.ok.inj h)
      rfl
    · obtain ⟨mid, hinsert, hdone⟩ := bind_eq_ok.mp h
      obtain ⟨-, rfl⟩ := Prod.ext_iff.mp (pure_eq_ok.mp hdone)
      obtain ⟨-, -, hinsert⟩ := bind_eq_ok.mp hinsert
      obtain ⟨-, -, hinsert⟩ := bind_eq_ok.mp hinsert
      obtain rfl := pure_eq_ok.mp hinsert
      exact Chat.balance_congr owner rfl rfl

/-- A submission that is bound again opens an attempt if it counts a retry. -/
theorem prepareAgain_balance {attachments : List AttachmentRecord} {wantsRetry : Bool}
    {conversation : MagiConversation} {user assistant : MagiMessage} {prepared : PreparedSubmission}
    (h : prepareAgain counted content source attachments wantsRetry conversation user assistant now
      chat = .ok (prepared, chat')) (stored : assistant ∈ chat.messages.rows)
    (howner : assistant.ownerUserId = counted) : chat'.balance owner = chat.balance owner := by
  obtain ⟨-, -, h⟩ := bind_eq_ok.mp h
  have hcount := Chat.balance_count chat counted now (n := 0)
    (fun d => { d with duplicateSubmissions := d.duplicateSubmissions + 1 }) (fun _ => rfl)
    (fun d => by rw [add_zero]; rfl) owner
  rw [ite_self, add_zero] at hcount
  split at h
  · next hretry =>
    obtain ⟨⟨again, mid⟩, hretried, hdone⟩ := bind_eq_ok.mp h
    obtain ⟨-, rfl⟩ := Prod.ext_iff.mp (pure_eq_ok.mp hdone)
    exact (retryFailed_balance (by exact stored) howner hretry.2 hretried).trans hcount
  · obtain ⟨-, rfl⟩ := Prod.ext_iff.mp (pure_eq_ok.mp h)
    exact hcount

/-- A pending message of an owner counts for it. -/
theorem unsettled_newAssistantMessage (replyTo conversationId : String) (sequence : ℕ)
    (fresh : FreshIds) (owner : String) :
    ((newAssistantMessage counted replyTo conversationId sequence fresh
      now).unsettled owner).toNat =
      if counted = owner then 1 else 0 := by
  by_cases h : counted = owner <;> simp [MagiMessage.unsettled, newAssistantMessage, h]

/-- What a submission adds to the counters. -/
theorem net_submitted (d : ChatDiagnostics) :
    ({ d with messagesSubmitted := d.messagesSubmitted + 1 } :
      ChatDiagnostics).net = d.net + 1 := by
  simp only [ChatDiagnostics.net]
  push_cast
  omega

/-- A new submission opens an attempt and counts it. -/
theorem prepareNew_balance {attachments : List AttachmentRecord} {conversation : MagiConversation}
    {fresh : FreshIds} {prepared : PreparedSubmission}
    (h : prepareNew counted clientMessageId content source attachments conversation fresh now chat =
      .ok (prepared, chat')) : chat'.balance owner = chat.balance owner := by
  simp only [prepareNew, bind_eq_ok, pure_eq_ok, Prod.mk.injEq, insertMessage_eq_ok] at h
  obtain ⟨_, ⟨insertUser, rfl⟩, _, ⟨insertAssistant, rfl⟩, mid, happend, mid', happend', -,
    rfl⟩ := h
  obtain ⟨-, rfl⟩ := appendChange_eq_ok.mp happend
  obtain ⟨-, rfl⟩ := appendChange_eq_ok.mp happend'
  let user := newUserMessage counted clientMessageId content source attachments conversation.id
    (chat.nextSequence conversation.id) fresh now
  have huser : Chat.balance { chat with messages := chat.messages.insertOrIgnore user } owner =
      chat.balance owner - (user.unsettled owner).toNat :=
    Chat.balance_insert owner insertUser rfl rfl
  have hsettled : user.unsettled owner = false := by
    simp [user, MagiMessage.unsettled, newUserMessage]
  refine (Chat.balance_count _ counted now _ _ net_submitted owner).trans ?_
  refine (congrArg (· + _) (Chat.balance_insert owner insertAssistant ?_ ?_)).trans ?_
  · rfl
  · rfl
  · rw [unsettled_newAssistantMessage, huser, hsettled]
    split <;> simp

/-- A submission keeps the balance. -/
theorem prepareSubmission_balance {conversationId : Option String}
    {requested : Except ChatFailure (List AttachmentRecord)} {wantsRetry : Bool} {fresh : FreshIds}
    {prepared : PreparedSubmission}
    (h : prepareSubmission counted clientMessageId content conversationId source
      requested wantsRetry
      fresh now chat = .ok (prepared, chat')) : chat'.balance owner = chat.balance owner := by
  obtain ⟨attachments, conversation, mid, -, hconversation,
    ⟨user, assistant, -, hassistant, hagain⟩ | ⟨-, hnew⟩⟩ := prepareSubmission_cases h
  · obtain ⟨hstored, howner, -⟩ := of_reservedAssistant hassistant
    exact (prepareAgain_balance hagain hstored howner).trans
      (requestedConversation_balance hconversation)
  · exact (prepareNew_balance hnew).trans (requestedConversation_balance hconversation)

/-- A generation keeps the balance. -/
theorem prepareGeneratedAssistant_balance {generationKey factsSha256 conversationId
    replyToMessageId : String} {wantsRetry : Bool} {fresh : FreshIds}
    {prepared : PreparedGeneratedMessage}
    (h : prepareGeneratedAssistant counted generationKey factsSha256 conversationId replyToMessageId
      wantsRetry fresh now chat = .ok (prepared, chat')) :
      chat'.balance owner = chat.balance owner := by
  simp only [prepareGeneratedAssistant, bind_eq_ok, raiseIf_eq_ok, exists_const] at h
  obtain ⟨-, -, -, -, h⟩ := h
  split at h
  · split at h
    · cases h
    · next assistant hassistant =>
      obtain ⟨-, -, h⟩ := bind_eq_ok.mp h
      split at h
      · next hretry =>
        obtain ⟨⟨again, mid⟩, hretried, hdone⟩ := bind_eq_ok.mp h
        obtain ⟨-, rfl⟩ := Prod.ext_iff.mp (pure_eq_ok.mp hdone)
        obtain ⟨hstored, -, howner, -⟩ := of_assistantMessage hassistant
        exact retryFailed_balance hstored howner hretry.2 hretried
      · obtain ⟨-, rfl⟩ := Prod.ext_iff.mp (pure_eq_ok.mp h)
        rfl
  · simp only [bind_eq_ok, raiseIf_eq_ok, pure_eq_ok, exists_const, Prod.mk.injEq,
      insertMessage_eq_ok] at h
    obtain ⟨_, ⟨insertable, rfl⟩, -, mid, happend, -, rfl⟩ := h
    obtain ⟨-, rfl⟩ := appendChange_eq_ok.mp happend
    refine (Chat.balance_count _ counted now _ _ net_submitted owner).trans ?_
    refine (congrArg (· + _) (Chat.balance_insert owner insertable ?_ ?_)).trans ?_
    · rfl
    · rfl
    · rw [unsettled_newAssistantMessage]
      split <;> simp

/-- A completion settles the attempt that it counts. -/
theorem completeSubmission_balance {id : String} {attempt latencyMs toolCalls : ℕ} {took : Bool}
    (h : completeSubmission counted id attempt content latencyMs toolCalls now chat =
      .ok (took, chat')) : chat'.balance owner = chat.balance owner := by
  unfold completeSubmission at h
  split at h
  · cases h
  · next m hfound =>
    split at h
    · obtain ⟨-, rfl⟩ := Prod.ext_iff.mp (Except.ok.inj h)
      rfl
    · next hopen =>
      obtain ⟨mid, hclose, hdone⟩ := bind_eq_ok.mp h
      obtain ⟨-, rfl⟩ := Prod.ext_iff.mp (pure_eq_ok.mp hdone)
      obtain ⟨hstored, -, howner, -⟩ := of_assistantMessage hfound
      refine (Chat.balance_count _ counted now (n := -1) _ _ (fun d => ?_) owner).trans ?_
      · simp only [ChatDiagnostics.net]
        push_cast
        omega
      · rw [closeMessage_balance hstored (not_not.mp (not_or.mp hopen).1) hclose, howner]
        by_cases hmine : counted = owner <;> simp [hmine]

/-- A failure settles the attempt that it counts. -/
theorem failSubmission_balance {id errorCode : String} {attempt toolCalls : ℕ} {took : Bool}
    (h : failSubmission counted id attempt errorCode toolCalls now chat = .ok (took, chat')) :
    chat'.balance owner = chat.balance owner := by
  unfold failSubmission at h
  split at h
  · cases h
  · next m hfound =>
    split at h
    · obtain ⟨-, rfl⟩ := Prod.ext_iff.mp (Except.ok.inj h)
      rfl
    · next hopen =>
      obtain ⟨mid, hclose, hdone⟩ := bind_eq_ok.mp h
      obtain ⟨-, rfl⟩ := Prod.ext_iff.mp (pure_eq_ok.mp hdone)
      obtain ⟨hstored, -, howner, -⟩ := of_assistantMessage hfound
      refine (Chat.balance_count _ counted now (n := -1) _ _ (fun d => ?_) owner).trans ?_
      · simp only [ChatDiagnostics.net]
        push_cast
        omega
      · rw [closeMessage_balance hstored (not_not.mp (not_or.mp hopen).1) hclose, howner]
        by_cases hmine : counted = owner <;> simp [hmine]

/-- A cancelled attempt stays open. -/
theorem cancelSubmission_balance
    (h : cancelSubmission counted clientMessageId now chat = .ok chat') :
    chat'.balance owner = chat.balance owner := by
  obtain ⟨rows, hrows, h⟩ := bind_eq_ok.mp h
  split at h
  · cases h
  · next assistant =>
    split at h
    · next hpending =>
      obtain ⟨mid, hclose, hdone⟩ := bind_eq_ok.mp h
      obtain rfl := pure_eq_ok.mp hdone
      obtain ⟨hstored, -⟩ := of_reservedAssistant (submissionRows_eq_some hrows).2
      refine (Chat.balance_congr owner (by rfl) (by rfl)).trans
        ((closeMessage_balance hstored hpending hclose).trans ?_)
      rw [if_neg (by simp), add_zero]
    · obtain rfl := pure_eq_ok.mp h
      rfl

/-- Routes count nothing. -/
theorem recordTurnRoute_balance {id : String} {category : RouteCategory}
    {permissionGranted explicitConfirmation : Bool} {outcome : RouteOutcome}
    (h : recordTurnRoute counted id category permissionGranted explicitConfirmation
      outcome now chat =
      .ok chat') : chat'.balance owner = chat.balance owner := by
  unfold recordTurnRoute at h
  split at h
  · cases h
  · split at h <;> exact Except.ok.inj h ▸ Chat.balance_congr owner rfl rfl

/-- Recovering a pending message settles its attempt. -/
theorem recoverMessage_balance {row : MagiMessage} (stored : row ∈ chat.messages.rows)
    (pending : row.status = .pending) (h : recoverMessage now chat row = .ok chat') :
    chat'.balance owner = chat.balance owner + if row.ownerUserId = owner then 1 else 0 := by
  obtain ⟨mid, happend, hdone⟩ := bind_eq_ok.mp h
  obtain rfl := pure_eq_ok.mp hdone
  obtain ⟨-, rfl⟩ := appendChange_eq_ok.mp happend
  have hclosed := unsettled_closed pending .failed "" (some "server_restart") now owner
  have hrecovered : row.recovered now = row.closed .failed "" (some "server_restart") now :=
    if_pos pending
  simp only [← hrecovered, reduceCtorEq, or_true, and_true] at hclosed
  refine (Chat.balance_update owner (f := MagiMessage.recovered now) (MagiMessage.recovered_id now)
    stored ?_ ?_).trans ?_
  · rfl
  · rfl
  · omega

/-- Recovering pending messages settles the attempts of each owner. -/
theorem recoverMessages_balance {rows : List MagiMessage} (unique : (rows.map (·.id)).Nodup)
    (stored : ∀ row ∈ rows, row ∈ chat.messages.rows)
    (pending : ∀ row ∈ rows, row.status = .pending)
    (h : rows.foldlM (recoverMessage now) chat = .ok chat') :
    chat'.balance owner = chat.balance owner + (rows.map (·.ownerUserId)).count owner := by
  induction rows generalizing chat with
  | nil =>
    obtain rfl := pure_eq_ok.mp h
    simp
  | cons row rows ih =>
    rw [List.foldlM_cons] at h
    obtain ⟨mid, hone, hrest⟩ := bind_eq_ok.mp h
    obtain ⟨hfresh, hunique⟩ := List.nodup_cons.mp unique
    obtain ⟨-, hkept⟩ := recoverMessage_numbered (stored row List.mem_cons_self)
      (pending row List.mem_cons_self) hone
    have hlater : ∀ r ∈ rows, r ∈ mid.messages.rows := by
      intro r hr
      refine hkept r (stored r (List.mem_cons_of_mem row hr)) fun he => hfresh ?_
      exact List.mem_map.mpr ⟨r, hr, he⟩
    rw [ih hunique hlater (fun r hr => pending r (List.mem_cons_of_mem row hr)) hrest,
      recoverMessage_balance (stored row List.mem_cons_self) (pending row List.mem_cons_self) hone,
      List.map_cons, List.count_cons]
    by_cases hmine : row.ownerUserId = owner
    · simp only [hmine, beq_self_eq_true, if_true]
      push_cast
      omega
    · simp [hmine, beq_eq_false_iff_ne.mpr hmine]

/-- Counting the failures of each owner once. -/
theorem countFailures_balance (count : String → ℕ) {owners : List String} (unique : owners.Nodup)
    (chat : Chat) : (owners.foldl (fun chat counted => chat.countDiagnostics counted now fun d =>
        { d with messagesFailed := d.messagesFailed + count counted }) chat).balance owner =
      chat.balance owner - if owner ∈ owners then (count owner : ℤ) else 0 := by
  induction owners generalizing chat with
  | nil => simp
  | cons counted owners ih =>
    obtain ⟨hfresh, hunique⟩ := List.nodup_cons.mp unique
    have hnet (d : ChatDiagnostics) :
        ({ d with messagesFailed := d.messagesFailed + count counted } : ChatDiagnostics).net =
          d.net + -(count counted : ℤ) := by
      simp only [ChatDiagnostics.net]
      push_cast
      omega
    rw [List.foldl_cons, ih hunique, Chat.balance_count chat counted now
      (fun d => { d with messagesFailed := d.messagesFailed + count counted }) (fun _ => rfl) hnet]
    by_cases hmine : counted = owner
    · subst hmine
      simp only [if_pos, hfresh, if_false, List.mem_cons_self, sub_zero]
      omega
    · simp [hmine, Ne.symm hmine]

/-- A recovery settles the attempts that it counts. -/
theorem recoverOrphanedPending_balance {count : ℕ}
    (h : recoverOrphanedPending now chat = .ok (count, chat')) :
    chat'.balance owner = chat.balance owner := by
  obtain ⟨mid, hrows, hdone⟩ := bind_eq_ok.mp h
  obtain ⟨-, rfl⟩ := Prod.ext_iff.mp (pure_eq_ok.mp hdone)
  rw [countFailures_balance _ (List.nodup_dedup _), recoverMessages_balance _ _ _ hrows]
  · by_cases hmine : owner ∈ ((chat.messages.rows.filter fun m =>
        m.role = .assistant ∧ m.status = .pending).map (·.ownerUserId))
    · rw [if_pos (List.mem_dedup.mpr hmine)]
      omega
    · rw [if_neg fun h => hmine (List.mem_dedup.mp h), List.count_eq_zero.mpr hmine]
      omega
  · exact chat.messages.unique.sublist (List.filter_sublist.map _)
  · exact fun row hrow => (List.mem_filter.mp hrow).1
  · exact fun row hrow => (of_decide_eq_true (List.mem_filter.mp hrow).2).2

/-- A transaction of any client settles what it counts. -/
theorem chatStep_balance (chat : Chat) (op : ChatOp) (owner : String) :
    (chatStep chat op).balance owner = chat.balance owner := by
  refine commit_of (P := fun s : Chat => s.balance owner = chat.balance owner) rfl fun chat' h => ?_
  cases op with
  | prepareSubmission counted clientMessageId content conversationId source attachments wantsRetry
      fresh now =>
    obtain ⟨p, hp⟩ := stateOf_eq_ok.mp h
    exact prepareSubmission_balance hp
  | prepareGeneratedAssistant counted generationKey factsSha256 conversationId replyToMessageId
      wantsRetry fresh now =>
    obtain ⟨p, hp⟩ := stateOf_eq_ok.mp h
    exact prepareGeneratedAssistant_balance hp
  | completeSubmission counted id attempt content latencyMs toolCalls now =>
    obtain ⟨took, htook⟩ := stateOf_eq_ok.mp h
    exact completeSubmission_balance htook
  | failSubmission counted id attempt errorCode toolCalls now =>
    obtain ⟨took, htook⟩ := stateOf_eq_ok.mp h
    exact failSubmission_balance htook
  | recoverOrphanedPending now =>
    obtain ⟨count, hcount⟩ := stateOf_eq_ok.mp h
    exact recoverOrphanedPending_balance hcount
  | cancelSubmission counted clientMessageId now => exact cancelSubmission_balance h
  | recordTurnRoute counted id category permissionGranted explicitConfirmation outcome now =>
    exact recordTurnRoute_balance h

/-- A listing counts nothing, and a conversation that it opens is empty. -/
theorem storeStep_balance (chat : Chat) (s : StoreStep) (owner : String) :
    (storeStep chat s).balance owner = chat.balance owner := by
  cases s with
  | write op => exact chatStep_balance chat op owner
  | list counted conversationId before limit freshId now =>
    refine commit_of (P := fun s : Chat => s.balance owner = chat.balance owner) rfl
      fun chat' h => ?_
    obtain ⟨page, hpage⟩ := stateOf_eq_ok.mp h
    simp only [listConversation, bind_eq_ok, raiseIf_eq_ok, pure_eq_ok, exists_const] at hpage
    obtain ⟨-, -, ⟨conversation, mid⟩, hrequested, hdone⟩ := hpage
    obtain ⟨-, rfl⟩ := Prod.ext_iff.mp hdone
    exact requestedConversation_balance hrequested

end Operations

/-- What happens to the counters of a store: a transaction of any client, a read of another chat, or
a reset. -/
inductive DiagnosticsStep where
  | store (step : StoreStep)
  | compatibilityRead (owner : String) (now : ℤ)
  | reset (owner : String)

/-- The store after a step. -/
def diagnosticsStep (chat : Chat) : DiagnosticsStep → Chat
  | .store step => storeStep chat step
  | .compatibilityRead owner now => chat.recordCompatibilityRead owner now
  | .reset owner => chat.resetDiagnostics owner

section Reset

variable {owner : String}

/-- The counters of an owner after a reset of any owner's. -/
theorem counters_resetDiagnostics (chat : Chat) (owner forgotten : String) :
    (chat.resetDiagnostics forgotten).counters owner =
      if forgotten = owner then { ownerUserId := owner, updatedAt := 0 }
        else chat.counters owner := by
  have hfind : (chat.resetDiagnostics forgotten).diagnostics.find? owner =
      if forgotten = owner then none else chat.diagnostics.find? owner := by
    rw [Chat.resetDiagnostics, Table.find?, Table.find?, List.find?_filter]
    split
    · next he =>
      refine List.find?_eq_none.mpr fun d _ hd => ?_
      simp_all
    · next hne =>
      congr 1
      funext d
      by_cases hd : d.ownerUserId = owner
      · simp [hd, Ne.symm hne]
      · simp [hd]
  rw [Chat.counters, hfind]
  split <;> rfl

/-- A step that is no reset of the owner's counters keeps the balance. -/
theorem diagnosticsStep_balance (chat : Chat) {s : DiagnosticsStep} (h : s ≠ .reset owner) :
    (diagnosticsStep chat s).balance owner = chat.balance owner := by
  cases s with
  | store step => exact storeStep_balance chat step owner
  | compatibilityRead counted now =>
    have hcount := Chat.balance_count chat counted now id (fun _ => rfl) (n := 0)
      (fun d => (add_zero d.net).symm) owner
    rw [ite_self, add_zero] at hcount
    exact hcount
  | reset forgotten =>
    have hne : forgotten ≠ owner := fun he => h (he ▸ rfl)
    rw [diagnosticsStep, Chat.balance, counters_resetDiagnostics, if_neg hne, Chat.balance]
    rfl

/-- Without a reset of the owner's counters a run keeps the balance. -/
theorem run_balance {steps : List DiagnosticsStep} (h : .reset owner ∉ steps) (chat : Chat) :
    (run diagnosticsStep chat steps).balance owner = chat.balance owner := by
  induction steps generalizing chat with
  | nil => rfl
  | cons s steps ih =>
    rw [run_cons, ih fun hs => h (List.mem_cons_of_mem s hs)]
    exact diagnosticsStep_balance chat fun he => h (he ▸ List.mem_cons_self)

/-- A reset leaves what is pending or cancelled as the difference. -/
theorem balance_reset (chat : Chat) (owner : String) :
    (diagnosticsStep chat (.reset owner)).balance owner =
      -(chat.statusCount owner .pending + chat.statusCount owner .cancelled : ℤ) := by
  rw [diagnosticsStep, Chat.balance, counters_resetDiagnostics, if_pos rfl]
  have hopen : (chat.resetDiagnostics owner).messages.rows.countP (MagiMessage.unsettled owner) =
      chat.statusCount owner .pending + chat.statusCount owner .cancelled :=
        Chat.countP_unsettled chat owner
  rw [hopen, ChatDiagnostics.net]
  push_cast
  omega

end Reset

/-- In every state that a run of the store reaches, the attempts that were submitted or retried are
those that were completed or failed, are pending or were cancelled; after a reset of the owner's
counters the attempts that were pending or cancelled at the last one are counted as well. -/
theorem counters_balance (owner : String) (steps : List DiagnosticsStep) :
    let chat := run diagnosticsStep .initial steps
    let d := chat.counters owner
    (.reset owner ∉ steps →
      d.messagesSubmitted + d.retries = d.messagesCompleted + d.messagesFailed +
        chat.statusCount owner .pending + chat.statusCount owner .cancelled) ∧
    ∀ before after, steps = before ++ .reset owner :: after → .reset owner ∉ after →
      let kept := run diagnosticsStep .initial before
      d.messagesSubmitted + d.retries +
          (kept.statusCount owner .pending + kept.statusCount owner .cancelled) =
        d.messagesCompleted + d.messagesFailed +
          chat.statusCount owner .pending + chat.statusCount owner .cancelled := by
  intro chat d
  have hopen := Chat.countP_unsettled chat owner
  have hbalance : chat.balance owner = d.messagesSubmitted + d.retries - d.messagesCompleted -
      d.messagesFailed - chat.messages.rows.countP (MagiMessage.unsettled owner) := rfl
  constructor
  · intro hkept
    have hzero : chat.balance owner = 0 := run_balance hkept .initial
    omega
  · intro before after hsteps hkept kept
    have hrun : chat = run diagnosticsStep (diagnosticsStep kept (.reset owner)) after := by
      rw [← run_cons, ← run_append, ← hsteps]
    have hreset : chat.balance owner =
        -(kept.statusCount owner .pending + kept.statusCount owner .cancelled : ℤ) := by
      rw [hrun, run_balance hkept, balance_reset]
    omega

section Example

/-- One message is submitted and the counters are reset. -/
private def submittedAndReset : List DiagnosticsStep :=
  [.store (.write (.prepareSubmission "u" "c1" "hello" none "text" (.ok []) false
    ⟨"mgc_0", "mgm_0", "mgm_1", "mgt_0"⟩ 1000)), .reset "u"]

/-- The pending attempt is no longer counted as submitted. -/
theorem reset_unbalanced :
    let chat := run diagnosticsStep .initial submittedAndReset
    let d := chat.counters "u"
    d.messagesSubmitted + d.retries ≠ d.messagesCompleted + d.messagesFailed +
      chat.statusCount "u" .pending + chat.statusCount "u" .cancelled := by
  decide

/-- It is the difference. -/
theorem counters_balance_reset :
    let chat := run diagnosticsStep .initial submittedAndReset
    let d := chat.counters "u"
    d.messagesSubmitted + d.retries + 1 = d.messagesCompleted + d.messagesFailed +
      chat.statusCount "u" .pending + chat.statusCount "u" .cancelled :=
  (counters_balance "u" submittedAndReset).2 [_] [] rfl List.not_mem_nil

end Example

end Magistrate
