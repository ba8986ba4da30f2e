import Magistrate.Core.Alike
import Magistrate.Gateway.Pi.Ownership
import Magistrate.Gateway.Pi.Sequence

/-!
# Recovery of a binding from a final envelope

A final envelope contains its whole binding prefix, so it is accepted without the
binding before it. It then leaves what the two envelopes leave, one after the other, up
to the columns that hold the clock.
-/

namespace Magistrate

/-- A dispatch without the columns that hold the clock. -/
def SemanticDispatch.timeless (d : SemanticDispatch) : SemanticDispatch :=
  { d with capabilityUsedAt := none, updatedAt := 0 }

/-- A conversation without the columns that hold the clock. -/
def CaptainConversation.timeless (c : CaptainConversation) : CaptainConversation :=
  { c with updatedAt := 0 }

/-- A turn without the columns that hold the clock. -/
def CaptainTurn.timeless (t : CaptainTurn) : CaptainTurn := { t with updatedAt := 0 }

/-- A message without the columns that hold the clock. -/
def CaptainMessage.timeless (m : CaptainMessage) : CaptainMessage :=
  { m with createdAt := 0, updatedAt := 0 }

/-- A change without the columns that hold the clock. -/
def CaptainChange.timeless (change : CaptainChange) : CaptainChange :=
  { change with changedAt := 0 }

/-- Two databases have the same rows up to the columns that hold the clock. -/
structure PiStore.Alike (s t : PiStore) : Prop where
  dispatches : s.dispatches.Alike SemanticDispatch.timeless t.dispatches
  conversations : s.conversations.Alike CaptainConversation.timeless t.conversations
  turns : s.turns.Alike CaptainTurn.timeless t.turns
  messages : s.messages.Alike CaptainMessage.timeless t.messages
  changes : s.changes.Alike CaptainChange.timeless t.changes

/-- Two dispatches that were read with their turns are alike. -/
structure OwnedDispatch.Alike (row other : OwnedDispatch) : Prop where
  dispatch : row.dispatch.timeless = other.dispatch.timeless
  turnStatus : row.turnStatus = other.turnStatus
  lifecycleState : row.lifecycleState = other.lifecycleState
  turnSequence : row.turnSequence = other.turnSequence

/-- A dispatch that was read with its turn, bound. -/
abbrev OwnedDispatch.bind (digest : PiDigest) (e : PiOwnershipEnvelope) (now : ℤ)
    (row : OwnedDispatch) : OwnedDispatch :=
  { row with
    dispatch := row.dispatch.bind e (digest.sequenceHash e.sourceSequence)
      (digest.semanticEnvelopeHash e) now }

namespace PiStore

variable {s t : PiStore}

theorem Alike.recordMessageChange (h : s.Alike t) (id : PyText) :
    Agree Alike (s.recordMessageChange id) (t.recordMessageChange id) := by
  refine .bind (.orRaise (h.messages.find? (fun _ => rfl) id) _) fun m n hmn => ?_
  have hconversation : m.conversationId = n.conversationId :=
    (congrArg CaptainMessage.conversationId hmn :)
  have hrevision : m.revision = n.revision := (congrArg CaptainMessage.revision hmn :)
  have hsequence := h.changes.map_filter_eq
    (p := fun change => change.conversationId = m.conversationId)
    (g := fun change => change.changeSequence + 1)
    (fun a b hab => by
      have : a.conversationId = b.conversationId := (congrArg CaptainChange.conversationId hab :)
      rw [this])
    (fun a b hab => by
      have : a.changeSequence = b.changeSequence := (congrArg CaptainChange.changeSequence hab :)
      rw [this])
  refine .bind (.raiseIf (h.changes.exists_iff fun a b hab => ?_) _) fun _ _ _ => .ok ?_
  · have hc : a.conversationId = b.conversationId := (congrArg CaptainChange.conversationId hab :)
    have hm : a.messageId = b.messageId := (congrArg CaptainChange.messageId hab :)
    have hr : a.messageRevision = b.messageRevision :=
      (congrArg CaptainChange.messageRevision hab :)
    rw [hc, hm, hr, hconversation, hrevision]
  · refine { h with changes := h.changes.insert (fun _ => rfl) ?_ }
    simp only [CaptainChange.timeless, ← hconversation, ← hrevision, hsequence]

theorem Alike.checkEntries (h : s.Alike t) {d d' : SemanticDispatch}
    (hd : d.timeless = d'.timeless) :
    Agree Eq (s.checkEntries d) (t.checkEntries d') := by
  refine .raiseIf (h.dispatches.exists_iff fun a b hab => ?_) _
  show d.timeless.collides a.timeless = true ↔ d'.timeless.collides b.timeless = true
  rw [hd, hab]

theorem Alike.moveDispatch (h : s.Alike t) {d d' : SemanticDispatch} (hd : d.timeless = d'.timeless)
    (state : PiState) {f g : SemanticDispatch → SemanticDispatch}
    (hfg : ∀ a b, a.timeless = b.timeless → (f a).timeless = (g b).timeless) (concurrent : String)
    (hf : ∀ d, (f d).dispatchIncarnation = d.dispatchIncarnation)
    (hg : ∀ d, (g d).dispatchIncarnation = d.dispatchIncarnation) :
    Agree Alike (s.moveDispatch d state f concurrent hf)
      (t.moveDispatch d' state g concurrent hg) := by
  have hkey : d.dispatchIncarnation = d'.dispatchIncarnation :=
    (congrArg SemanticDispatch.dispatchIncarnation hd :)
  have hfound := h.dispatches.find? (fun _ => rfl) d.dispatchIncarnation
  rw [PiStore.moveDispatch, PiStore.moveDispatch, ← hkey]
  refine .bind (.raiseIf ?_ _) fun _ _ _ => .ok ?_
  · generalize s.dispatches.find? d.dispatchIncarnation = x,
      t.dispatches.find? d.dispatchIncarnation = y at hfound
    cases hfound with
    | none => exact Iff.rfl
    | @some a b hab =>
      have hstate : a.state = b.state := (congrArg SemanticDispatch.state hab :)
      simp only [Option.all_some, hstate]
  · exact { h with dispatches := h.dispatches.update (fun _ => rfl) _ hf hg hfg }

theorem Alike.upsertFinalMessage (h : s.Alike t) {row other : OwnedDispatch}
    (hrow : row.Alike other) (now now' : ℤ) (text : PyText) :
    Agree (fun a b => a.1 = b.1 ∧ Alike a.2 b.2) (s.upsertFinalMessage now row text)
      (t.upsertFinalMessage now' other text) := by
  have hmessage : row.dispatch.assistantMessageId = other.dispatch.assistantMessageId :=
    (congrArg SemanticDispatch.assistantMessageId hrow.dispatch :)
  have hturn : row.dispatch.turnId = other.dispatch.turnId :=
    (congrArg SemanticDispatch.turnId hrow.dispatch :)
  have hconversation : row.dispatch.conversationId = other.dispatch.conversationId :=
    (congrArg SemanticDispatch.conversationId hrow.dispatch :)
  have hfound := h.messages.find? (fun _ => rfl) row.dispatch.assistantMessageId
  unfold PiStore.upsertFinalMessage
  simp only [← hmessage, ← hturn, ← hrow.turnSequence]
  generalize s.messages.find? row.dispatch.assistantMessageId = x,
    t.messages.find? row.dispatch.assistantMessageId = y at hfound
  cases hfound with
  | none =>
    refine .bind (.raiseIf (h.messages.exists_iff fun a b hab => ?_) _) fun _ _ _ => ?_
    · have ha : a.turnId = b.turnId := (congrArg CaptainMessage.turnId hab :)
      have hs : a.slot = b.slot := (congrArg CaptainMessage.slot hab :)
      rw [ha, hs]
    · refine .bind (Alike.recordMessageChange ?_ _) fun a b hab => .ok ⟨rfl, hab⟩
      refine { h with messages := h.messages.insert (fun _ => rfl) ?_ }
      simp only [CaptainMessage.timeless, hmessage, hturn, hconversation]
  | @some a b hab =>
    have ha : a.turnId = b.turnId := (congrArg CaptainMessage.turnId hab :)
    have hs : a.slot = b.slot := (congrArg CaptainMessage.slot hab :)
    have hc : a.contentSource = b.contentSource := (congrArg CaptainMessage.contentSource hab :)
    have hr : a.revision = b.revision := (congrArg CaptainMessage.revision hab :)
    have hd (index : ℤ) : a.differs text index = b.differs text index :=
      (congrArg (CaptainMessage.differs text index) hab :)
    refine .bind (.raiseIf (by rw [ha, hs]) _) fun _ _ _ => ?_
    refine .bind (.raiseIf (by rw [hc]) _) fun _ _ _ => ?_
    simp only [hd, hr]
    split
    · refine .bind (Alike.recordMessageChange ?_ _) fun a b hab => .ok ⟨rfl, hab⟩
      refine { h with
        messages := h.messages.update (fun _ => rfl) _ (by intro; rfl) (by intro; rfl)
          fun m n hmn => ?_ }
      exact (congrArg (fun m => (CaptainMessage.revise text (row.turnSequence * 1000 + 999) 0
        m).timeless) hmn :)
    · exact .ok ⟨rfl, h⟩

theorem Alike.settleFinal (h : s.Alike t) {row other : OwnedDispatch} (hrow : row.Alike other)
    (now now' : ℤ) (e : PiOwnershipEnvelope) (answer : PyText × ℕ)
    (sequenceHash envelopeHash : PyText) :
    Agree (fun a b => a.1 = b.1 ∧ Alike a.2 b.2)
      (s.settleFinal now row e answer sequenceHash envelopeHash)
      (t.settleFinal now' other e answer sequenceHash envelopeHash) := by
  have hreply (status : PiStatus) (state : PiState) :
      row.dispatch.reply status state = other.dispatch.reply status state :=
    (congrArg (fun d => SemanticDispatch.reply d status state) hrow.dispatch :)
  have hturn : row.dispatch.turnId = other.dispatch.turnId :=
    (congrArg SemanticDispatch.turnId hrow.dispatch :)
  have hconversation : row.dispatch.conversationId = other.dispatch.conversationId :=
    (congrArg SemanticDispatch.conversationId hrow.dispatch :)
  have hfrozen : frozen row = frozen other := by
    rw [frozen, frozen, hrow.turnStatus, hrow.lifecycleState]
  unfold PiStore.settleFinal
  simp only [hfrozen, hreply, hturn, hconversation, hrow.lifecycleState]
  split
  · refine .bind (h.moveDispatch hrow.dispatch .bound (fun a b hab => ?_) _ _ _)
      fun a b hab => .ok ⟨rfl, hab⟩
    exact (congrArg (fun d => (SemanticDispatch.fail
      (some (.of "canonical-turn-frozen")) envelopeHash 0
      d).timeless) hab :)
  · refine .bind (h.upsertFinalMessage hrow now now' answer.1) fun x y hxy => ?_
    obtain ⟨⟨revision, changed⟩, s₁⟩ := x
    obtain ⟨⟨revision', changed'⟩, t₁⟩ := y
    obtain ⟨heq, hstores⟩ := hxy
    obtain ⟨rfl, rfl⟩ := Prod.mk.inj heq
    have hfinal (a b : SemanticDispatch) (hab : a.timeless = b.timeless) :
        (SemanticDispatch.finalize e sequenceHash envelopeHash answer.2 now a).timeless =
          (SemanticDispatch.finalize e sequenceHash envelopeHash answer.2 now' b).timeless :=
      (congrArg (fun d => (SemanticDispatch.finalize e sequenceHash envelopeHash
        answer.2 0 d).timeless)
        hab :)
    refine .bind (.mapError (Alike.checkEntries ?_ (hfinal _ _ hrow.dispatch)) _) fun _ _ _ => ?_
    · exact { hstores with
        turns := hstores.turns.update (fun _ => rfl) _ (by intro; rfl) (by intro; rfl)
          fun a b hab => (congrArg (fun t => (CaptainTurn.complete _ 0 t).timeless) hab :) }
    refine .bind (Alike.moveDispatch ?_ hrow.dispatch .bound hfinal _ _ _)
      fun a b hab => .ok ⟨rfl, ?_⟩
    · exact { hstores with
        turns := hstores.turns.update (fun _ => rfl) _ (by intro; rfl) (by intro; rfl)
          fun a b hab => (congrArg (fun t => (CaptainTurn.complete _ 0 t).timeless) hab :) }
    · exact { hab with
        conversations := hab.conversations.update (fun _ => rfl) _ (by intro; rfl) (by intro; rfl)
          fun a b hab => (congrArg (fun c => CaptainConversation.timeless
            { c with updatedAt := 0 }) hab :) }

section Binding

variable {digest : PiDigest} {user target capability : PyText} {now : ℤ} {row : OwnedDispatch}
  {d : SemanticDispatch} {b f : PiOwnershipEnvelope} {sequenceHash envelopeHash : PyText}

/-- A binding that a prepared dispatch takes at a time. -/
structure Bindable (now : ℤ) (d : SemanticDispatch) (e : PiOwnershipEnvelope)
    (s : PiStore) : Prop where
  time : ∃ boundAt, e.boundAt = some boundAt ∧ boundAt ≤ d.expiresAt ∧
    d.createdAt - 5000 ≤ boundAt ∧ boundAt ≤ now + 30000
  prompt : e.piUserContentSha256 = some d.promptSha256
  session : e.piSessionId ≠ none
  entries : ¬∃ other ∈ s.dispatches.rows, (d.bind e [] [] 0).collides other

/-- The database with a dispatch bound. -/
abbrev bound (digest : PiDigest) (now : ℤ) (d : SemanticDispatch) (e : PiOwnershipEnvelope)
    (s : PiStore) : PiStore :=
  { s with
    dispatches := s.dispatches.update d.dispatchIncarnation
      (SemanticDispatch.bind e (digest.sequenceHash e.sourceSequence)
        (digest.semanticEnvelopeHash e) now) }

theorem applyBinding_prepared (hfound : s.dispatches.find? d.dispatchIncarnation = some d)
    (hstate : d.state = .prepared) {status : PiStatus} {s' : PiStore} :
    s.applyBinding now d b (digest.sequenceHash b.sourceSequence) (digest.semanticEnvelopeHash b) =
        .ok (status, s') ↔
      s.Bindable now d b ∧ status = .applied ∧ s' = s.bound digest now d b := by
  have hfree (h : ¬∃ other ∈ s.dispatches.rows, (d.bind b [] [] 0).collides other) :
      s.checkEntries (d.bind b (digest.sequenceHash b.sourceSequence)
        (digest.semanticEnvelopeHash b) now) = .ok () := raiseIf_ok h _
  unfold applyBinding moveDispatch
  simp only [hstate, hfound, bind_eq_ok, orRaise_eq_ok, raiseIf_eq_ok, Option.filter_eq_some_iff,
    mapError_eq_ok, pure_eq_ok, decide_eq_true_eq, not_not, not_lt, Option.all_some]
  constructor
  · rintro ⟨boundAt, ⟨hbound, hexpires⟩, -, hprompt, -, hcreated, -, hfuture, -,
      hsession, _, hentries, _, ⟨-, -, rfl⟩, hpair⟩
    obtain ⟨rfl, rfl⟩ := Prod.mk.inj hpair
    exact ⟨⟨⟨boundAt, hbound, hexpires, hcreated, hfuture⟩, hprompt, hsession,
      raiseIf_eq_ok.mp hentries⟩, rfl, rfl⟩
  · rintro ⟨⟨⟨boundAt, hbound, hexpires, hcreated, hfuture⟩, hprompt, hsession, hentries⟩, rfl, rfl⟩
    exact ⟨boundAt, ⟨hbound, hexpires⟩, ⟨⟩, hprompt, ⟨⟩, hcreated, ⟨⟩, hfuture, ⟨⟩, hsession, ⟨⟩,
      hfree hentries, _, ⟨⟨⟩, by simp, rfl⟩, rfl⟩

/-- A binding that is taken is taken later as well, unless it expired. -/
theorem Bindable.later {later : ℤ} (h : s.Bindable now d f)
    (hlater : ∀ boundAt, f.boundAt = some boundAt → boundAt ≤ later + 30000) :
    s.Bindable later d f := by
  obtain ⟨boundAt, hbound, hexpires, hcreated, -⟩ := h.time
  exact { h with time := ⟨boundAt, hbound, hexpires, hcreated, hlater boundAt hbound⟩ }

/-- A dispatch that was bound is read with its turn as before. -/
theorem ownedRow_bound {incarnation : PyText} (h : s.ownedRow user target incarnation = .ok row) :
    (s.bound digest now row.dispatch b).ownedRow user target incarnation =
      .ok (row.bind digest b now) := by
  obtain ⟨hdispatch, conversation, turn, hconversation, hturn, howner, hcolumns⟩ :=
    ownedRow_eq_ok.mp h
  obtain ⟨-, rfl⟩ := Table.mem_of_find? hdispatch
  exact ownedRow_eq_ok.mpr ⟨Table.find?_update_of_some hdispatch, conversation, turn, hconversation,
    hturn, howner, hcolumns⟩

/-- The times of an answer, checked at a time. -/
def Timely (now : ℤ) (f : PiOwnershipEnvelope) : Prop :=
  ∃ boundAt finalizedAt, f.boundAt = some boundAt ∧ f.finalizedAt = some finalizedAt ∧
    boundAt ≤ finalizedAt ∧ finalizedAt ≤ now + 30000

/-- An answer of a prepared dispatch binds it first, by the binding that its evidence contains. -/
theorem applyFinal_prepared (hbinding : PiOwnershipEnvelope.BindingOf digest f b)
    {computed : PyText}
    (hsequence : f.validateSequence digest true = .ok computed)
    (hrow : s.ownedRow user target f.dispatchIncarnation = .ok row)
    (hprepared : row.dispatch.state = .prepared) {answer : PyText × ℕ} {reply : PiReply}
    {s' : PiStore} :
    s.applyFinal digest now user target row f answer sequenceHash envelopeHash = .ok (reply, s') ↔
      Timely now f ∧ s.Bindable now row.dispatch b ∧
      (s.bound digest now row.dispatch b).settleFinal now (row.bind digest b now) f answer
        sequenceHash envelopeHash = .ok (reply, s') := by
  obtain ⟨position, hposition, htake⟩ := hbinding.bindPosition hsequence
  have hfound : s.dispatches.find? row.dispatch.dispatchIncarnation = some row.dispatch := by
    obtain ⟨hdispatch, -⟩ := ownedRow_eq_ok.mp hrow
    obtain ⟨-, hkey⟩ := Table.mem_of_find? hdispatch
    rw [hkey, hdispatch]
  have hpayload : s.applyBinding now row.dispatch
        (f.bindingPayload b.sourceSequence (digest.sequenceHash b.sourceSequence))
        (digest.sequenceHash b.sourceSequence)
        (digest.semanticEnvelopeHash
          (f.bindingPayload b.sourceSequence (digest.sequenceHash b.sourceSequence))) =
      s.applyBinding now row.dispatch b (digest.sequenceHash b.sourceSequence)
        (digest.semanticEnvelopeHash b) := by
    -- Neither the binding nor the digest reads the nonce, in which alone the two differ.
    generalize hsequences : b.sourceSequence = sequence
    have heq := hbinding.eq_payload
    rw [hsequences] at heq
    rw [heq]
    rfl
  unfold applyFinal Timely
  simp only [hprepared, hposition, bind_eq_ok, orRaise_eq_ok, raiseIf_eq_ok, not_lt, if_true,
    Prod.exists]
  constructor
  · rintro ⟨boundAt, hbound, finalizedAt, hfinalized, -, hle, -, hfuture, _, hcut,
      status, s₁, hbind, other, hother, hsettle⟩
    obtain rfl := Option.some.inj hcut
    rw [htake, hpayload, applyBinding_prepared hfound hprepared] at hbind
    obtain ⟨hbindable, -, rfl⟩ := hbind
    rw [ownedRow_bound hrow] at hother
    obtain rfl := Except.ok.inj hother
    exact ⟨⟨boundAt, finalizedAt, hbound, hfinalized, hle, hfuture⟩, hbindable, hsettle⟩
  · rintro ⟨⟨boundAt, finalizedAt, hbound, hfinalized, hle, hfuture⟩, hbindable, hsettle⟩
    refine ⟨boundAt, hbound, finalizedAt, hfinalized, ⟨⟩, hle, ⟨⟩, hfuture, position, rfl, .applied,
      s.bound digest now row.dispatch b, ?_, _, ownedRow_bound hrow, hsettle⟩
    rw [htake, hpayload]
    exact (applyBinding_prepared hfound hprepared).mpr ⟨hbindable, rfl, rfl⟩

/-- An answer of a dispatch that was bound by the binding that its evidence contains. -/
theorem applyFinal_bound (hbinding : PiOwnershipEnvelope.BindingOf digest f b) {computed : PyText}
    (hsequence : f.validateSequence digest true = .ok computed) {bound : ℤ} {answer : PyText × ℕ}
    {reply : PiReply} {s' : PiStore} :
    s.applyFinal digest now user target (row.bind digest b bound) f answer
      sequenceHash envelopeHash =
        .ok (reply, s') ↔
      Timely now f ∧ s.settleFinal now (row.bind digest b bound) f answer
        sequenceHash envelopeHash =
        .ok (reply, s') := by
  obtain ⟨position, hposition, htake⟩ := hbinding.bindPosition hsequence
  obtain ⟨hsession, -, huser, -, hcontent, hbind, -⟩ := hbinding.binding
  have hpayload : digest.semanticEnvelopeHash
      (f.bindingPayload b.sourceSequence (digest.sequenceHash b.sourceSequence)) =
      digest.semanticEnvelopeHash b := by
    generalize hsequences : b.sourceSequence = sequence
    have heq := hbinding.eq_payload
    rw [hsequences] at heq
    rw [heq]
    rfl
  unfold applyFinal Timely
  simp only [hposition, hsession, huser, hcontent, hbind, bind_eq_ok, orRaise_eq_ok, raiseIf_eq_ok,
    not_lt, reduceCtorEq, if_false, ne_eq, not_true_eq_false, or_self, not_false_eq_true, true_and]
  constructor
  · rintro ⟨boundAt, hbound, finalizedAt, hfinalized, -, hle, -, hfuture, _, -, -, -, -, hsettle⟩
    exact ⟨⟨boundAt, finalizedAt, hbound, hfinalized, hle, hfuture⟩, hsettle⟩
  · rintro ⟨⟨boundAt, finalizedAt, hbound, hfinalized, hle, hfuture⟩, hsettle⟩
    refine ⟨boundAt, hbound, finalizedAt, hfinalized, ⟨⟩, hle, ⟨⟩, hfuture, position,
      rfl, ⟨⟩, ?_, ⟨⟩, hsettle⟩
    rw [htake, hpayload]
    simp

/-- A final envelope is applied when its evidence passes, its dispatch is owned by the caller and
the answer is taken. -/
theorem apply_final (hfinal : f.eventType = .finalized)
    (hrow : s.ownedRow user target f.dispatchIncarnation = .ok row) {reply : PiReply}
    {s' : PiStore} :
    s.applyPiOwnershipEnvelope digest now user target capability f = .ok (reply, s') ↔
      f.validate = .ok () ∧ digest.verifyIdentity row.dispatch f capability = .ok () ∧
      ∃ computed answer, f.validateSequence digest true = .ok computed ∧
        f.visibleText digest = .ok answer ∧
        s.applyFinal digest now user target row f answer computed (digest.semanticEnvelopeHash f) =
          .ok (reply, s') := by
  unfold applyPiOwnershipEnvelope PiOwnershipEnvelope.evidence
  simp only [hfinal, hrow, bind_eq_ok, pure_eq_ok, Except.ok.injEq, Prod.exists, Prod.mk.injEq]
  constructor
  · rintro ⟨_, hvalid, _, _, _,
      ⟨computed, hsequence, text, bytes, hvisible, rfl, rfl, rfl⟩, _, rfl, _, hverified, happly⟩
    exact ⟨hvalid, hverified, computed, text, bytes, hsequence, hvisible, happly⟩
  · rintro ⟨hvalid, hverified, computed, text, bytes, hsequence, hvisible, happly⟩
    exact ⟨⟨⟩, hvalid, _, _, _,
      ⟨computed, hsequence, text, bytes, hvisible, rfl, rfl, rfl⟩, _, rfl, ⟨⟩, hverified, happly⟩

/-- The binding of a prepared dispatch is applied when its evidence passes, its dispatch is owned by
the caller and it may be bound. -/
theorem apply_binding (hbinding : PiOwnershipEnvelope.BindingOf digest f b)
    (hrow : s.ownedRow user target f.dispatchIncarnation = .ok row)
    (hprepared : row.dispatch.state = .prepared) {reply : PiReply} {s' : PiStore} :
    s.applyPiOwnershipEnvelope digest now user target capability b = .ok (reply, s') ↔
      (b.validate = .ok () ∧ digest.verifyIdentity row.dispatch b capability = .ok () ∧
        b.validateSequence digest false = .ok (digest.sequenceHash b.sourceSequence)) ∧
      s.Bindable now row.dispatch b ∧ reply = row.dispatch.reply .applied .bound ∧
        s' = s.bound digest now row.dispatch b := by
  obtain ⟨hevent, -⟩ := hbinding.stage
  obtain ⟨hincarnation, -⟩ := hbinding.dispatch
  obtain ⟨-, -, -, -, -, hvisible, hblocks, -⟩ := hbinding.unanswered
  have hfound : s.dispatches.find? row.dispatch.dispatchIncarnation = some row.dispatch := by
    obtain ⟨hdispatch, -⟩ := ownedRow_eq_ok.mp hrow
    obtain ⟨-, hkey⟩ := Table.mem_of_find? hdispatch
    rw [hkey, hdispatch]
  unfold applyPiOwnershipEnvelope PiOwnershipEnvelope.evidence
  simp only [hevent, hincarnation, hrow, hvisible, hblocks, bind_eq_ok, raiseIf_eq_ok, pure_eq_ok,
    Except.ok.injEq, Prod.exists, Prod.mk.injEq, ne_eq, not_true_eq_false, or_self,
    not_false_eq_true,
    true_and]
  constructor
  · rintro ⟨_, hvalid, _, _, _, ⟨computed, hsequence, _, rfl, rfl, rfl⟩, _, rfl, _,
      hverified, status, s₁, happly, rfl, rfl⟩
    obtain rfl := PiOwnershipEnvelope.eq_of_validateSequence hsequence
    obtain ⟨hbindable, rfl, rfl⟩ := (applyBinding_prepared hfound hprepared).mp happly
    exact ⟨⟨hvalid, hverified, hsequence⟩, hbindable, rfl, rfl⟩
  · rintro ⟨⟨hvalid, hverified, hsequence⟩, hbindable, rfl, rfl⟩
    exact ⟨⟨⟩, hvalid, _, _, _, ⟨_, hsequence, ⟨⟩, rfl, rfl, rfl⟩, _, rfl, ⟨⟩,
      hverified, .applied, _, (applyBinding_prepared hfound hprepared).mpr ⟨hbindable,
        rfl, rfl⟩, rfl, rfl⟩

/-- The time of a binding is not shown. -/
theorem bound_alike (first second : ℤ) :
    (s.bound digest first d b).Alike (s.bound digest second d b) where
  dispatches := (Table.Alike.refl SemanticDispatch.timeless _).update (fun _ => rfl) _
    (by intro; rfl) (by intro; rfl)
    fun _ _ h => (congrArg (fun d => (SemanticDispatch.bind b (digest.sequenceHash b.sourceSequence)
      (digest.semanticEnvelopeHash b) 0 d).timeless) h :)
  conversations := Table.Alike.refl _ _
  turns := Table.Alike.refl _ _
  messages := Table.Alike.refl _ _
  changes := Table.Alike.refl _ _

end Binding

end PiStore

/-- An answer of a prepared dispatch is accepted exactly when its binding and then the answer are,
with the same reply and the same rows up to the columns that hold the clock. -/
theorem pi_recovery_equivalent (digest : PiDigest) (user target capability : PyText)
    (f b : PiOwnershipEnvelope) (s : PiStore) (row : OwnedDispatch)
    (hrow : s.ownedRow user target f.dispatchIncarnation = .ok row)
    (hprepared : row.dispatch.state = .prepared) (hfinal : f.eventType = .finalized)
    (hbinding : PiOwnershipEnvelope.BindingOf digest f b) :
    (∀ now reply s',
      s.applyPiOwnershipEnvelope digest now user target capability f = .ok (reply, s') →
      ∀ first second, now ≤ first → now ≤ second → ∃ bound s₁ s₂,
        s.applyPiOwnershipEnvelope digest first user target capability b = .ok (bound, s₁) ∧
        s₁.applyPiOwnershipEnvelope digest second user target capability f = .ok (reply, s₂) ∧
        s'.Alike s₂) ∧
    (∀ first second bound reply s₁ s₂,
      s.applyPiOwnershipEnvelope digest first user target capability b = .ok (bound, s₁) →
      s₁.applyPiOwnershipEnvelope digest second user target capability f = .ok (reply, s₂) →
      ∀ now, second ≤ now → ∃ s',
        s.applyPiOwnershipEnvelope digest now user target capability f = .ok (reply, s') ∧
        s₂.Alike s') := by
  have hverify : digest.verifyIdentity row.dispatch b capability =
      digest.verifyIdentity row.dispatch f capability := by
    obtain ⟨-, h2, h3, h4, h5, h6, h7, h8, h9⟩ := hbinding.dispatch
    rw [PiDigest.verifyIdentity, PiDigest.verifyIdentity, h2, h3, h4, h5, h6, h7, h8, h9]
  have hbound : b.boundAt = f.boundAt := hbinding.binding.2.2.2.2.2.2
  have hrows (first second : ℤ) : (row.bind digest b first).Alike (row.bind digest b second) :=
    ⟨rfl, rfl, rfl, rfl⟩
  constructor
  · intro now reply s' happly first second hfirst hsecond
    obtain ⟨hvalid, hverified, computed, answer, hsequence, hvisible, happly⟩ :=
      (PiStore.apply_final hfinal hrow).mp happly
    obtain ⟨htimely, hbindable, hsettle⟩ :=
      (PiStore.applyFinal_prepared hbinding hsequence hrow hprepared).mp happly
    obtain ⟨boundAt, finalizedAt, hboundAt, hfinalizedAt, hle, hfuture⟩ := htimely
    have hlater : s.Bindable first row.dispatch b := hbindable.later fun time htime => by
      obtain rfl := Option.some.inj ((hbound.trans hboundAt).symm.trans htime)
      omega
    obtain ⟨⟨reply', s₂⟩, hsettled, rfl, halike⟩ :=
      ((PiStore.bound_alike now first).settleFinal (hrows now first) now second f answer computed
        (digest.semanticEnvelopeHash f)).of_ok hsettle
    refine ⟨row.dispatch.reply .applied .bound, s.bound digest first row.dispatch b, s₂,
      (PiStore.apply_binding hbinding hrow hprepared).mpr
        ⟨⟨hbinding.validate_eq hfinal hvalid hsequence, hverify ▸ hverified,
          hbinding.validateSequence_eq hsequence⟩, hlater, rfl, rfl⟩, ?_, halike⟩
    refine (PiStore.apply_final hfinal (PiStore.ownedRow_bound hrow)).mpr
      ⟨hvalid, hverified, computed, answer, hsequence, hvisible, ?_⟩
    exact (PiStore.applyFinal_bound hbinding hsequence).mpr
      ⟨⟨boundAt, finalizedAt, hboundAt, hfinalizedAt, hle, by omega⟩, hsettled⟩
  · intro first second bound reply s₁ s₂ hfirst hsecond now hnow
    obtain ⟨-, hbindable, rfl, rfl⟩ := (PiStore.apply_binding hbinding hrow hprepared).mp hfirst
    obtain ⟨hvalid, hverified, computed, answer, hsequence, hvisible, happly⟩ :=
      (PiStore.apply_final hfinal (PiStore.ownedRow_bound hrow)).mp hsecond
    obtain ⟨⟨boundAt, finalizedAt, hboundAt, hfinalizedAt, hle, hfuture⟩, hsettle⟩ :=
      (PiStore.applyFinal_bound hbinding hsequence).mp happly
    have hlater : s.Bindable now row.dispatch b := hbindable.later fun time htime => by
      obtain rfl := Option.some.inj ((hbound.trans hboundAt).symm.trans htime)
      omega
    obtain ⟨⟨reply', s'⟩, hsettled, rfl, halike⟩ :=
      ((PiStore.bound_alike first now).settleFinal (hrows first now) second now f answer computed
        (digest.semanticEnvelopeHash f)).of_ok hsettle
    refine ⟨s', (PiStore.apply_final hfinal hrow).mpr
      ⟨hvalid, hverified, computed, answer, hsequence, hvisible, ?_⟩, halike⟩
    exact (PiStore.applyFinal_prepared hbinding hsequence hrow hprepared).mpr
      ⟨⟨boundAt, finalizedAt, hboundAt, hfinalizedAt, hle, by omega⟩, hlater, hsettled⟩

/-- The digits of a number for each text. -/
def samplePiDigest : PiDigest where
  sha256 text := (List.range 64).map fun place =>
    48 + text.foldl (fun n code => 31 * n + code) 7 / 10 ^ place % 10
  hexadecimal text := by
    simp only [PyText.isSha256, PyText.lengthWithin, List.length_map, List.length_range,
      List.all_map, Bool.and_eq_true, List.all_eq_true, Function.comp_apply, Bool.or_eq_true,
      decide_eq_true_eq]
    refine ⟨by decide, fun place _ => .inl ?_⟩
    omega

/-- The capability of a dispatch. -/
def samplePiCapability : PyText := .of "pic_0123456789abcdef0123456789abcdef01234567"

/-- The digest of the prompt. -/
def samplePiPrompt : PyText := samplePiDigest.sha256 (.of "Ship it.")

/-- A session of a prompt and its answer. -/
def samplePiSequence : List PiSourceEntry :=
  let marker (order : ℤ) (id kind : String) (parent : Option String) : PiSourceEntry :=
    { order := order, entryId := .of id, parentId := parent.map PyText.of, entryType := .custom,
      role := none, customType := some (.of kind), stopReason := none }
  let message (order : ℤ) (id parent : String) (role : PiRole) (reason : Option PiStopReason) :
      PiSourceEntry :=
    { order := order, entryId := .of id, parentId := some (.of parent), entryType := .message,
      role := some role, customType := none, stopReason := reason }
  [marker 0 "e0" PiOwnershipEnvelope.prepareEntryType none,
    message 1 "e1" "e0" .user none,
    marker 2 "e2" PiOwnershipEnvelope.bindEntryType (some "e1"),
    message 3 "e3" "e2" .assistant (some .stop),
    marker 4 "e4" PiOwnershipEnvelope.finalizeEntryType (some "e3")]

/-- The evidence of an answer. -/
def samplePiFinal : PiOwnershipEnvelope where
  eventType := .finalized
  requestNonce := .of "nonce-nonce-nonce"
  dispatchIncarnation := .of "pdi_0123456789abcdef"
  capabilitySha256 := samplePiDigest.sha256 samplePiCapability
  tenantId := .of "owner"
  principalId := .of "owner"
  conversationId := .of "cv_1"
  turnId := .of "ct_1"
  assistantMessageId := .of "cm_1"
  objectiveId := .of "obj_1"
  runId := .of "run_1"
  sourceRevision := 2
  piSessionId := some (.of "s1")
  piPrepareEntryId := some (.of "e0")
  piUserEntryId := some (.of "e1")
  piUserEntryOrder := some 1
  piUserContentSha256 := some samplePiPrompt
  piBindEntryId := some (.of "e2")
  piAssistantEntryId := some (.of "e3")
  piAssistantEntryOrder := some 3
  piFinalizeEntryId := some (.of "e4")
  finality := .final
  stopReason := some .stop
  boundAt := some 1000000000001
  finalizedAt := some 1000000000002
  sourceStartOrder := some 0
  sourceEndOrder := some 4
  sourceCursor := some (.of "e4")
  sourceSequence := samplePiSequence
  sourceSequenceSha256 := some (samplePiDigest.sequenceHash samplePiSequence)
  visibleContentSha256 := some (samplePiDigest.visibleHash [⟨0, .of "Done"⟩])
  assistantContent := [⟨0, .of "Done"⟩]

/-- The evidence of the binding before it. -/
def samplePiBinding : PiOwnershipEnvelope :=
  samplePiFinal.bindingPayload (samplePiSequence.take 3)
    (samplePiDigest.sequenceHash (samplePiSequence.take 3))

/-- A prepared dispatch of an open turn. -/
def samplePiRow : OwnedDispatch where
  dispatch :=
    { dispatchIncarnation := .of "pdi_0123456789abcdef"
      capabilitySha256 := samplePiDigest.sha256 samplePiCapability
      userId := .of "owner"
      tenantId := .of "owner"
      principalId := .of "owner"
      conversationId := .of "cv_1"
      turnId := .of "ct_1"
      assistantMessageId := .of "cm_1"
      objectiveId := .of "obj_1"
      runId := .of "run_1"
      promptSha256 := samplePiPrompt
      visiblePromptSha256 := samplePiPrompt
      state := .prepared
      expiresAt := 1000000120000
      createdAt := 1000000000000
      updatedAt := 1000000000000 }
  turnStatus := .other "submitted"
  lifecycleState := .other "active"
  turnSequence := 0

/-- The database of that dispatch. -/
def samplePiStore : PiStore where
  dispatches := Table.empty.insertOrIgnore samplePiRow.dispatch
  conversations := Table.empty.insertOrIgnore ⟨.of "cv_1", .of "owner", .of "captain", 0⟩
  turns := Table.empty.insertOrIgnore
    ⟨.of "ct_1", .of "cv_1", .other "submitted", .other "active", 1, none, 0, 0⟩
  messages := Table.empty
  changes := Table.empty

theorem pi_recovery_equivalent_answered :
    ∃ bound reply s₁ s₂,
      samplePiStore.applyPiOwnershipEnvelope samplePiDigest 1000000000005 (.of "owner")
        (.of "captain") samplePiCapability samplePiBinding =
          .ok (bound, s₁) ∧
      s₁.applyPiOwnershipEnvelope samplePiDigest 1000000000006 (.of "owner") (.of "captain")
        samplePiCapability samplePiFinal = .ok (reply, s₂) ∧
      reply.status = .applied ∧ reply.state = .finalized := by
  have hreply : (samplePiStore.applyPiOwnershipEnvelope samplePiDigest 1000000000004 (.of "owner")
      (.of "captain") samplePiCapability samplePiFinal).map
        (fun result => (result.1.status, result.1.state)) = .ok (.applied, .finalized) := by
    decide +kernel
  cases happly : samplePiStore.applyPiOwnershipEnvelope samplePiDigest 1000000000004 (.of "owner")
      (.of "captain") samplePiCapability samplePiFinal with
  | error e =>
    rw [happly] at hreply
    cases hreply
  | ok result =>
    rw [happly] at hreply
    obtain ⟨hstatus, hstate⟩ := Prod.mk.inj (Except.ok.inj hreply)
    obtain ⟨bound, s₁, s₂, hbound, hfinal, -⟩ :=
      (pi_recovery_equivalent samplePiDigest (.of "owner") (.of "captain")
        samplePiCapability samplePiFinal samplePiBinding
        samplePiStore samplePiRow (by decide +kernel) rfl rfl
        { nonce := by decide +kernel
          stage := by decide
          dispatch := by decide
          binding := by decide
          unanswered := by decide
          entries := by decide
          marker := by decide +kernel
          source := by decide +kernel }).1 1000000000004 result.1 result.2 happly 1000000000005
        1000000000006 (by decide) (by decide)
    exact ⟨bound, result.1, s₁, s₂, hbound, hfinal, hstatus, hstate⟩

end Magistrate
