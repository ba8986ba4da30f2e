import Magistrate.Gateway.Decisions.Store
import Mathlib.Data.List.Induction

/-!
# Answers to decisions

Every answer has used up one confirmation, which was minted for it, and no
confirmation is used twice. One answer at most is live for a revision of a
decision, only the holder of its claim ends it, and then it stays as it is.
-/

namespace Magistrate

open FirstmateDecisionStore

/-- What a confirmation is minted for. -/
structure AnswerBinding where
  ownerUserId : String
  actorSessionId : String
  decisionId : String
  decisionRevision : ℕ
  nativeUserMessageId : String
  idempotencyKey : String
  answerSha256 : String
  deriving DecidableEq, Repr

/-- What a confirmation is minted for. -/
def AnswerConfirmation.binding (c : AnswerConfirmation) : AnswerBinding where
  ownerUserId := c.ownerUserId
  actorSessionId := c.actorSessionId
  decisionId := c.decisionId
  decisionRevision := c.decisionRevision
  nativeUserMessageId := c.nativeUserMessageId
  idempotencyKey := c.idempotencyKey
  answerSha256 := c.answerSha256

/-- A confirmation is minted by a step, under the hash of its token, for the owner, session,
decision, revision and message of the step. -/
def AnswerConfirmation.Minted (rules : DecisionRules) (op : DecisionStep) (c : AnswerConfirmation) :
    Prop :=
  ∃ context token, c.confirmationHash = rules.tokenHash token ∧
    op = .mint context c.ownerUserId c.actorSessionId c.decisionId c.decisionRevision
      c.nativeUserMessageId token

namespace DecisionAnswer

/-- What an answer was confirmed for. -/
def binding (a : DecisionAnswer) : AnswerBinding where
  ownerUserId := a.ownerUserId
  actorSessionId := a.actorSessionId
  decisionId := a.decisionId
  decisionRevision := a.decisionRevision
  nativeUserMessageId := a.nativeUserMessageId
  idempotencyKey := a.idempotencyKey
  answerSha256 := a.answerSha256

/-- A pending or succeeded answer. -/
def live (a : DecisionAnswer) : Prop := a.status ≠ .failed

/-- An answer has used up a confirmation that was neither expired nor used. -/
def Consumed (a : DecisionAnswer) (c : AnswerConfirmation) : Prop :=
  c.binding = a.binding ∧ c.usedAt = some a.createdAt ∧ a.createdAt < c.expiresAt

/-- What a step does to an answer: nothing, or it renews the claim of a pending one, or it ends a
pending one under its current claim. -/
inductive Follows (op : DecisionStep) (a : DecisionAnswer) : DecisionAnswer → Prop
  | kept : Follows op a a
  | renewed (claimId : String) (now : ℤ) (pending : a.status = .pending) :
    Follows op a (renewed claimId now a)
  | ended (context : DecisionContext) (result : CommandResult) (pending : a.status = .pending)
      (step : op = .finish context a.ownerUserId a.idempotencyKey a.executionClaimId result) :
    Follows op a (ended result context.now a)

/-- A step keeps what an answer was confirmed for. -/
theorem Follows.same {op : DecisionStep} {a a' : DecisionAnswer} (h : Follows op a a') :
    a'.answerId = a.answerId ∧ a'.binding = a.binding ∧ a'.createdAt = a.createdAt := by
  cases h <;> exact ⟨rfl, rfl, rfl⟩

/-- An answer that is live after a step was live before. -/
theorem Follows.live {op : DecisionStep} {a a' : DecisionAnswer} (h : Follows op a a')
    (hlive : a'.live) : a.live := by
  cases h with
  | kept => exact hlive
  | renewed claimId now pending => exact hlive
  | ended context result pending => simp [DecisionAnswer.live, pending]

/-- An answer that is over is kept. -/
theorem Follows.over {op : DecisionStep} {a a' : DecisionAnswer} (h : Follows op a a')
    (hover : a.status ≠ .pending) : a' = a := by
  cases h with
  | kept => rfl
  | renewed claimId now pending => exact absurd pending hover
  | ended context result pending => exact absurd pending hover

end DecisionAnswer

/-- Decisions are kept, and so are their owners. -/
def KeepsDecisions (t t' : Table Decision.decisionId) : Prop :=
  ∀ id d, t.find? id = some d → ∃ d', t'.find? id = some d' ∧ d'.ownerUserId = d.ownerUserId

namespace KeepsDecisions

variable {t t' t'' : Table Decision.decisionId}

theorem refl (t : Table Decision.decisionId) : KeepsDecisions t t := fun _ d hd => ⟨d, hd, rfl⟩

theorem trans (h : KeepsDecisions t t') (h' : KeepsDecisions t' t'') : KeepsDecisions t t'' := by
  intro id d hd
  obtain ⟨d', hd', howner⟩ := h id d hd
  obtain ⟨d'', hd'', howner'⟩ := h' id d' hd'
  exact ⟨d'', hd'', howner'.trans howner⟩

/-- An insertion keeps the decisions. -/
theorem insert (t : Table Decision.decisionId) (new : Decision) :
    KeepsDecisions t (t.insertOrIgnore new) := by
  intro id d hd
  exact ⟨d, by rw [Table.find?_insertOrIgnore, hd, Option.some_or], rfl⟩

/-- An update that keeps owners keeps the decisions. -/
theorem update {id : String} {f : Decision → Decision}
    (hf : ∀ d, (f d).decisionId = d.decisionId)
    (howner : ∀ d, (f d).ownerUserId = d.ownerUserId) :
    KeepsDecisions t (t.update id f hf) := by
  intro id' d hd
  rw [Table.find?_update, hd, Option.map_some]
  refine ⟨_, rfl, ?_⟩
  split
  · exact howner d
  · rfl

end KeepsDecisions

/-- What a snapshot keeps. -/
structure SnapshotKeeps (db db' : Decisions) : Prop where
  decisions : KeepsDecisions db.decisions db'.decisions
  confirmations : db'.confirmations = db.confirmations
  answers : db'.answers = db.answers

namespace SnapshotKeeps

theorem refl (db : Decisions) : SnapshotKeeps db db := ⟨.refl _, rfl, rfl⟩

theorem trans {db db' db'' : Decisions} (h : SnapshotKeeps db db') (h' : SnapshotKeeps db' db'') :
    SnapshotKeeps db db'' :=
  ⟨h.decisions.trans h'.decisions, h'.confirmations.trans h.confirmations,
    h'.answers.trans h.answers⟩

/-- What each block of a fold keeps, the fold keeps. -/
theorem foldlM {α : Type} {f : Decisions → α → Except DecisionFailure Decisions}
    (hf : ∀ db a db', f db a = .ok db' → SnapshotKeeps db db') :
    ∀ (l : List α) {db db' : Decisions}, l.foldlM f db = .ok db' → SnapshotKeeps db db' := by
  intro l
  induction l with
  | nil =>
    intro db db' h
    obtain rfl : db = db' := by simpa [pure, Except.pure] using h
    exact .refl db
  | cons a l ih =>
    intro db db' h
    simp only [List.foldlM_cons, bind_eq_ok] at h
    obtain ⟨mid, hfirst, hrest⟩ := h
    exact (hf _ _ _ hfirst).trans (ih hrest)

variable {rules : DecisionRules} {context : DecisionContext} {owner source : String}
  {observedAt : ℕ} {db db' : Decisions}

/-- A stored event keeps the decisions and the answers. -/
theorem insertEvent {sourceEventId decisionId : String} {payload : DecisionPayload} {now : ℤ}
    (h : insertEvent rules owner source sourceEventId decisionId payload observedAt
      now db = .ok db') :
    SnapshotKeeps db db' := by
  unfold FirstmateDecisionStore.insertEvent at h
  split at h
  · simp only [bind_eq_ok, raiseIf_eq_ok, pure_eq_ok, exists_const] at h
    obtain ⟨-, rfl⟩ := h
    exact .refl db
  · simp only [bind_eq_ok, raiseIf_eq_ok, pure_eq_ok, exists_const] at h
    obtain ⟨-, rfl⟩ := h
    exact ⟨.refl _, rfl, rfl⟩

/-- An open decision of a snapshot is inserted, or changed under its owner. -/
theorem applyEvent {event : DecisionRequiredEvent}
    (h : applyEvent rules context owner source observedAt db event = .ok db') :
    SnapshotKeeps db db' := by
  simp only [FirstmateDecisionStore.applyEvent, bind_eq_ok, raiseIf_eq_ok, exists_const] at h
  obtain ⟨-, -, mid, hevent, h⟩ := h
  refine (SnapshotKeeps.insertEvent hevent).trans ?_
  split at h
  · simp only [bind_eq_ok, raiseIf_eq_ok, pure_eq_ok, exists_const] at h
    obtain ⟨-, rfl⟩ := h
    exact ⟨.insert _ _, rfl, rfl⟩
  · simp only [bind_eq_ok, raiseIf_eq_ok, pure_eq_ok, exists_const] at h
    obtain ⟨-, -, rfl⟩ := h
    refine ⟨?_, rfl, rfl⟩
    simp only
    split <;> refine KeepsDecisions.trans ?_ (.update _ fun _ => rfl) <;> split
    · exact .update _ fun _ => rfl
    · exact .refl _
    · exact .update _ fun _ => rfl
    · exact .refl _

/-- A decision is resolved under its owner. -/
theorem resolveDecision {snapshotSha256 : String} {d : Decision}
    (h : resolveDecision rules context owner source snapshotSha256 observedAt db d = .ok db') :
    SnapshotKeeps db db' := by
  simp only [FirstmateDecisionStore.resolveDecision, bind_eq_ok, pure_eq_ok] at h
  obtain ⟨mid, hevent, rfl⟩ := h
  exact (SnapshotKeeps.insertEvent hevent).trans
    ⟨.update (f := Decision.resolvedBy _ _ _ _) (fun _ => rfl) fun _ => rfl, rfl, rfl⟩

/-- A snapshot keeps the owners of the decisions, the confirmations and the answers. -/
theorem applySnapshot {snapshotSha256 : String} {events : List DecisionRequiredEvent}
    {opened : List Decision}
    (h : applySnapshot rules context owner source observedAt snapshotSha256 events db =
      .ok (opened, db')) : SnapshotKeeps db db' := by
  simp only [FirstmateDecisionStore.applySnapshot, bind_eq_ok, raiseIf_eq_ok, exists_const] at h
  obtain ⟨-, -, -, h⟩ := h
  split at h
  · simp only [bind_eq_ok, raiseIf_eq_ok, pure_eq_ok, exists_const, Prod.mk.injEq] at h
    obtain ⟨-, -, rfl⟩ := h
    exact .refl db
  · simp only [bind_eq_ok, raiseIf_eq_ok, pure_eq_ok, exists_const, Prod.mk.injEq] at h
    obtain ⟨-, mid, hopened, last, hresolved, -, -, -, rfl⟩ := h
    have hfirst := foldlM (fun _ _ _ => SnapshotKeeps.applyEvent) events hopened
    have hsecond := foldlM (fun _ _ _ => SnapshotKeeps.resolveDecision) _ hresolved
    exact hfirst.trans (hsecond.trans ⟨.refl _, rfl, rfl⟩)

end SnapshotKeeps

namespace FirstmateDecisionStore

variable {rules : DecisionRules} {context : DecisionContext}
  {owner session decisionId messageId token claimId key : String} {revision : ℕ}
  {db db' : Decisions}

/-- An answer request is of its decision and its message. -/
theorem answerRequest_eq_ok {chat : Chat} {request : AnswerRequest}
    (h : answerRequest rules owner decisionId revision messageId chat = .ok request) :
    request.decisionId = decisionId ∧ request.decisionRevision = revision ∧
      request.nativeUserMessageId = messageId := by
  simp only [answerRequest, bind_eq_ok, raiseIf_eq_ok, exists_const] at h
  obtain ⟨-, h⟩ := h
  split at h
  · exact absurd h (by simp)
  · simp only [bind_eq_ok, pure_eq_ok] at h
    obtain ⟨_, -, rfl⟩ := h
    exact ⟨rfl, rfl, rfl⟩

/-- The answer under an idempotency key is stored. -/
theorem existingAnswer_eq_some {a : DecisionAnswer} (h : existingAnswer owner key db = some a) :
    a ∈ db.answers.rows ∧ a.ownerUserId = owner ∧ a.idempotencyKey = key := by
  unfold existingAnswer at h
  have hmatch := List.find?_some h
  exact ⟨List.mem_of_find?_eq_some h, of_decide_eq_true hmatch⟩

/-- Without an answer under an idempotency key none is stored. -/
theorem existingAnswer_eq_none (h : existingAnswer owner key db = none) :
    ∀ a ∈ db.answers.rows, a.ownerUserId = owner → a.idempotencyKey ≠ key := by
  intro a ha howner hkey
  have hno := List.find?_eq_none.mp h a ha
  simp [howner, hkey] at hno

/-- A minted confirmation is new and unused, and it is for what it was asked for. -/
theorem prepareConfirmation_cases {outcome : ConfirmationOutcome}
    (h : prepareConfirmation rules context owner session decisionId revision messageId token db =
      .ok (outcome, db')) :
    db' = db ∨ ∃ c : AnswerConfirmation,
      c.Minted rules (.mint context owner session decisionId revision messageId token) ∧
      c.usedAt = none ∧
      db.confirmations.find? c.confirmationHash = none ∧
      db' = { db with confirmations := db.confirmations.insertOrIgnore c } := by
  simp only [prepareConfirmation, bind_eq_ok] at h
  obtain ⟨request, -, h⟩ := h
  split at h
  · simp only [bind_eq_ok, raiseIf_eq_ok, pure_eq_ok, exists_const, Prod.mk.injEq] at h
    exact .inl h.2.2.symm
  · simp only [bind_eq_ok] at h
    obtain ⟨-, -, h⟩ := h
    split at h
    · exact absurd h (by simp)
    · simp only [bind_eq_ok, raiseIf_eq_ok, pure_eq_ok, exists_const, not_not, Prod.mk.injEq] at h
      obtain ⟨-, bound, -, -, -, -, -, hfree, -, rfl⟩ := h
      exact .inr ⟨_, ⟨context, token, rfl, rfl⟩, rfl, hfree, rfl⟩

/-- A new answer and the confirmation that it uses up. -/
structure Answered (now : ℤ) (db db' : Decisions) (c : AnswerConfirmation) (a : DecisionAnswer) :
    Prop where
  found : db.confirmations.find? c.confirmationHash = some c
  unused : c.usedAt = none
  unexpired : now < c.expiresAt
  binding : c.binding = a.binding
  created : a.createdAt = now
  pending : a.status = .pending
  fresh : db.answers.find? a.answerId = none
  key : ∀ b ∈ db.answers.rows, b.ownerUserId = a.ownerUserId →
    b.idempotencyKey ≠ a.idempotencyKey
  alone : ∀ b ∈ db.answers.rows, b.ownerUserId = a.ownerUserId → b.decisionId = a.decisionId →
    b.decisionRevision = a.decisionRevision → b.status = .failed
  decision : ∃ d, db.decisions.find? a.decisionId = some d ∧ d.ownerUserId = a.ownerUserId
  confirmations : db'.confirmations = db.confirmations.update c.confirmationHash fun c =>
    { c with usedAt := some now }
  answers : db'.answers = db.answers.insertOrIgnore a
  decisions : KeepsDecisions db.decisions db'.decisions

namespace Answered

variable {now now' : ℤ} {c d : AnswerConfirmation} {a b : DecisionAnswer}

/-- A new answer is stored. -/
theorem stored (h : Answered now db db' c a) : a ∈ db'.answers.rows := by
  rw [h.answers]
  exact Table.mem_insertOrIgnore_self h.fresh

/-- A move makes one answer, from one confirmation. -/
theorem unique (h : Answered now db db' c a) (h' : Answered now' db db' d b) :
    a = b ∧ c = d ∧ now = now' := by
  have hab : a = b := by
    have hmem := h'.stored
    rw [h.answers] at hmem
    rcases Table.mem_insertOrIgnore hmem with hold | ⟨-, heq⟩
    · exact absurd rfl (h'.key b hold rfl)
    · exact heq.symm
  refine ⟨hab, ?_, ?_⟩
  · by_contra hcd
    have hne : d.confirmationHash ≠ c.confirmationHash := by
      intro hhash
      have hfound := h'.found
      rw [hhash, h.found] at hfound
      exact hcd (Option.some.inj hfound)
    -- The other confirmation would be both used and unused.
    have hkept : db'.confirmations.find? d.confirmationHash = some d := by
      rw [h.confirmations, Table.find?_update_ne _ hne, h'.found]
    rw [h'.confirmations, Table.find?_update_self, h'.found, Option.map_some,
      Option.some.injEq] at hkept
    have hused : d.usedAt = some now' := by rw [← hkept]
    rw [h'.unused] at hused
    simp at hused
  · rw [← h.created, hab, h'.created]

end Answered

/-- A claim returns a stored answer, renews the claim of a pending one, or is a new answer. -/
theorem claimAnswer_cases {claim : AnswerClaim}
    (h : claimAnswer rules context owner session decisionId revision messageId token claimId db =
      .ok (claim, db')) :
    db' = db ∨
    (∃ a ∈ db.answers.rows, a.status = .pending ∧ db'.confirmations = db.confirmations ∧
      db'.decisions = db.decisions ∧
      db'.answers = db.answers.update a.answerId (renewed claimId context.now)) ∨
    ∃ c a, c.confirmationHash = rules.tokenHash token ∧ Answered context.now db db' c a := by
  simp only [claimAnswer, bind_eq_ok] at h
  obtain ⟨request, hrequest, h⟩ := h
  split at h
  · next existing hexisting =>
    simp only [bind_eq_ok, raiseIf_eq_ok, exists_const] at h
    obtain ⟨-, h⟩ := h
    split at h
    · next hresumed =>
      obtain ⟨hpending, -⟩ := of_decide_eq_true hresumed
      simp only [bind_eq_ok, Prod.exists] at h
      obtain ⟨answer, mid, hmid, h⟩ := h
      unfold takeOver at hmid
      split at hmid
      · exact absurd hmid (by simp)
      · simp only [bind_eq_ok, raiseIf_eq_ok, pure_eq_ok, exists_const, Prod.mk.injEq] at hmid
        obtain ⟨-, _, -, -, rfl⟩ := hmid
        refine .inr (.inl ⟨existing, (existingAnswer_eq_some hexisting).1, hpending, ?_⟩)
        split at h
        · exact absurd h (by simp)
        · simp only [pure_eq_ok, Prod.mk.injEq] at h
          obtain ⟨-, rfl⟩ := h
          exact ⟨rfl, rfl, rfl⟩
    · simp only [bind_eq_ok, pure_eq_ok, Prod.exists, Prod.mk.injEq] at h
      obtain ⟨_, _, ⟨rfl, rfl⟩, h⟩ := h
      split at h
      · exact absurd h (by simp)
      · simp only [pure_eq_ok, Prod.mk.injEq] at h
        exact .inl h.2.symm
  · next hnone =>
    simp only [bind_eq_ok] at h
    obtain ⟨-, -, h⟩ := h
    split at h
    · exact absurd h (by simp)
    · next decision hdecision =>
      simp only [bind_eq_ok, raiseIf_eq_ok, pure_eq_ok, exists_const, not_not, Prod.mk.injEq,
        Bool.not_eq_false, not_exists, not_and] at h
      obtain ⟨-, -, -, bound, -, -, -, hconfirmed, hcompeting, hfree, -, rfl⟩ := h
      obtain ⟨c, hc, hconfirms⟩ := (Option.any_eq_true _ _).mp hconfirmed
      obtain ⟨howner, hsession, hid, hrevision, hmessage, hkey, hsha, hexpires, hunused⟩ :=
        of_decide_eq_true hconfirms
      obtain ⟨hrid, hrrevision, hrmessage⟩ := answerRequest_eq_ok hrequest
      obtain ⟨-, hhash⟩ := Table.mem_of_find? hc
      obtain ⟨hfound, hdowner⟩ := Option.filter_eq_some_iff.mp hdecision
      refine .inr (.inr ⟨c, newAnswer rules owner session decisionId revision messageId claimId
        request context.now, hhash, ?_⟩)
      exact
        { found := hhash ▸ hc
          unused := hunused
          unexpired := hexpires
          binding := by
            simp only [AnswerConfirmation.binding, DecisionAnswer.binding, newAnswer,
              howner, hsession, hid, hrevision, hmessage, hkey, hsha, hrid, hrrevision, hrmessage]
          created := rfl
          pending := rfl
          fresh := hfree
          key := existingAnswer_eq_none hnone
          alone := hcompeting
          decision := ⟨decision, hfound, of_decide_eq_true hdowner⟩
          confirmations := by rw [hhash]
          answers := rfl
          decisions := .update (Decision.decisionId_moved _ _ _ _ _ _)
            (Decision.ownerUserId_moved _ _ _ _ _ _) }

/-- A finish returns a stored answer, or ends a pending one under its claim. -/
theorem finishAnswer_cases {result : CommandResult} {answer : DecisionAnswer}
    (h : finishAnswer context owner key claimId result db = .ok (answer, db')) :
    db' = db ∨ ∃ a ∈ db.answers.rows, a.ownerUserId = owner ∧ a.idempotencyKey = key ∧
      a.status = .pending ∧ a.executionClaimId = claimId ∧ db'.confirmations = db.confirmations ∧
      KeepsDecisions db.decisions db'.decisions ∧
      db'.answers = db.answers.update a.answerId (ended result context.now) := by
  unfold finishAnswer at h
  split at h
  · exact absurd h (by simp)
  · next row hrow =>
    obtain ⟨hmem, howner, hkey⟩ := existingAnswer_eq_some hrow
    split at h
    · exact .inl (Prod.mk.inj (Except.ok.inj h)).2.symm
    · next hopen =>
      obtain ⟨hpending, hclaim⟩ : row.status = .pending ∧ row.executionClaimId = claimId := by
        simpa [not_or] using hopen
      simp only [bind_eq_ok, raiseIf_eq_ok, pure_eq_ok, exists_const, Prod.mk.injEq] at h
      obtain ⟨-, -, rfl⟩ := h
      exact .inr ⟨row, hmem, howner, hkey, hpending, hclaim, rfl,
        .update (Decision.decisionId_moved _ _ _ _ _ _)
        (Decision.ownerUserId_moved _ _ _ _ _ _), rfl⟩

end FirstmateDecisionStore

/-- A step presents the token of a confirmation at a time. -/
def PresentsToken (rules : DecisionRules) (op : DecisionStep) (now : ℤ)
    (c : AnswerConfirmation) : Prop :=
  ∃ context owner session decisionId revision messageId token claimId,
    op = .claim context owner session decisionId revision messageId token claimId ∧
      context.now = now ∧ c.confirmationHash = rules.tokenHash token

/-- What a step does to the confirmations and the answers. -/
inductive DecisionMove (rules : DecisionRules) (op : DecisionStep) (db db' : Decisions) : Prop
  | keep (answers : db'.answers = db.answers) (confirmations : db'.confirmations = db.confirmations)
      (decisions : KeepsDecisions db.decisions db'.decisions)
  | mint (c : AnswerConfirmation) (minted : c.Minted rules op) (unused : c.usedAt = none)
      (fresh : db.confirmations.find? c.confirmationHash = none)
      (confirmations : db'.confirmations = db.confirmations.insertOrIgnore c)
      (answers : db'.answers = db.answers) (decisions : KeepsDecisions db.decisions db'.decisions)
  | follow (a : DecisionAnswer) (stored : a ∈ db.answers.rows)
      (f : DecisionAnswer → DecisionAnswer) (kept : ∀ a, (f a).answerId = a.answerId)
      (follows : a.Follows op (f a)) (answers : db'.answers = db.answers.update a.answerId f kept)
      (confirmations : db'.confirmations = db.confirmations)
      (decisions : KeepsDecisions db.decisions db'.decisions)
  | answer (now : ℤ) (c : AnswerConfirmation) (a : DecisionAnswer)
  (claimed : PresentsToken rules op now c)
      (answered : Answered now db db' c a)

/-- Every step is one of the moves. -/
theorem decisionStep_moves (rules : DecisionRules) (db : Decisions) (op : DecisionStep) :
    DecisionMove rules op db (decisionStep rules db op) := by
  have hkeep : ∀ db', db' = db → DecisionMove rules op db db' :=
    fun db' h => .keep (h ▸ rfl) (h ▸ rfl) (h ▸ .refl _)
  cases op with
  | mint context owner session decisionId revision messageId token =>
    refine commit_of (hkeep db rfl) fun db' hok => ?_
    obtain ⟨outcome, hmint⟩ := stateOf_eq_ok.mp hok
    rcases prepareConfirmation_cases hmint with h | ⟨c, hminted, hunused, hfresh, rfl⟩
    · exact hkeep db' h
    · exact .mint c hminted hunused hfresh rfl rfl (.refl _)
  | claim context owner session decisionId revision messageId token claimId =>
    refine commit_of (hkeep db rfl) fun db' hok => ?_
    obtain ⟨claim, hclaim⟩ := stateOf_eq_ok.mp hok
    rcases claimAnswer_cases hclaim with h | ⟨a, ha, hpending, hconfirmations,
      hdecisions, hanswers⟩ |
      ⟨c, a, hhash, hanswered⟩
    · exact hkeep db' h
    · exact .follow a ha (renewed claimId context.now) (by intro; rfl)
        (.renewed claimId context.now hpending) hanswers hconfirmations (hdecisions ▸ .refl _)
    · exact .answer context.now c a ⟨context, owner, session, decisionId, revision,
        messageId, token, claimId, rfl, rfl, hhash⟩ hanswered
  | finish context owner key claimId result =>
    refine commit_of (hkeep db rfl) fun db' hok => ?_
    obtain ⟨answer, hfinish⟩ := stateOf_eq_ok.mp hok
    rcases finishAnswer_cases hfinish with h | ⟨a, ha, howner, hkey, hpending,
      hclaim, hconfirmations, hdecisions, hanswers⟩
    · exact hkeep db' h
    · exact .follow a ha (ended result context.now) (by intro; rfl)
        (.ended context result hpending (by rw [howner, hkey, hclaim])) hanswers hconfirmations
        hdecisions
  | snapshot context owner source observedAt snapshotSha256 events =>
    refine commit_of (hkeep db rfl) fun db' hok => ?_
    obtain ⟨opened, hsnapshot⟩ := stateOf_eq_ok.mp hok
    have hkeeps := SnapshotKeeps.applySnapshot hsnapshot
    exact .keep hkeeps.answers hkeeps.confirmations hkeeps.decisions
  | chat chat => exact .keep rfl rfl (.refl _)

namespace DecisionMove

variable {rules : DecisionRules} {op : DecisionStep} {db db' : Decisions}

/-- Decisions keep their owners. -/
theorem decisions (h : DecisionMove rules op db db') :
    KeepsDecisions db.decisions db'.decisions := by
  cases h with
  | keep _ _ decisions => exact decisions
  | mint _ _ _ _ _ _ decisions => exact decisions
  | follow _ _ _ _ _ _ _ decisions => exact decisions
  | answer _ _ _ _ answered => exact answered.decisions

/-- A stored answer is followed. -/
theorem answers (h : DecisionMove rules op db db') {id : String} {a : DecisionAnswer}
    (ha : db.answers.find? id = some a) : ∃ a', db'.answers.find? id = some a' ∧
      a.Follows op a' := by
  cases h with
  | keep answers => exact ⟨a, answers ▸ ha, .kept⟩
  | mint _ _ _ _ _ answers => exact ⟨a, answers ▸ ha, .kept⟩
  | follow b stored f kept follows answers =>
    rw [answers, Table.find?_update, ha, Option.map_some]
    refine ⟨_, rfl, ?_⟩
    split
    · next hid =>
      obtain ⟨hmem, hkey⟩ := Table.mem_of_find? ha
      obtain rfl : a = b := Table.eq_of_mem hmem stored (hkey.trans hid)
      exact follows
    · exact .kept
  | answer now c b claimed answered =>
    rw [answered.answers, Table.find?_insertOrIgnore, ha, Option.some_or]
    exact ⟨a, rfl, .kept⟩

/-- An answer was there before, or it is the new one. -/
theorem answer_of (h : DecisionMove rules op db db') {a' : DecisionAnswer}
    (ha' : a' ∈ db'.answers.rows) :
    (∃ a ∈ db.answers.rows, a.Follows op a') ∨ ∃ now c, PresentsToken rules op now c ∧
      Answered now db db' c a' := by
  cases h with
  | keep answers => exact .inl ⟨a', answers ▸ ha', .kept⟩
  | mint _ _ _ _ _ answers => exact .inl ⟨a', answers ▸ ha', .kept⟩
  | follow b stored f kept follows answers =>
    rw [answers] at ha'
    obtain ⟨a, ha, rfl⟩ := Table.mem_update.mp ha'
    refine .inl ⟨a, ha, ?_⟩
    split
    · next hid =>
      obtain rfl : a = b := Table.eq_of_mem ha stored hid
      exact follows
    · exact .kept
  | answer now c b claimed answered =>
    have hmem := answered.answers ▸ ha'
    rcases Table.mem_insertOrIgnore hmem with ha | ⟨-, rfl⟩
    · exact .inl ⟨a', ha, .kept⟩
    · exact .inr ⟨now, c, claimed, answered⟩

/-- A confirmation stays as it is, unless a new answer uses it up. -/
theorem confirmations (h : DecisionMove rules op db db') {c : AnswerConfirmation}
    (hc : c ∈ db.confirmations.rows) :
    c ∈ db'.confirmations.rows ∨ ∃ now a, Answered now db db' c a := by
  cases h with
  | keep _ confirmations => exact .inl (confirmations ▸ hc)
  | mint _ _ _ _ confirmations =>
    exact .inl (confirmations ▸ Table.mem_insertOrIgnore_of_mem hc)
  | follow _ _ _ _ _ _ confirmations => exact .inl (confirmations ▸ hc)
  | answer now d a claimed answered =>
    by_cases hid : c.confirmationHash = d.confirmationHash
    · obtain rfl : c = d := Table.eq_of_mem hc (Table.mem_of_find? answered.found).1 hid
      exact .inr ⟨now, a, answered⟩
    · refine .inl ?_
      rw [answered.confirmations, Table.mem_update]
      exact ⟨c, hc, if_neg hid⟩

/-- A confirmation was there before, minted alike, or it is a new one. -/
theorem confirmation_of (h : DecisionMove rules op db db') {c' : AnswerConfirmation}
    (hc' : c' ∈ db'.confirmations.rows) :
    (∃ c ∈ db.confirmations.rows, ∀ op', c.Minted rules op' → c'.Minted rules op') ∨
      c'.Minted rules op := by
  cases h with
  | keep _ confirmations => exact .inl ⟨c', confirmations ▸ hc', fun _ h => h⟩
  | mint c minted _ _ confirmations =>
    rw [confirmations] at hc'
    rcases Table.mem_insertOrIgnore hc' with hc | ⟨-, rfl⟩
    · exact .inl ⟨c', hc, fun _ h => h⟩
    · exact .inr minted
  | follow _ _ _ _ _ _ confirmations => exact .inl ⟨c', confirmations ▸ hc', fun _ h => h⟩
  | answer now d a claimed answered =>
    rw [answered.confirmations] at hc'
    obtain ⟨c, hc, rfl⟩ := Table.mem_update.mp hc'
    refine .inl ⟨c, hc, fun op' h => ?_⟩
    split <;> exact h

/-- A used confirmation was used before, or a new answer uses it up. -/
theorem used_of (h : DecisionMove rules op db db') {c' : AnswerConfirmation}
    (hc' : c' ∈ db'.confirmations.rows) (hused : c'.usedAt ≠ none) :
    c' ∈ db.confirmations.rows ∨ ∃ now c a, Answered now db db' c a ∧
      c' = { c with usedAt := some now } := by
  cases h with
  | keep _ confirmations => exact .inl (confirmations ▸ hc')
  | mint c _ unused _ confirmations =>
    rw [confirmations] at hc'
    rcases Table.mem_insertOrIgnore hc' with hc' | ⟨-, rfl⟩
    · exact .inl hc'
    · exact absurd unused hused
  | follow _ _ _ _ _ _ confirmations => exact .inl (confirmations ▸ hc')
  | answer now d a claimed answered =>
    rw [answered.confirmations] at hc'
    obtain ⟨c, hc, rfl⟩ := Table.mem_update.mp hc'
    by_cases hid : c.confirmationHash = d.confirmationHash
    · obtain rfl : c = d := Table.eq_of_mem hc (Table.mem_of_find? answered.found).1 hid
      exact .inr ⟨now, c, a, answered, if_pos rfl⟩
    · exact .inl (by rwa [if_neg hid])

end DecisionMove

/-- Answers and used confirmations correspond, answers are one for each message, and live answers
are one for each revision of a decision. -/
structure AnswersConfirmed (db : Decisions) : Prop where
  consumed : ∀ a ∈ db.answers.rows, ∃ c ∈ db.confirmations.rows, a.Consumed c
  used : ∀ c ∈ db.confirmations.rows, c.usedAt ≠ none → ∃ a ∈ db.answers.rows, a.Consumed c
  keys : ∀ a ∈ db.answers.rows, ∀ b ∈ db.answers.rows, a.ownerUserId = b.ownerUserId →
    a.idempotencyKey = b.idempotencyKey → a = b
  apart : ∀ c ∈ db.confirmations.rows, ∀ d ∈ db.confirmations.rows, c.usedAt ≠ none →
    d.usedAt ≠ none → c.ownerUserId = d.ownerUserId → c.idempotencyKey = d.idempotencyKey → c = d
  alone : ∀ a ∈ db.answers.rows, ∀ b ∈ db.answers.rows, a.live → b.live →
    a.decisionId = b.decisionId → a.decisionRevision = b.decisionRevision → a = b
  owned : ∀ a ∈ db.answers.rows, ∃ d, db.decisions.find? a.decisionId = some d ∧
    d.ownerUserId = a.ownerUserId

namespace AnswersConfirmed

variable {rules : DecisionRules} {op : DecisionStep} {db db' : Decisions}

theorem initial : AnswersConfirmed .initial := by
  constructor <;> simp [Decisions.initial]

/-- A consumed confirmation is used, for the owner and the key of its answer. -/
theorem of_consumed {a : DecisionAnswer} {c : AnswerConfirmation} (h : a.Consumed c) :
    c.usedAt ≠ none ∧ c.ownerUserId = a.ownerUserId ∧ c.idempotencyKey = a.idempotencyKey := by
  obtain ⟨hbinding, hused, -⟩ := h
  refine ⟨by simp [hused], ?_, ?_⟩
  · exact congrArg AnswerBinding.ownerUserId hbinding
  · exact congrArg AnswerBinding.idempotencyKey hbinding

/-- A new answer has used up its confirmation. -/
theorem consumed_new {now : ℤ} {c : AnswerConfirmation} {a : DecisionAnswer}
    (h : Answered now db db' c a) :
    { c with usedAt := some now } ∈ db'.confirmations.rows ∧
      a.Consumed { c with usedAt := some now } := by
  refine ⟨?_, h.binding, by rw [h.created], by rw [h.created]; exact h.unexpired⟩
  rw [h.confirmations, Table.mem_update]
  exact ⟨c, (Table.mem_of_find? h.found).1, if_pos rfl⟩

/-- What an answer has used up stays. -/
theorem consumed_kept (hmove : DecisionMove rules op db db') {a a' : DecisionAnswer}
    (hfollows : a.Follows op a') {c : AnswerConfirmation} (hc : c ∈ db.confirmations.rows)
    (hconsumed : a.Consumed c) : c ∈ db'.confirmations.rows ∧ a'.Consumed c := by
  obtain ⟨-, hbinding, hcreated⟩ := hfollows.same
  refine ⟨?_, by rw [DecisionAnswer.Consumed, hbinding, hcreated]; exact hconsumed⟩
  rcases hmove.confirmations hc with hkept | ⟨now, b, hanswered⟩
  · exact hkept
  · exact absurd hanswered.unused (of_consumed hconsumed).1

/-- Every move keeps answers and confirmations in correspondence. -/
theorem move (h : AnswersConfirmed db) (hmove : DecisionMove rules op db db') :
    AnswersConfirmed db' := by
  have hstored : ∀ a ∈ db.answers.rows, ∃ a' ∈ db'.answers.rows, a.Follows op a' := by
    intro a ha
    obtain ⟨a', ha', hfollows⟩ := hmove.answers (Table.find?_of_mem ha)
    exact ⟨a', (Table.mem_of_find? ha').1, hfollows⟩
  have hsame : ∀ a b a' b' : DecisionAnswer, a.Follows op a' → b.Follows op b' →
    a' ∈ db'.answers.rows →
      b' ∈ db'.answers.rows → a = b → a' = b' := by
    intro a b a' b' ha hb hmem hmem' hab
    exact Table.eq_of_mem hmem hmem' (ha.same.1.trans (hab ▸ hb.same.1.symm))
  constructor
  · intro a' ha'
    rcases hmove.answer_of ha' with ⟨a, ha, hfollows⟩ | ⟨now, c, -, hanswered⟩
    · obtain ⟨c, hc, hconsumed⟩ := h.consumed a ha
      obtain ⟨hc', hconsumed'⟩ := consumed_kept hmove hfollows hc hconsumed
      exact ⟨c, hc', hconsumed'⟩
    · obtain ⟨hc', hconsumed⟩ := consumed_new hanswered
      exact ⟨_, hc', hconsumed⟩
  · intro c' hc' hused
    rcases hmove.used_of hc' hused with hc | ⟨now, c, a, hanswered, rfl⟩
    · obtain ⟨a, ha, hconsumed⟩ := h.used c' hc hused
      obtain ⟨a', ha', hfollows⟩ := hstored a ha
      exact ⟨a', ha', (consumed_kept hmove hfollows hc hconsumed).2⟩
    · exact ⟨a, hanswered.stored, (consumed_new hanswered).2⟩
  · intro a' ha' b' hb' howner hkey
    rcases hmove.answer_of ha' with ⟨a, ha, hfollows⟩ | ⟨now, c, -, hanswered⟩ <;>
      rcases hmove.answer_of hb' with ⟨b, hb, hfollows'⟩ | ⟨now', c', -, hanswered'⟩
    · have hbinding := hfollows.same.2.1
      have hbinding' := hfollows'.same.2.1
      refine hsame a b a' b' hfollows hfollows' ha' hb' (h.keys a ha b hb ?_ ?_)
      · exact (congrArg AnswerBinding.ownerUserId hbinding).symm.trans (howner.trans
          (congrArg AnswerBinding.ownerUserId hbinding'))
      · exact (congrArg AnswerBinding.idempotencyKey hbinding).symm.trans (hkey.trans
          (congrArg AnswerBinding.idempotencyKey hbinding'))
    · have hbinding := hfollows.same.2.1
      refine absurd ?_ (hanswered'.key a ha ?_)
      · exact (congrArg AnswerBinding.idempotencyKey hbinding).symm.trans hkey
      · exact (congrArg AnswerBinding.ownerUserId hbinding).symm.trans howner
    · have hbinding' := hfollows'.same.2.1
      refine absurd ?_ (hanswered.key b hb ?_)
      · exact (congrArg AnswerBinding.idempotencyKey hbinding').symm.trans hkey.symm
      · exact (congrArg AnswerBinding.ownerUserId hbinding').symm.trans howner.symm
    · exact (hanswered.unique hanswered').1
  · intro c' hc' d' hd' hused hused' howner hkey
    have hclash : ∀ c ∈ db.confirmations.rows, c.usedAt ≠ none →
      ∀ now d a, Answered now db db' d a →
        c.ownerUserId = d.ownerUserId → c.idempotencyKey ≠ d.idempotencyKey := by
      intro c hc hcused now d a hanswered hcowner hckey
      obtain ⟨b, hb, hconsumed⟩ := h.used c hc hcused
      obtain ⟨-, hbowner, hbkey⟩ := of_consumed hconsumed
      refine hanswered.key b hb ?_ ?_
      · exact hbowner.symm.trans
          (hcowner.trans (congrArg AnswerBinding.ownerUserId hanswered.binding))
      · exact hbkey.symm.trans (hckey.trans
          (congrArg AnswerBinding.idempotencyKey hanswered.binding))
    rcases hmove.used_of hc' hused with hc | ⟨now, c, a, hanswered, rfl⟩ <;>
      rcases hmove.used_of hd' hused' with hd | ⟨now', d, b, hanswered', rfl⟩
    · exact h.apart c' hc d' hd hused hused' howner hkey
    · exact absurd hkey (hclash c' hc hused now' d b hanswered' howner)
    · exact absurd hkey.symm (hclash d' hd hused' now c a hanswered howner.symm)
    · obtain ⟨-, rfl, rfl⟩ := hanswered.unique hanswered'
      rfl
  · have hbusy : ∀ a ∈ db.answers.rows, ∀ a', a.Follows op a' → a'.live → ∀ now c b,
        Answered now db db' c b → a'.decisionId = b.decisionId →
        a'.decisionRevision ≠ b.decisionRevision := by
      intro a ha a' hfollows hlive now c b hanswered hdecision hrevision
      have hbinding := hfollows.same.2.1
      have hid := (congrArg AnswerBinding.decisionId hbinding).symm.trans hdecision
      obtain ⟨d, hd, howner⟩ := h.owned a ha
      obtain ⟨d', hd', howner'⟩ := hanswered.decision
      have hsomes := hd.symm.trans ((congrArg db.decisions.find? hid).trans hd')
      obtain rfl : d = d' := Option.some.inj hsomes
      exact hfollows.live hlive (hanswered.alone a ha (howner.symm.trans howner') hid
        ((congrArg AnswerBinding.decisionRevision hbinding).symm.trans hrevision))
    intro a' ha' b' hb' hlive hlive' hdecision hrevision
    rcases hmove.answer_of ha' with ⟨a, ha, hfollows⟩ | ⟨now, c, -, hanswered⟩ <;>
      rcases hmove.answer_of hb' with ⟨b, hb, hfollows'⟩ | ⟨now', c', -, hanswered'⟩
    · have hbinding := hfollows.same.2.1
      have hbinding' := hfollows'.same.2.1
      refine hsame a b a' b' hfollows hfollows' ha' hb' (h.alone a ha b hb (hfollows.live hlive)
        (hfollows'.live hlive') ?_ ?_)
      · exact (congrArg AnswerBinding.decisionId hbinding).symm.trans (hdecision.trans
          (congrArg AnswerBinding.decisionId hbinding'))
      · exact (congrArg AnswerBinding.decisionRevision hbinding).symm.trans (hrevision.trans
          (congrArg AnswerBinding.decisionRevision hbinding'))
    · exact absurd hrevision (hbusy a ha a' hfollows hlive now' c' b' hanswered' hdecision)
    · exact absurd hrevision.symm
        (hbusy b hb b' hfollows' hlive' now c a' hanswered hdecision.symm)
    · exact (hanswered.unique hanswered').1
  · intro a' ha'
    have hdecision : ∃ d, db.decisions.find? a'.decisionId = some d ∧
        d.ownerUserId = a'.ownerUserId := by
      rcases hmove.answer_of ha' with ⟨a, ha, hfollows⟩ | ⟨now, c, -, hanswered⟩
      · have hbinding := hfollows.same.2.1
        have hid := congrArg AnswerBinding.decisionId hbinding
        have howner := congrArg AnswerBinding.ownerUserId hbinding
        obtain ⟨d, hd, hdowner⟩ := h.owned a ha
        exact ⟨d, (congrArg db.decisions.find? hid).trans hd, hdowner.trans howner.symm⟩
      · exact hanswered.decision
    obtain ⟨d, hd, howner⟩ := hdecision
    obtain ⟨d', hd', howner'⟩ := hmove.decisions _ d hd
    exact ⟨d', hd', howner'.trans howner⟩

/-- Answers and confirmations correspond after every run. -/
theorem runs (rules : DecisionRules) (steps : List DecisionStep) :
    AnswersConfirmed (run (decisionStep rules) .initial steps) :=
  run_invariant' (fun db op h => h.move (decisionStep_moves rules db op)) steps .initial

end AnswersConfirmed

/-- A confirmation was minted by a step of the run that stored it. -/
theorem confirmation_minted (rules : DecisionRules) (steps : List DecisionStep) :
    ∀ c ∈ (run (decisionStep rules) .initial steps).confirmations.rows,
      ∃ op ∈ steps, c.Minted rules op := by
  induction steps using List.reverseRecOn with
  | nil => simp [Decisions.initial]
  | append_singleton steps op ih =>
    rw [run_append, run_cons, run_nil]
    intro c' hc'
    rcases (decisionStep_moves rules _ op).confirmation_of hc' with ⟨c, hc, hsame⟩ | hminted
    · obtain ⟨op', hop', hminted⟩ := ih c hc
      exact ⟨op', List.mem_append_left _ hop', hsame op' hminted⟩
    · exact ⟨op, List.mem_append_right _ (List.mem_singleton_self op), hminted⟩

/-- An answer that is over stays as it is. -/
theorem terminal_answer_kept (rules : DecisionRules) {db : Decisions} {a : DecisionAnswer}
    (ha : a ∈ db.answers.rows) (hover : a.status ≠ .pending) (steps : List DecisionStep) :
    a ∈ (run (decisionStep rules) db steps).answers.rows := by
  refine run_invariant' (I := fun db : Decisions => a ∈ db.answers.rows)
    (fun db op ha => ?_) steps ha
  obtain ⟨a', ha', hfollows⟩ := (decisionStep_moves rules db op).answers (Table.find?_of_mem ha)
  rw [← hfollows.over hover]
  exact (Table.mem_of_find? ha').1

/-- Answers to decisions are confirmed, once, and only their claims end them: after every run each
answer has used up exactly one confirmation, which was minted for it and which no other answer has
used; of a revision of a decision one answer at most is pending or succeeded; an answer that is over
stays; a used confirmation stays; a stored answer changes only under its current claim; and a new
one uses up the unused and unexpired confirmation whose token its claim presents. -/
theorem decision_answers_single_use (rules : DecisionRules) (before : List DecisionStep) :
    let db := run (decisionStep rules) .initial before
    (∀ a ∈ db.answers.rows, ∃! c, c ∈ db.confirmations.rows ∧ a.Consumed c) ∧
    (∀ c ∈ db.confirmations.rows, (∃ op ∈ before, c.Minted rules op) ∧
      (c.usedAt ≠ none → ∃! a, a ∈ db.answers.rows ∧ a.Consumed c)) ∧
    (∀ id revision, db.answers.rows.countP (fun a => a.decisionId = id ∧
      a.decisionRevision = revision ∧ a.status ≠ .failed) ≤ 1) ∧
    (∀ a ∈ db.answers.rows, a.status ≠ .pending → ∀ after,
      a ∈ (run (decisionStep rules) db after).answers.rows) ∧
    ∀ op, let db' := decisionStep rules db op
      (∀ c ∈ db.confirmations.rows, c.usedAt ≠ none → c ∈ db'.confirmations.rows) ∧
      (∀ a ∈ db.answers.rows, ∃ a' ∈ db'.answers.rows, a'.answerId = a.answerId ∧ a.Follows op a') ∧
      ∀ a ∈ db'.answers.rows, db.answers.find? a.answerId = none →
        ∃ now c, PresentsToken rules op now c ∧ Answered now db db' c a := by
  intro db
  have h := AnswersConfirmed.runs rules before
  refine ⟨?_, ?_, ?_, ?_, ?_⟩
  · intro a ha
    obtain ⟨c, hc, hconsumed⟩ := h.consumed a ha
    refine ⟨c, ⟨hc, hconsumed⟩, fun d ⟨hd, hconsumed'⟩ => ?_⟩
    obtain ⟨hused, howner, hkey⟩ := AnswersConfirmed.of_consumed hconsumed
    obtain ⟨hused', howner', hkey'⟩ := AnswersConfirmed.of_consumed hconsumed'
    exact h.apart d hd c hc hused' hused (howner'.trans howner.symm) (hkey'.trans hkey.symm)
  · intro c hc
    refine ⟨confirmation_minted rules before c hc, fun hused => ?_⟩
    obtain ⟨a, ha, hconsumed⟩ := h.used c hc hused
    refine ⟨a, ⟨ha, hconsumed⟩, fun b ⟨hb, hconsumed'⟩ => ?_⟩
    obtain ⟨-, howner, hkey⟩ := AnswersConfirmed.of_consumed hconsumed
    obtain ⟨-, howner', hkey'⟩ := AnswersConfirmed.of_consumed hconsumed'
    exact h.keys b hb a ha (howner'.symm.trans howner) (hkey'.symm.trans hkey)
  · intro id revision
    rw [List.countP_eq_length_filter]
    refine length_le_one_of_unique ((List.Nodup.of_map _ db.answers.unique).filter _) ?_
    intro a ha b hb
    obtain ⟨ha, haopen⟩ := List.mem_filter.mp ha
    obtain ⟨hb, hbopen⟩ := List.mem_filter.mp hb
    obtain ⟨hid, hrevision, hlive⟩ := of_decide_eq_true haopen
    obtain ⟨hid', hrevision', hlive'⟩ := of_decide_eq_true hbopen
    exact h.alone a ha b hb hlive hlive' (hid.trans hid'.symm) (hrevision.trans hrevision'.symm)
  · exact fun a ha hover => terminal_answer_kept rules ha hover
  · intro op
    have hmove := decisionStep_moves rules db op
    refine ⟨?_, ?_, ?_⟩
    · intro c hc hused
      rcases hmove.confirmations hc with hkept | ⟨now, a, hanswered⟩
      · exact hkept
      · exact absurd hanswered.unused hused
    · intro a ha
      obtain ⟨a', ha', hfollows⟩ := hmove.answers (Table.find?_of_mem ha)
      exact ⟨a', (Table.mem_of_find? ha').1, hfollows.same.1, hfollows⟩
    · intro a ha hnew
      rcases hmove.answer_of ha with ⟨b, hb, hfollows⟩ | hanswered
      · have hfound := Table.find?_of_mem hb
        rw [← hfollows.same.1, hnew] at hfound
        simp at hfound
      · exact hanswered

end Magistrate
