import Magistrate.Gateway.Billing.Hold
import Magistrate.Gateway.Billing.Shipped
import Magistrate.Gateway.Execution.State
import Magistrate.Core.Pool
import Mathlib.Data.List.Sort

/-!
# Intake of objectives

A tool call claims an objective, reserves its credits, submits it to the
dispatcher and accepts it, each in a transaction of its own; when the dispatch
fails, the failure is recorded and then the reservation is released. Recovery
passes take interrupted submissions through the same transactions again. Calls
and passes overlap, and each can stop anywhere.
-/

namespace Magistrate

/-- `OBJECTIVE_DISPATCH_LEASE_MS` -/
def objectiveDispatchLeaseMs : ℤ := 30000

/-- `MAX_STARTUP_INTAKE_RETRIES` -/
def maxStartupIntakeRetries : ℕ := 8

/-- `MagiToolError` -/
structure MagiToolError where
  code : String
  retryable : Bool := true
  deriving DecidableEq, Repr

/-- `MagiToolContext`: the turn that a tool call is made in. -/
structure MagiToolContext where
  ownerUserId : String
  conversationId : String
  turnId : String
  userMessageId : String
  assistantMessageId : String
  explicitConfirmation : Bool
  deriving DecidableEq, Repr

/-- What the intake computes from texts: who and what it accepts, the ids it hashes, and what it
reads in a contract. -/
structure IntakeRules where
  authorized : MagiToolContext → Bool
  safeInvocationKey : String → Bool
  identities : String → String → String × String
  project : String → String
  validContract : String → Bool
  requiresHighImpactConfirmation : String → Bool
  safeErrorCode : String → Bool

/-- A submitted objective with the turn that it came from and the context frozen with it. -/
structure IntakeSubmission extends ObjectiveSubmission where
  conversationId : String
  turnId : String
  userMessageId : String
  assistantMessageId : String
  contextJson : String
  deriving DecidableEq, Repr

namespace IntakeSubmission

/-- Submissions are unique for an objective. -/
def key (s : IntakeSubmission) : String := s.objectiveId

/-- What a submission is of. -/
def target (s : IntakeSubmission) : String × String := (s.ownerUserId, s.objectiveId)

/-- A submission whose dispatch is tried again. -/
abbrev submitting (attempt : ℕ) (now : ℤ) (s : IntakeSubmission) : IntakeSubmission :=
  { s with
    status := .submitting
    attemptCount := attempt
    lastErrorCode := none
    updatedAt := now }

/-- A submission that is accepted. -/
abbrev accepted (now : ℤ) (s : IntakeSubmission) : IntakeSubmission :=
  { s with
    status := .accepted
    lastErrorCode := none
    acceptedAt := some (s.acceptedAt.getD now)
    updatedAt := now }

/-- A submission whose dispatch failed. -/
abbrev failed (code : String) (now : ℤ) (s : IntakeSubmission) : IntakeSubmission :=
  { s with
    status := .failed
    lastErrorCode := some code
    updatedAt := now }

/-- A submission that a personal deployment made. -/
abbrev withheld (s : IntakeSubmission) : IntakeSubmission :=
  { s with
    lastErrorCode := some (s.lastErrorCode.getD "personal_runtime_limits_unavailable") }

end IntakeSubmission

/-- `ObjectiveClaim` -/
structure ObjectiveClaim where
  objectiveId : String
  taskId : String
  contractJson : String
  accepted : Bool
  duplicate : Bool
  attempt : ℕ
  contextJson : String
  deriving DecidableEq, Repr

namespace ObjectiveSubmissionStore

/-- A new submission. -/
def newSubmission (rules : IntakeRules) (context : MagiToolContext)
    (key contractJson contextJson : String) (now : ℤ) : IntakeSubmission where
  objectiveId := (rules.identities context.ownerUserId key).1
  taskId := (rules.identities context.ownerUserId key).2
  ownerUserId := context.ownerUserId
  invocationKey := key
  contractJson
  project := rules.project contractJson
  status := .submitting
  attemptCount := 1
  lastErrorCode := none
  acceptedAt := none
  createdAt := now
  updatedAt := now
  conversationId := context.conversationId
  turnId := context.turnId
  userMessageId := context.userMessageId
  assistantMessageId := context.assistantMessageId
  contextJson

/-- The claim that a submission gives. -/
def claimOf (accepted duplicate : Bool) (attempt : ℕ) (s : IntakeSubmission) : ObjectiveClaim where
  objectiveId := s.objectiveId
  taskId := s.taskId
  contractJson := s.contractJson
  accepted
  duplicate
  attempt
  contextJson := s.contextJson

/-- Whether a submission is of a turn and a contract. -/
def boundTo (rules : IntakeRules) (context : MagiToolContext) (key contractJson : String)
    (s : IntakeSubmission) : Bool :=
  (s.objectiveId, s.taskId) = rules.identities context.ownerUserId key ∧
    s.conversationId = context.conversationId ∧ s.turnId = context.turnId ∧
    s.userMessageId = context.userMessageId ∧ s.assistantMessageId = context.assistantMessageId ∧
    s.contractJson = contractJson

/-- `claim`: the submission under an invocation key, unless another attempt holds its lease. The
digest that the code compares with the contract is left out. -/
def claim (rules : IntakeRules) (context : MagiToolContext)
    (key contractJson contextJson : String) (now : ℤ) (projected : Bool)
    (submissions : Table IntakeSubmission.key) :
    Except MagiToolError (ObjectiveClaim × Table IntakeSubmission.key) := do
  raiseIf (rules.authorized context = false) ⟨"objective_not_authorized", false⟩
  raiseIf (rules.safeInvocationKey key = false) ⟨"objective_idempotency_invalid", false⟩
  match submissions.rows.find? fun s =>
      s.ownerUserId = context.ownerUserId ∧ s.invocationKey = key with
  | some existing =>
    raiseIf (boundTo rules context key contractJson existing = false)
      ⟨"objective_idempotency_conflict", false⟩
    if existing.status = .accepted then
      return (claimOf true true existing.attemptCount existing, submissions)
    raiseIf (existing.status = .submitting ∧
      now - existing.updatedAt < objectiveDispatchLeaseMs)
      ⟨"objective_submission_in_progress", true⟩
    let attempt := existing.attemptCount + 1
    return (claimOf false true attempt existing,
      submissions.update existing.objectiveId (.submitting attempt now))
  | none =>
    let row := newSubmission rules context key contractJson contextJson now
    -- The ids of objectives and of tasks are unique.
    raiseIf (∃ s ∈ submissions.rows, s.objectiveId = row.objectiveId ∨ s.taskId = row.taskId)
      ⟨"objective_store_unavailable", true⟩
    raiseIf (projected = false) ⟨"objective_store_unavailable", true⟩
    return (claimOf false false 1 row, submissions.insertOrIgnore row)

/-- `accept` -/
def accept (owner : String) (claim : ObjectiveClaim) (now : ℤ) (projected : Bool)
    (submissions : Table IntakeSubmission.key) :
    Except MagiToolError (Table IntakeSubmission.key) := do
  raiseIf (¬(submissions.find? claim.objectiveId).any fun s =>
    s.ownerUserId = owner ∧ s.contractJson = claim.contractJson) ⟨"objective_store_conflict", false⟩
  raiseIf (projected = false) ⟨"objective_store_unavailable", true⟩
  return submissions.update claim.objectiveId (.accepted now)

/-- `fail`, and whether it recorded the failure; a database error records nothing. -/
def fail (rules : IntakeRules) (owner : String) (claim : ObjectiveClaim) (code : String) (now : ℤ)
    (recorded : Bool) (submissions : Table IntakeSubmission.key) :
    Bool × Table IntakeSubmission.key :=
  if recorded = true ∧ (submissions.find? claim.objectiveId).any fun s =>
      s.ownerUserId = owner ∧ s.status ≠ .accepted then
    let code := if rules.safeErrorCode code then code else "objective_dispatch_failed"
    (true, submissions.update claim.objectiveId (.failed code now))
  else (false, submissions)

/-- The submissions that a recovery pass reads, oldest first. -/
def pending (maximum : ℕ) (cutoff : ℤ) (submissions : Table IntakeSubmission.key) :
    List IntakeSubmission :=
  ((submissions.rows.filter fun s => (s.status = .submitting ∨ s.status = .failed) ∧
    s.attemptCount < maxStartupIntakeRetries ∧ s.updatedAt < cutoff).insertionSort fun s t =>
      s.createdAt < t.createdAt ∨ s.createdAt = t.createdAt ∧ s.objectiveId ≤ t.objectiveId).take
    maximum

/-- Whether the submission of a row that was read is still open. -/
def isOpen (row : IntakeSubmission) (submissions : Table IntakeSubmission.key) : Bool :=
  (submissions.find? row.objectiveId).any fun s =>
    s.ownerUserId = row.ownerUserId ∧ (s.status = .submitting ∨ s.status = .failed)

/-- An open submission that a personal deployment made. -/
def withhold (row : IntakeSubmission) (submissions : Table IntakeSubmission.key) :
    Table IntakeSubmission.key :=
  if isOpen row submissions then submissions.update row.objectiveId .withheld else submissions

/-- End an open submission whose contract is not valid, and whether it was open. -/
def invalidate (row : IntakeSubmission) (now : ℤ) (submissions : Table IntakeSubmission.key) :
    Bool × Table IntakeSubmission.key :=
  if isOpen row submissions then
    (true, submissions.update row.objectiveId fun s =>
      { s.failed "objective_contract_invalid" now with attemptCount := maxStartupIntakeRetries })
  else (false, submissions)

/-- Take an open submission up again, unless another attempt was made since it was read. -/
def resubmit (row : IntakeSubmission) (now : ℤ) (submissions : Table IntakeSubmission.key) :
    Option (ObjectiveClaim × Table IntakeSubmission.key) :=
  if isOpen row submissions ∧
      (submissions.find? row.objectiveId).any fun s => s.attemptCount = row.attemptCount then
    let attempt := row.attemptCount + 1
    some (claimOf false true attempt row,
      submissions.update row.objectiveId (.submitting attempt now))
  else none

end ObjectiveSubmissionStore

/-- The submitted objectives and the billing tables. -/
structure Intake where
  submissions : Table IntakeSubmission.key
  billing : Billing

/-- How a dispatch ends. -/
inductive DispatchOutcome where
  | receipt
  | dispatchError (reason : String)
  | toolError (code : String)
  | cancelled
  deriving DecidableEq, Repr

/-- An attempt to submit an objective. -/
structure IntakeAttempt where
  ownerUserId : String
  claim : ObjectiveClaim
  /-- The rows that a recovery pass has still to handle; a tool call has none. -/
  rest : Option (List IntakeSubmission)

/-- What an attempt is of. -/
def IntakeAttempt.target (a : IntakeAttempt) : String × String :=
  (a.ownerUserId, a.claim.objectiveId)

/-- Where a tool call or a recovery pass is. -/
inductive IntakeTask where
  | recover (rest : List IntakeSubmission)
  | reserve (attempt : IntakeAttempt)
  | submit (attempt : IntakeAttempt) (reservation : CreditReservation)
  | dispatched (attempt : IntakeAttempt) (reservation : CreditReservation)
  | accept (attempt : IntakeAttempt)
  | fail (attempt : IntakeAttempt) (code : String) (reservation : Option CreditReservation)
  | release (ownerUserId objectiveId : String) (rest : Option (List IntakeSubmission))

/-- What a turn meets: the time and the catalog, whether the body of the task fails to materialize
and how its dispatch ends, whether a personal reservation exists, and which writes go through. -/
structure IntakeTurn where
  catalog : BillingCatalog
  now : ℤ
  materialized : Except String Unit := .ok ()
  outcome : DispatchOutcome := .receipt
  personal : Bool := false
  projected : Bool := true
  recorded : Bool := true

namespace IntakeTask

open CreditLedger ObjectiveSubmissionStore

/-- A recovery pass goes on with its rows, a tool call is over. -/
def resume (rest : Option (List IntakeSubmission)) : Option IntakeTask := rest.map .recover

/-- A tool call records that its contract does not materialize; a recovery pass is stopped. -/
def toolFailure (a : IntakeAttempt) (code : String) (reservation : CreditReservation) :
    Option IntakeTask :=
  if a.rest.isNone then some (.fail a code (some reservation)) else none

/-- The code that is recorded when the reservation is refused. -/
def billingCode (a : IntakeAttempt) (error : BillingError) : String :=
  if a.rest.isSome then "objective_billing_" ++ error.code
  else if error.code = "insufficient_credits" then "objective_insufficient_credits"
  else "billing_" ++ error.code

/-- The code that is recorded when the dispatch is refused. -/
def dispatchCode (reason : String) : String :=
  if reason = "" then "objective_dispatch_failed" else "objective_dispatch_" ++ reason

/-- The next transaction of `execute` or of `reconcile_pending_objective_intake`. -/
def turn (rules : IntakeRules) (input : IntakeTurn) (task : IntakeTask) (db : Intake) :
    Intake × Option IntakeTask :=
  match task with
  | .recover [] => (db, none)
  | .recover (row :: rest) =>
    if input.personal then
      ({ db with submissions := withhold row db.submissions }, some (.recover rest))
    else if rules.validContract row.contractJson = false then
      let (changed, submissions) := invalidate row input.now db.submissions
      ({ db with submissions },
        some (if changed then .release row.ownerUserId row.objectiveId (some rest)
          else .recover rest))
    else
      match resubmit row input.now db.submissions with
      | none => (db, some (.recover rest))
      | some (claim, submissions) =>
        if input.projected = false then (db, none)
        else ({ db with submissions }, some (.reserve ⟨row.ownerUserId, claim, some rest⟩))
  | .reserve a =>
    match reserveObjective input.catalog a.ownerUserId a.claim.objectiveId
        ("objective:" ++ a.claim.objectiveId) input.now db.billing with
    | .ok (reservation, billing) => ({ db with billing }, some (.submit a reservation))
    | .error (.billing error) => (db, some (.fail a (billingCode a error) none))
    | .error _ => (db, none)
  | .submit a reservation =>
    match input.materialized with
    | .ok _ => (db, some (.dispatched a reservation))
    | .error code => (db, toolFailure a code reservation)
  | .dispatched a reservation =>
    match input.outcome with
    | .receipt => (db, some (.accept a))
    | .dispatchError reason => (db, some (.fail a (dispatchCode reason) (some reservation)))
    | .toolError code => (db, toolFailure a code reservation)
    | .cancelled => (db, none)
  | .accept a =>
    match ObjectiveSubmissionStore.accept a.ownerUserId a.claim input.now input.projected
        db.submissions with
    | .ok submissions => ({ db with submissions }, resume a.rest)
    | .error _ => (db, none)
  | .fail a code reservation =>
    if input.projected = false then (db, none)
    else
      let (failed, submissions) := ObjectiveSubmissionStore.fail rules a.ownerUserId a.claim code
        input.now input.recorded db.submissions
      ({ db with submissions },
        if failed = true ∧ reservation.any fun r => r.status = .reserved then
          some (.release a.ownerUserId a.claim.objectiveId a.rest)
        else resume a.rest)
  | .release owner objectiveId rest =>
    match releaseObjective owner objectiveId input.now db.billing with
    | .ok (_, billing) => ({ db with billing }, resume rest)
    | .error _ => (db, none)

/-- The objective that a task has reserved for and not failed. -/
def holds : IntakeTask → Option (String × String)
  | .submit a _ | .dispatched a _ | .accept a => some a.target
  | _ => none

end IntakeTask

/-- A tool call, a recovery pass, a turn of one of them, or a billing operation of others. A task
can stop at any point. -/
inductive IntakeStep where
  | execute (context : MagiToolContext) (key contractJson contextJson : String) (now : ℤ)
      (personal projected : Bool)
  | recover (maximum : ℕ) (cutoff : ℤ)
  | turn (task : ℕ) (input : IntakeTurn)
  | stop (task : ℕ)
  | billing (catalog : BillingCatalog) (op : BillingOp)

open ObjectiveSubmissionStore

/-- `execute` up to its claim. -/
def FirstmateObjectiveTools.execute (rules : IntakeRules) (context : MagiToolContext)
    (key contractJson contextJson : String) (now : ℤ) (personal projected : Bool)
    (submissions : Table IntakeSubmission.key) :
    Except MagiToolError (ObjectiveClaim × Table IntakeSubmission.key) := do
  raiseIf (rules.authorized context = false) ⟨"objective_not_authorized", false⟩
  raiseIf (personal = true) ⟨"personal_admission_mode_changed", false⟩
  raiseIf (rules.requiresHighImpactConfirmation contractJson = true ∧
    context.explicitConfirmation = false) ⟨"objective_confirmation_required", false⟩
  claim rules context key contractJson contextJson now projected submissions

/-- The tables and the tasks after a step. -/
def intakeStep (rules : IntakeRules) (p : Pool Intake IntakeTask) :
    IntakeStep → Pool Intake IntakeTask
  | .execute context key contractJson contextJson now personal projected =>
    match FirstmateObjectiveTools.execute rules context key contractJson contextJson now personal
        projected p.shared.submissions with
    | .error _ => p
    | .ok (claim, submissions) =>
      let p := p.write { p.shared with submissions }
      if claim.accepted then p else p.spawn (.reserve ⟨context.ownerUserId, claim, none⟩)
  | .recover maximum cutoff =>
    if 1 ≤ maximum ∧ maximum ≤ 500 ∧ 0 ≤ cutoff then
      p.spawn (.recover (pending maximum cutoff p.shared.submissions))
    else p
  | .turn task input => p.turn task (IntakeTask.turn rules input)
  | .stop task => p.turn task fun _ db => (db, none)
  | .billing catalog op =>
    p.write { p.shared with billing := billingStep p.shared.billing (catalog, op) }

/-- Nothing is submitted yet. -/
def Intake.initial (userProfiles : List String) : Pool Intake IntakeTask where
  shared := { submissions := .empty, billing := .initial userProfiles }
  workers := []

/-- An objective's reservation is there, held or settled. -/
def Billing.Billed (db : Billing) (target : String × String) : Prop :=
  db.reservationStatus target.1 target.2 = some .reserved ∨
    db.reservationStatus target.1 target.2 = some .settled

instance (db : Billing) (target : String × String) : Decidable (db.Billed target) :=
  inferInstanceAs (Decidable (_ ∨ _))

/-- An objective is billed exactly when it has a reservation that is not released. -/
theorem billed_iff {db : Billing} {target : String × String} :
    db.Billed target ↔ db.reservationStatus target.1 target.2 ≠ none ∧
      db.reservationStatus target.1 target.2 ≠ some .released := by
  unfold Billing.Billed
  cases db.reservationStatus target.1 target.2 with
  | none => simp
  | some status => cases status <;> simp

/-- An objective is accepted. -/
def IsAccepted (submissions : Table IntakeSubmission.key) (target : String × String) : Prop :=
  ∃ s ∈ submissions.rows, s.target = target ∧ s.status = .accepted

instance (submissions : Table IntakeSubmission.key) (target : String × String) :
    Decidable (IsAccepted submissions target) :=
  inferInstanceAs (Decidable (∃ s ∈ submissions.rows, _))

/-- An objective relies on its reservation: it is accepted, or an attempt has reserved for it and
not failed. -/
def Relied (p : Pool Intake IntakeTask) (target : String × String) : Prop :=
  IsAccepted p.shared.submissions target ∨ ∃ w ∈ p.workers, w.holds = some target

instance (p : Pool Intake IntakeTask) (target : String × String) : Decidable (Relied p target) :=
  inferInstanceAs (Decidable (_ ∨ ∃ w ∈ p.workers, _))

namespace IntakeStep

/-- The objective that a step hands to the dispatcher. -/
def submits (p : Pool Intake IntakeTask) : IntakeStep → Option (String × String)
  | .turn task input =>
    match p.workers[task]?, input.materialized with
    | some (.submit a _), .ok _ => some a.target
    | _, _ => none
  | _ => none

/-- The objective that a step reserves for. -/
def reserves (p : Pool Intake IntakeTask) : IntakeStep → Option (String × String)
  | .turn task _ =>
    match p.workers[task]? with
    | some (.reserve a) => some a.target
    | _ => none
  | _ => none

/-- The objective whose reservation a step is to release. -/
def releases (p : Pool Intake IntakeTask) : IntakeStep → Option (String × String)
  | .turn task _ =>
    match p.workers[task]? with
    | some (.release owner objectiveId _) => some (owner, objectiveId)
    | _ => none
  | .billing _ (.releaseObjective owner objectiveId _) => some (owner, objectiveId)
  | _ => none

/-- The condition under which no objective goes unbilled: nothing reserves for an objective whose
reservation was released before, and nothing releases a reservation that is relied on. -/
def KeepsHolds (p : Pool Intake IntakeTask) (step : IntakeStep) : Prop :=
  (∀ target ∈ step.reserves p,
    p.shared.billing.reservationStatus target.1 target.2 ≠ some .released) ∧
  ∀ target ∈ step.releases p,
    p.shared.billing.reservationStatus target.1 target.2 = some .reserved → ¬Relied p target

instance (p : Pool Intake IntakeTask) (step : IntakeStep) : Decidable (KeepsHolds p step) :=
  inferInstanceAs (Decidable (_ ∧ _))

end IntakeStep

namespace ObjectiveSubmissionStore

variable {submissions : Table IntakeSubmission.key} {target : String × String}

/-- A write that accepts nothing leaves an accepted objective accepted before. -/
theorem isAccepted_of_update {k : String} {f : IntakeSubmission → IntakeSubmission}
    {hf : ∀ s, (f s).key = s.key} (h : IsAccepted (submissions.update k f hf) target)
    (htarget : ∀ s, (f s).target = s.target)
    (hstatus : ∀ s, (f s).status = .accepted → s.status = .accepted) :
    IsAccepted submissions target := by
  obtain ⟨s, hs, rfl, haccepted⟩ := h
  obtain ⟨r, hr, rfl⟩ := Table.mem_update.mp hs
  refine ⟨r, hr, ?_⟩
  split at haccepted
  · next hk => exact ⟨by rw [if_pos hk, htarget], hstatus r haccepted⟩
  · next hk => exact ⟨by rw [if_neg hk], haccepted⟩

/-- A claim accepts nothing. -/
theorem isAccepted_of_claim {rules : IntakeRules} {context : MagiToolContext}
    {key contractJson contextJson : String} {now : ℤ} {projected : Bool} {c : ObjectiveClaim}
    {submissions' : Table IntakeSubmission.key}
    (h : claim rules context key contractJson contextJson now projected submissions =
      .ok (c, submissions')) (haccepted : IsAccepted submissions' target) :
    IsAccepted submissions target := by
  simp only [claim, bind_eq_ok, raiseIf_eq_ok, exists_const] at h
  obtain ⟨-, -, h⟩ := h
  split at h
  · simp only [bind_eq_ok, raiseIf_eq_ok, exists_const] at h
    obtain ⟨-, h⟩ := h
    split at h
    · obtain ⟨-, rfl⟩ := Prod.mk.inj (pure_eq_ok.mp h)
      exact haccepted
    · simp only [bind_eq_ok, raiseIf_eq_ok, pure_eq_ok, exists_const, Prod.mk.injEq] at h
      obtain ⟨-, -, rfl⟩ := h
      exact isAccepted_of_update haccepted (fun _ => rfl) fun _ h => nomatch h
  · simp only [bind_eq_ok, raiseIf_eq_ok, pure_eq_ok, exists_const, Prod.mk.injEq] at h
    obtain ⟨-, -, -, rfl⟩ := h
    obtain ⟨s, hs, rfl, hstatus⟩ := haccepted
    rcases Table.mem_insertOrIgnore hs with hs | ⟨-, rfl⟩
    · exact ⟨s, hs, rfl, hstatus⟩
    · exact nomatch hstatus

/-- An acceptance accepts the objective of its claim alone. -/
theorem isAccepted_of_accept {owner : String} {c : ObjectiveClaim} {now : ℤ} {projected : Bool}
    {submissions' : Table IntakeSubmission.key}
    (h : accept owner c now projected submissions = .ok submissions')
    (haccepted : IsAccepted submissions' target) :
    IsAccepted submissions target ∨ (owner, c.objectiveId) = target := by
  simp only [accept, bind_eq_ok, raiseIf_eq_ok, pure_eq_ok, exists_const, not_not] at h
  obtain ⟨hfound, -, rfl⟩ := h
  obtain ⟨s, hfind, hs⟩ := Option.any_eq_true _ _ |>.mp hfound
  obtain ⟨rfl, -⟩ := of_decide_eq_true hs
  obtain ⟨t, ht, rfl, hstatus⟩ := haccepted
  obtain ⟨r, hr, rfl⟩ := Table.mem_update.mp ht
  split at hstatus
  · next hk =>
    obtain rfl : r = s := Option.some.inj ((hk ▸ Table.find?_of_mem hr).symm.trans hfind)
    rw [if_pos hk]
    exact .inr (Prod.ext rfl hk.symm)
  · next hk =>
    rw [if_neg hk]
    exact .inl ⟨r, hr, rfl, hstatus⟩

variable {row : IntakeSubmission} {now : ℤ}

/-- Withholding a submission accepts nothing. -/
theorem isAccepted_of_withhold (h : IsAccepted (withhold row submissions) target) :
    IsAccepted submissions target := by
  unfold withhold at h
  split at h
  · exact isAccepted_of_update h (fun _ => rfl) fun _ h => h
  · exact h

/-- Ending a submission accepts nothing. -/
theorem isAccepted_of_invalidate (h : IsAccepted (invalidate row now submissions).2 target) :
    IsAccepted submissions target := by
  unfold invalidate at h
  split at h
  · dsimp only at h
    exact isAccepted_of_update h (fun _ => rfl) fun _ h => by cases h
  · exact h

/-- Taking a submission up again accepts nothing. -/
theorem isAccepted_of_resubmit {c : ObjectiveClaim} {submissions' : Table IntakeSubmission.key}
    (hresubmit : resubmit row now submissions = some (c, submissions'))
    (h : IsAccepted submissions' target) : IsAccepted submissions target := by
  unfold resubmit at hresubmit
  split at hresubmit
  · obtain ⟨-, rfl⟩ := Prod.mk.inj (Option.some.inj hresubmit)
    exact isAccepted_of_update h (fun _ => rfl) fun _ h => by cases h
  · cases hresubmit

/-- A failure accepts nothing. -/
theorem isAccepted_of_fail {rules : IntakeRules} {owner : String} {c : ObjectiveClaim}
    {code : String} {recorded : Bool}
    (h : IsAccepted (fail rules owner c code now recorded submissions).2 target) :
    IsAccepted submissions target := by
  unfold fail at h
  split at h
  · dsimp only at h
    exact isAccepted_of_update h (fun _ => rfl) fun _ h => by cases h
  · exact h

end ObjectiveSubmissionStore

namespace IntakeTask

open CreditLedger

variable {rules : IntakeRules} {input : IntakeTurn} {db : Intake} {task : IntakeTask}

/-- What a turn does: it writes submissions, and holds and accepts what it held before; or it
reserves, and holds what has a reservation; or it releases, and holds nothing. -/
inductive TurnMoves (input : IntakeTurn) (db : Intake) (task : IntakeTask) :
    Intake × Option IntakeTask → Prop
  | submissions (submissions : Table IntakeSubmission.key) (next : Option IntakeTask)
      (accepted : ∀ target, IsAccepted submissions target →
        IsAccepted db.submissions target ∨ task.holds = some target)
      (held : ∀ w ∈ next, ∀ target, w.holds = some target → task.holds = some target) :
      TurnMoves input db task ({ db with submissions }, next)
  | reserved (a : IntakeAttempt) (key : String) (billing : Billing) (next : Option IntakeTask)
      (source : task = .reserve a)
      (moves : Moves input.catalog
        (.reserveObjective a.ownerUserId a.claim.objectiveId key input.now) db.billing billing)
      (held : ∀ w ∈ next, ∀ target, w.holds = some target → target = a.target ∧
        billing.reservationStatus target.1 target.2 ≠ none) :
      TurnMoves input db task ({ db with billing }, next)
  | released (owner objectiveId : String) (rest : Option (List IntakeSubmission))
      (billing : Billing) (next : Option IntakeTask)
      (source : task = .release owner objectiveId rest)
      (moves : Moves input.catalog (.releaseObjective owner objectiveId input.now)
        db.billing billing)
      (held : ∀ w ∈ next, ∀ target, w.holds ≠ some target) :
      TurnMoves input db task ({ db with billing }, next)

/-- A resumed pass holds nothing. -/
theorem holds_resume {rest : Option (List IntakeSubmission)} {w : IntakeTask}
    (h : w ∈ resume rest) (target : String × String) : w.holds ≠ some target := by
  obtain ⟨rows, -, rfl⟩ := Option.mem_map.mp h
  simp [holds]

/-- A turn that writes nothing keeps what it holds, or ends. -/
theorem TurnMoves.same {next : Option IntakeTask}
    (held : ∀ w ∈ next, ∀ target, w.holds = some target → task.holds = some target) :
    TurnMoves input db task (db, next) :=
  .submissions db.submissions next (fun _ => .inl) held

/-- Every turn moves so. -/
theorem turn_moves (rules : IntakeRules) (input : IntakeTurn) (task : IntakeTask) (db : Intake) :
    TurnMoves input db task (turn rules input task db) := by
  have hnone : ∀ w ∈ (none : Option IntakeTask), ∀ target, w.holds = some target →
      task.holds = some target := by simp
  unfold turn
  split
  · exact .same hnone
  · next row rest =>
    split
    · exact .submissions _ _ (fun target h => .inl (isAccepted_of_withhold h)) (by simp [holds])
    split
    · refine .submissions _ _ (fun target h => .inl (isAccepted_of_invalidate h)) ?_
      intro w hw target htarget
      obtain rfl := Option.mem_some_iff.mp hw
      split at htarget <;> simp [holds] at htarget
    split
    · exact .same (by simp [holds])
    · next c submissions hresubmit =>
      split
      · exact .same hnone
      · exact .submissions _ _ (fun target h => .inl (isAccepted_of_resubmit hresubmit h))
          (by simp [holds])
  · next a =>
    split
    · next reservation billing hreserve =>
      refine .reserved a _ billing _ rfl (reserveObjective_moves hreserve) ?_
      intro w hw target htarget
      obtain rfl := Option.mem_some_iff.mp hw
      obtain rfl := Option.some.inj htarget
      exact ⟨rfl, reserveObjective_status hreserve⟩
    · exact .same (by simp [holds])
    · exact .same hnone
  · next a reservation =>
    split
    · exact .same (by simp [holds])
    · unfold toolFailure
      split
      · exact .same (by simp [holds])
      · exact .same hnone
  · next a reservation =>
    split
    · exact .same (by simp [holds])
    · exact .same (by simp [holds])
    · unfold toolFailure
      split
      · exact .same (by simp [holds])
      · exact .same hnone
    · exact .same hnone
  · next a =>
    split
    · next submissions haccept =>
      refine .submissions submissions _ (fun target h => ?_) fun w hw target h =>
        absurd h (holds_resume hw target)
      exact (isAccepted_of_accept haccept h).imp_right (congrArg some)
    · exact .same hnone
  · next a code reservation =>
    split
    · exact .same hnone
    · have hnext : ∀ failed : Bool, ∀ w ∈ (if failed = true ∧
            reservation.any fun r => r.status = .reserved then
          some (IntakeTask.release a.ownerUserId a.claim.objectiveId a.rest) else resume a.rest),
          ∀ target, w.holds ≠ some target := by
        intro failed w hw target
        split at hw
        · obtain rfl := Option.mem_some_iff.mp hw
          simp [holds]
        · exact holds_resume hw target
      exact .submissions _ _ (fun target h => .inl (isAccepted_of_fail h))
        fun w hw target h => absurd h (hnext _ w hw target)
  · next owner objectiveId rest =>
    split
    · next result billing hrelease =>
      exact .released owner objectiveId rest billing _ rfl (releaseObjective_moves hrelease)
        fun w hw target => holds_resume hw target
    · exact .same hnone

end IntakeTask

section Steps

variable {rules : IntakeRules} {p : Pool Intake IntakeTask} {step : IntakeStep}
  {target : String × String}

/-- A step changes the status of a reservation as some operation does, and releases it only where it
is to release it. -/
theorem intakeStep_holdChange (rules : IntakeRules) (p : Pool Intake IntakeTask) (step : IntakeStep)
    (target : String × String) :
    ∃ op, HoldChange op target.1 target.2
        (p.shared.billing.reservationStatus target.1 target.2)
        ((intakeStep rules p step).shared.billing.reservationStatus target.1 target.2) ∧
      ∀ now, op = .releaseObjective target.1 target.2 now → target ∈ step.releases p := by
  have hkept : ∀ billing, billing = p.shared.billing → ∃ op, HoldChange op target.1 target.2
      (p.shared.billing.reservationStatus target.1 target.2)
      (billing.reservationStatus target.1 target.2) ∧
      ∀ now, op = .releaseObjective target.1 target.2 now → target ∈ step.releases p := by
    rintro billing rfl
    exact ⟨.summary "" 0, .kept _, fun _ h => nomatch h⟩
  cases step with
  | execute context key contractJson contextJson now personal projected =>
    refine hkept _ ?_
    simp only [intakeStep]
    split
    · rfl
    · split <;> rfl
  | recover maximum cutoff =>
    refine hkept _ ?_
    simp only [intakeStep]
    split <;> rfl
  | stop task =>
    refine hkept _ ?_
    simp only [intakeStep]
    rcases p.turn_cases task fun _ db => (db, none) with h | ⟨_, _, _, -, -, h⟩ <;> rw [h]
  | billing catalog op =>
    refine ⟨op, (billingStep_moves catalog op p.shared.billing).holdChange _ _, ?_⟩
    rintro now rfl
    simp [IntakeStep.releases]
  | turn task input =>
    rcases p.turn_cases task (IntakeTask.turn rules input) with h | ⟨_, w, _, -, hw, h⟩
    · exact hkept _ (by rw [intakeStep, h])
    · rw [intakeStep, h]
      dsimp only
      generalize hturn : IntakeTask.turn rules input w p.shared = result
      have hmoves := IntakeTask.turn_moves rules input w p.shared
      rw [hturn] at hmoves
      cases hmoves with
      | submissions => exact hkept _ rfl
      | reserved a key billing next source moves =>
        exact ⟨_, moves.holdChange _ _, fun _ h => nomatch h⟩
      | released owner objectiveId rest billing next source moves =>
        refine ⟨_, moves.holdChange _ _, fun now h => ?_⟩
        obtain ⟨rfl, rfl, -⟩ := BillingOp.releaseObjective.inj h
        simp [IntakeStep.releases, hw, source]

/-- An objective that relies on its reservation did before, or a step has just reserved for it. -/
theorem relied_of_step (h : Relied (intakeStep rules p step) target) :
    Relied p target ∨ target ∈ step.reserves p ∧
      (intakeStep rules p step).shared.billing.reservationStatus target.1 target.2 ≠ none := by
  cases step with
  | execute context key contractJson contextJson now personal projected =>
    refine .inl ?_
    simp only [intakeStep] at h
    split at h
    · exact h
    · next c submissions hexecute =>
      simp only [FirstmateObjectiveTools.execute, bind_eq_ok, raiseIf_eq_ok,
        exists_const] at hexecute
      obtain ⟨-, -, -, hclaim⟩ := hexecute
      have haccepted : IsAccepted submissions target → IsAccepted p.shared.submissions target :=
        isAccepted_of_claim hclaim
      split at h
      · exact h.imp_left haccepted
      · refine h.imp haccepted ?_
        rintro ⟨w, hw, hholds⟩
        rcases List.mem_append.mp hw with hw | hw
        · exact ⟨w, hw, hholds⟩
        · rw [List.mem_singleton.mp hw] at hholds
          exact nomatch hholds
  | recover maximum cutoff =>
    refine .inl ?_
    simp only [intakeStep] at h
    split at h
    · refine h.imp_right ?_
      rintro ⟨w, hw, hholds⟩
      rcases List.mem_append.mp hw with hw | hw
      · exact ⟨w, hw, hholds⟩
      · rw [List.mem_singleton.mp hw] at hholds
        exact nomatch hholds
    · exact h
  | stop task =>
    refine .inl ?_
    simp only [intakeStep] at h
    rcases p.turn_cases task fun _ db => (db, none) with hstop | ⟨before, w, after, hp, -, hstop⟩
    · rwa [hstop] at h
    · rw [hstop] at h
      refine h.imp_right ?_
      rintro ⟨v, hv, hholds⟩
      exact ⟨v, by rw [hp]; simp at hv ⊢; tauto, hholds⟩
  | billing catalog op => exact .inl h
  | turn task input =>
    rcases p.turn_cases task (IntakeTask.turn rules input) with hturn |
      ⟨before, w, after, hp, hw, hturn⟩
    · rw [intakeStep, hturn] at h
      exact .inl h
    rw [intakeStep, hturn] at h ⊢
    dsimp only at h ⊢
    have hothers : ∀ {v}, v ∈ before ∨ v ∈ after → v.holds = some target → Relied p target :=
      fun hv hholds => .inr ⟨_, by rw [hp]; simp; tauto, hholds⟩
    have hself : w.holds = some target → Relied p target :=
      fun hholds => .inr ⟨w, by rw [hp]; simp, hholds⟩
    generalize hresult : IntakeTask.turn rules input w p.shared = result at h ⊢
    have hmoves := IntakeTask.turn_moves rules input w p.shared
    rw [hresult] at hmoves
    rcases h with haccepted | ⟨v, hv, hholds⟩
    · refine .inl ?_
      cases hmoves with
      | submissions submissions next accepted =>
        exact (accepted target haccepted).elim .inl hself
      | reserved | released => exact .inl haccepted
    · rw [List.append_assoc, List.mem_append, List.mem_append, Option.mem_toList] at hv
      rcases hv with hv | hv | hv
      · exact .inl (hothers (.inl hv) hholds)
      · cases hmoves with
        | submissions submissions next accepted held => exact .inl (hself (held v hv target hholds))
        | reserved a key billing next source moves held =>
          obtain ⟨rfl, hstatus⟩ := held v hv target hholds
          refine .inr ⟨?_, hstatus⟩
          simp [IntakeStep.reserves, hw, source]
        | released owner objectiveId rest billing next source moves held =>
          exact absurd hholds (held v hv target)
      · exact .inl (hothers (.inr hv) hholds)

/-- What a step reserves for, it does not release. -/
theorem not_releases_of_reserves (h : target ∈ step.reserves p) : target ∉ step.releases p := by
  unfold IntakeStep.reserves at h
  split at h
  · next task input =>
    split at h
    · next a hw => simp [IntakeStep.releases, hw]
    · exact nomatch h
  · exact nomatch h

/-- A step that keeps the holds leaves every objective that relies on its reservation billed. -/
theorem billed_of_step (hbilled : ∀ target, Relied p target → p.shared.billing.Billed target)
    (keeps : step.KeepsHolds p) (h : Relied (intakeStep rules p step) target) :
    (intakeStep rules p step).shared.billing.Billed target := by
  obtain ⟨op, change, hop⟩ := intakeStep_holdChange rules p step target
  rcases relied_of_step h with hrelied | ⟨hreserves, hstatus⟩
  · obtain ⟨hnone, hreleased⟩ := billed_iff.mp (hbilled target hrelied)
    refine billed_iff.mpr ⟨change.ne_none hnone, change.ne_released hreleased ?_⟩
    intro hheld now hrelease
    exact keeps.2 target (hop now hrelease) hheld hrelied
  · refine billed_iff.mpr ⟨hstatus, change.ne_released (keeps.1 target hreserves) ?_⟩
    intro _ now hrelease
    exact not_releases_of_reserves hreserves (hop now hrelease)

/-- What is handed to the dispatcher relies on its reservation. -/
theorem relied_of_submits (h : step.submits p = some target) : Relied p target := by
  unfold IntakeStep.submits at h
  split at h
  · split at h
    · next a reservation hw _ =>
      exact .inr ⟨_, List.mem_of_getElem? hw, h⟩
    · exact nomatch h
  · exact nomatch h

end Steps

/-- In every run that keeps the holds, an objective is billed in every state in which it is accepted
and whenever it is handed to the dispatcher. -/
theorem objective_intake_billed (rules : IntakeRules) (userProfiles : List String)
    (steps : List IntakeStep)
    (keeps : RunMeets (intakeStep rules) (fun p step => step.KeepsHolds p)
      (Intake.initial userProfiles) steps) :
    let p := run (intakeStep rules) (Intake.initial userProfiles) steps
    (∀ s ∈ p.shared.submissions.rows, s.status = .accepted → p.shared.billing.Billed s.target) ∧
      ∀ step target, IntakeStep.submits p step = some target → p.shared.billing.Billed target := by
  intro p
  have hbilled : ∀ target, Relied p target → p.shared.billing.Billed target := by
    refine run_invariant (I := fun p => ∀ target, Relied p target → p.shared.billing.Billed target)
      (fun p step hbilled hkeeps target => billed_of_step hbilled hkeeps) keeps ?_
    rintro target (⟨s, hs, -⟩ | ⟨w, hw, -⟩)
    · exact absurd hs List.not_mem_nil
    · exact absurd hw List.not_mem_nil
  exact ⟨fun s hs hstatus => hbilled _ (.inl ⟨s, hs, rfl, hstatus⟩),
    fun step target h => hbilled _ (relied_of_submits h)⟩

namespace IntakeSample

/-- Rules that refuse nothing. -/
def rules : IntakeRules where
  authorized _ := true
  safeInvocationKey _ := true
  identities owner key := ("mgo_" ++ owner ++ key, "magi-" ++ owner ++ key)
  project _ := "project"
  validContract _ := true
  requiresHighImpactConfirmation _ := false
  safeErrorCode _ := true

/-- A tool call of a user. -/
def call (now : ℤ) : IntakeStep :=
  .execute ⟨"user", "mgc_conversation", "mgt_turn", "mgm_user", "mgm_assistant", false⟩ "key"
    "contract" "context" now false true

/-- The next turn of the first task. -/
def next (outcome : DispatchOutcome := .receipt) : IntakeStep :=
  .turn 0 { catalog := Shipped.activated, now := 1704067200, outcome }

end IntakeSample

open IntakeSample

/-- An objective that is accepted at once is billed. -/
theorem objective_intake_billed_accepted :
    let p := run (intakeStep rules) (Intake.initial ["user"]) [call 0, next, next, next, next]
    p.shared.submissions.rows.map (·.status) = [.accepted] ∧
      ∀ s ∈ p.shared.submissions.rows, s.status = .accepted → p.shared.billing.Billed s.target :=
  ⟨by decide, (objective_intake_billed rules ["user"] [call 0, next, next, next, next]
    (by decide)).1⟩

/-- An objective whose dispatch fails is released; a second tool call reserves nothing, and hands it
to the dispatcher and accepts it all the same. -/
theorem objective_intake_unbilled :
    let failed := [call 0, next, next, next (.dispatchError "queue"), next, next]
    let retried := run (intakeStep rules) (Intake.initial ["user"]) (failed ++ [call 1, next])
    let accepted := run (intakeStep rules) retried [next, next, next]
    (next.submits retried = some ("user", "mgo_userkey") ∧
      retried.shared.billing.reservationStatus "user" "mgo_userkey" = some .released) ∧
    accepted.shared.submissions.rows.map (fun s => (s.target, s.status)) =
      [(("user", "mgo_userkey"), .accepted)] ∧
    accepted.shared.billing.reservationStatus "user" "mgo_userkey" = some .released := by
  decide

end Magistrate
