import Magistrate.Gateway.Chat.ObjectiveTurns

/-!
# Credits of cancelled turns

A stretch of `execute` leaves its objective accepted, failed and released, or
waiting for the dispatcher. So a turn that is cancelled keeps a hold only where
its dispatch was cut off: what became of the objective is unknown then, and its
submission stays open for the next recovery of the intake.
-/

namespace Magistrate

open CreditLedger

section Billing

variable {catalog : BillingCatalog} {op : BillingOp} {owner objective : String} {now : ℤ}
  {db db' : Billing} {r : CreditReservation}

/-- The idempotency key of an objective's reservation. -/
def objectiveKey (objective : String) : String := "objective:" ++ objective

/-- Reservations are of objectives, under keys and ids of their own, and of stored accounts. -/
structure ObjectivesOnly (db : Billing) : Prop where
  key : ∀ r ∈ db.reservations.rows, r.idempotencyKey = objectiveKey r.objectiveId
  id : ∀ r ∈ db.reservations.rows, r.reservationId = reservationId r.ownerUserId r.objectiveId
  account : ∀ r ∈ db.reservations.rows, ∃ a ∈ db.accounts.rows, a.ownerUserId = r.ownerUserId

/-- Accounts are never removed. -/
theorem Move.accounts_kept (h : Move catalog op db db') :
    ∀ a ∈ db.accounts.rows, ∃ a' ∈ db'.accounts.rows, a'.ownerUserId = a.ownerUserId := by
  intro a ha
  have hupdate (k : String) (f : BillingAccount → BillingAccount)
      (hf : ∀ a, (f a).ownerUserId = a.ownerUserId) :
      ∃ a' ∈ (db.accounts.update k f hf).rows, a'.ownerUserId = a.ownerUserId := by
    refine ⟨_, Table.mem_update.mpr ⟨a, ha, rfl⟩, ?_⟩
    split
    · exact hf a
    · rfl
  cases h with
  | insertAccount => exact ⟨a, Table.mem_insertOrIgnore_of_mem ha, rfl⟩
  | recordEvent | recordCheckout => exact ⟨a, ha, rfl⟩
  | touchAccount f keeps => exact hupdate _ f keeps.owner
  | monthlyGrant | reserve | release | settle | refund | topup | purchase | invoicePaid =>
    exact hupdate _ _ (by intro; rfl)

/-- Reservations are of objectives as long as they are made for objectives. -/
theorem ObjectivesOnly.move (h : ObjectivesOnly db) (move : Move catalog op db db')
    (hop : ∀ owner objective key now, op = .reserveObjective owner objective key now →
      key = objectiveKey objective) : ObjectivesOnly db' := by
  have hstays := move.accounts_kept
  have haccounts : ∀ r ∈ db.reservations.rows, ∃ a ∈ db'.accounts.rows,
      a.ownerUserId = r.ownerUserId := by
    intro r hr
    obtain ⟨a, ha, howner⟩ := h.account r hr
    obtain ⟨a', ha', howner'⟩ := hstays a ha
    exact ⟨a', ha', howner'.trans howner⟩
  have hupdate {k : String} {f : CreditReservation → CreditReservation}
      (hf : ∀ r, (f r).reservationId = r.reservationId)
      (hrows : db'.reservations = db.reservations.update k f hf)
      (hfields : ∀ r, (f r).ownerUserId = r.ownerUserId ∧ (f r).objectiveId = r.objectiveId ∧
        (f r).idempotencyKey = r.idempotencyKey) : ObjectivesOnly db' := by
    have hsame : ∀ r ∈ db'.reservations.rows, ∃ r₀ ∈ db.reservations.rows,
        r.reservationId = r₀.reservationId ∧ r.ownerUserId = r₀.ownerUserId ∧
          r.objectiveId = r₀.objectiveId ∧ r.idempotencyKey = r₀.idempotencyKey := by
      intro r hr
      rw [hrows] at hr
      obtain ⟨r₀, hr₀, rfl⟩ := Table.mem_update.mp hr
      refine ⟨r₀, hr₀, ?_⟩
      split
      · exact ⟨hf r₀, hfields r₀⟩
      · exact ⟨rfl, rfl, rfl, rfl⟩
    refine ⟨fun r hr => ?_, fun r hr => ?_, fun r hr => ?_⟩ <;>
      obtain ⟨r₀, hr₀, hid, howner, hobjective, hkey⟩ := hsame r hr
    · rw [hkey, hobjective]
      exact h.key r₀ hr₀
    · rw [hid, howner, hobjective]
      exact h.id r₀ hr₀
    · rw [howner]
      exact haccounts r₀ hr₀
  have hkept (hrows : db'.reservations = db.reservations) : ObjectivesOnly db' :=
    ⟨hrows ▸ h.key, hrows ▸ h.id, hrows ▸ haccounts⟩
  cases move with
  | insertAccount | monthlyGrant | refund | topup | purchase | invoicePaid | touchAccount
  | recordEvent | recordCheckout => exact hkept rfl
  | release | settle => exact hupdate (by intro; rfl) rfl (by intro; exact ⟨rfl, rfl, rfl⟩)
  | @reserve owner objective key now row plan reservation source new account onPlan freeId =>
    have hnew : ∀ r ∈ (db.reservations.insertOrIgnore reservation).rows,
        r ∈ db.reservations.rows ∨ r = reservation := fun r hr =>
      (Table.mem_insertOrIgnore hr).imp_right (·.2)
    subst new
    refine ⟨fun r hr => ?_, fun r hr => ?_, fun r hr => ?_⟩ <;> rcases hnew r hr with hr | rfl
    · exact h.key r hr
    · exact hop _ _ _ _ source
    · exact h.id r hr
    · rfl
    · exact haccounts r hr
    · obtain ⟨stored, howner⟩ := Table.mem_of_find? account
      obtain ⟨a, ha, howner'⟩ := hstays row stored
      exact ⟨a, ha, howner'.trans howner⟩

/-- The reservation found under an objective's key is the objective's. -/
theorem ObjectivesOnly.reservationOf_eq (h : ObjectivesOnly db)
    (found : db.reservationForKey owner (objectiveKey objective) = some r) :
    db.reservationOf owner objective = some r := by
  have hstored := List.mem_of_find?_eq_some found
  obtain ⟨howner, hkey⟩ : r.ownerUserId = owner ∧ r.idempotencyKey = objectiveKey objective := by
    simpa using List.find?_some found
  have hobjective : r.objectiveId = objective := by
    rw [h.key r hstored, objectiveKey, objectiveKey, String.append_right_inj] at hkey
    exact hkey
  cases hof : db.reservationOf owner objective with
  | none =>
    have hnone := List.find?_eq_none.mp hof r hstored
    simp [howner, hobjective] at hnone
  | some r' =>
    obtain ⟨hstored', howner', hobjective'⟩ := of_reservationOf hof
    have hid : r'.reservationId = r.reservationId := by
      rw [h.id r' hstored', h.id r hstored, howner, howner', hobjective, hobjective']
    rw [Table.eq_of_mem hstored' hstored hid]

/-- An objective with a reservation is found under its key. -/
theorem ObjectivesOnly.reservationForKey_ne_none (h : ObjectivesOnly db)
    (hsome : db.reservationStatus owner objective ≠ none) :
    db.reservationForKey owner (objectiveKey objective) ≠ none := by
  obtain ⟨r, hof⟩ := Option.ne_none_iff_exists'.mp
    (fun hnone => hsome (Option.map_eq_none_iff.mpr hnone))
  obtain ⟨hstored, howner, hobjective⟩ := of_reservationOf hof
  intro hnone
  have hother := List.find?_eq_none.mp hnone r hstored
  simp [howner, h.key r hstored, hobjective] at hother

/-- A reservation of an objective returns it as it is stored. -/
theorem reserveObjective_returns (h : ObjectivesOnly db)
    (hreserve : reserveObjective catalog owner objective (objectiveKey objective) now db =
      .ok (r, db')) :
    ObjectivesOnly db' ∧ db'.reservationStatus owner objective = some r.status := by
  have hmoved : ObjectivesOnly db' := by
    refine (reserveObjective_moves hreserve).preserve (fun move h => h.move move ?_) h
    rintro owner' objective' key' now' hop
    obtain ⟨-, rfl, rfl, -⟩ := BillingOp.reserveObjective.inj hop
    rfl
  refine ⟨hmoved, ?_⟩
  have hfound : db'.reservationForKey owner (objectiveKey objective) = some r := by
    simp only [reserveObjective, bind_eq_ok, Prod.exists, BillingCatalog.plan_eq_ok] at hreserve
    obtain ⟨row, mid, -, plan, -, hreserve⟩ := hreserve
    split at hreserve
    · next existing found =>
      simp only [bind_eq_ok, raiseIf_eq_ok, pure_eq_ok, exists_const, Prod.mk.injEq] at hreserve
      obtain ⟨-, rfl, rfl⟩ := hreserve
      exact found
    · next freeKey =>
      simp only [bind_eq_ok, raiseIf_eq_ok, pure_eq_ok, exists_const, Prod.mk.injEq,
        insertReservation_eq_ok, Billing.insertLedger] at hreserve
      obtain ⟨-, -, -, -, _, ⟨freeId, -, -, rfl⟩, rfl, rfl⟩ := hreserve
      have hrows := Table.rows_insertOrIgnore freeId
      simp only [Billing.reservationForKey] at freeKey ⊢
      rw [hrows, List.find?_append, freeKey]
      simp [newReservation]
  rw [Billing.reservationStatus, hmoved.reservationOf_eq hfound]
  rfl

/-- The refusal of an account whose plan is unknown. -/
def accountPlanInvalid : BillingFailure :=
  billingError "account_plan_invalid" "Billing account references an unknown plan." 503

/-- Reserving again for an objective fails only where its account's plan is unknown. -/
theorem reserveObjective_refused (h : ObjectivesOnly db) {error : BillingFailure}
    (hsome : db.reservationStatus owner objective ≠ none)
    (hreserve : reserveObjective catalog owner objective (objectiveKey objective) now db =
      .error error) : error = accountPlanInvalid := by
  obtain ⟨r, hof⟩ := Option.ne_none_iff_exists'.mp
    (fun hnone => hsome (Option.map_eq_none_iff.mpr hnone))
  obtain ⟨hstored, howner, hobjective⟩ := of_reservationOf hof
  obtain ⟨a, ha, haowner⟩ := h.account r hstored
  have haccount : db.accounts.find? owner = some a := by
    rw [← howner, ← haowner]
    exact Table.find?_of_mem ha
  cases hplan : catalog.plans.find? a.catalogId with
  | none =>
    simp only [reserveObjective, account, openAccount, haccount, ok_bind, hplan] at hreserve
    exact (Except.error.inj hreserve).symm
  | some plan =>
    have hread : account catalog owner now db = .ok (monthlyGrant a plan now db) := by
      simp only [account, openAccount, haccount, ok_bind, hplan]
      rfl
    obtain ⟨hmoves, -, plan', hplan'⟩ := account_moves (.summary owner now) hread
    have hmid : ObjectivesOnly (monthlyGrant a plan now db).2 :=
      hmoves.preserve (fun move h => h.move move fun _ _ _ _ hop => by cases hop) h
    obtain ⟨existing, found⟩ := Option.ne_none_iff_exists'.mp
      (hmid.reservationForKey_ne_none ((hmoves.holdChange owner objective).ne_none hsome))
    have hbound := (of_reservationOf (hmid.reservationOf_eq found)).2.2
    have hstays : catalog.plan (monthlyGrant a plan now db).1.catalogId = .ok plan' :=
      BillingCatalog.plan_eq_ok.mpr hplan'
    simp only [reserveObjective, hread, ok_bind, found, raiseIf_ok (not_not.mpr hbound)] at hreserve
    rw [hstays] at hreserve
    cases hreserve

end Billing

namespace ObjectiveSubmissionStore

/-- A write leaves the submissions of other objectives as they are, and every submission there with
its contract. -/
structure Rewrites (target : String × String)
    (submissions submissions' : Table IntakeSubmission.key) : Prop where
  rows : ∀ s ∈ submissions'.rows, s ∈ submissions.rows ∨ s.target = target
  kept : ∀ s ∈ submissions.rows, ∃ s' ∈ submissions'.rows,
    s'.target = s.target ∧ s'.contractJson = s.contractJson

variable {submissions submissions' submissions'' : Table IntakeSubmission.key}
  {target : String × String}

theorem Rewrites.refl (target : String × String) (submissions : Table IntakeSubmission.key) :
    Rewrites target submissions submissions :=
  ⟨fun _ hs => .inl hs, fun s hs => ⟨s, hs, rfl, rfl⟩⟩

theorem Rewrites.trans (h : Rewrites target submissions submissions')
    (h' : Rewrites target submissions' submissions'') :
    Rewrites target submissions submissions'' where
  rows s hs := (h'.rows s hs).elim (h.rows s) .inr
  kept s hs := by
    obtain ⟨s', hs', htarget, hcontract⟩ := h.kept s hs
    obtain ⟨s'', hs'', htarget', hcontract'⟩ := h'.kept s' hs'
    exact ⟨s'', hs'', htarget'.trans htarget, hcontract'.trans hcontract⟩

/-- An update of a stored submission rewrites it. -/
theorem Rewrites.update {r : IntakeSubmission} (stored : r ∈ submissions.rows)
    (f : IntakeSubmission → IntakeSubmission) (hf : ∀ s, (f s).key = s.key)
    (hfields : ∀ s, (f s).target = s.target ∧ (f s).contractJson = s.contractJson) :
    Rewrites r.target submissions (submissions.update r.objectiveId f hf) ∧
      f r ∈ (submissions.update r.objectiveId f hf).rows := by
  refine ⟨⟨fun s hs => ?_, fun s hs => ?_⟩, Table.mem_update.mpr ⟨r, stored, if_pos rfl⟩⟩
  · obtain ⟨s₀, hs₀, rfl⟩ := Table.mem_update.mp hs
    split
    · next hkey =>
      obtain rfl := Table.eq_of_mem hs₀ stored hkey
      exact .inr (hfields s₀).1
    · exact .inl hs₀
  · refine ⟨_, Table.mem_update.mpr ⟨s, hs, rfl⟩, ?_⟩
    split
    · exact hfields s
    · exact ⟨rfl, rfl⟩

/-- Submissions of one objective are one. -/
theorem eq_of_target {s s' : IntakeSubmission} (hs : s ∈ submissions.rows)
    (hs' : s' ∈ submissions.rows) (h : s.target = s'.target) : s = s' :=
  Table.eq_of_mem hs hs' (congrArg Prod.snd h)

variable {rules : IntakeRules} {context : MagiToolContext}
  {key contractJson contextJson owner : String}
  {now : ℤ} {personal projected recorded : Bool} {c : ObjectiveClaim}

/-- A claim leaves a submission of its contract, open for the claimed attempt or accepted. -/
theorem of_claim (h : claim rules context key contractJson contextJson now projected submissions =
      .ok (c, submissions')) :
    c.objectiveId = (rules.identities context.ownerUserId key).1 ∧
      Rewrites (context.ownerUserId, c.objectiveId) submissions submissions' ∧
      ∃ s ∈ submissions'.rows, s.target = (context.ownerUserId, c.objectiveId) ∧
        s.contractJson = c.contractJson ∧ (c.accepted = true ∧ s.status = .accepted ∨
          c.accepted = false ∧ s.status = .submitting) := by
  simp only [claim, bind_eq_ok, raiseIf_eq_ok, exists_const] at h
  obtain ⟨-, -, h⟩ := h
  split at h
  · next existing found =>
    have stored := List.mem_of_find?_eq_some found
    obtain ⟨howner, -⟩ : existing.ownerUserId = context.ownerUserId ∧
        existing.invocationKey = key := by simpa using List.find?_some found
    have htarget : existing.target = (context.ownerUserId, existing.objectiveId) :=
      Prod.ext howner rfl
    simp only [bind_eq_ok, raiseIf_eq_ok, exists_const] at h
    obtain ⟨hbound, h⟩ := h
    have hobjective : existing.objectiveId = (rules.identities context.ownerUserId key).1 :=
      congrArg Prod.fst (of_decide_eq_true (by simpa using hbound :
        boundTo rules context key contractJson existing = true)).1
    split at h
    · next haccepted =>
      obtain ⟨rfl, rfl⟩ := Prod.mk.inj (pure_eq_ok.mp h)
      exact ⟨hobjective, .refl _ _, existing, stored, htarget, rfl, .inl ⟨rfl, haccepted⟩⟩
    · simp only [bind_eq_ok, raiseIf_eq_ok, pure_eq_ok, exists_const, Prod.mk.injEq] at h
      obtain ⟨-, rfl, rfl⟩ := h
      obtain ⟨hrewrites, hupdated⟩ := Rewrites.update stored
        (.submitting (existing.attemptCount + 1) now) (fun _ => rfl) fun _ => ⟨rfl, rfl⟩
      exact ⟨hobjective, htarget ▸ hrewrites, _, hupdated, htarget, rfl, .inr ⟨rfl, rfl⟩⟩
  · simp only [bind_eq_ok, raiseIf_eq_ok, pure_eq_ok, exists_const, Prod.mk.injEq] at h
    obtain ⟨hfree, -, rfl, rfl⟩ := h
    refine ⟨rfl, ⟨fun s hs => ?_, fun s hs => ⟨s, Table.mem_insertOrIgnore_of_mem hs, rfl, rfl⟩⟩,
      _, Table.mem_insertOrIgnore_self ?_, rfl, rfl, .inr ⟨rfl, rfl⟩⟩
    · exact (Table.mem_insertOrIgnore hs).imp_right fun h => by rw [h.2]; rfl
    · refine Table.find?_eq_none_iff.mpr fun s hs hkey => hfree ⟨s, hs, .inl hkey⟩

/-- The code that is stored for a failure. -/
def storedCode (rules : IntakeRules) (code : String) : String :=
  if rules.safeErrorCode code then code else "objective_dispatch_failed"

/-- A failure is recorded for a submission that is not accepted, unless the write does not go
through. -/
theorem fail_cases (rules : IntakeRules) (code : String) (now : ℤ) (recorded : Bool)
    {r : IntakeSubmission}
    (stored : r ∈ submissions.rows) (htarget : r.target = (owner, c.objectiveId)) :
    fail rules owner c code now recorded submissions = (false, submissions) ∧
        (recorded = false ∨ r.status = .accepted) ∨
      ∃ submissions', fail rules owner c code now recorded submissions = (true, submissions') ∧
        Rewrites (owner, c.objectiveId) submissions submissions' ∧
        r.failed (storedCode rules code) now ∈ submissions'.rows := by
  obtain ⟨rfl, hobjective⟩ := Prod.mk.inj htarget
  have hfind : submissions.find? c.objectiveId = some r := by
    rw [← hobjective]
    exact Table.find?_of_mem stored
  by_cases hopen : recorded = true ∧ r.status ≠ .accepted
  · obtain ⟨hrewrites, hupdated⟩ := Rewrites.update stored (.failed (storedCode rules code) now)
      (fun _ => rfl) fun _ => ⟨rfl, rfl⟩
    rw [hobjective] at hrewrites hupdated
    refine .inr ⟨_, ?_, htarget ▸ hrewrites, hupdated⟩
    rw [fail, hfind, if_pos ⟨hopen.1, by simp [hopen.2]⟩]
    rfl
  · refine .inl ⟨?_, ?_⟩
    · rw [fail, hfind, if_neg (by simpa using hopen)]
    · by_contra hboth
      simp only [not_or, Bool.not_eq_false] at hboth
      exact hopen hboth

/-- A stored submission is accepted, unless the write does not go through. -/
theorem accept_cases (now : ℤ) (projected : Bool) {r : IntakeSubmission}
    (stored : r ∈ submissions.rows)
    (htarget : r.target = (owner, c.objectiveId)) (hcontract : r.contractJson = c.contractJson) :
    (∃ error, accept owner c now projected submissions = .error error) ∧ projected = false ∨
      ∃ submissions', accept owner c now projected submissions = .ok submissions' ∧
        Rewrites (owner, c.objectiveId) submissions submissions' ∧
        r.accepted now ∈ submissions'.rows := by
  obtain ⟨rfl, hobjective⟩ := Prod.mk.inj htarget
  have hfind : submissions.find? c.objectiveId = some r := by
    rw [← hobjective]
    exact Table.find?_of_mem stored
  rw [accept, hfind, raiseIf_ok (by simp [hcontract]), ok_bind]
  cases projected with
  | false => exact .inl ⟨⟨_, rfl⟩, rfl⟩
  | true =>
    obtain ⟨hrewrites, hupdated⟩ := Rewrites.update stored (.accepted now) (fun _ => rfl)
      fun _ => ⟨rfl, rfl⟩
    rw [hobjective] at hrewrites hupdated
    exact .inr ⟨_, rfl, htarget ▸ hrewrites, hupdated⟩

end ObjectiveSubmissionStore

section Stretches

open ObjectiveSubmissionStore

variable {rules : IntakeRules} {target : String × String} {db db' db'' : Intake} {cut cut' : Prop}
  {waiting : Option (IntakeAttempt × CreditReservation)}

/-- The status of an objective's reservation. -/
def Intake.holdOf (db : Intake) (target : String × String) : Option ReservationStatus :=
  db.billing.reservationStatus target.1 target.2

/-- What a stretch for one objective does: others keep their submissions and gain no hold, and holds
that are over stay over. -/
structure Advances (target : String × String) (db db' : Intake) : Prop where
  submissions : Rewrites target db.submissions db'.submissions
  objectives : ObjectivesOnly db.billing → ObjectivesOnly db'.billing
  others : ∀ t, t ≠ target → db'.holdOf t = some .reserved → db.holdOf t = some .reserved
  ended : ∀ t, db.holdOf t ≠ none → db.holdOf t ≠ some .reserved → db'.holdOf t = db.holdOf t
  stays : ∀ t, db.holdOf t ≠ none → db'.holdOf t ≠ none

namespace Advances

theorem trans (h : Advances target db db') (h' : Advances target db' db'') :
    Advances target db db'' where
  submissions := h.submissions.trans h'.submissions
  objectives := h'.objectives ∘ h.objectives
  others t ht hheld := h.others t ht (h'.others t ht hheld)
  ended t hsome hover := by
    have heq := h.ended t hsome hover
    rw [h'.ended t (heq ▸ hsome) (heq ▸ hover), heq]
  stays t hsome := h'.stays t (h.stays t hsome)

/-- A write of submissions. -/
theorem of_rewrites {submissions : Table IntakeSubmission.key}
    (h : Rewrites target db.submissions submissions) :
    Advances target db { db with submissions } where
  submissions := h
  objectives := id
  others _ _ := id
  ended _ _ _ := rfl
  stays _ := id

theorem refl (target : String × String) (db : Intake) : Advances target db db :=
  of_rewrites (.refl target db.submissions)

/-- A billing operation that reserves for the objective at most. -/
theorem of_moves {catalog : BillingCatalog} {op : BillingOp} {billing : Billing}
    (h : Moves catalog op db.billing billing)
    (hop : ∀ owner objective key now, op = .reserveObjective owner objective key now →
      (owner, objective) = target ∧ key = objectiveKey objective) :
    Advances target db { db with billing } where
  submissions := .refl target db.submissions
  objectives hdb := h.preserve (fun move hdb => hdb.move move fun _ _ _ _ h =>
    (hop _ _ _ _ h).2) hdb
  others t ht hheld := by
    by_contra hfree
    refine (h.holdChange t.1 t.2).ne_reserved hfree (fun _ key now hreserve => ?_) hheld
    exact ht (hop _ _ _ _ hreserve).1
  ended t hsome hover := (h.holdChange t.1 t.2).eq_of_over hsome hover
  stays t hsome := (h.holdChange t.1 t.2).ne_none hsome

end Advances

/-- A failed submission holds no credits, unless billing refused to reserve for it again. -/
def ReleasedOrRefused (rules : IntakeRules) (db : Intake) (s : IntakeSubmission) : Prop :=
  s.status = .failed → db.holdOf s.target = some .reserved →
    s.lastErrorCode = some (storedCode rules "billing_account_plan_invalid")

/-- The tables between the stretches. -/
structure Standing (rules : IntakeRules) (db : Intake) : Prop where
  objectives : ObjectivesOnly db.billing
  failed : ∀ s ∈ db.submissions.rows, ReleasedOrRefused rules db s

/-- What holds of an attempt that waits for the dispatcher. -/
structure Waits (db : Intake) (x : IntakeAttempt × CreditReservation) : Prop where
  submission : ∃ s ∈ db.submissions.rows, s.target = x.1.target ∧
    s.contractJson = x.1.claim.contractJson
  held : db.holdOf x.1.target ≠ none
  ended : x.2.status ≠ .reserved → db.holdOf x.1.target ≠ some .reserved

/-- Stretches for other objectives and for this one leave an attempt waiting. -/
theorem Waits.advance {x : IntakeAttempt × CreditReservation} (h : Waits db x)
    (advances : Advances target db db') : Waits db' x where
  submission := by
    obtain ⟨s, hs, htarget, hcontract⟩ := h.submission
    obtain ⟨s', hs', htarget', hcontract'⟩ := advances.submissions.kept s hs
    exact ⟨s', hs', htarget'.trans htarget, hcontract'.trans hcontract⟩
  held := advances.stays _ h.held
  ended hover := by
    rw [advances.ended _ h.held (h.ended hover)]
    exact h.ended hover

/-- A stretch of `execute` for an objective: it ends with the objective accepted, failed and
released, or waiting for the dispatcher, unless it is cut off. -/
structure Stretch (rules : IntakeRules) (cut : Prop) (target : String × String) (db db' : Intake)
    (waiting : Option (IntakeAttempt × CreditReservation)) : Prop where
  advances : Advances target db db'
  failed : ∀ s ∈ db'.submissions.rows, s.target = target → ReleasedOrRefused rules db' s
  waits : ∀ x ∈ waiting, x.1.target = target ∧ Waits db' x
  settled : ¬cut → ∀ s ∈ db'.submissions.rows, s.target = target → s.status = .submitting →
    db'.holdOf target = some .reserved → waiting ≠ none

/-- Stretches keep the tables standing. -/
theorem Stretch.standing (h : Stretch rules cut target db db' waiting)
    (standing : Standing rules db) : Standing rules db' where
  objectives := h.advances.objectives standing.objectives
  failed s hs := by
    by_cases htarget : s.target = target
    · exact h.failed s hs htarget
    · have hold := (h.advances.submissions.rows s hs).resolve_right htarget
      exact fun hfailed hheld =>
        standing.failed s hold hfailed (h.advances.others _ htarget hheld)

/-- A stretch after a first advance. -/
theorem Stretch.after (h : Stretch rules cut target db' db'' waiting)
    (advances : Advances target db db') : Stretch rules cut target db db'' waiting :=
  { h with advances := advances.trans h.advances }

/-- The release of an objective that may hold a reservation returns. -/
theorem releaseObjective_returns {db : Billing} (h : ObjectivesOnly db) (owner objective : String)
    (now : ℤ) : ∃ result db', releaseObjective owner objective now db = .ok (result, db') := by
  unfold releaseObjective
  split
  · exact ⟨_, _, rfl⟩
  · next r found =>
    split
    · exact ⟨_, _, rfl⟩
    · obtain ⟨stored, howner, -⟩ := of_reservationOf found
      obtain ⟨a, ha, haowner⟩ := h.account r stored
      have haccount : db.accounts.find? owner = some a := by
        rw [← howner, ← haowner]
        exact Table.find?_of_mem ha
      rw [haccount]
      exact ⟨_, _, rfl⟩

namespace FirstmateObjectiveTools

variable {a : IntakeAttempt} {input : IntakeTurn} {s : IntakeSubmission}

/-- The end of a failed attempt: its submission fails, and its reservation is released if held. -/
theorem failAttempt_stretch (code raised : String) (reservation : Option CreditReservation)
    (input : IntakeTurn) (standing : Standing rules db) (stored : s ∈ db.submissions.rows)
    (htarget : s.target = a.target)
    (hreservation : ∀ r ∈ reservation,
      r.status ≠ .reserved → db.holdOf a.target ≠ some .reserved)
    (hrefused : reservation = none → db.holdOf a.target = some .reserved →
      code = "billing_account_plan_invalid") :
    ∃ db' code', failAttempt rules a code raised reservation input db = (db', .raised code') ∧
      Stretch rules (input.projected = false ∨ input.recorded = false) a.target db db' none := by
  have hsame (hcut : input.projected = false ∨ input.recorded = false ∨ s.status = .accepted) :
      Stretch rules (input.projected = false ∨ input.recorded = false) a.target db db none :=
    { advances := .refl _ _
      failed := fun s' hs' _ => standing.failed s' hs'
      waits := by simp
      settled := fun hcut' s' hs' htarget' hsubmitting _ => by
        obtain rfl := eq_of_target hs' stored (htarget'.trans htarget.symm)
        simp only [not_or] at hcut'
        rcases hcut with hcut | hcut | hcut
        · exact absurd hcut hcut'.1
        · exact absurd hcut hcut'.2
        · simp [hsubmitting] at hcut }
  unfold failAttempt
  split
  · next hprojected => exact ⟨db, _, rfl, hsame (.inl hprojected)⟩
  rcases fail_cases rules code input.now input.recorded stored htarget with
    ⟨hfail, hcut⟩ | ⟨submissions, hfail, hrewrites, hfailed⟩
  · simp only [hfail, Bool.false_eq_true, false_and, if_false]
    exact ⟨db, _, rfl, hsame (.inr hcut)⟩
  · have hadvances : Advances a.target db { db with submissions } := .of_rewrites hrewrites
    -- the submission of the objective is the failed one
    have honly : ∀ s' ∈ submissions.rows, s'.target = a.target →
        s' = s.failed (storedCode rules code) input.now := fun s' hs' htarget' =>
      eq_of_target hs' hfailed (htarget'.trans htarget.symm)
    have hended {db' : Intake} (hsubmissions : db'.submissions = submissions)
        (advances : Advances a.target db db')
        (hheld : db'.holdOf a.target = some .reserved → code = "billing_account_plan_invalid") :
        Stretch rules (input.projected = false ∨ input.recorded = false) a.target db db' none :=
      { advances := advances
        failed := fun s' hs' htarget' => by
          obtain rfl := honly s' (hsubmissions ▸ hs') htarget'
          intro _ hreserved
          rw [htarget'] at hreserved
          rw [hheld hreserved]
        waits := by simp
        settled := fun _ s' hs' htarget' hsubmitting _ => by
          obtain rfl := honly s' (hsubmissions ▸ hs') htarget'
          cases hsubmitting }
    simp only [hfail, true_and]
    split
    · next hheld =>
      obtain ⟨result, billing, hrelease⟩ := releaseObjective_returns standing.objectives
        a.ownerUserId a.claim.objectiveId input.now
      simp only [hrelease]
      have hmoves : Moves input.catalog (.releaseObjective a.ownerUserId a.claim.objectiveId
          input.now) db.billing billing := releaseObjective_moves hrelease
      have hreleased : Advances a.target db { submissions, billing } :=
        hadvances.trans (.of_moves hmoves fun _ _ _ _ hop => by cases hop)
      exact ⟨_, _, rfl, hended rfl hreleased fun hreserved =>
        absurd hreserved (releaseObjective_status hrelease)⟩
    · next hheld =>
      refine ⟨_, _, rfl, hended rfl hadvances fun hreserved => ?_⟩
      cases reservation with
      | none => exact hrefused rfl hreserved
      | some r => exact absurd hreserved (hreservation r rfl (by simpa using hheld))

/-- A tool call until it waits for the dispatcher: it is refused before its claim, or a stretch for
the objective it claims. -/
theorem submitObjective_stretch (input : IntakeTurn) (standing : Standing rules db)
    (context : MagiToolContext)
    (key contractJson contextJson : String) :
    ∃ db' outcome, submitObjective rules context key contractJson contextJson input db =
        (db', outcome) ∧
      (db' = db ∧ outcome.waiting = none ∨
        Stretch rules (input.projected = false ∨ input.recorded = false)
          (context.ownerUserId, (rules.identities context.ownerUserId key).1) db db'
          outcome.waiting) := by
  unfold submitObjective
  split
  · exact ⟨db, _, rfl, .inl ⟨rfl, rfl⟩⟩
  next claim submissions hexecute =>
  simp only [execute, bind_eq_ok, raiseIf_eq_ok, exists_const] at hexecute
  obtain ⟨-, -, -, hclaim⟩ := hexecute
  obtain ⟨hobjective, hrewrites, s, hs, htarget, hcontract, hstatus⟩ := of_claim hclaim
  rw [← hobjective]
  have hclaimed : Advances (context.ownerUserId, claim.objectiveId) db { db with submissions } :=
    .of_rewrites hrewrites
  have honly : ∀ s' ∈ submissions.rows, s'.target = (context.ownerUserId, claim.objectiveId) →
      s' = s := fun s' hs' htarget' => eq_of_target hs' hs (htarget'.trans htarget.symm)
  rcases hstatus with ⟨haccepted, hstatus⟩ | ⟨haccepted, hstatus⟩
  · simp only [haccepted, if_true]
    refine ⟨_, _, rfl, .inr ⟨hclaimed, fun s' hs' htarget' => ?_, by simp [ToolOutcome.waiting],
      fun _ s' hs' htarget' => ?_⟩⟩
    all_goals
      obtain rfl := honly s' hs' htarget'
      intro h
      cases h.symm.trans hstatus
  · simp only [haccepted, Bool.false_eq_true, if_false]
    -- between the claim and the reservation the submission is open
    have hopen (billing : Billing) : ∀ s' ∈ submissions.rows,
        s'.target = (context.ownerUserId, claim.objectiveId) →
        ReleasedOrRefused rules { submissions, billing } s' := by
      intro s' hs' htarget' hfailed
      obtain rfl := honly s' hs' htarget'
      cases hfailed.symm.trans hstatus
    have hstretch : Stretch rules True (context.ownerUserId, claim.objectiveId) db
        { db with submissions } none :=
      ⟨hclaimed, hopen db.billing, by simp, fun h => absurd trivial h⟩
    have hstanding := hstretch.standing standing
    have hrefused (error : BillingFailure) (hreserve : reserveObjective input.catalog
        context.ownerUserId claim.objectiveId (objectiveKey claim.objectiveId) input.now
          db.billing = .error error)
        (hheld : db.billing.reservationStatus context.ownerUserId claim.objectiveId =
          some .reserved) : error = accountPlanInvalid :=
      reserveObjective_refused standing.objectives (by simp [hheld]) hreserve
    split
    · next error hreserve =>
      obtain ⟨db', code', hfail, hstretch⟩ := failAttempt_stretch (a :=
        ⟨context.ownerUserId, claim, none⟩)
        (IntakeTask.billingCode ⟨context.ownerUserId, claim, none⟩ error)
        (if error.code = "insufficient_credits" then
          IntakeTask.billingCode ⟨context.ownerUserId, claim, none⟩ error
          else "objective_" ++ IntakeTask.billingCode ⟨context.ownerUserId, claim, none⟩ error)
        none input hstanding hs htarget (by simp) fun _ hheld => by
          obtain rfl := BillingFailure.billing.inj (hrefused _ hreserve hheld)
          rfl
      exact ⟨db', .raised code', hfail, .inr (hstretch.after hclaimed)⟩
    · next failure hbilling hreserve =>
      refine ⟨_, _, rfl, .inr ⟨hclaimed, hopen db.billing, by simp [ToolOutcome.waiting],
        fun _ _ _ _ _ hheld => ?_⟩⟩
      exact absurd (hrefused _ hreserve hheld) (hbilling _)
    · next reservation billing hreserve =>
      obtain ⟨hobjectives, hstatus'⟩ := reserveObjective_returns standing.objectives hreserve
      have hreserved : Advances (context.ownerUserId, claim.objectiveId)
          { db with submissions } { submissions, billing } := by
        refine .of_moves (reserveObjective_moves hreserve) fun _ _ _ _ hop => ?_
        obtain ⟨rfl, rfl, rfl, -⟩ := BillingOp.reserveObjective.inj hop
        exact ⟨rfl, rfl⟩
      have hadvances := hclaimed.trans hreserved
      split
      · next code _ =>
        have hstretch' : Stretch rules True (context.ownerUserId, claim.objectiveId) db
            { submissions, billing } none :=
          ⟨hadvances, hopen billing, by simp, fun h => absurd trivial h⟩
        have hstanding' := hstretch'.standing standing
        obtain ⟨db', code', hfail, hstretch⟩ := failAttempt_stretch (a :=
          ⟨context.ownerUserId, claim, none⟩) code code (some reservation) input
          hstanding' hs htarget
          (by
            rintro r ⟨⟩ hover hheld
            exact hover (Option.some.inj (hstatus'.symm.trans hheld))) fun h =>
            absurd h (Option.some_ne_none reservation)
        exact ⟨db', .raised code', hfail, .inr (hstretch.after hadvances)⟩
      · refine ⟨_, _, rfl, .inr ⟨hadvances, hopen billing, ?_, fun _ _ _ _ _ _ => by
          simp [ToolOutcome.waiting]⟩⟩
        rintro x ⟨⟩
        refine ⟨rfl, ⟨s, hs, htarget, hcontract⟩, ?_, fun hover hheld => ?_⟩
        · simp [Intake.holdOf, IntakeAttempt.target, hstatus']
        · exact hover (Option.some.inj (hstatus'.symm.trans hheld))

/-- A tool call from the dispatcher's answer on: it is cancelled, or a stretch for its objective. -/
theorem dispatched_stretch (input : IntakeTurn) (standing : Standing rules db)
    {reservation : CreditReservation}
    (h : Waits db (a, reservation)) :
    dispatched rules a reservation input db = (db, none) ∧ input.outcome = .cancelled ∨
      ∃ db' outcome, dispatched rules a reservation input db = (db', some outcome) ∧
        outcome.waiting = none ∧
        Stretch rules (input.projected = false ∨ input.recorded = false) a.target db db' none := by
  obtain ⟨s, hs, htarget, hcontract⟩ := h.submission
  have hfailed (code raised : String) : ∃ db' code',
      failAttempt rules a code raised (some reservation) input db = (db', .raised code') ∧
      Stretch rules (input.projected = false ∨ input.recorded = false) a.target db db' none :=
    failAttempt_stretch code raised (some reservation) input standing hs htarget
      (by rintro r ⟨⟩; exact h.ended) fun h => absurd h (Option.some_ne_none reservation)
  unfold dispatched
  split
  · refine .inr ?_
    rcases accept_cases input.now input.projected hs htarget hcontract with
      ⟨⟨error, haccept⟩, hprojected⟩ | ⟨submissions, haccept, hrewrites, haccepted⟩
    · simp only [haccept]
      exact ⟨db, _, rfl, rfl, .refl _ _, fun s' hs' _ => standing.failed s' hs', by simp,
        fun hcut => absurd (.inl hprojected) hcut⟩
    · simp only [haccept]
      refine ⟨_, _, rfl, rfl, .of_rewrites hrewrites, fun s' hs' htarget' => ?_, by simp,
        fun _ s' hs' htarget' => ?_⟩
      all_goals
        obtain rfl := eq_of_target hs' haccepted (htarget'.trans htarget.symm)
        intro h
        cases h
  · next reason _ =>
    obtain ⟨db', code', hfail, hstretch⟩ := hfailed (IntakeTask.dispatchCode reason)
      "objective_dispatch_failed"
    rw [hfail]
    exact .inr ⟨_, _, rfl, rfl, hstretch⟩
  · next code _ =>
    obtain ⟨db', code', hfail, hstretch⟩ := hfailed code code
    rw [hfail]
    exact .inr ⟨_, _, rfl, rfl, hstretch⟩
  · next hcancelled => exact .inl ⟨rfl, hcancelled⟩

end FirstmateObjectiveTools

end Stretches

section Turns

open FirstmateObjectiveTools

variable {rules : ToolRules} {cut : String × String → Prop} {p : ObjectiveTurns}
  {w : CompletionTask} {tables : GatewayTables} {target : String × String}

/-- What a turn of a task does: it leaves the intake and what the task waits for as they are, or it
is a stretch for the task's objective. -/
inductive TurnEffect (rules : ToolRules) (cut : String × String → Prop) (w : CompletionTask)
    (tables : GatewayTables) : GatewayTables × Option CompletionTask → Prop
  | same (tables' : GatewayTables) (next : Option CompletionTask)
      (intake : tables'.intake = tables.intake) (waiting : ∀ v ∈ next, v.waiting = w.waiting)
      (ends : next = none → ∀ x ∈ w.waiting, cut x.1.target) :
      TurnEffect rules cut w tables (tables', next)
  | stretch (tables' : GatewayTables) (v : CompletionTask) (target : String × String)
      (stretch : Stretch rules.toIntakeRules (cut target) target tables.intake tables'.intake
        v.waiting)
      (own : ∀ x ∈ w.waiting, x.1.target = target) :
      TurnEffect rules cut w tables (tables', some v)

theorem TurnEffect.mono {cut' : String × String → Prop}
    {result : GatewayTables × Option CompletionTask} (h : TurnEffect rules cut w tables result)
    (hcut : ∀ t, cut t → cut' t) : TurnEffect rules cut' w tables result := by
  cases h with
  | same tables' next intake waiting ends =>
    exact .same tables' next intake waiting fun hnone x hx => hcut _ (ends hnone x hx)
  | stretch tables' v target stretch own =>
    exact .stretch tables' v target
      { stretch with settled := fun h => stretch.settled fun h' => h (hcut _ h') } own

/-- A task goes on waiting for what a stretch leaves waiting. -/
theorem CompletionTask.waiting_goOn (task : CompletionTask) (outcome : ToolOutcome) :
    (task.goOn outcome).waiting = outcome.waiting := by
  cases outcome <;> rfl

/-- Turns of the chat service leave the intake alone. -/
theorem onTurn_effect (f : TurnTask → Chat → Chat × Option TurnTask) (w : CompletionTask)
    (tables : GatewayTables) : TurnEffect rules cut w tables (w.onTurn f tables) := by
  unfold CompletionTask.onTurn
  split
  · exact .same _ _ rfl (by simp) (by simp)
  · next hwaiting =>
    refine .same _ _ rfl (fun v hv => ?_) (by simp [hwaiting])
    obtain ⟨turn, -, rfl⟩ := Option.mem_map.mp hv
    rfl

/-- A tool call is a stretch, or leaves the intake alone. -/
theorem execute_effect (standing : Standing rules.toIntakeRules tables.intake)
    (contractJson contextJson : String) (input : IntakeTurn) :
    TurnEffect rules (fun target => w.target rules = target ∧
      (input.projected = false ∨ input.recorded = false)) w tables
      (w.execute rules contractJson contextJson input tables) := by
  unfold CompletionTask.execute
  split
  · next hwaiting _ =>
    obtain ⟨intake, outcome, hsubmit, h⟩ := submitObjective_stretch input standing
      w.context w.invocationKey contractJson contextJson
    simp only [hsubmit]
    rcases h with ⟨rfl, hnone⟩ | hstretch
    · refine .same _ _ rfl (fun v hv => ?_) (by simp)
      obtain rfl := Option.mem_some_iff.mp hv
      rw [w.waiting_goOn, hnone, hwaiting]
    · refine .stretch _ _ (w.target rules) ?_ (by simp [hwaiting])
      rw [w.waiting_goOn]
      exact { hstretch with settled := fun hcut => hstretch.settled fun h => hcut ⟨rfl, h⟩ }
  · exact .same _ _ rfl (by simp) (by simp)

/-- The dispatcher's answer ends a stretch, unless the dispatcher is cancelled. -/
theorem dispatched_effect (standing : Standing rules.toIntakeRules tables.intake)
    (waits : ∀ x ∈ w.waiting, Waits tables.intake x) (input : IntakeTurn) :
    TurnEffect rules (fun target => (∃ x ∈ w.waiting, x.1.target = target) ∧
      (input.outcome = .cancelled ∨ input.projected = false ∨ input.recorded = false))
      w tables (w.dispatched rules input tables) := by
  unfold CompletionTask.dispatched
  split
  · exact .same _ _ rfl (by simp) (by simp)
  next a reservation hwaiting =>
  rcases dispatched_stretch input standing (waits _ hwaiting) with
    ⟨hdispatched, hcancelled⟩ | ⟨intake, outcome, hdispatched, hnone, hstretch⟩
  · simp only [hdispatched]
    exact .same _ _ rfl (by simp) fun _ x hx => ⟨⟨x, hx, rfl⟩, .inl hcancelled⟩
  · simp only [hdispatched]
    refine .stretch _ _ a.target ?_ ?_
    · rw [w.waiting_goOn, hnone]
      have hcut (h : input.projected = false ∨ input.recorded = false) :
          (∃ x ∈ w.waiting, x.1.target = a.target) ∧
            (input.outcome = .cancelled ∨ input.projected = false ∨ input.recorded = false) :=
        ⟨⟨(a, reservation), hwaiting, rfl⟩, .inr h⟩
      exact { hstretch with settled := fun h => hstretch.settled fun h' => h (hcut h') }
    · rw [hwaiting]
      rintro x ⟨⟩
      rfl

/-- The tables stand, and every waiting attempt finds its submission and its reservation. -/
structure TurnsFit (rules : ToolRules) (p : ObjectiveTurns) : Prop where
  standing : Standing rules.toIntakeRules p.shared.intake
  waits : ∀ w ∈ p.workers, ∀ x ∈ w.waiting, Waits p.shared.intake x

/-- If the submission of an objective is open and holds credits, then a task waits for its
dispatcher. -/
def OpenWaits (target : String × String) (p : ObjectiveTurns) : Prop :=
  ∀ s ∈ p.shared.intake.submissions.rows, s.target = target → s.status = .submitting →
    p.shared.intake.holdOf target = some .reserved →
      ∃ w ∈ p.workers, ∃ x ∈ w.waiting, x.1.target = target

/-- A turn of a task keeps the tables standing; it keeps open submissions waiting, unless it cuts
their dispatch off. -/
theorem TurnsFit.turn (fit : TurnsFit rules p) {i : ℕ}
    {f : CompletionTask → GatewayTables → GatewayTables × Option CompletionTask}
    (effect : ∀ w, p.workers[i]? = some w → TurnEffect rules cut w p.shared (f w p.shared)) :
    TurnsFit rules (p.turn i f) ∧
      ∀ t, ¬cut t → OpenWaits t p → OpenWaits t (p.turn i f) := by
  rcases p.turn_cases i f with hturn | ⟨before, w, after, hworkers, hw, hturn⟩
  · rw [hturn]
    exact ⟨fit, fun _ _ => id⟩
  have hwaits : ∀ v, v ∈ before ∨ v = w ∨ v ∈ after → ∀ x ∈ v.waiting,
      Waits p.shared.intake x := fun v hv => fit.waits v (by rw [hworkers]; simpa using hv)
  rw [hturn]
  generalize hresult : f w p.shared = result
  have heffect := effect w hw
  rw [hresult] at heffect
  cases heffect with
  | same tables' next intake waiting ends =>
    refine ⟨⟨intake ▸ fit.standing, fun v hv x hx => ?_⟩,
      fun t hcut hopen s hs hs' hstatus hheld => ?_⟩
    · simp only [List.mem_append, Option.mem_toList] at hv
      rw [intake]
      rcases hv with (hv | hv) | hv
      · exact hwaits v (.inl hv) x hx
      · exact hwaits w (.inr (.inl rfl)) x (waiting v hv ▸ hx)
      · exact hwaits v (.inr (.inr hv)) x hx
    · obtain ⟨v, hv, x, hx, htarget⟩ := hopen s (intake ▸ hs) hs' hstatus (intake ▸ hheld)
      rw [hworkers, List.mem_append, List.mem_cons] at hv
      rcases hv with hv | rfl | hv
      · exact ⟨v, by simp [hv], x, hx, htarget⟩
      · cases next with
        | none => exact absurd (htarget ▸ ends rfl x hx) hcut
        | some u => exact ⟨u, by simp, x, waiting u rfl ▸ hx, htarget⟩
      · exact ⟨v, by simp [hv], x, hx, htarget⟩
  | stretch tables' u target stretch own =>
    refine ⟨⟨stretch.standing fit.standing, fun v hv x hx => ?_⟩,
      fun t hcut hopen s hs hs' hstatus hheld => ?_⟩
    · simp only [List.mem_append, Option.toList_some, List.mem_singleton] at hv
      rcases hv with (hv | rfl) | hv
      · exact (hwaits v (.inl hv) x hx).advance stretch.advances
      · exact (stretch.waits x hx).2
      · exact (hwaits v (.inr (.inr hv)) x hx).advance stretch.advances
    · by_cases htarget : t = target
      · obtain rfl := htarget
        obtain ⟨x, hx⟩ := Option.ne_none_iff_exists'.mp
          (stretch.settled hcut s hs hs' hstatus hheld)
        exact ⟨u, by simp, x, hx, (stretch.waits x hx).1⟩
      · have hold := (stretch.advances.submissions.rows s hs).resolve_right
          fun h => htarget (hs'.symm.trans h)
        obtain ⟨v, hv, x, hx, hown⟩ := hopen s hold hs' hstatus
          (stretch.advances.others _ htarget hheld)
        rw [hworkers, List.mem_append, List.mem_cons] at hv
        rcases hv with hv | rfl | hv
        · exact ⟨v, by simp [hv], x, hx, hown⟩
        · exact absurd (hown.symm.trans (own x hx)) htarget
        · exact ⟨v, by simp [hv], x, hx, hown⟩

/-- A write of the chat tables, or a new task that waits for nothing, keeps the tables standing and
open submissions waiting. -/
theorem TurnsFit.of_same (fit : TurnsFit rules p) {p' : ObjectiveTurns}
    (intake : p'.shared.intake = p.shared.intake)
    (workers : ∃ new, p'.workers = p.workers ++ new ∧ ∀ w ∈ new, w.waiting = none) :
    TurnsFit rules p' ∧ ∀ t, OpenWaits t p → OpenWaits t p' := by
  obtain ⟨new, hworkers, hnew⟩ := workers
  refine ⟨⟨intake ▸ fit.standing, fun w hw x hx => ?_⟩, fun t hopen s hs hs' hstatus hheld => ?_⟩
  · rw [hworkers, List.mem_append] at hw
    rw [intake]
    rcases hw with hw | hw
    · exact fit.waits w hw x hx
    · simp [hnew w hw] at hx
  · obtain ⟨w, hw, hx⟩ := hopen s (intake ▸ hs) hs' hstatus (intake ▸ hheld)
    exact ⟨w, by simp [hworkers, hw], hx⟩

/-- Operations that hold nothing keep the tables standing and open submissions waiting. -/
theorem TurnsFit.billing (fit : TurnsFit rules p) (catalog : BillingCatalog) {op : BillingOp}
    (other : op.HoldsNothing) {p' : ObjectiveTurns}
    (hp : p' = p.write { p.shared with intake := { p.shared.intake with
      billing := billingStep p.shared.intake.billing (catalog, op) } }) :
    TurnsFit rules p' ∧ ∀ t, OpenWaits t p → OpenWaits t p' := by
  have hadvances (target : String × String) : Advances target p.shared.intake p'.shared.intake := by
    rw [hp]
    exact .of_moves (billingStep_moves catalog op p.shared.intake.billing)
      fun owner objective key now hop => absurd hop (other owner objective key now)
  have hheld (t : String × String) (h : p'.shared.intake.holdOf t = some .reserved) :
      p.shared.intake.holdOf t = some .reserved := by
    -- any other objective may be the one that is advanced
    refine (hadvances (t.1 ++ "x", t.2)).others t (fun h => ?_) h
    have hlength := congrArg (fun t => t.1.length) h
    simp at hlength
  have hrows : p'.shared.intake.submissions = p.shared.intake.submissions := by rw [hp]; rfl
  have hworkers : p'.workers = p.workers := by rw [hp]; rfl
  refine ⟨⟨⟨(hadvances ("", "")).objectives fit.standing.objectives, fun s hs hfailed h => ?_⟩,
    fun w hw x hx => ?_⟩, fun t hopen s hs hs' hstatus h => ?_⟩
  · exact fit.standing.failed s (hrows ▸ hs) hfailed (hheld _ h)
  · exact (fit.waits w (hworkers ▸ hw) x hx).advance (hadvances ("", ""))
  · rw [hworkers]
    exact hopen s (hrows ▸ hs) hs' hstatus (hheld _ h)

/-- Every step keeps the tables standing; it keeps open submissions waiting, unless it cuts their
dispatch off. -/
theorem TurnsFit.step (fit : TurnsFit rules p) (step : ObjectiveTurnStep) :
    TurnsFit rules (objectiveTurnStep rules p step) ∧
      ∀ t, ¬step.CutsOff rules t p → OpenWaits t p →
        OpenWaits t (objectiveTurnStep rules p step) := by
  have hturn (i : ℕ) (f : TurnTask → Chat → Chat × Option TurnTask) :
      TurnsFit rules (p.turn i (CompletionTask.onTurn f)) ∧
        ∀ t, ¬False → OpenWaits t p → OpenWaits t (p.turn i (CompletionTask.onTurn f)) :=
    fit.turn fun w _ => onTurn_effect f w p.shared
  have hsame {p' : ObjectiveTurns} (intake : p'.shared.intake = p.shared.intake)
      (workers : ∃ new, p'.workers = p.workers ++ new ∧ ∀ w ∈ new, w.waiting = none) :
      TurnsFit rules p' ∧ ∀ t, ¬False → OpenWaits t p → OpenWaits t p' :=
    ⟨(fit.of_same intake workers).1, fun t _ => (fit.of_same intake workers).2 t⟩
  cases step with
  | submit owner clientMessageId content conversationId source attachments wantsRetry fresh now
      category allowTools explicitConfirmation =>
    simp only [objectiveTurnStep, ObjectiveTurns.submit]
    split
    · exact hsame rfl ⟨[], by simp, by simp⟩
    · split
      · exact hsame rfl ⟨_, rfl, by simp⟩
      · exact hsame rfl ⟨[], by simp [Pool.write], by simp⟩
  | start i now => exact hturn i (TurnTask.start now)
  | complete i content latencyMs toolCalls answer now =>
    exact hturn i (TurnTask.complete content latencyMs toolCalls answer now)
  | raise i errorCode toolCalls => exact hturn i (TurnTask.raise errorCode toolCalls)
  | fail i now => exact hturn i (TurnTask.fail now)
  | close i now => exact hturn i (TurnTask.close now)
  | execute i contractJson contextJson input =>
    refine fit.turn fun w hw => ?_
    exact (execute_effect fit.standing contractJson contextJson input).mono
      fun t hcut => ⟨w, hw, hcut⟩
  | dispatched i input =>
    refine fit.turn fun w hw => ?_
    exact (dispatched_effect fit.standing (fit.waits w (List.mem_of_getElem? hw)) input).mono
      fun t hcut => ⟨w, hw, hcut⟩
  | drop i =>
    exact fit.turn fun w hw => .same _ _ rfl (by simp) fun _ x hx => ⟨w, hw, x, hx, rfl⟩
  | cancel owner clientMessageId now => exact hsame rfl ⟨[], by simp [objectiveTurnStep,
      ObjectiveTurns.writeChat, Pool.write], by simp⟩
  | recover now => exact hsame rfl ⟨[], by simp [objectiveTurnStep,
      ObjectiveTurns.writeChat, Pool.write], by simp⟩
  | billing catalog op other =>
    obtain ⟨hfit, hopen⟩ := fit.billing catalog other rfl
    exact ⟨hfit, fun t _ => hopen t⟩

/-- Nothing is submitted and nothing is held at first. -/
theorem TurnsFit.initial (rules : ToolRules) (userProfiles : List String) :
    TurnsFit rules (ObjectiveTurns.initial userProfiles) where
  standing := ⟨⟨by simp [ObjectiveTurns.initial, Billing.initial],
    by simp [ObjectiveTurns.initial, Billing.initial],
    by simp [ObjectiveTurns.initial, Billing.initial]⟩, by simp [ObjectiveTurns.initial]⟩
  waits := by simp [ObjectiveTurns.initial]

/-- In every state that a run reaches with no task under way, a cancelled turn whose submission is
not accepted holds credits only if its dispatch was cut off and its submission is still open, or if
billing refused to reserve for it again. -/
theorem cancelled_turn_holds (rules : ToolRules) (userProfiles : List String)
    (steps : List ObjectiveTurnStep) :
    let p := run (objectiveTurnStep rules) (.initial userProfiles) steps
    p.workers = [] → ∀ m ∈ p.shared.chat.messages.rows, m.status = .cancelled →
      ∀ s ∈ p.shared.intake.submissions.rows, s.assistantMessageId = m.id → s.status ≠ .accepted →
        p.shared.intake.holdOf s.target = some .reserved →
        s.status = .submitting ∧ ¬RunMeets (objectiveTurnStep rules)
            (fun p step => ¬step.CutsOff rules s.target p) (.initial userProfiles) steps ∨
          s.status = .failed ∧ s.lastErrorCode = some (ObjectiveSubmissionStore.storedCode
            rules.toIntakeRules "billing_account_plan_invalid") := by
  intro p hidle m _ _ s hs _ hopen hheld
  have hfit : TurnsFit rules p := run_invariant' (fun _ step fit => (fit.step step).1) steps
    (.initial rules userProfiles)
  cases hstatus : s.status with
  | accepted => exact absurd hstatus hopen
  | failed => exact .inr ⟨rfl, hfit.standing.failed s hs hstatus hheld⟩
  | submitting =>
    refine .inl ⟨rfl, fun hmeets => ?_⟩
    have hwaits := run_invariant (I := fun p => TurnsFit rules p ∧ OpenWaits s.target p)
      (fun _ step h hcut => ⟨(h.1.step step).1, (h.1.step step).2 _ hcut h.2⟩) hmeets
      ⟨.initial rules userProfiles, by simp [OpenWaits, ObjectiveTurns.initial]⟩
    obtain ⟨w, hw, -⟩ := hwaits.2 s hs rfl hstatus hheld
    rw [show (run (objectiveTurnStep rules) (.initial userProfiles) steps).workers = [] from hidle]
      at hw
    exact absurd hw List.not_mem_nil

end Turns

section Interrupted

/-- Rules that refuse nothing. -/
def openToolRules : ToolRules :=
  { IntakeSample.rules
    with toolInvocationKey := fun owner clientMessageId => owner ++ clientMessageId }

/-- A turn that is cancelled while it waits for the dispatcher. -/
def interruptedTurn : List ObjectiveTurnStep :=
  [.submit "user" "client" "Ship the release." none "text" (.ok []) false
      ⟨"mgc_conversation", "mgt_turn", "mgm_user", "mgm_assistant"⟩ 1 .execution true false,
    .start 0 2,
    .execute 0 "contract" "context" { catalog := Shipped.activated, now := 1704067200 },
    .drop 0,
    .cancel "user" "client" 3]

/-- A turn that is cancelled while it waits for the dispatcher leaves its submission open. -/
theorem cancelled_turn_holds_interrupted :
    let p := run (objectiveTurnStep openToolRules) (.initial ["user"]) interruptedTurn
    ∃ s ∈ p.shared.intake.submissions.rows, p.shared.intake.holdOf s.target = some .reserved ∧
      (s.status = .submitting ∧ ¬RunMeets (objectiveTurnStep openToolRules)
          (fun p step => ¬step.CutsOff openToolRules s.target p) (.initial ["user"])
            interruptedTurn ∨
        s.status = .failed ∧ s.lastErrorCode = some (ObjectiveSubmissionStore.storedCode
          openToolRules.toIntakeRules "billing_account_plan_invalid")) := by
  intro p
  have hreached : p.workers = [] ∧ ∃ m ∈ p.shared.chat.messages.rows, m.status = .cancelled ∧
      ∃ s ∈ p.shared.intake.submissions.rows, s.assistantMessageId = m.id ∧
        s.status ≠ .accepted ∧ p.shared.intake.holdOf s.target = some .reserved := by
    decide
  obtain ⟨hidle, m, hm, hcancelled, s, hs, hturn, hopen, hheld⟩ := hreached
  exact ⟨s, hs, hheld, cancelled_turn_holds openToolRules ["user"] interruptedTurn hidle m hm
    hcancelled s hs hturn hopen hheld⟩

/-- With no task under way a cancelled turn holds credits, and its submission is not accepted. -/
theorem cancelled_turn_reserved :
    let p := run (objectiveTurnStep openToolRules) (.initial ["user"]) interruptedTurn
    p.workers = [] ∧ ∃ m ∈ p.shared.chat.messages.rows, m.status = .cancelled ∧
      ∃ s ∈ p.shared.intake.submissions.rows, s.assistantMessageId = m.id ∧
        s.status ≠ .accepted ∧ p.shared.intake.holdOf s.target = some .reserved := by
  decide

end Interrupted

end Magistrate
