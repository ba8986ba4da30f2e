import Magistrate.Gateway.Billing.Accounting
import Magistrate.Gateway.Billing.Shipped

/-!
# Admission caps

While an account stays on one plan, its held reservations respect the plan's
concurrency limit, and its balance and its spend respect the plan's caps up to
the overruns of settled executions. The caps are checked when credits are held
and survive everything that moves the amounts afterwards.
-/

namespace Magistrate

open CreditLedger StripeWebhookProcessor

/-- The caps of a plan hold of an owner's wallet and reservations. -/
structure Admitted (plan : Plan) (db : Billing) (owner : String) : Prop where
  concurrency : activeReservations db owner ≤ plan.concurrencyLimit
  capped : (db.wallet owner).Capped (microcredits plan.monthlySpendLimitCredits : ℤ)
    (db.overrun owner)

/-- An owner's account, once opened, is on a plan. -/
def OnPlan (db : Billing) (owner id : String) : Prop :=
  ∀ row ∈ db.accounts.find? owner, row.catalogId = id

instance (db : Billing) (owner id : String) : Decidable (OnPlan db owner id) :=
  inferInstanceAs (Decidable (∀ row ∈ db.accounts.find? owner, row.catalogId = id))

section Moves

variable {catalog : BillingCatalog} {op : BillingOp} {db db' : Billing} {owner : String}
  {plan : Plan}

/-- Overruns are not negative. -/
theorem Billing.overrun_nonneg (db : Billing) (owner : String) : 0 ≤ db.overrun owner := by
  refine List.sum_nonneg fun x hx => ?_
  obtain ⟨r, -, rfl⟩ := List.mem_map.mp hx
  exact le_max_left _ _

/-- Finishing a reservation never adds a held one. -/
theorem countP_update_le {t : Table CreditReservation.reservationId} {id : String}
    {g : CreditReservation → CreditReservation}
    (hg : ∀ r, (g r).reservationId = r.reservationId) (hstatus : ∀ r, (g r).status ≠ .reserved) :
    ((t.update id g hg).rows.countP fun r => r.ownerUserId = owner ∧ r.status = .reserved) ≤
      t.rows.countP fun r => r.ownerUserId = owner ∧ r.status = .reserved := by
  rw [Table.rows_update, List.countP_map]
  refine List.countP_mono_left fun r _ h => ?_
  by_cases hid : r.reservationId = id
  · simp [hid, hstatus] at h
  · simpa [hid] using h

/-- A movement adds a held reservation only where the plan admits it. -/
theorem Move.activeReservations (h : Move catalog op db db') (owner : String) :
    activeReservations db' owner ≤ activeReservations db owner ∨
      ∃ objective key now row plan, op = .reserveObjective owner objective key now ∧
        db.accounts.find? owner = some row ∧ catalog.plans.find? row.catalogId = some plan ∧
        CreditLedger.activeReservations db' owner ≤ plan.concurrencyLimit := by
  cases h with
  | insertAccount | monthlyGrant | refund | topup | purchase | invoicePaid | touchAccount
  | recordEvent | recordCheckout => exact .inl le_rfl
  | release => exact .inl (countP_update_le (g := released _) (fun _ => rfl) (by simp))
  | settle => exact .inl (countP_update_le (g := settled _ _ _) (fun _ => rfl) (by simp))
  | @reserve who objective key now row plan reservation source new account onPlan freeId _ _
      concurrency =>
    have hcount : CreditLedger.activeReservations { db with
        reservations := db.reservations.insertOrIgnore reservation } owner =
        CreditLedger.activeReservations db owner + if who = owner then 1 else 0 := by
      subst new
      simp only [CreditLedger.activeReservations, Table.rows_insertOrIgnore freeId,
        List.countP_append]
      by_cases h : who = owner <;> simp [newReservation, h]
    by_cases h : who = owner
    · subst h
      refine .inr ⟨objective, key, now, row, plan, source, account, onPlan, ?_⟩
      refine hcount.le.trans ?_
      simp only [if_true]
      omega
    · exact .inl (hcount.le.trans (by simp [h]))

/-- A movement respects the caps if a hold of the owner is made on the plan. -/
theorem Admitted.move (admitted : Admitted plan db owner) (h : Move catalog op db db')
    (onPlan : ∀ objective key now row p, op = .reserveObjective owner objective key now →
      db.accounts.find? owner = some row → catalog.plans.find? row.catalogId = some p →
      p = plan) : Admitted plan db' owner := by
  refine ⟨?_, ?_⟩
  · rcases h.activeReservations owner with hle | ⟨_, _, _, row, p, source, hrow, hp, hle⟩
    · exact hle.trans admitted.concurrency
    · exact onPlan _ _ _ _ _ source hrow hp ▸ hle
  · obtain ⟨who, p, entry, effect⟩ := h.effect
    rw [effect.wallet, effect.overrun]
    by_cases howner : owner = who
    · subst howner
      simp only [if_true]
      refine admitted.capped.apply (Billing.overrun_nonneg db owner) ?_
      by_cases hold : ∃ estimate, p = .hold estimate
      · obtain ⟨estimate, hp⟩ := hold
        obtain ⟨_, _, _, row, q, source, hrow, hq, hwithin⟩ := effect.hold estimate hp
        exact onPlan _ _ _ _ _ source hrow hq ▸ hwithin
      · exact effect.within (not_exists.mp hold) _
    · simpa [howner] using admitted.capped

/-- Movements of an operation that reserves nothing for the owner respect the caps. -/
theorem Admitted.moves (admitted : Admitted plan db owner) (h : Moves catalog op db db')
    (hop : ∀ objective key now, op ≠ .reserveObjective owner objective key now) :
    Admitted plan db' owner :=
  h.preserve (I := fun db => Admitted plan db owner)
    (fun move admitted => admitted.move move fun _ _ _ _ _ source => absurd source (hop _ _ _))
    admitted

/-- A step that leaves the owner on the plan respects the caps. -/
theorem Admitted.step (admitted : Admitted plan db owner)
    (listed : catalog.plans.find? plan.id = some plan)
    (onPlan : OnPlan (billingStep db (catalog, op)) owner plan.id) :
    Admitted plan (billingStep db (catalog, op)) owner := by
  by_cases hop : ∃ objective key now, op = .reserveObjective owner objective key now
  · obtain ⟨objective, key, now, rfl⟩ := hop
    unfold billingStep at onPlan ⊢
    cases happly : BillingOp.apply catalog db (.reserveObjective owner objective key now) with
    | error e => exact admitted
    | ok db' =>
      rw [happly, commit_ok] at onPlan
      rw [commit_ok]
      obtain ⟨result, h⟩ := stateOf_eq_ok.mp happly
      obtain ⟨row, mid, hacc, hcases⟩ := reserveObjective_cases h
      obtain ⟨hmoves, account, -⟩ := account_moves (.summary owner now) hacc
      have hmid : Admitted plan mid owner := admitted.moves hmoves (by simp)
      rcases hcases with rfl | ⟨move, row', hrow', hplan⟩
      · exact hmid
      · refine hmid.move move fun _ _ _ r p _ hr hp => ?_
        obtain rfl : row = r := by simpa [account] using hr
        have hid : row.catalogId = plan.id := hplan ▸ onPlan row' hrow'
        rw [hid, listed] at hp
        exact (Option.some.inj hp).symm
  · exact admitted.moves (billingStep_moves catalog op db)
      fun objective key now h => hop ⟨objective, key, now, h⟩

/-- The caps hold of a new database. -/
theorem Admitted.initial (plan : Plan) (userProfiles : List String) (owner : String) :
    Admitted plan (Billing.initial userProfiles) owner where
  concurrency := Nat.zero_le _
  capped := ⟨le_rfl, le_rfl, by
    simp [Billing.wallet, Billing.overrun, Billing.initial]⟩

end Moves

end Magistrate
