import Magistrate.Gateway.Billing.Operation
import Mathlib.Logic.Relation

/-!
# What a billing operation can do

Every committed operation is a sequence of at most a few movements, each with the
facts its guards established. Invariants are proved once for each movement and
transported here to operations and to runs.
-/

namespace Magistrate

open CreditLedger StripeWebhookProcessor

/-- A write that leaves the amounts and the owner of an account as they were. -/
structure KeepsMoney (f : BillingAccount → BillingAccount) : Prop where
  owner : ∀ a, (f a).ownerUserId = a.ownerUserId
  available : ∀ a, (f a).availableMicrocredits = a.availableMicrocredits
  reserved : ∀ a, (f a).reservedMicrocredits = a.reservedMicrocredits
  spend : ∀ a, (f a).periodSpendMicrocredits = a.periodSpendMicrocredits

/-- An account row without credits. -/
structure Penniless (row : BillingAccount) : Prop where
  available : row.availableMicrocredits = 0
  reserved : row.reservedMicrocredits = 0
  spend : row.periodSpendMicrocredits = 0

/-- One movement of an operation on the billing tables. -/
inductive Move (catalog : BillingCatalog) (op : BillingOp) : Billing → Billing → Prop where
  | insertAccount {db : Billing} (row : BillingAccount)
      (free : db.accounts.find? row.ownerUserId = none) (zero : Penniless row) :
      Move catalog op db { db with accounts := db.accounts.insertOrIgnore row }
  | monthlyGrant {db : Billing} (row : BillingAccount) (plan : Plan) (now : ℤ)
      (account : db.accounts.find? row.ownerUserId = some row)
      (free : db.ledger.find? (monthlyGrantEntry row plan now).key = none) :
      Move catalog op db { db with
        ledger := db.ledger.insertOrIgnore (monthlyGrantEntry row plan now)
        accounts := db.accounts.update row.ownerUserId (afterMonthlyGrant plan now) }
  | reserve {db : Billing} {owner objective key : String} {now : ℤ} (row : BillingAccount)
      (plan : Plan) (reservation : CreditReservation)
      (source : op = .reserveObjective owner objective key now)
      (new : reservation =
        newReservation owner objective key (microcredits plan.objectiveReserveCredits) now)
      (account : db.accounts.find? owner = some row)
      (onPlan : catalog.plans.find? row.catalogId = some plan)
      (freeId : db.reservations.find? reservation.reservationId = none)
      (freeObjective : db.reservationOf owner objective = none)
      (freeKey : db.reservationForKey owner key = none)
      (concurrency : activeReservations db owner < plan.concurrencyLimit)
      (funded : reservation.estimatedMicrocredits ≤ row.availableMicrocredits)
      (limited : row.periodSpendMicrocredits + row.reservedMicrocredits +
        reservation.estimatedMicrocredits ≤ microcredits plan.monthlySpendLimitCredits) :
      Move catalog op db { db with
        reservations := db.reservations.insertOrIgnore reservation
        accounts := db.accounts.update owner
          (afterReserve (row.availableMicrocredits - reservation.estimatedMicrocredits)
            reservation.estimatedMicrocredits now)
        ledger := db.ledger.insertOrIgnore (reservationEntry reservation
          (row.availableMicrocredits - reservation.estimatedMicrocredits) now) }
  | release {db : Billing} {owner objective : String} {now : ℤ} (row : BillingAccount)
      (reservation : CreditReservation)
      (source : op = .releaseObjective owner objective now)
      (found : db.reservationOf owner objective = some reservation)
      (held : reservation.status = .reserved)
      (account : db.accounts.find? owner = some row) :
      Move catalog op db { db with
        reservations := db.reservations.update reservation.reservationId (released now)
        accounts := db.accounts.update owner
          (afterRelease (row.availableMicrocredits + reservation.estimatedMicrocredits)
            reservation.estimatedMicrocredits now)
        ledger := db.ledger.insertOrIgnore (releaseEntry reservation
          (row.availableMicrocredits + reservation.estimatedMicrocredits) now) }
  | settle {db : Billing} {owner objective eventId : String} {measured : Json} {now : ℤ}
      (row : BillingAccount) (reservation : CreditReservation) (usage : Usage) (actual : ℕ)
      (source : op = .settleObjective owner objective measured eventId now)
      (cost : catalog.measuredCost measured = .ok (usage, actual))
      (found : db.reservationOf owner objective = some reservation)
      (held : reservation.status = .reserved)
      (account : db.accounts.find? owner = some row)
      (freeEvent : db.usage.find? (owner, eventId) = none)
      (freeObjective : db.usageOf owner objective = none) :
      Move catalog op db { db with
        reservations := db.reservations.update reservation.reservationId
          (settled usage actual now)
        usage := db.usage.insertOrIgnore (usageRow reservation usage actual eventId now)
        accounts := db.accounts.update owner
          (afterSettle (row.availableMicrocredits + (reservation.estimatedMicrocredits - actual))
            reservation.estimatedMicrocredits actual now)
        ledger := db.ledger.insertOrIgnore (settlementEntry reservation actual eventId
          (row.availableMicrocredits + (reservation.estimatedMicrocredits - actual)) now) }
  | refund {db : Billing} {owner objective key : String} {amount now : ℤ} (row : BillingAccount)
      (reservation : CreditReservation) (actual : ℕ)
      (source : op = .refundObjective owner objective amount key now)
      (positive : 0 < amount)
      (stored : reservation ∈ db.reservations.rows)
      (owned : reservation.ownerUserId = owner)
      (bound : reservation.objectiveId = objective)
      (settled : reservation.status = .settled)
      (cost : reservation.actualMicrocredits = some actual)
      (account : db.accounts.find? owner = some row)
      (free : db.ledger.find? (owner, key) = none)
      (bounded : refunded db owner reservation.reservationId + amount ≤ actual) :
      Move catalog op db { db with
        ledger := db.ledger.insertOrIgnore
          (refundEntry reservation amount key (row.availableMicrocredits + amount) now)
        accounts := db.accounts.update owner
          (afterRefund (row.availableMicrocredits + amount) amount now) }
  | topup {db : Billing} {owner key grantSource : String} {credits now : ℤ}
      (row : BillingAccount)
      (source : op = .addCredits owner credits key grantSource now)
      (account : db.accounts.find? owner = some row)
      (free : db.ledger.find? (owner, key) = none) :
      Move catalog op db { db with
        ledger := db.ledger.insertOrIgnore
          (topupEntry row (microcredits credits.toNat) key grantSource now)
        accounts := db.accounts.update owner
          (afterTopup (row.availableMicrocredits + microcredits credits.toNat) now) }
  | purchase {db : Billing} {owner : String} {now : ℤ} (row : BillingAccount)
      (pack : CreditPack) (event : StripeEvent) (digest : String)
      (fresh : db.webhookEvents.find? event.id = none)
      (account : db.accounts.find? owner = some row) :
      Move catalog op db { db with
        webhookEvents := db.webhookEvents.insertOrIgnore (eventRow event digest now)
        ledger := db.ledger.insertOrIgnore
          (topupEntry row (microcredits pack.credits) (ledgerKey .stripe event.id) "stripe" now)
        accounts := db.accounts.update owner
          (afterTopup (row.availableMicrocredits + microcredits pack.credits) now) }
  | invoicePaid {db : Billing} {now : ℤ} (row : BillingAccount) (plan : Plan)
      (subscriptionId : String) (event : StripeEvent)
      (source : ∃ delivery, op = .process delivery now ∧ delivery.event = .ok event)
      (paid : event.type = "invoice.paid")
      (account : db.accounts.find? row.ownerUserId = some row)
      (onPlan : catalog.plans.find? row.catalogId = some plan) :
      Move catalog op db (invoicePaid row plan subscriptionId event now db)
  | touchAccount {db : Billing} {owner : String} (f : BillingAccount → BillingAccount)
      (keeps : KeepsMoney f) :
      Move catalog op db { db with accounts := db.accounts.update owner f keeps.owner }
  | recordEvent {db : Billing} (event : StripeEvent) (digest : String) (now : ℤ) :
      Move catalog op db (recordEvent event digest now db)
  | recordCheckout {db : Billing} (session : CheckoutSession) :
      Move catalog op db { db with
        checkoutSessions := db.checkoutSessions.insertOrIgnore session }

/-- A sequence of movements of one operation. -/
abbrev Moves (catalog : BillingCatalog) (op : BillingOp) : Billing → Billing → Prop :=
  Relation.ReflTransGen (Move catalog op)

section Accounts

variable {catalog : BillingCatalog} {owner : String} {now : ℤ} {row : BillingAccount}
  {db db' : Billing}

/-- Opening an account inserts an empty row at most. -/
theorem openAccount_moves (op : BillingOp)
    (h : openAccount catalog owner now db = .ok (row, db')) :
    Moves catalog op db db' ∧ db'.accounts.find? owner = some row := by
  unfold openAccount at h
  split at h
  · next found =>
    obtain ⟨rfl, rfl⟩ : _ = row ∧ db = db' := by simpa using h
    exact ⟨.refl, found⟩
  · next free =>
    simp only [bind_eq_ok, raiseIf_eq_ok, pure_eq_ok, Prod.mk.injEq] at h
    obtain ⟨-, -, rfl, rfl⟩ := h
    refine ⟨.single (.insertAccount _ free ⟨rfl, rfl, rfl⟩), ?_⟩
    simp [Table.find?_insertOrIgnore, free, BillingAccount.opened]

/-- The monthly grant inserts its entry and renews the account, or does nothing. -/
theorem monthlyGrant_cases (row : BillingAccount) (plan : Plan) (now : ℤ) (db : Billing) :
    monthlyGrant row plan now db = (row, db) ∨
      db.ledger.find? (monthlyGrantEntry row plan now).key = none ∧
        monthlyGrant row plan now db = (afterMonthlyGrant plan now row, { db with
          ledger := db.ledger.insertOrIgnore (monthlyGrantEntry row plan now)
          accounts := db.accounts.update row.ownerUserId (afterMonthlyGrant plan now) }) := by
  unfold monthlyGrant Billing.insertLedger
  split
  · by_cases free : db.ledger.find? (monthlyGrantEntry row plan now).key = none
    · exact .inr ⟨free, by simp only [free, decide_true]⟩
    · refine .inl ?_
      simp only [free, decide_false]
      rw [Table.insertOrIgnore_of_ne_none free]
  · exact .inl rfl

/-- The monthly grant is one movement at most. -/
theorem monthlyGrant_moves (catalog : BillingCatalog) (op : BillingOp) {plan : Plan}
    {granted : BillingAccount}
    (account : db.accounts.find? row.ownerUserId = some row)
    (h : monthlyGrant row plan now db = (granted, db')) :
    Moves catalog op db db' ∧ db'.accounts.find? row.ownerUserId = some granted ∧
      granted.catalogId = row.catalogId := by
  rcases monthlyGrant_cases row plan now db with hnone | ⟨free, hgrant⟩
  · obtain ⟨rfl, rfl⟩ := Prod.mk.inj (hnone.symm.trans h)
    exact ⟨.refl, account, rfl⟩
  · obtain ⟨rfl, rfl⟩ := Prod.mk.inj (hgrant.symm.trans h)
    refine ⟨.single (.monthlyGrant row plan now account free), ?_, rfl⟩
    rw [Table.find?_update_self, account]
    rfl

/-- Reading an account opens it and grants its month at most, and leaves it on a known plan. -/
theorem account_moves (op : BillingOp) (h : account catalog owner now db = .ok (row, db')) :
    Moves catalog op db db' ∧ db'.accounts.find? owner = some row ∧
      ∃ plan, catalog.plans.find? row.catalogId = some plan := by
  unfold CreditLedger.account at h
  simp only [bind_eq_ok, Prod.exists] at h
  obtain ⟨opened, mid, hopen, h⟩ := h
  obtain ⟨hmoves, hfound⟩ := openAccount_moves op hopen
  obtain rfl : opened.ownerUserId = owner := (Table.mem_of_find? hfound).2
  split at h
  · simp at h
  · next plan onPlan =>
    rw [pure_eq_ok] at h
    obtain ⟨hgrant, hrow, hplan⟩ := monthlyGrant_moves catalog op hfound h
    exact ⟨hmoves.trans hgrant, hrow, plan, hplan ▸ onPlan⟩

/-- Reading an account records no event. -/
theorem account_webhookEvents (h : account catalog owner now db = .ok (row, db')) :
    db'.webhookEvents = db.webhookEvents := by
  have hopen {opened : BillingAccount} {mid : Billing}
      (h : openAccount catalog owner now db = .ok (opened, mid)) :
      mid.webhookEvents = db.webhookEvents := by
    unfold openAccount at h
    split at h
    · obtain ⟨-, rfl⟩ : _ = opened ∧ db = mid := by simpa using h
      rfl
    · simp only [bind_eq_ok, raiseIf_eq_ok, pure_eq_ok, Prod.mk.injEq] at h
      obtain ⟨-, -, -, rfl⟩ := h
      rfl
  have hgrant (opened : BillingAccount) (plan : Plan) (mid : Billing) :
      (monthlyGrant opened plan now mid).2.webhookEvents = mid.webhookEvents := by
    rcases monthlyGrant_cases opened plan now mid with h | ⟨-, h⟩ <;> rw [h]
  unfold CreditLedger.account at h
  simp only [bind_eq_ok, Prod.exists] at h
  obtain ⟨opened, mid, ho, h⟩ := h
  split at h
  · simp at h
  · next plan _ =>
    rw [pure_eq_ok] at h
    rw [← hopen ho, ← hgrant opened plan mid, h]

end Accounts

section Operations

variable {catalog : BillingCatalog} {op : BillingOp} {owner objective key : String} {now : ℤ}
  {db db' : Billing}

/-- A reservation of an objective that is found carries its owner and its objective. -/
theorem of_reservationOf {r : CreditReservation} (h : db.reservationOf owner objective = some r) :
    r ∈ db.reservations.rows ∧ r.ownerUserId = owner ∧ r.objectiveId = objective := by
  have hp := List.find?_some h
  simp only [Bool.decide_and, Bool.and_eq_true, decide_eq_true_eq] at hp
  exact ⟨List.mem_of_find?_eq_some h, hp⟩

/-- A settled reservation of an objective that is found is one. -/
theorem of_settledReservationOf {r : CreditReservation}
    (h : db.settledReservationOf owner objective = some r) :
    r ∈ db.reservations.rows ∧ r.ownerUserId = owner ∧ r.objectiveId = objective ∧
      r.status = .settled := by
  have hp := List.find?_some h
  simp only [Bool.decide_and, Bool.and_eq_true, decide_eq_true_eq] at hp
  exact ⟨List.mem_of_find?_eq_some h, hp⟩

/-- Finishing a reservation finishes it where its objective finds it. -/
theorem reservationOf_update {id : String} {g : CreditReservation → CreditReservation}
    (hg : ∀ r, (g r).reservationId = r.reservationId)
    (hfields : ∀ r, (g r).ownerUserId = r.ownerUserId ∧ (g r).objectiveId = r.objectiveId)
    (h : db'.reservations = db.reservations.update id g hg) (owner objective : String) :
    db'.reservationOf owner objective = (db.reservationOf owner objective).map fun r =>
      if r.reservationId = id then g r else r := by
  simp only [Billing.reservationOf, h, Table.rows_update, List.find?_map]
  congr 2
  funext r
  by_cases hr : r.reservationId = id <;> simp [hr, hfields]

/-- Inserting a reservation requires all of its unique keys to be free. -/
theorem insertReservation_eq_ok {r : CreditReservation} :
    db.insertReservation r = .ok db' ↔
      db.reservations.find? r.reservationId = none ∧
        db.reservationOf r.ownerUserId r.objectiveId = none ∧
        db.reservationForKey r.ownerUserId r.idempotencyKey = none ∧
        { db with reservations := db.reservations.insertOrIgnore r } = db' := by
  simp only [Billing.insertReservation, bind_eq_ok, raiseIf_eq_ok, pure_eq_ok, exists_const,
    not_not]

/-- Inserting a usage row requires both of its unique keys to be free. -/
theorem insertUsage_eq_ok {u : UsageRow} :
    db.insertUsage u = .ok db' ↔
      db.usage.find? u.key = none ∧ db.usageOf u.ownerUserId u.objectiveId = none ∧
        { db with usage := db.usage.insertOrIgnore u } = db' := by
  simp only [Billing.insertUsage, bind_eq_ok, raiseIf_eq_ok, pure_eq_ok, exists_const, not_not]

/-- A summary only reads the account. -/
theorem summary_moves {result : BillingSummary}
    (h : summary catalog owner now db = .ok (result, db')) : Moves catalog op db db' := by
  simp only [summary, bind_eq_ok, Prod.exists, pure_eq_ok, Prod.mk.injEq] at h
  obtain ⟨row, mid, hacc, plan, -, -, rfl⟩ := h
  exact (account_moves _ hacc).1

/-- A reservation reads the account, and then holds the estimate of a new objective on the
account's plan or finds the one made before. -/
theorem reserveObjective_cases {result : CreditReservation}
    (h : reserveObjective catalog owner objective key now db = .ok (result, db')) :
    ∃ row mid, account catalog owner now db = .ok (row, mid) ∧
      (mid = db' ∨ Move catalog (.reserveObjective owner objective key now) mid db' ∧
        ∃ row', db'.accounts.find? owner = some row' ∧ row'.catalogId = row.catalogId) := by
  simp only [reserveObjective, bind_eq_ok, Prod.exists, BillingCatalog.plan_eq_ok] at h
  obtain ⟨row, mid, hacc, plan, onPlan, h⟩ := h
  obtain ⟨-, account, -⟩ := account_moves (.summary owner now) hacc
  refine ⟨row, mid, hacc, ?_⟩
  split at h
  · simp only [bind_eq_ok, raiseIf_eq_ok, pure_eq_ok, exists_const, Prod.mk.injEq] at h
    exact .inl h.2.2
  · next freeKey =>
    simp only [bind_eq_ok, raiseIf_eq_ok, pure_eq_ok, exists_const, Prod.mk.injEq,
      insertReservation_eq_ok, Billing.insertLedger] at h
    obtain ⟨-, concurrency, funded, limited, _, ⟨freeId, freeObjective, -, rfl⟩, -, rfl⟩ := h
    refine .inr ⟨.reserve row plan _ rfl rfl account onPlan freeId freeObjective freeKey
      (by omega) (by simp only [newReservation]; omega) (by simp only [newReservation]; omega), ?_⟩
    refine ⟨afterReserve (row.availableMicrocredits - microcredits plan.objectiveReserveCredits)
      (microcredits plan.objectiveReserveCredits) now row, ?_, rfl⟩
    rw [Table.find?_update_self, account]
    rfl

/-- A reservation is a sequence of movements. -/
theorem reserveObjective_moves {result : CreditReservation}
    (h : reserveObjective catalog owner objective key now db = .ok (result, db')) :
    Moves catalog (.reserveObjective owner objective key now) db db' := by
  obtain ⟨row, mid, hacc, rfl | ⟨move, -⟩⟩ := reserveObjective_cases h
  · exact (account_moves _ hacc).1
  · exact (account_moves _ hacc).1.tail move

/-- A release gives back the estimate of a held reservation, or does nothing. -/
theorem releaseObjective_moves {result : Bool}
    (h : releaseObjective owner objective now db = .ok (result, db')) :
    Moves catalog (.releaseObjective owner objective now) db db' := by
  unfold releaseObjective at h
  split at h
  · obtain ⟨-, rfl⟩ : false = result ∧ db = db' := by simpa using h
    exact .refl
  · next reservation found =>
    split at h
    · obtain ⟨-, rfl⟩ : false = result ∧ db = db' := by simpa using h
      exact .refl
    · next held =>
      split at h
      · simp at h
      · next row account =>
        simp only [Billing.insertLedger, Except.ok.injEq, Prod.mk.injEq] at h
        obtain ⟨-, rfl⟩ := h
        exact .single (.release row reservation rfl found (by simpa using held) account)

/-- A settlement charges a held reservation, or finds itself made before. -/
theorem settleObjective_cases {measured : Json} {eventId : String} {result : CreditReservation}
    (h : settleObjective catalog owner objective measured eventId now db = .ok (result, db')) :
    db = db' ∨ ∃ row reservation usage actual,
      catalog.measuredCost measured = .ok (usage, actual) ∧
      db.reservationOf owner objective = some reservation ∧ reservation.status = .reserved ∧
      db.accounts.find? owner = some row ∧ db.usage.find? (owner, eventId) = none ∧
      db.usageOf owner objective = none ∧
      { db with
        reservations := db.reservations.update reservation.reservationId
          (settled usage actual now)
        usage := db.usage.insertOrIgnore (usageRow reservation usage actual eventId now)
        accounts := db.accounts.update owner
          (afterSettle (row.availableMicrocredits + (reservation.estimatedMicrocredits - actual))
            reservation.estimatedMicrocredits actual now)
        ledger := db.ledger.insertOrIgnore (settlementEntry reservation actual eventId
          (row.availableMicrocredits + (reservation.estimatedMicrocredits - actual)) now) } =
        db' := by
  simp only [settleObjective, bind_eq_ok, Prod.exists] at h
  obtain ⟨usage, actual, cost, h⟩ := h
  split at h
  · simp at h
  · next reservation found =>
    split at h
    · simp only [bind_eq_ok, raiseIf_eq_ok, pure_eq_ok, exists_const, Prod.mk.injEq] at h
      exact .inl h.2.2
    · simp at h
    · next held =>
      split at h
      · simp at h
      · next row account =>
        simp only [bind_eq_ok, pure_eq_ok, Prod.mk.injEq, insertUsage_eq_ok,
          Billing.insertLedger] at h
        obtain ⟨_, ⟨freeEvent, freeObjective, rfl⟩, -, rfl⟩ := h
        obtain ⟨-, rfl, rfl⟩ := of_reservationOf found
        exact .inr ⟨row, reservation, usage, actual, cost, found, held, account, freeEvent,
          freeObjective, rfl⟩

/-- A settlement is one movement at most. -/
theorem settleObjective_moves {measured : Json} {eventId : String} {result : CreditReservation}
    (h : settleObjective catalog owner objective measured eventId now db = .ok (result, db')) :
    Moves catalog (.settleObjective owner objective measured eventId now) db db' := by
  rcases settleObjective_cases h with rfl |
    ⟨row, reservation, usage, actual, cost, found, held, account, freeEvent, freeObjective, rfl⟩
  · exact .refl
  · exact .single (.settle row reservation usage actual rfl cost found held account freeEvent
      freeObjective)

/-- A refund credits part of a settled cost, or finds itself made before. -/
theorem refundObjective_moves {amount : ℤ} {result : Bool}
    (h : refundObjective owner objective amount key now db = .ok (result, db')) :
    Moves catalog (.refundObjective owner objective amount key now) db db' := by
  simp only [refundObjective, bind_eq_ok, raiseIf_eq_ok, exists_const] at h
  obtain ⟨positive, h⟩ := h
  split at h
  · simp at h
  · next reservation found =>
    split at h
    · simp at h
    · next actual cost =>
      simp only [bind_eq_ok, raiseIf_eq_ok, exists_const] at h
      obtain ⟨-, h⟩ := h
      split at h
      · simp only [bind_eq_ok, raiseIf_eq_ok, pure_eq_ok, exists_const, Prod.mk.injEq] at h
        obtain ⟨-, -, rfl⟩ := h
        exact .refl
      · next free =>
        simp only [bind_eq_ok, raiseIf_eq_ok, exists_const] at h
        obtain ⟨bounded, h⟩ := h
        split at h
        · simp at h
        · next row account =>
          simp only [Billing.insertLedger, pure_eq_ok, Prod.mk.injEq] at h
          obtain ⟨-, rfl⟩ := h
          obtain ⟨stored, owned, bound, settled⟩ := of_settledReservationOf found
          exact .single (.refund row reservation actual rfl (by omega) stored owned bound settled
            cost account free (by omega))

/-- Added credits are posted under a free key, or found posted before. -/
theorem addCredits_moves {credits : ℤ} {grantSource : String} {result : Bool}
    (h : addCredits catalog owner credits key grantSource now db = .ok (result, db')) :
    Moves catalog (.addCredits owner credits key grantSource now) db db' := by
  simp only [addCredits, bind_eq_ok, raiseIf_eq_ok, exists_const, Prod.exists] at h
  obtain ⟨-, row, mid, hacc, h⟩ := h
  obtain ⟨hmoves, account, -⟩ :=
    account_moves (.addCredits owner credits key grantSource now) hacc
  refine hmoves.trans ?_
  split at h
  · simp only [bind_eq_ok, raiseIf_eq_ok, pure_eq_ok, exists_const, Prod.mk.injEq] at h
    obtain ⟨-, -, rfl⟩ := h
    exact .refl
  · next free =>
    simp only [Billing.insertLedger, pure_eq_ok, Prod.mk.injEq] at h
    obtain ⟨-, rfl⟩ := h
    exact .single (.topup row rfl account free)

end Operations

section Webhooks

variable {catalog : BillingCatalog} {op : BillingOp} {event : StripeEvent} {digest : String}
  {now : ℤ} {db db' : Billing}

/-- Opening an account does not look at the recorded events. -/
theorem openAccount_recordEvent (owner : String) :
    openAccount catalog owner now (recordEvent event digest now db) =
      (openAccount catalog owner now db).map fun result =>
        (result.1, recordEvent event digest now result.2) := by
  unfold openAccount recordEvent
  cases db.accounts.find? owner with
  | some row => rfl
  | none =>
    by_cases known : owner ∈ db.userProfiles
    · simp [known, raiseIf, bind, Except.bind, pure, Except.pure, Except.map]
    · simp [known, raiseIf, bind, Except.bind, Except.map]

/-- The monthly grant does not look at the recorded events. -/
theorem monthlyGrant_recordEvent (row : BillingAccount) (plan : Plan) :
    monthlyGrant row plan now (recordEvent event digest now db) =
      ((monthlyGrant row plan now db).1,
        recordEvent event digest now (monthlyGrant row plan now db).2) := by
  unfold monthlyGrant recordEvent Billing.insertLedger
  split
  · by_cases free : db.ledger.find? (monthlyGrantEntry row plan now).key = none
    · simp [free]
    · simp [free]
  · rfl

/-- Reading an account does not look at the recorded events. -/
theorem account_recordEvent (owner : String) :
    account catalog owner now (recordEvent event digest now db) =
      (account catalog owner now db).map fun result =>
        (result.1, recordEvent event digest now result.2) := by
  unfold CreditLedger.account
  rw [openAccount_recordEvent]
  cases openAccount catalog owner now db with
  | error e => rfl
  | ok opened =>
    simp only [Except.map, bind, Except.bind]
    cases catalog.plans.find? opened.1.catalogId with
    | none => rfl
    | some plan => simp [monthlyGrant_recordEvent, pure, Except.pure]

/-- A recorded purchase opens the buyer's account at most and posts the pack. -/
theorem purchase_moves (fresh : db.webhookEvents.find? event.id = none)
    (h : purchase catalog event now (recordEvent event digest now db) = .ok db') :
    Moves catalog op db db' := by
  unfold purchase at h
  split at h
  · simp at h
  · next session _ =>
    simp only [bind_eq_ok, raiseIf_eq_ok, exists_const] at h
    obtain ⟨-, h⟩ := h
    split at h
    · simp at h
    · next pack _ =>
      simp only [bind_eq_ok, Prod.exists, account_recordEvent] at h
      obtain ⟨row, recorded, hacc, h⟩ := h
      cases hread : account catalog session.ownerUserId now db with
      | error e => simp [hread, Except.map] at hacc
      | ok result =>
        obtain ⟨row', mid⟩ := result
        simp only [hread, Except.map, Except.ok.injEq, Prod.mk.injEq] at hacc
        obtain ⟨rfl, rfl⟩ := hacc
        obtain ⟨hmoves, account, -⟩ := account_moves op hread
        simp only [Billing.insertLedger, pure_eq_ok] at h
        subst h
        refine hmoves.trans (.single ?_)
        exact .purchase row' pack event digest (account_webhookEvents hread ▸ fresh) account

/-- A subscription event opens its account at most and writes no amount. -/
theorem subscription_moves (h : subscription catalog event now db = .ok db') :
    Moves catalog op db db' := by
  simp only [subscription, bind_eq_ok, Prod.exists] at h
  obtain ⟨owner, subscriptionId, -, plan, -, row, mid, hacc, h⟩ := h
  refine (account_moves _ hacc).1.trans ?_
  split at h
  · rw [pure_eq_ok] at h
    exact h ▸ .refl
  · simp only [bind_eq_ok, raiseIf_eq_ok, pure_eq_ok, exists_const] at h
    obtain ⟨-, -, rfl⟩ := h
    refine .single (.touchAccount _ ?_)
    exact ⟨fun _ => rfl, fun _ => rfl, fun _ => rfl, fun _ => rfl⟩

/-- An invoice event is one movement at most. -/
theorem invoice_moves (source : ∃ delivery, op = .process delivery now ∧ delivery.event = .ok event)
    (kind : event.type = "invoice.paid" ∨ event.type = "invoice.payment_failed")
    (h : invoice catalog event now db = .ok db') : Moves catalog op db db' := by
  unfold invoice at h
  split at h
  · obtain rfl : db = db' := by simpa using h
    exact .refl
  · next subscriptionId _ =>
    split at h
    · simp at h
    · next row found =>
      have account : db.accounts.find? row.ownerUserId = some row :=
        Table.find?_of_mem (List.mem_of_find?_eq_some found)
      split at h
      · obtain rfl : db = db' := by simpa using h
        exact .refl
      · split at h
        · simp at h
        · next plan onPlan =>
          split at h
          · simp at h
          · split at h
            · obtain rfl := Except.ok.inj h
              refine .single (.touchAccount _ ?_)
              exact ⟨fun _ => rfl, fun _ => rfl, fun _ => rfl, fun _ => rfl⟩
            · next notFailed =>
              obtain rfl := Except.ok.inj h
              exact .single (.invoicePaid row plan subscriptionId event source
                (kind.resolve_right notFailed) account onPlan)

/-- A new event is recorded and applied. -/
theorem dispatch_moves (fresh : db.webhookEvents.find? event.id = none)
    (source : ∃ delivery, op = .process delivery now ∧ delivery.event = .ok event)
    (h : dispatch catalog event now (recordEvent event digest now db) = .ok db') :
    Moves catalog op db db' := by
  have hrecord : Moves catalog op db (recordEvent event digest now db) :=
    .single (.recordEvent event digest now)
  unfold dispatch at h
  split at h
  · exact purchase_moves fresh h
  · split at h
    · exact hrecord.trans (subscription_moves h)
    · split at h
      · next kind => exact hrecord.trans (invoice_moves source kind h)
      · obtain rfl := Except.ok.inj h
        exact hrecord

/-- A delivery is processed once for its event. -/
theorem process_moves {delivery : WebhookDelivery} {status : WebhookStatus}
    (h : process catalog delivery now db = .ok (status, db')) :
    Moves catalog (.process delivery now) db db' := by
  simp only [process, bind_eq_ok] at h
  obtain ⟨event, hevent, h⟩ := h
  split at h
  · simp only [bind_eq_ok, raiseIf_eq_ok, pure_eq_ok, exists_const, Prod.mk.injEq] at h
    obtain ⟨-, -, rfl⟩ := h
    exact .refl
  · next fresh =>
    simp only [bind_eq_ok, pure_eq_ok, Prod.mk.injEq] at h
    obtain ⟨_, hdispatch, -, rfl⟩ := h
    exact dispatch_moves fresh ⟨delivery, rfl, hevent⟩ hdispatch

/-- The pre-catalog endpoint inserts an empty account or writes no amount. -/
theorem upsert_moves {owner : String} {columns : LegacyWebhook.Upsert}
    (h : LegacyWebhook.upsert owner columns now db = .ok db') : Moves catalog op db db' := by
  simp only [LegacyWebhook.upsert, bind_eq_ok, raiseIf_eq_ok, exists_const] at h
  obtain ⟨-, h⟩ := h
  split at h
  · next free =>
    rw [pure_eq_ok] at h
    exact h ▸ .single (.insertAccount _ free ⟨rfl, rfl, rfl⟩)
  · rw [pure_eq_ok] at h
    subst h
    refine .single (.touchAccount _ ?_)
    exact ⟨fun _ => rfl, fun _ => rfl, fun _ => rfl, fun _ => rfl⟩

/-- A delivery to the pre-catalog endpoint never moves credits. -/
theorem accept_moves {delivery : WebhookDelivery} {status : WebhookStatus}
    (h : LegacyWebhook.accept delivery now db = .ok (status, db')) :
    Moves catalog op db db' := by
  simp only [LegacyWebhook.accept, bind_eq_ok] at h
  obtain ⟨event, -, h⟩ := h
  split at h
  · simp only [bind_eq_ok, raiseIf_eq_ok, pure_eq_ok, exists_const, Prod.mk.injEq] at h
    obtain ⟨-, -, rfl⟩ := h
    exact .refl
  · simp only [bind_eq_ok, pure_eq_ok, Prod.mk.injEq] at h
    obtain ⟨mid, happly, -, rfl⟩ := h
    refine Relation.ReflTransGen.tail ?_ (.recordEvent event delivery.payloadSha256 now)
    unfold LegacyWebhook.applyEvent at happly
    split at happly
    · split at happly
      · exact upsert_moves happly
      · exact Except.ok.inj happly ▸ .refl
    · exact Except.ok.inj happly ▸ .refl

end Webhooks

section Steps

variable {catalog : BillingCatalog} {op : BillingOp} {db db' : Billing}

/-- Binding a customer opens the account at most and writes no amount. -/
theorem bindCustomer_moves {owner customer result : String} {now : ℤ}
    (h : BillingService.bindCustomer catalog owner customer now db = .ok (result, db')) :
    Moves catalog op db db' := by
  simp only [BillingService.bindCustomer, bind_eq_ok, raiseIf_eq_ok, pure_eq_ok, exists_const,
    Prod.exists, Prod.mk.injEq] at h
  obtain ⟨row, mid, hacc, -, -, rfl⟩ := h
  refine (account_moves _ hacc).1.tail (.touchAccount _ ?_)
  exact ⟨fun _ => rfl, fun _ => rfl, fun _ => rfl, fun _ => rfl⟩

/-- Recording a checkout writes its own table only. -/
theorem recordCheckout_moves {session : CheckoutSession}
    (h : BillingService.recordCheckout session db = .ok db') : Moves catalog op db db' := by
  simp only [BillingService.recordCheckout] at h
  split at h
  · exact Except.ok.inj h ▸ .single (.recordCheckout session)
  · simp only [bind_eq_ok, raiseIf_eq_ok, pure_eq_ok, exists_const] at h
    exact h.2 ▸ .refl

/-- An operation that returns is a sequence of movements. -/
theorem apply_moves (h : op.apply catalog db = .ok db') : Moves catalog op db db' := by
  cases op <;> simp only [BillingOp.apply, stateOf_eq_ok] at h
  case summary => exact summary_moves h.choose_spec
  case reserveObjective => exact reserveObjective_moves h.choose_spec
  case releaseObjective => exact releaseObjective_moves h.choose_spec
  case settleObjective => exact settleObjective_moves h.choose_spec
  case refundObjective => exact refundObjective_moves h.choose_spec
  case addCredits => exact addCredits_moves h.choose_spec
  case process => exact process_moves h.choose_spec
  case acceptWebhook => exact accept_moves h.choose_spec
  case bindCustomer => exact bindCustomer_moves h.choose_spec
  case recordCheckout => exact recordCheckout_moves h

/-- A committed step is a sequence of movements; a raise is the empty one. -/
theorem billingStep_moves (catalog : BillingCatalog) (op : BillingOp) (db : Billing) :
    Moves catalog op db (billingStep db (catalog, op)) :=
  commit_of (P := fun db' => Moves catalog op db db') .refl fun _ h => apply_moves h

/-- What every movement preserves, a sequence of movements preserves. -/
theorem Moves.preserve {I : Billing → Prop}
    (hmove : ∀ {db db'}, Move catalog op db db' → I db → I db')
    (h : Moves catalog op db db') (hdb : I db) : I db' := by
  induction h with
  | refl => exact hdb
  | tail _ move ih => exact hmove move ih

end Steps

end Magistrate
