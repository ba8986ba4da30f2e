import Magistrate.Gateway.Billing.Accounting
import Magistrate.Gateway.Billing.Shipped
import Mathlib.Data.List.Induction

/-!
# The spend of a period

What the tables of two states say was committed between them: grants, settlements
and refunds. An account's period spend is the fold of what was committed since
its last grant, as long as no paid invoice resets it without granting anything.
-/

namespace Magistrate

open CreditLedger StripeWebhookProcessor

/-- A committed write that bears on the spend of a period. -/
inductive SpendEvent where
  | granted
  | settled (actual : ℕ)
  | refunded (amount : ℤ)
  deriving DecidableEq, Repr

namespace SpendEvent

/-- The spend after an event. -/
def apply (spend : ℤ) : SpendEvent → ℤ
  | granted => 0
  | settled actual => spend + actual
  | refunded amount => max 0 (spend - amount)

/-- The events after the last grant. -/
def sinceLastGrant (events : List SpendEvent) : List SpendEvent :=
  (events.reverse.takeWhile (· ≠ granted)).reverse

/-- The fold of the settlements and the refunds after the last grant. -/
def periodSpend (events : List SpendEvent) : ℤ := (sinceLastGrant events).foldl apply 0

/-- A grant starts the fold anew. -/
theorem periodSpend_eq_foldl (events : List SpendEvent) :
    periodSpend events = events.foldl apply 0 := by
  induction events using List.reverseRecOn with
  | nil => rfl
  | append_singleton events e ih =>
    rw [List.foldl_append, ← ih]
    by_cases h : e = granted
    · subst h
      simp [periodSpend, sinceLastGrant, apply]
    · simp [periodSpend, sinceLastGrant, h]

end SpendEvent

/-- What a new ledger entry says about an owner's spend. -/
def entryEvent (owner : String) (e : LedgerEntry) : Option SpendEvent :=
  if e.ownerUserId = owner then
    match e.entryType with
    | .includedGrant => some .granted
    | .refund => some (.refunded e.amountMicrocredits)
    | _ => none
  else none

/-- A reservation settled between two states. -/
def settlementEvent (before : Billing) (owner : String) (r : CreditReservation) :
    Option SpendEvent :=
  if r.ownerUserId = owner ∧ r.status = .settled ∧
      (before.reservations.find? r.reservationId).all fun old => old.status ≠ .settled then
    some (.settled (r.actualMicrocredits.getD 0))
  else none

/-- What was committed between two states: new settlements, and new grants and refunds. -/
def committed (owner : String) (before after : Billing) : List SpendEvent :=
  after.reservations.rows.filterMap (settlementEvent before owner) ++
    (after.ledger.rows.drop before.ledger.rows.length).filterMap (entryEvent owner)

/-- What a run committed, in commit order. -/
def spendHistory (owner : String) : Billing → List (BillingCatalog × BillingOp) → List SpendEvent
  | _, [] => []
  | db, i :: steps =>
    committed owner db (billingStep db i) ++ spendHistory owner (billingStep db i) steps

/-- The account and the grant key of the new paid invoice that an operation delivers, if the
processor honours it. -/
def honouredInvoice (catalog : BillingCatalog) (db : Billing) :
    BillingOp → Option (BillingAccount × String)
  | .process delivery now =>
    match delivery.event with
    | .error _ => none
    | .ok event =>
      if event.type = "invoice.paid" ∧ db.webhookEvents.find? event.id = none then do
        let subscriptionId ← invoiceSubscription event.object
        let account ← db.accountOfSubscription subscriptionId
        if account.newerEventApplied event.created then none
        else
          let plan ← catalog.plans.find? account.catalogId
          if plan.kind = .subscription then
            some (account, ledgerKey .included
              (subscriptionId ++ ":" ++ toString (periodStart event.object now)))
          else none
      else none
  | _ => none

/-- An honoured invoice grants its period, or there is no spend to reset. -/
def RenewalGrants (db : Billing) (i : BillingCatalog × BillingOp) : Prop :=
  ∀ honoured ∈ honouredInvoice i.1 db i.2,
    db.ledger.find? (honoured.1.ownerUserId, honoured.2) = none ∨
      honoured.1.periodSpendMicrocredits = 0

instance (db : Billing) (i : BillingCatalog × BillingOp) : Decidable (RenewalGrants db i) :=
  inferInstanceAs (Decidable (∀ honoured ∈ honouredInvoice i.1 db i.2, _))

section Steps

variable {catalog : BillingCatalog} {op : BillingOp} {db db' : Billing} {who : String}

/-- The rows of a ledger after an entry is offered. -/
theorem rows_offer (db : Billing) (e : LedgerEntry) : (db.ledger.insertOrIgnore e).rows =
    db.ledger.rows ++ if db.ledger.find? e.key = none then [e] else [] := by
  by_cases h : db.ledger.find? e.key = none
  · simp [Table.rows_insertOrIgnore h, h]
  · simp [Table.insertOrIgnore_of_ne_none h, h]

/-- The spend after one account is written. -/
theorem spend_update {row : BillingAccount} {f : BillingAccount → BillingAccount}
    (hf : ∀ a, (f a).ownerUserId = a.ownerUserId) (account : db.accounts.find? who = some row)
    (h : db'.accounts = db.accounts.update who f hf) (owner : String) :
    (db'.wallet owner).spend =
      if owner = who then (f row).periodSpendMicrocredits else (db.wallet owner).spend := by
  rw [Billing.wallet_update hf account h]
  split <;> rfl

/-- Nothing was settled, and new entries account for the spend. -/
def Posted (owner : String) (db db' : Billing) : Prop :=
  (∃ new, db'.ledger.rows = db.ledger.rows ++ new ∧
    (db'.wallet owner).spend =
      (new.filterMap (entryEvent owner)).foldl SpendEvent.apply (db.wallet owner).spend) ∧
  ∀ r ∈ db'.reservations.rows, r.status = .settled → r ∈ db.reservations.rows

theorem Posted.refl (owner : String) (db : Billing) : Posted owner db db :=
  ⟨⟨[], by simp, rfl⟩, fun _ hr _ => hr⟩

theorem Posted.trans {owner : String} {db'' : Billing} (h : Posted owner db db')
    (h' : Posted owner db' db'') : Posted owner db db'' := by
  obtain ⟨⟨new, hrows, hspend⟩, hsettled⟩ := h
  obtain ⟨⟨new', hrows', hspend'⟩, hsettled'⟩ := h'
  refine ⟨⟨new ++ new', ?_, ?_⟩, fun r hr done => hsettled r (hsettled' r hr done) done⟩
  · rw [hrows', hrows, List.append_assoc]
  · rw [hspend', hspend, List.filterMap_append, List.foldl_append]

/-- Without new entries the spend stays. -/
theorem Posted.of_same {owner : String} (hledger : db'.ledger = db.ledger)
    (hspend : (db'.wallet owner).spend = (db.wallet owner).spend)
    (hreservations : db'.reservations = db.reservations) : Posted owner db db' :=
  ⟨⟨[], by simp [hledger], by simpa using hspend⟩, fun r hr _ => hreservations ▸ hr⟩

/-- A stored reservation is not settled anew. -/
theorem settlementEvent_eq_none {owner : String} (r : CreditReservation)
    (hr : r ∈ db.reservations.rows) : settlementEvent db owner r = none := by
  refine if_neg fun ⟨_, done, hnew⟩ => ?_
  simp [Table.find?_of_mem hr, done] at hnew

/-- Posted tables commit what their new entries say. -/
theorem Posted.spend {owner : String} (h : Posted owner db db') :
    (db'.wallet owner).spend =
      (committed owner db db').foldl SpendEvent.apply (db.wallet owner).spend := by
  obtain ⟨⟨new, hrows, hspend⟩, hsettled⟩ := h
  have hnone : db'.reservations.rows.filterMap (settlementEvent db owner) = [] := by
    rw [List.filterMap_eq_nil_iff]
    intro r hr
    by_cases done : r.status = .settled
    · exact settlementEvent_eq_none r (hsettled r hr done)
    · exact if_neg fun h => done h.2.1
  rw [committed, hnone, hrows, List.drop_left, List.nil_append, hspend]

/-- One account write that agrees with its entry is posted. -/
theorem Posted.offer {row : BillingAccount} {f : BillingAccount → BillingAccount} {e : LedgerEntry}
    (hf : ∀ a, (f a).ownerUserId = a.ownerUserId) (account : db.accounts.find? who = some row)
    (haccounts : db'.accounts = db.accounts.update who f hf)
    (hledger : db'.ledger = db.ledger.insertOrIgnore e) (howner : e.ownerUserId = who)
    (hspend : (f row).periodSpendMicrocredits =
      ((if db.ledger.find? e.key = none then [e] else []).filterMap (entryEvent who)).foldl
        SpendEvent.apply row.periodSpendMicrocredits)
    (hsettled : ∀ r ∈ db'.reservations.rows, r.status = .settled → r ∈ db.reservations.rows)
    {owner : String} : Posted owner db db' := by
  refine ⟨⟨_, by rw [hledger, rows_offer], ?_⟩, hsettled⟩
  rw [spend_update hf account haccounts]
  by_cases h : owner = who
  · subst h
    rw [if_pos rfl, hspend, Billing.wallet_of_find? account]
    rfl
  · have hnone : entryEvent owner e = none := if_neg fun he => h (he.symm.trans howner)
    rw [if_neg h]
    split <;> simp [hnone]

/-- A movement that neither settles nor renews posts its entries. -/
theorem Move.posted (owner : String) (h : Move catalog op db db')
    (hsettle : ∀ who objective measured eventId now,
      op ≠ .settleObjective who objective measured eventId now)
    (hpaid : ∀ delivery now event, op = .process delivery now → delivery.event = .ok event →
      event.type ≠ "invoice.paid") : Posted owner db db' := by
  cases h with
  | insertAccount row free zero =>
    refine .of_same rfl ?_ rfl
    simp only [Billing.wallet, Table.find?_insertOrIgnore]
    by_cases h : row.ownerUserId = owner
    · subst h
      simp [free, BillingAccount.wallet, zero.spend]
    · simp [h]
  | monthlyGrant row plan now account free =>
    refine .offer (e := monthlyGrantEntry row plan now) (f := afterMonthlyGrant plan now)
      (fun _ => rfl) account rfl rfl rfl ?_ ?_
    · rw [if_pos free]
      simp [entryEvent, monthlyGrantEntry, SpendEvent.apply]
    · exact fun r hr _ => hr
  | @reserve who objective key now row plan reservation source new account onPlan freeId =>
    subst new
    refine .offer (f := afterReserve _ _ now) (fun _ => rfl) account rfl rfl rfl ?_
      fun r hr done => ?_
    · split <;> simp [entryEvent, reservationEntry]
    · rw [Table.rows_insertOrIgnore freeId] at hr
      rcases List.mem_append.mp hr with hr | hr
      · exact hr
      · rw [List.mem_singleton.mp hr] at done
        simp [newReservation] at done
  | @release who objective now row reservation source found held account =>
    refine .offer (e := releaseEntry reservation _ now) (f := afterRelease _ _ now) (fun _ => rfl)
      account rfl rfl (of_reservationOf found).2.1 ?_ ?_
    · split <;> simp [entryEvent, releaseEntry]
    · intro r hr done
      rw [Table.mem_update] at hr
      obtain ⟨s, hs, rfl⟩ := hr
      by_cases h : s.reservationId = reservation.reservationId
      · simp [h] at done
      · simpa [h] using hs
  | settle row reservation usage actual source => exact absurd source (hsettle _ _ _ _ _)
  | @refund who objective key amount now row reservation actual source positive stored owned bound
      settled cost account free =>
    subst owned
    refine .offer (e := refundEntry reservation amount key _ now) (f := afterRefund _ amount now)
      (fun _ => rfl) account rfl rfl rfl ?_ ?_
    · simp [LedgerEntry.key, free, entryEvent, refundEntry, SpendEvent.apply, spendAfterRefund_eq]
    · exact fun r hr _ => hr
  | @topup who key grantSource credits now row source account =>
    refine .offer (e := topupEntry row _ key grantSource now) (f := afterTopup _ now)
      (fun _ => rfl) account rfl rfl (Table.mem_of_find? account).2 ?_ ?_
    · split <;> simp [entryEvent, topupEntry]
    · exact fun r hr _ => hr
  | @purchase who now row pack event digest fresh account =>
    refine .offer (e := topupEntry row _ _ "stripe" now) (f := afterTopup _ now)
      (fun _ => rfl) account rfl rfl (Table.mem_of_find? account).2 ?_ ?_
    · split <;> simp [entryEvent, topupEntry]
    · exact fun r hr _ => hr
  | invoicePaid row plan subscriptionId event source paid =>
    obtain ⟨delivery, source, hevent⟩ := source
    exact absurd paid (hpaid _ _ _ source hevent)
  | @touchAccount who f keeps =>
    refine .of_same rfl ?_ rfl
    unfold Billing.wallet
    by_cases h : owner = who
    · subst h
      rw [Table.find?_update_self]
      cases db.accounts.find? owner with
      | none => rfl
      | some row => exact keeps.spend row
    · rw [Table.find?_update_ne _ h]
  | recordEvent event digest now => exact .of_same rfl rfl rfl
  | recordCheckout session => exact .of_same rfl rfl rfl

/-- A settlement commits its cost. -/
theorem settleObjective_spend (owner : String) {objective eventId : String} {measured : Json}
    {now : ℤ} {result : CreditReservation}
    (h : settleObjective catalog who objective measured eventId now db = .ok (result, db')) :
    (db'.wallet owner).spend =
      (committed owner db db').foldl SpendEvent.apply (db.wallet owner).spend := by
  rcases settleObjective_cases h with rfl |
    ⟨row, reservation, usage, actual, cost, found, held, account, -, -, rfl⟩
  · exact (Posted.refl owner db).spend
  · obtain ⟨stored, rfl, -⟩ := of_reservationOf found
    have hsettled : (db.reservations.update reservation.reservationId
        (settled usage actual now)).rows.filterMap (settlementEvent db owner) =
          (settlementEvent db owner (settled usage actual now reservation)).toList :=
      Table.filterMap_update _ (Table.find?_of_mem stored) settlementEvent_eq_none
    have hrows := rows_offer db (settlementEntry reservation actual eventId
      (row.availableMicrocredits + (reservation.estimatedMicrocredits - actual)) now)
    have hposted : (if db.ledger.find? (settlementEntry reservation actual eventId
          (row.availableMicrocredits + (reservation.estimatedMicrocredits - actual)) now).key = none
        then [settlementEntry reservation actual eventId
          (row.availableMicrocredits + (reservation.estimatedMicrocredits - actual)) now]
        else []).filterMap (entryEvent owner) = [] := by
      split <;> simp [entryEvent, settlementEntry]
    rw [spend_update (f := afterSettle _ _ actual now) (fun _ => rfl) account rfl, committed,
      hsettled, hrows, List.drop_left, hposted, List.append_nil]
    by_cases h : owner = reservation.ownerUserId
    · subst h
      simp [settlementEvent, Table.find?_of_mem stored, held, SpendEvent.apply,
        Billing.wallet_of_find? account, BillingAccount.wallet]
    · simp [settlementEvent, h, Ne.symm h]

/-- A delivered paid invoice is honoured, or moves nothing. -/
theorem process_paid {delivery : WebhookDelivery} {event : StripeEvent} {now : ℤ}
    {status : WebhookStatus} (hevent : delivery.event = .ok event)
    (paid : event.type = "invoice.paid") (h : process catalog delivery now db = .ok (status, db')) :
    (db'.accounts = db.accounts ∧ db'.ledger = db.ledger ∧ db'.reservations = db.reservations) ∨
    ∃ row plan subscriptionId, invoiceSubscription event.object = some subscriptionId ∧
      db.accountOfSubscription subscriptionId = some row ∧
      honouredInvoice catalog db (.process delivery now) =
        some (row, (invoiceGrantEntry row plan subscriptionId (periodStart event.object now)
          now).idempotencyKey) ∧
      invoicePaid row plan subscriptionId event now
        (recordEvent event delivery.payloadSha256 now db) = db' := by
  simp only [process, bind_eq_ok, hevent, Except.ok.injEq, exists_eq_left'] at h
  split at h
  · simp only [bind_eq_ok, raiseIf_eq_ok, pure_eq_ok, exists_const, Prod.mk.injEq] at h
    obtain ⟨-, -, rfl⟩ := h
    exact .inl ⟨rfl, rfl, rfl⟩
  · next fresh =>
    simp only [bind_eq_ok, pure_eq_ok, Prod.mk.injEq, dispatch_paid paid] at h
    obtain ⟨after, h, -, rfl⟩ := h
    unfold invoice at h
    split at h
    · obtain rfl := Except.ok.inj h
      exact .inl ⟨rfl, rfl, rfl⟩
    · next subscriptionId found =>
      split at h
      · simp at h
      · next row account =>
        have account : db.accountOfSubscription subscriptionId = some row := account
        split at h
        · obtain rfl := Except.ok.inj h
          exact .inl ⟨rfl, rfl, rfl⟩
        · next recent =>
          split at h
          · simp at h
          · next plan onPlan =>
            split at h
            · simp at h
            · next sold =>
              rw [if_neg (by simp [paid])] at h
              refine .inr ⟨row, plan, subscriptionId, found, account, ?_, Except.ok.inj h⟩
              simp [honouredInvoice, hevent, paid, fresh, found, account, recent, onPlan,
                not_not.mp sold, invoiceGrantEntry]

/-- A delivered paid invoice that grants its period, or finds no spend, posts its entry. -/
theorem process_paid_posted (owner : String) {delivery : WebhookDelivery} {event : StripeEvent}
    {now : ℤ} {status : WebhookStatus} (hevent : delivery.event = .ok event)
    (paid : event.type = "invoice.paid") (renewal :
      RenewalGrants db (catalog, .process delivery now))
    (h : process catalog delivery now db = .ok (status, db')) : Posted owner db db' := by
  rcases process_paid hevent paid h with ⟨haccounts, hledger, hreservations⟩ |
    ⟨row, plan, subscriptionId, found, account, honoured, rfl⟩
  · exact .of_same hledger (by rw [Billing.wallet_congr haccounts]) hreservations
  · have stored : db.accounts.find? row.ownerUserId = some row :=
      Table.find?_of_mem (List.mem_of_find?_eq_some account)
    have grants : db.ledger.find? (invoiceGrantEntry row plan subscriptionId
        (periodStart event.object now) now).key = none ∨ row.periodSpendMicrocredits = 0 :=
      renewal _ honoured
    refine .offer (f := afterInvoicePaid _ _ _ _ _) (fun _ => rfl) stored rfl rfl rfl ?_ ?_
    · by_cases free : db.ledger.find? (invoiceGrantEntry row plan subscriptionId
        (periodStart event.object now) now).key = none
      · rw [if_pos free]
        simp [entryEvent, invoiceGrantEntry, SpendEvent.apply]
      · rw [if_neg free]
        exact (grants.resolve_left free).symm
    · exact fun r hr _ => hr

/-- A step whose honoured invoices renew commits what it does to the spend. -/
theorem billingStep_spend (owner : String) (db : Billing) {i : BillingCatalog × BillingOp}
    (renewal : RenewalGrants db i) : ((billingStep db i).wallet owner).spend =
      (committed owner db (billingStep db i)).foldl SpendEvent.apply (db.wallet owner).spend := by
  obtain ⟨catalog, op⟩ := i
  refine commit_of (P := fun db' => (db'.wallet owner).spend =
    (committed owner db db').foldl SpendEvent.apply (db.wallet owner).spend)
    (Posted.refl owner db).spend fun db' h => ?_
  by_cases hsettle : ∃ who objective measured eventId now,
      op = .settleObjective who objective measured eventId now
  · obtain ⟨who, objective, measured, eventId, now, rfl⟩ := hsettle
    obtain ⟨result, h⟩ := stateOf_eq_ok.mp h
    exact settleObjective_spend owner h
  · by_cases hpaid : ∃ delivery now event, op = .process delivery now ∧
        delivery.event = .ok event ∧ event.type = "invoice.paid"
    · obtain ⟨delivery, now, event, rfl, hevent, paid⟩ := hpaid
      obtain ⟨status, h⟩ := stateOf_eq_ok.mp h
      exact (process_paid_posted owner hevent paid renewal h).spend
    · refine ((apply_moves h).preserve (I := fun db' => Posted owner db db')
        (fun move posted => posted.trans (move.posted owner ?_ ?_)) (.refl owner db)).spend
      · exact fun who objective measured eventId now h =>
          hsettle ⟨who, objective, measured, eventId, now, h⟩
      · exact fun delivery now event h hevent paid => hpaid ⟨delivery, now, event, h, hevent, paid⟩

/-- A run whose honoured invoices renew commits what it does to the spend. -/
theorem run_spend (owner : String) {db : Billing} {steps : List (BillingCatalog × BillingOp)}
    (renewals : RunMeets billingStep RenewalGrants db steps) :
    ((run billingStep db steps).wallet owner).spend =
      (spendHistory owner db steps).foldl SpendEvent.apply (db.wallet owner).spend := by
  induction steps generalizing db with
  | nil => rfl
  | cons i steps ih =>
    rw [run_cons, ih renewals.2, spendHistory, List.foldl_append,
      billingStep_spend owner db renewals.1]

/-- Another paid invoice of a granted period leaves every balance and every spend, if it renews. -/
theorem invoice_of_granted_period (owner : String) {delivery : WebhookDelivery}
    {event : StripeEvent} {now : ℤ} {subscriptionId : String} {account : BillingAccount}
    (renewal : RenewalGrants db (catalog, .process delivery now))
    (hevent : delivery.event = .ok event) (paid : event.type = "invoice.paid")
    (found : invoiceSubscription event.object = some subscriptionId)
    (bound : db.accountOfSubscription subscriptionId = some account)
    (granted : db.ledger.find? (account.ownerUserId, ledgerKey .included
      (subscriptionId ++ ":" ++ toString (periodStart event.object now))) ≠ none) :
    (billingStep db (catalog, .process delivery now)).wallet owner = db.wallet owner := by
  refine commit_of (P := fun after : Billing => after.wallet owner = db.wallet owner) rfl
    fun db' h => ?_
  obtain ⟨status, h⟩ := stateOf_eq_ok.mp h
  rcases process_paid hevent paid h with ⟨haccounts, -, -⟩ |
    ⟨row, plan, subscriptionId', found', bound', honoured, rfl⟩
  · exact Billing.wallet_congr haccounts owner
  · obtain rfl : subscriptionId' = subscriptionId := Option.some.inj (found'.symm.trans found)
    obtain rfl : row = account := Option.some.inj (bound'.symm.trans bound)
    have stored : db.accounts.find? row.ownerUserId = some row :=
      Table.find?_of_mem (List.mem_of_find?_eq_some bound)
    have unspent : row.periodSpendMicrocredits = 0 := (renewal _ honoured).resolve_left granted
    have taken : db.ledger.find? (invoiceGrantEntry row plan subscriptionId'
      (periodStart event.object now) now).key ≠ none := granted
    rw [Billing.wallet_update (f := afterInvoicePaid _ _ _ _ _) (fun _ => rfl) stored rfl]
    split
    · next h =>
      simp [h, Billing.wallet_of_find? stored, BillingAccount.wallet, unspent, recordEvent, taken]
    · rfl

end Steps

/-- A verified delivery of an event. -/
def providerDelivery (id type : String) (created : ℤ) (object : List (String × Json)) :
    WebhookDelivery where
  configured := true
  verified := true
  payload := some (.obj [("id", .str id), ("type", .str type), ("created", .int created),
    ("data", .obj [("object", .obj object)])])
  payloadSha256 := id

/-- The event of a verified delivery with a positive creation time. -/
theorem providerDelivery_event {id type : String} {created : ℤ} {object : List (String × Json)}
    (h : 0 < created) : (providerDelivery id type created object).event =
      .ok ⟨id, type, created, .obj object⟩ := by
  show (if created ≤ 0 then _ else Except.ok (⟨id, type, created, .obj object⟩ : StripeEvent)) = _
  rw [if_neg (not_le.mpr h)]

/-- An active subscription at the individual plan's price. -/
def activeSubscription : List (String × Json) :=
  [("id", .str "subscription"), ("customer", .str "customer"), ("status", .str "active"),
   ("items", .obj [("data", .arr [.obj [("price", .obj [("id", .str "price_individual")])]])])]

/-- An invoice for a month of the subscription. -/
def monthlyInvoice (start : ℤ) : List (String × Json) :=
  [("subscription", .str "subscription"), ("period_start", .int start),
   ("period_end", .int (start + 2678400))]

/-- A customer subscribes, pays for a month and spends in it. -/
def subscribedRun : List (BillingCatalog × BillingOp) :=
  [.bindCustomer "user" "customer" 1704067200,
   .process (providerDelivery "started" "customer.subscription.created" 1704067200
    activeSubscription) 1704067200,
   .process (providerDelivery "paid" "invoice.paid" 1704067201 (monthlyInvoice 1704067200))
    1704067201,
   .reserveObjective "user" "objective" "key" 1704067202,
   .settleObjective "user" "objective" shortUsage "event" 1704067203].map (Shipped.activated, ·)

/-- A proration in the month that was paid for. -/
def proratedRun : List (BillingCatalog × BillingOp) :=
  subscribedRun ++ [(Shipped.activated, .process (providerDelivery "proration" "invoice.paid"
    1704067204 (monthlyInvoice 1704067200)) 1704067204)]

end Magistrate
