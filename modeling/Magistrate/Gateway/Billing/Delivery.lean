import Magistrate.Gateway.Billing.Spend
import Mathlib

/-!
# The delivery order of provider events

Paid invoices and subscription events of one subscription arrive in any order and
more than once. An account keeps the creation time of the newest event applied to
it and drops older ones, so a period is granted exactly when an invoice for it
arrives ahead of every newer event.
-/

namespace Magistrate

open CreditLedger StripeWebhookProcessor

/-- The ledger key of the grant of a subscription's period. -/
def periodGrant (subscriptionId : String) (start : ℤ) : String :=
  ledgerKey .included (subscriptionId ++ ":" ++ toString start)

section Keys

/-- What follows the last separator is determined by the whole text. -/
theorem eq_of_append_cons_eq {α : Type*} {a b c d : List α} {x : α} (hb : x ∉ b) (hd : x ∉ d)
    (h : a ++ x :: b = c ++ x :: d) : b = d := by
  rcases List.append_eq_append_iff.mp h with ⟨e, -, he⟩ | ⟨e, -, he⟩
  · cases e with
    | nil => simpa using he
    | cons y e => exact absurd (by simp [(List.cons.inj he).2]) hb
  · cases e with
    | nil => simpa using he.symm
    | cons y e => exact absurd (by simp [(List.cons.inj he).2]) hd

/-- The text of an integer: digits after an optional sign. -/
theorem toString_int_toList (n : ℤ) :
    ∃ sign digits, (toString n).toList = sign ++ digits ∧ (sign = [] ∨ sign = ['-']) ∧
      digits ≠ [] ∧ ∀ c ∈ digits, c.isDigit = true := by
  have hdigits (k : ℕ) : ∀ c ∈ k.repr.toList, c.isDigit = true := fun c hc =>
    Nat.isDigit_of_mem_toDigits (by decide) (by decide) (Nat.toList_repr ▸ hc)
  have hne (k : ℕ) : k.repr.toList ≠ [] := by
    rw [Nat.toList_repr]
    exact Nat.toDigits_ne_nil
  rw [Int.toString_eq_repr, Int.repr_eq_if]
  split
  · exact ⟨[], _, rfl, .inl rfl, hne _, hdigits _⟩
  · exact ⟨['-'], _, String.toList_append, .inr rfl, hne _, hdigits _⟩

/-- The text of an integer has no colon. -/
theorem colon_notMem_toString (n : ℤ) : ':' ∉ (toString n).toList := by
  obtain ⟨sign, digits, h, hsign, -, hdigits⟩ := toString_int_toList n
  rw [h, List.mem_append]
  rintro (hc | hc)
  · rcases hsign with rfl | rfl <;> simp at hc
  · exact absurd (hdigits _ hc) (by decide)

/-- A calendar month has no colon. -/
theorem colon_notMem_periodKey (now : ℤ) : ':' ∉ (periodKey now).toList := by
  simp only [periodKey, String.toList_append, List.mem_append]
  rintro (((hc | hc) | hc) | hc)
  · exact colon_notMem_toString _ hc
  · simp at hc
  · split at hc <;> simp at hc
  · exact colon_notMem_toString _ hc

/-- A calendar month is no integer. -/
theorem periodKey_ne_toString (now n : ℤ) : periodKey now ≠ toString n := by
  intro h
  obtain ⟨sign, digits, hn, hsign, -, hdigits⟩ := toString_int_toList n
  obtain ⟨ysign, ydigits, hy, -, hyne, -⟩ := toString_int_toList (civilMonth (now / 86400)).1
  have hl : sign ++ digits = ysign ++ ydigits ++ '-' :: ((if (civilMonth (now / 86400)).2 < 10
      then "0" else "").toList ++ (toString (civilMonth (now / 86400)).2).toList) := by
    rw [← hn, ← h, periodKey, ← hy]
    simp
  obtain ⟨y, ys, hys⟩ := List.exists_cons_of_ne_nil
    (show ysign ++ ydigits ≠ [] by simp [hyne])
  have hdash : '-' ∈ digits := by
    rw [hys] at hl
    rcases hsign with rfl | rfl
    · rw [List.nil_append] at hl
      simp [hl]
    · simp only [List.cons_append, List.nil_append, List.cons.injEq] at hl
      simp [hl.2]
  exact absurd (hdigits _ hdash) (by decide)

/-- The grants of two periods of one subscription have different keys. -/
theorem periodGrant_inj {subscriptionId : String} {start start' : ℤ} :
    periodGrant subscriptionId start = periodGrant subscriptionId start' ↔ start = start' := by
  refine ⟨fun h => ?_, fun h => h ▸ rfl⟩
  have h := (ledgerKey_inj.mp h).2
  rw [String.append_right_inj] at h
  exact Int.repr_injective (by simpa using h)

/-- The grant of a calendar month is not the grant of a subscription's period. -/
theorem monthlyGrant_ne_periodGrant (id subscriptionId : String) (now start : ℤ) :
    ledgerKey .included (id ++ ":" ++ periodKey now) ≠ periodGrant subscriptionId start := by
  intro h
  have h := congrArg String.toList (ledgerKey_inj.mp h).2
  simp only [String.toList_append, List.append_assoc] at h
  have hmonth := eq_of_append_cons_eq (colon_notMem_periodKey now) (colon_notMem_toString start) h
  exact periodKey_ne_toString now start (String.toList_inj.mp hmonth)

end Keys

/-- A creation or an update of a customer's active subscription at a catalog price. -/
structure SubscriptionUpdate (catalog : BillingCatalog) (owner customer subscriptionId : String)
    (event : StripeEvent) : Prop where
  type : event.type = "customer.subscription.created" ∨
    event.type = "customer.subscription.updated"
  id : (event.object.get "id").str? = some subscriptionId
  customer : (event.object.get "customer").str? = some customer
  /-- An owner tag names the owner. -/
  owner : ∀ tagged ∈ nonemptyText (metadata event.object).1, tagged = owner
  active : ∃ status, (event.object.get "status").str? = some status ∧ status ≠ "canceled"
  /-- The first item's price sells a plan, which a catalog tag names. -/
  price : ∃ price plan, itemPrice event.object = .ok (.str price) ∧
    catalog.priceItem price = some (.subscription plan) ∧
    ∀ tagged ∈ nonemptyText (metadata event.object).2, tagged = plan.id
  period : (event.object.get "current_period_start").isScalar = true ∧
    (event.object.get "current_period_end").isScalar = true

/-- A paid invoice for a subscription's period. -/
structure PaidInvoice (subscriptionId : String) (start : ℤ) (event : StripeEvent) : Prop where
  type : event.type = "invoice.paid"
  subscription : invoiceSubscription event.object = some subscriptionId
  periodStart : (event.object.get "period_start").int? = some start
  periodEnd : (event.object.get "period_end").int? ≠ none

/-- A verified delivery of a paid invoice or an update of one subscription. -/
structure Notice (catalog : BillingCatalog) (owner customer subscriptionId : String) where
  delivery : WebhookDelivery
  /-- When it is delivered. -/
  now : ℤ
  event : StripeEvent
  verified : delivery.event = .ok event
  kind : SubscriptionUpdate catalog owner customer subscriptionId event ∨
    ∃ start, PaidInvoice subscriptionId start event

/-- An account that a customer is bound to, before any event of the subscription. -/
structure Onboarded (catalog : BillingCatalog) (owner customer subscriptionId : String)
    (db : Billing) : Prop where
  named : owner ≠ ""
  account : ∃ row, db.accounts.find? owner = some row ∧ row.externalCustomerRef = some customer ∧
    row.providerEventCreated = none ∧ catalog.plans.find? row.catalogId ≠ none
  customer : ∀ a ∈ db.accounts.rows, a.externalCustomerRef = some customer →
    a.ownerUserId = owner
  subscription : ∀ a ∈ db.accounts.rows, a.subscriptionId = some subscriptionId →
    a.ownerUserId = owner
  ungranted : ∀ e ∈ db.ledger.rows, ∀ start, e.idempotencyKey ≠ periodGrant subscriptionId start

/-- An account on a subscription, to which an event of some creation time was applied last. -/
structure Subscribed (catalog : BillingCatalog) (owner customer subscriptionId : String)
    (mark : ℤ) (db : Billing) : Prop where
  named : owner ≠ ""
  account : ∃ row plan, db.accounts.find? owner = some row ∧
    row.externalCustomerRef = some customer ∧ row.subscriptionId = some subscriptionId ∧
    row.providerEventCreated = some mark ∧ catalog.plans.find? row.catalogId = some plan ∧
    plan.kind = .subscription
  customer : ∀ a ∈ db.accounts.rows, a.externalCustomerRef = some customer →
    a.ownerUserId = owner
  subscription : ∀ a ∈ db.accounts.rows, a.subscriptionId = some subscriptionId →
    a.ownerUserId = owner

section Accounts

variable {catalog : BillingCatalog} {owner customer subscriptionId : String} {db mid : Billing}
  {event : StripeEvent} {now : ℤ} {row : BillingAccount}

/-- The only account with a customer is the one its customer finds. -/
theorem accountOfCustomer_eq (account : db.accounts.find? owner = some row)
    (bound : row.externalCustomerRef = some customer)
    (only : ∀ a ∈ db.accounts.rows, a.externalCustomerRef = some customer →
      a.ownerUserId = owner) : db.accountOfCustomer customer = some row := by
  obtain ⟨stored, howner⟩ := Table.mem_of_find? account
  cases hfind : db.accountOfCustomer customer with
  | none =>
    have h := List.find?_eq_none.mp hfind row stored
    simp [bound] at h
  | some other =>
    have hm : other ∈ db.accounts.rows := List.mem_of_find?_eq_some hfind
    have hcustomer : other.externalCustomerRef = some customer := by
      simpa using List.find?_some hfind
    rw [Table.eq_of_mem hm stored ((only other hm hcustomer).trans howner.symm)]

/-- The only account with a subscription is the one its subscription finds. -/
theorem accountOfSubscription_eq (account : db.accounts.find? owner = some row)
    (bound : row.subscriptionId = some subscriptionId)
    (only : ∀ a ∈ db.accounts.rows, a.subscriptionId = some subscriptionId →
      a.ownerUserId = owner) : db.accountOfSubscription subscriptionId = some row := by
  obtain ⟨stored, howner⟩ := Table.mem_of_find? account
  cases hfind : db.accountOfSubscription subscriptionId with
  | none =>
    have h := List.find?_eq_none.mp hfind row stored
    simp [bound] at h
  | some other =>
    have hm : other ∈ db.accounts.rows := List.mem_of_find?_eq_some hfind
    have hsubscription : other.subscriptionId = some subscriptionId := by
      simpa using List.find?_some hfind
    rw [Table.eq_of_mem hm stored ((only other hm hsubscription).trans howner.symm)]

/-- Subscription events are dispatched as such. -/
theorem dispatch_subscription (update : SubscriptionUpdate catalog owner customer subscriptionId
    event) : dispatch catalog event now db = subscription catalog event now db := by
  have hpurchase : isPurchase event = false := by
    rcases update.type with h | h <;> simp [isPurchase, h]
  have hsubscription : "customer.subscription.".toList <+: event.type.toList := by
    rcases update.type with h | h <;> rw [h] <;> decide
  rw [dispatch, hpurchase, if_neg Bool.false_ne_true, if_pos hsubscription]

/-- The plan that an update sells. -/
theorem SubscriptionUpdate.plan (update : SubscriptionUpdate catalog owner customer subscriptionId
    event) : ∃ plan, subscriptionPlan catalog event.object (metadata event.object).2 = .ok plan ∧
      catalog.plans.find? plan.id = some plan ∧ plan.kind = .subscription := by
  obtain ⟨price, plan, hprice, hplan, tagged⟩ := update.price
  have stored := BillingCatalog.mem_of_priceItem hplan
  have sold : plan.kind = .subscription := by
    by_contra h
    unfold BillingCatalog.priceItem at hplan
    split at hplan
    · next p hp =>
      obtain rfl : p = plan := by simpa using hplan
      have := List.find?_some hp
      simp [p.price_none h] at this
    · simp at hplan
  refine ⟨plan, ?_, Table.find?_of_mem stored, sold⟩
  have hagree : ¬(nonemptyText (metadata event.object).2).any
      fun id => plan.id ≠ "" ∧ id ≠ plan.id := by
    simp only [Option.any_eq_true, not_exists, not_and]
    rintro tag htag
    simp [tagged tag htag]
  simp only [subscriptionPlan, hprice, Json.str?, hplan, Option.bind_some, ok_bind]
  rw [raiseIf_ok hagree, raiseIf_ok (not_not.mpr sold)]
  rfl

/-- The owner that an update is bound to. -/
theorem SubscriptionUpdate.owned (update : SubscriptionUpdate catalog owner customer
    subscriptionId event) (named : owner ≠ "") (account : db.accounts.find? owner = some row)
    (bound : row.externalCustomerRef = some customer)
    (only : ∀ a ∈ db.accounts.rows, a.externalCustomerRef = some customer →
      a.ownerUserId = owner) :
    subscriptionOwner db event.object (metadata event.object).1 = .ok (owner, subscriptionId) := by
  have htag : nonemptyText (metadata event.object).1 = none ∨
      nonemptyText (metadata event.object).1 = some owner := by
    cases h : nonemptyText (metadata event.object).1 with
    | none => exact .inl rfl
    | some tag => exact .inr (congrArg some (update.owner tag h))
  have howner : nonemptyText (some owner) = some owner := by simp [nonemptyText, named]
  have hcustomer : ((db.accountOfCustomer customer).map (·.ownerUserId)) = some owner := by
    rw [accountOfCustomer_eq account bound only, Option.map_some, (Table.mem_of_find? account).2]
  simp only [subscriptionOwner, update.customer, Option.bind_some, hcustomer, update.id]
  rcases htag with h | h <;> simp [h, howner, raiseIf_ok]

/-- An update writes the account of its owner, unless a newer event was applied to it. -/
theorem subscription_of_update (update : SubscriptionUpdate catalog owner customer subscriptionId
    event) (named : owner ≠ "") {before : BillingAccount}
    (hbefore : db.accounts.find? owner = some before)
    (bound : before.externalCustomerRef = some customer)
    (onlyCustomer : ∀ a ∈ db.accounts.rows, a.externalCustomerRef = some customer →
      a.ownerUserId = owner)
    (hacc : account catalog owner now db = .ok (row, mid))
    (onlySubscription : ∀ a ∈ mid.accounts.rows, a.subscriptionId = some subscriptionId →
      a.ownerUserId = owner) :
    ∃ plan status, catalog.plans.find? plan.id = some plan ∧ plan.kind = .subscription ∧
      status ≠ "canceled" ∧ subscription catalog event now db =
        .ok (if row.newerEventApplied event.created then mid else { mid with
          accounts := mid.accounts.update owner (withSubscription catalog plan subscriptionId
            status event.object event.created now) }) := by
  obtain ⟨plan, hplan, stored, sold⟩ := update.plan
  obtain ⟨status, hstatus, hactive⟩ := update.active
  have hdeleted : event.type ≠ "customer.subscription.deleted" := by
    rcases update.type with h | h <;> simp [h]
  have hunused : ¬(status ≠ "canceled" ∧ ∃ other ∈ mid.accounts.rows,
      other.subscriptionId = some subscriptionId ∧ other.ownerUserId ≠ owner) := by
    rintro ⟨-, other, hm, hs, hne⟩
    exact hne (onlySubscription other hm hs)
  refine ⟨plan, status, stored, sold, hactive, ?_⟩
  simp only [subscription, update.owned named hbefore bound onlyCustomer, hplan, hacc, hstatus,
    hdeleted, ok_bind, if_false, Option.getD_some]
  split
  · rfl
  · rw [raiseIf_ok (by simp [update.period.1, update.period.2]), raiseIf_ok hunused]
    rfl

end Accounts

section Grants

variable {catalog : BillingCatalog} {owner customer subscriptionId : String} {db db' : Billing}

/-- The periods of a subscription that the ledger grants to its owner. -/
structure Granted (owner subscriptionId : String) (periods : ℤ → Prop) (db : Billing) : Prop where
  owned : ∀ e ∈ db.ledger.rows, ∀ start, e.idempotencyKey = periodGrant subscriptionId start →
    e.ownerUserId = owner ∧ e.entryType = .includedGrant
  exactly : ∀ start,
    (∃ e ∈ db.ledger.rows, e.idempotencyKey = periodGrant subscriptionId start) ↔ periods start

/-- The number of included grants under a key. -/
def Billing.grantsUnder (db : Billing) (key : String) : ℕ :=
  db.ledger.rows.countP fun e => e.idempotencyKey = key ∧ e.entryType = .includedGrant

/-- An equal ledger grants the same periods. -/
theorem Granted.congr {periods periods' : ℤ → Prop} (h : Granted owner subscriptionId periods db)
    (hledger : db'.ledger = db.ledger) (hperiods : ∀ start, periods start ↔ periods' start) :
    Granted owner subscriptionId periods' db' where
  owned := hledger ▸ h.owned
  exactly start := hledger ▸ (h.exactly start).trans (hperiods start)

/-- Offering another entry grants the same periods. -/
theorem Granted.insert_other {periods : ℤ → Prop} {e : LedgerEntry}
    (h : Granted owner subscriptionId periods db)
    (hledger : db'.ledger = db.ledger.insertOrIgnore e)
    (hkey : ∀ start, e.idempotencyKey ≠ periodGrant subscriptionId start) :
    Granted owner subscriptionId periods db' where
  owned d hd start hstart := by
    rw [hledger] at hd
    rcases Table.mem_insertOrIgnore hd with hd | ⟨-, rfl⟩
    · exact h.owned d hd start hstart
    · exact absurd hstart (hkey start)
  exactly start := by
    rw [← h.exactly start, hledger]
    constructor
    · rintro ⟨d, hd, hstart⟩
      rcases Table.mem_insertOrIgnore hd with hd | ⟨-, rfl⟩
      · exact ⟨d, hd, hstart⟩
      · exact absurd hstart (hkey start)
    · rintro ⟨d, hd, hstart⟩
      exact ⟨d, Table.mem_insertOrIgnore_of_mem hd, hstart⟩

/-- Offering the grant of a period grants it. -/
theorem Granted.insert {periods : ℤ → Prop} {e : LedgerEntry} {start : ℤ}
    (h : Granted owner subscriptionId periods db)
    (hledger : db'.ledger = db.ledger.insertOrIgnore e)
    (hkey : e.idempotencyKey = periodGrant subscriptionId start) (howner : e.ownerUserId = owner)
    (htype : e.entryType = .includedGrant) :
    Granted owner subscriptionId (fun s => periods s ∨ s = start) db' where
  owned d hd s hs := by
    rw [hledger] at hd
    rcases Table.mem_insertOrIgnore hd with hd | ⟨-, rfl⟩
    · exact h.owned d hd s hs
    · exact ⟨howner, htype⟩
  exactly s := by
    rw [← h.exactly s, hledger]
    constructor
    · rintro ⟨d, hd, hs⟩
      rcases Table.mem_insertOrIgnore hd with hd | ⟨-, rfl⟩
      · exact .inl ⟨d, hd, hs⟩
      · exact .inr (periodGrant_inj.mp (hs.symm.trans hkey))
    · rintro (⟨d, hd, hs⟩ | rfl)
      · exact ⟨d, Table.mem_insertOrIgnore_of_mem hd, hs⟩
      · by_cases free : db.ledger.find? e.key = none
        · refine ⟨e, ?_, hkey⟩
          rw [Table.rows_insertOrIgnore free]
          exact List.mem_append_right _ (List.mem_singleton_self e)
        · obtain ⟨d, hd⟩ := Option.ne_none_iff_exists'.mp free
          obtain ⟨hm, hsame⟩ := Table.mem_of_find? hd
          exact ⟨d, Table.mem_insertOrIgnore_of_mem hm, (congrArg Prod.snd hsame).trans hkey⟩

/-- A granted period has one grant and another period has none. -/
theorem Granted.grantsUnder_eq_one_iff {periods : ℤ → Prop}
    (h : Granted owner subscriptionId periods db) (start : ℤ) :
    db.grantsUnder (periodGrant subscriptionId start) = 1 ↔ periods start := by
  rw [← h.exactly start]
  constructor
  · intro hone
    obtain ⟨e, he, hp⟩ := List.countP_pos_iff.mp (hone ▸ Nat.one_pos)
    exact ⟨e, he, (by simpa using hp : _ ∧ _).1⟩
  · rintro ⟨e, he, hkey⟩
    obtain ⟨howner, htype⟩ := h.owned e he start hkey
    refine countP_eq_one_of_unique (List.Nodup.of_map _ db.ledger.unique) he
      (by simp [hkey, htype]) fun d hd hp => ?_
    have hd' : d.idempotencyKey = periodGrant subscriptionId start := by
      simp only [Bool.decide_and, Bool.and_eq_true, decide_eq_true_eq] at hp
      exact hp.1
    refine Table.eq_of_mem hd he ?_
    rw [LedgerEntry.key, LedgerEntry.key, hd', hkey, (h.owned d hd start hd').1, howner]

end Grants

namespace Notice

variable {catalog : BillingCatalog} {owner customer subscriptionId : String} {db db' : Billing}
  {n : Notice catalog owner customer subscriptionId}

/-- Deliver a notice. -/
def deliver (db : Billing) (n : Notice catalog owner customer subscriptionId) : Billing :=
  billingStep db (catalog, .process n.delivery n.now)

/-- A recorded event is not applied again. -/
theorem deliver_again {prior : WebhookEventRow}
    (found : db.webhookEvents.find? n.event.id = some prior)
    (same : prior.payloadSha256 = some n.delivery.payloadSha256) : deliver db n = db := by
  have hsame : ¬prior.payloadSha256.any (· ≠ n.delivery.payloadSha256) := by simp [same]
  simp only [deliver, billingStep, BillingOp.apply, process, n.verified, ok_bind, found]
  rw [raiseIf_ok hsame]
  rfl

/-- A new event is recorded and applied. -/
theorem deliver_new (fresh : db.webhookEvents.find? n.event.id = none)
    (h : dispatch catalog n.event n.now
      (recordEvent n.event n.delivery.payloadSha256 n.now db) = .ok db') : deliver db n = db' := by
  simp only [deliver, billingStep, BillingOp.apply, process, n.verified, ok_bind, fresh, h]
  rfl

end Notice

section Deliveries

variable {catalog : BillingCatalog} {owner customer subscriptionId : String} {db db' : Billing}
  {mark : ℤ}

/-- Recording an event keeps the account. -/
theorem Subscribed.recordEvent (h : Subscribed catalog owner customer subscriptionId mark db)
    (event : StripeEvent) (digest : String) (now : ℤ) :
    Subscribed catalog owner customer subscriptionId mark
      (StripeWebhookProcessor.recordEvent event digest now db) :=
  ⟨h.named, h.account, h.customer, h.subscription⟩

/-- Writing an account leaves what only it may have. -/
theorem only_of_update {P : BillingAccount → Prop} {f : BillingAccount → BillingAccount}
    (hf : ∀ a, (f a).ownerUserId = a.ownerUserId)
    (only : ∀ a ∈ db.accounts.rows, P a → a.ownerUserId = owner)
    (haccounts : db'.accounts = db.accounts.update owner f hf) :
    ∀ a ∈ db'.accounts.rows, P a → a.ownerUserId = owner := by
  intro a ha hp
  rw [haccounts, Table.mem_update] at ha
  obtain ⟨b, hb, rfl⟩ := ha
  by_cases h : b.ownerUserId = owner
  · rw [if_pos h, hf, h]
  · rw [if_neg h] at hp ⊢
    exact only b hb hp

/-- Writing the account keeps it subscribed. -/
theorem Subscribed.write {row : BillingAccount} {plan : Plan} {mark' : ℤ}
    {f : BillingAccount → BillingAccount} (hf : ∀ a, (f a).ownerUserId = a.ownerUserId)
    (named : owner ≠ "") (account : db.accounts.find? owner = some row)
    (bound : (f row).externalCustomerRef = some customer)
    (subscribed : (f row).subscriptionId = some subscriptionId)
    (marked : (f row).providerEventCreated = some mark')
    (onPlan : catalog.plans.find? (f row).catalogId = some plan)
    (sold : plan.kind = .subscription)
    (onlyCustomer : ∀ a ∈ db.accounts.rows, a.externalCustomerRef = some customer →
      a.ownerUserId = owner)
    (onlySubscription : ∀ a ∈ db.accounts.rows, a.subscriptionId = some subscriptionId →
      a.ownerUserId = owner)
    (haccounts : db'.accounts = db.accounts.update owner f hf) :
    Subscribed catalog owner customer subscriptionId mark' db' where
  named := named
  account := by
    refine ⟨f row, plan, ?_, bound, subscribed, marked, onPlan, sold⟩
    rw [haccounts, Table.find?_update_self, account]
    rfl
  customer := only_of_update hf onlyCustomer haccounts
  subscription := only_of_update hf onlySubscription haccounts

/-- What a delivery does to a subscribed account, to the recorded events and to the grants. -/
structure Delivered (owner : String) (n : Notice catalog owner customer subscriptionId)
    (mark : ℤ) (honoured : Prop) (db db' : Billing) : Prop where
  subscribed : Subscribed catalog owner customer subscriptionId mark db'
  recorded : db'.webhookEvents =
    db.webhookEvents.insertOrIgnore (eventRow n.event n.delivery.payloadSha256 n.now)
  granted : ∀ periods, Granted owner subscriptionId periods db →
    Granted owner subscriptionId
      (fun start => periods start ∨ PaidInvoice subscriptionId start n.event ∧ honoured) db'

/-- An event is older than the newest one applied to the account. -/
theorem newerEventApplied_iff {row : BillingAccount} (marked : row.providerEventCreated = some mark)
    (created : ℤ) : row.newerEventApplied created = true ↔ created < mark := by
  simp [BillingAccount.newerEventApplied, marked]

/-- An account on a subscription plan is read as it stands. -/
theorem account_of_sold {row : BillingAccount} {plan : Plan} (now : ℤ)
    (account : db.accounts.find? owner = some row)
    (onPlan : catalog.plans.find? row.catalogId = some plan) (sold : plan.kind = .subscription) :
    CreditLedger.account catalog owner now db = .ok (row, db) := by
  simp [CreditLedger.account, openAccount, account, onPlan, monthlyGrant, sold, pure, Except.pure]

/-- A paid invoice of a sold subscription is honoured unless a newer event was applied. -/
theorem invoice_of_paid {row : BillingAccount} {plan : Plan} {event : StripeEvent} {start : ℤ}
    (now : ℤ) (paid : PaidInvoice subscriptionId start event)
    (found : db.accountOfSubscription subscriptionId = some row)
    (onPlan : catalog.plans.find? row.catalogId = some plan) (sold : plan.kind = .subscription) :
    invoice catalog event now db = .ok (if row.newerEventApplied event.created then db
      else invoicePaid row plan subscriptionId event now db) := by
  simp only [invoice, paid.subscription, found, onPlan, sold, paid.type]
  split
  · rfl
  · rfl

variable {n : Notice catalog owner customer subscriptionId}

/-- An update is no paid invoice. -/
theorem SubscriptionUpdate.not_paid {event : StripeEvent} {start : ℤ}
    (update : SubscriptionUpdate catalog owner customer subscriptionId event) :
    ¬PaidInvoice subscriptionId start event := by
  intro paid
  rcases update.type with h | h <;> simp [paid.type] at h

/-- A new update is applied to a subscribed account unless a newer event was. -/
theorem Subscribed.deliver_update
    (h : Subscribed catalog owner customer subscriptionId mark db)
    (fresh : db.webhookEvents.find? n.event.id = none)
    (update : SubscriptionUpdate catalog owner customer subscriptionId n.event) :
    Delivered owner n (max mark n.event.created) (mark ≤ n.event.created) db (n.deliver db) := by
  have hrecord := h.recordEvent n.event n.delivery.payloadSha256 n.now
  obtain ⟨row, current, account, bound, subscribed, marked, onPlan, sold⟩ := hrecord.account
  obtain ⟨plan, status, stored, sells, active, happlied⟩ := subscription_of_update update h.named
    account bound hrecord.customer (account_of_sold n.now account onPlan sold)
    hrecord.subscription
  have hdeliver := Notice.deliver_new fresh ((dispatch_subscription update).trans happlied)
  have hnot (start : ℤ) : ¬PaidInvoice subscriptionId start n.event := update.not_paid
  split at hdeliver
  · next stale =>
    have stale := (newerEventApplied_iff marked _).mp stale
    rw [hdeliver, max_eq_left stale.le]
    exact ⟨hrecord, rfl, fun periods granted => granted.congr rfl (by simp [hnot])⟩
  · next recent =>
    have recent := not_lt.mp fun h => recent ((newerEventApplied_iff marked _).mpr h)
    rw [hdeliver, max_eq_right recent]
    refine ⟨.write (f := withSubscription catalog plan subscriptionId status n.event.object
      n.event.created n.now) (fun _ => rfl) h.named account bound (by simp [active]) rfl
      (by simpa [active] using stored) sells hrecord.customer hrecord.subscription rfl, rfl,
      fun periods granted => granted.congr rfl (by simp [hnot])⟩

/-- A new paid invoice grants its period unless a newer event was applied. -/
theorem Subscribed.deliver_paid {start : ℤ}
    (h : Subscribed catalog owner customer subscriptionId mark db)
    (fresh : db.webhookEvents.find? n.event.id = none)
    (paid : PaidInvoice subscriptionId start n.event) :
    Delivered owner n (max mark n.event.created) (mark ≤ n.event.created) db (n.deliver db) := by
  have hrecord := h.recordEvent n.event n.delivery.payloadSha256 n.now
  obtain ⟨row, plan, account, bound, subscribed, marked, onPlan, sold⟩ := hrecord.account
  have hdeliver := Notice.deliver_new fresh ((dispatch_paid paid.type).trans (invoice_of_paid n.now
    paid (accountOfSubscription_eq account subscribed hrecord.subscription) onPlan sold))
  have hsame (s : ℤ) : PaidInvoice subscriptionId s n.event ↔ s = start := by
    constructor
    · exact fun h => Option.some.inj (h.periodStart.symm.trans paid.periodStart)
    · rintro rfl
      exact paid
  split at hdeliver
  · next stale =>
    have stale := (newerEventApplied_iff marked _).mp stale
    rw [hdeliver, max_eq_left stale.le]
    exact ⟨hrecord, rfl, fun periods granted => granted.congr rfl (by simp [not_le.mpr stale])⟩
  · next recent =>
    have recent := not_lt.mp fun h => recent ((newerEventApplied_iff marked _).mpr h)
    rw [hdeliver, max_eq_right recent]
    obtain ⟨-, rfl⟩ := Table.mem_of_find? account
    refine ⟨.write (f := afterInvoicePaid _ _ _ n.event.created n.now) (fun _ => rfl) h.named
      account bound subscribed rfl onPlan sold hrecord.customer hrecord.subscription rfl, rfl,
      fun periods granted => ?_⟩
    have hkey : (invoiceGrantEntry row plan subscriptionId (periodStart n.event.object n.now)
        n.now).idempotencyKey = periodGrant subscriptionId start := by
      simp [invoiceGrantEntry, periodGrant, periodStart, paid.periodStart]
    refine (granted.insert rfl hkey rfl rfl).congr rfl ?_
    simp [hsame, recent]

/-- A new event is applied to a subscribed account unless a newer one was. -/
theorem Subscribed.deliver (h : Subscribed catalog owner customer subscriptionId mark db)
    (fresh : db.webhookEvents.find? n.event.id = none) :
    Delivered owner n (max mark n.event.created) (mark ≤ n.event.created) db (n.deliver db) := by
  rcases n.kind with update | ⟨start, paid⟩
  · exact h.deliver_update fresh update
  · exact h.deliver_paid fresh paid

/-- Recording an event keeps the account onboarded. -/
theorem Onboarded.recordEvent (h : Onboarded catalog owner customer subscriptionId db)
    (event : StripeEvent) (digest : String) (now : ℤ) :
    Onboarded catalog owner customer subscriptionId
      (StripeWebhookProcessor.recordEvent event digest now db) :=
  ⟨h.named, h.account, h.customer, h.subscription, h.ungranted⟩

/-- Reading an onboarded account grants its calendar month at most. -/
theorem Onboarded.read (h : Onboarded catalog owner customer subscriptionId db) (now : ℤ) :
    ∃ row mid, CreditLedger.account catalog owner now db = .ok (row, mid) ∧
      mid.accounts.find? owner = some row ∧ row.externalCustomerRef = some customer ∧
      row.providerEventCreated = none ∧ mid.webhookEvents = db.webhookEvents ∧
      (∀ a ∈ mid.accounts.rows, a.externalCustomerRef = some customer → a.ownerUserId = owner) ∧
      (∀ a ∈ mid.accounts.rows, a.subscriptionId = some subscriptionId → a.ownerUserId = owner) ∧
      ∀ periods, Granted owner subscriptionId periods db →
        Granted owner subscriptionId periods mid := by
  obtain ⟨row, account, bound, unmarked, known⟩ := h.account
  obtain ⟨plan, onPlan⟩ := Option.ne_none_iff_exists'.mp known
  obtain rfl := (Table.mem_of_find? account).2
  have hread : CreditLedger.account catalog row.ownerUserId now db =
      .ok (monthlyGrant row plan now db) := by
    simp [CreditLedger.account, openAccount, account, onPlan, pure, Except.pure]
  rcases monthlyGrant_cases row plan now db with hnone | ⟨-, hgrant⟩
  · exact ⟨row, db, hread.trans (congrArg Except.ok hnone), account, bound, unmarked, rfl,
      h.customer, h.subscription, fun _ granted => granted⟩
  · refine ⟨_, _, hread.trans (congrArg Except.ok hgrant), ?_, bound, unmarked, rfl,
      only_of_update (f := afterMonthlyGrant plan now) (fun _ => rfl) h.customer rfl,
      only_of_update (f := afterMonthlyGrant plan now) (fun _ => rfl) h.subscription rfl,
      fun periods granted => ?_⟩
    · rw [Table.find?_update_self, account]
      rfl
    · exact granted.insert_other rfl
        fun start => monthlyGrant_ne_periodGrant plan.id subscriptionId now start

/-- The first update is applied to an onboarded account. -/
theorem Onboarded.deliver (h : Onboarded catalog owner customer subscriptionId db)
    (fresh : db.webhookEvents.find? n.event.id = none)
    (update : SubscriptionUpdate catalog owner customer subscriptionId n.event) :
    Delivered owner n n.event.created True db (n.deliver db) := by
  have hrecord := h.recordEvent n.event n.delivery.payloadSha256 n.now
  obtain ⟨before, hbefore, hbound, -, -⟩ := hrecord.account
  obtain ⟨row, mid, hread, account, bound, unmarked, hevents, onlyCustomer, onlySubscription,
    hgranted⟩ := hrecord.read n.now
  obtain ⟨plan, status, stored, sells, active, happlied⟩ := subscription_of_update update h.named
    hbefore hbound hrecord.customer hread onlySubscription
  have hdeliver := Notice.deliver_new fresh ((dispatch_subscription update).trans happlied)
  rw [if_neg (by simp [BillingAccount.newerEventApplied, unmarked])] at hdeliver
  rw [hdeliver]
  refine ⟨.write (f := withSubscription catalog plan subscriptionId status n.event.object
    n.event.created n.now) (fun _ => rfl) h.named account bound (by simp [active]) rfl
    (by simpa [active] using stored) sells onlyCustomer onlySubscription rfl, hevents,
    fun periods granted => ?_⟩
  have granted : Granted owner subscriptionId periods (StripeWebhookProcessor.recordEvent n.event
    n.delivery.payloadSha256 n.now db) := granted.congr rfl fun _ => Iff.rfl
  have hnot (start : ℤ) : ¬PaidInvoice subscriptionId start n.event := update.not_paid
  exact (hgranted periods granted).congr rfl (by simp [hnot])

/-- A paid invoice of the period is delivered for the first time ahead of every newer event. -/
def InOrder (notices : List (Notice catalog owner customer subscriptionId)) (start : ℤ) : Prop :=
  ∃ before n after, notices = before ++ n :: after ∧
    PaidInvoice subscriptionId start n.event ∧
    ∀ m ∈ before, m.event.id ≠ n.event.id ∧ m.event.created ≤ n.event.created

/-- Another notice brings its own period in order, if it does. -/
theorem inOrder_concat {notices : List (Notice catalog owner customer subscriptionId)} {start : ℤ} :
    InOrder (notices ++ [n]) start ↔ InOrder notices start ∨
      PaidInvoice subscriptionId start n.event ∧
        ∀ m ∈ notices, m.event.id ≠ n.event.id ∧ m.event.created ≤ n.event.created := by
  constructor
  · rintro ⟨before, m, after, hsplit, paid, first⟩
    rcases List.eq_nil_or_concat after with rfl | ⟨after, last, rfl⟩
    · obtain ⟨rfl, hm⟩ := List.append_inj' hsplit rfl
      obtain rfl : n = m := by simpa using hm
      exact .inr ⟨paid, first⟩
    · have hs : notices ++ [n] = (before ++ m :: after) ++ [last] := by
        simpa [List.concat_eq_append] using hsplit
      obtain ⟨rfl, -⟩ := List.append_inj' hs rfl
      exact .inl ⟨before, m, after, rfl, paid, first⟩
  · rintro (⟨before, m, after, rfl, paid, first⟩ | ⟨paid, first⟩)
    · exact ⟨before, m, after ++ [n], by simp, paid, first⟩
    · exact ⟨notices, n, [], rfl, paid, first⟩

/-- The tables after some deliveries: the newest event was applied last, every event is recorded,
and the periods in order are granted. -/
structure Progress (start : Billing)
    (delivered : List (Notice catalog owner customer subscriptionId)) (db : Billing) : Prop where
  subscribed : ∃ mark, Subscribed catalog owner customer subscriptionId mark db ∧
    ∀ created, mark ≤ created ↔ ∀ m ∈ delivered, m.event.created ≤ created
  recorded : ∀ m ∈ delivered, ∃ prior, db.webhookEvents.find? m.event.id = some prior ∧
    prior.payloadSha256 = some m.delivery.payloadSha256
  others : ∀ id, (∀ m ∈ delivered, m.event.id ≠ id) →
    db.webhookEvents.find? id = start.webhookEvents.find? id
  granted : Granted owner subscriptionId (InOrder delivered) db

/-- A delivery that is applied or dropped adds to the progress. -/
theorem Delivered.progress {start : Billing} {mark : ℤ} {honoured : Prop}
    {delivered : List (Notice catalog owner customer subscriptionId)}
    (h : Delivered owner n mark honoured db db')
    (fresh : db.webhookEvents.find? n.event.id = none)
    (newest : ∀ created, mark ≤ created ↔
      ∀ m ∈ delivered ++ [n], m.event.created ≤ created)
    (recorded : ∀ m ∈ delivered, ∃ prior, db.webhookEvents.find? m.event.id = some prior ∧
      prior.payloadSha256 = some m.delivery.payloadSha256)
    (others : ∀ id, (∀ m ∈ delivered, m.event.id ≠ id) →
      db.webhookEvents.find? id = start.webhookEvents.find? id)
    (granted : Granted owner subscriptionId (InOrder delivered) db)
    (first : honoured ↔ ∀ m ∈ delivered, m.event.id ≠ n.event.id ∧
      m.event.created ≤ n.event.created) :
    Progress start (delivered ++ [n]) db' where
  subscribed := ⟨mark, h.subscribed, newest⟩
  recorded m hm := by
    rw [h.recorded, Table.find?_insertOrIgnore]
    rcases List.mem_append.mp hm with hm | hm
    · obtain ⟨prior, hprior, hsame⟩ := recorded m hm
      exact ⟨prior, by rw [hprior]; rfl, hsame⟩
    · obtain rfl := List.mem_singleton.mp hm
      refine ⟨eventRow m.event m.delivery.payloadSha256 m.now, ?_, rfl⟩
      rw [fresh]
      simp [eventRow]
  others id hid := by
    have hn : n.event.id ≠ id := hid n (by simp)
    rw [h.recorded, Table.find?_insertOrIgnore, others id fun m hm => hid m (by simp [hm])]
    simp [eventRow, hn]
  granted := (h.granted _ granted).congr rfl fun s => by rw [inOrder_concat, first]

/-- A further delivery makes progress. -/
theorem Progress.deliver {start : Billing}
    {delivered : List (Notice catalog owner customer subscriptionId)}
    (h : Progress start delivered db) (fresh : start.webhookEvents.find? n.event.id = none)
    (duplicates : ∀ m ∈ delivered, m.event.id = n.event.id → m.delivery = n.delivery) :
    Progress start (delivered ++ [n]) (n.deliver db) := by
  obtain ⟨mark, subscribed, newest⟩ := h.subscribed
  by_cases seen : ∃ m ∈ delivered, m.event.id = n.event.id
  · obtain ⟨m, hm, hid⟩ := seen
    have hsame := duplicates m hm hid
    have hevent : m.event = n.event :=
      Except.ok.inj (m.verified.symm.trans ((congrArg _ hsame).trans n.verified))
    obtain ⟨prior, hprior, hdigest⟩ := h.recorded m hm
    rw [Notice.deliver_again (hid ▸ hprior) (hsame ▸ hdigest)]
    refine ⟨⟨mark, subscribed, fun created => ?_⟩, fun k hk => ?_, fun id hid => ?_, ?_⟩
    · rw [newest]
      constructor
      · intro hall k hk
        rcases List.mem_append.mp hk with hk | hk
        · exact hall k hk
        · rw [List.mem_singleton.mp hk, ← hevent]
          exact hall m hm
      · exact fun hall k hk => hall k (by simp [hk])
    · rcases List.mem_append.mp hk with hk | hk
      · exact h.recorded k hk
      · rw [List.mem_singleton.mp hk, ← hevent, ← hsame]
        exact h.recorded m hm
    · exact h.others id fun k hk => hid k (by simp [hk])
    · refine h.granted.congr rfl fun s => ?_
      rw [inOrder_concat]
      exact ⟨.inl, fun h => h.resolve_right fun ⟨_, first⟩ => (first m hm).1 hid⟩
  · have unseen : ∀ m ∈ delivered, m.event.id ≠ n.event.id := fun m hm he => seen ⟨m, hm, he⟩
    have hfree : db.webhookEvents.find? n.event.id = none := (h.others _ unseen).trans fresh
    refine (subscribed.deliver hfree).progress hfree (fun created => ?_) h.recorded h.others
      h.granted ?_
    · rw [max_le_iff, newest]
      simp [or_imp, forall_and]
    · rw [newest]
      exact ⟨fun hall m hm => ⟨unseen m hm, hall m hm⟩, fun hall m hm => (hall m hm).2⟩

/-- The first update makes progress. -/
theorem Onboarded.progress (h : Onboarded catalog owner customer subscriptionId db)
    (fresh : db.webhookEvents.find? n.event.id = none)
    (update : SubscriptionUpdate catalog owner customer subscriptionId n.event) :
    Progress db [n] (n.deliver db) := by
  show Progress db ([] ++ [n]) (n.deliver db)
  refine (h.deliver fresh update).progress fresh (by simp) (by simp) (fun _ _ => rfl)
    ⟨fun e he s hs => absurd hs (h.ungranted e he s), fun s => ?_⟩ (by simp)
  constructor
  · rintro ⟨e, he, hs⟩
    exact absurd hs (h.ungranted e he s)
  · rintro ⟨before, m, after, hsplit, -⟩
    simp at hsplit

/-- Deliveries make progress. -/
theorem Progress.run {start : Billing}
    {delivered rest : List (Notice catalog owner customer subscriptionId)}
    (h : Progress start delivered db)
    (fresh : ∀ n ∈ rest, start.webhookEvents.find? n.event.id = none)
    (duplicates : ∀ m ∈ delivered ++ rest, ∀ n ∈ delivered ++ rest, m.event.id = n.event.id →
      m.delivery = n.delivery) :
    Progress start (delivered ++ rest) (run Notice.deliver db rest) := by
  induction rest generalizing db delivered with
  | nil => simpa using h
  | cons n rest ih =>
    have hn := h.deliver (fresh n List.mem_cons_self)
      fun m hm => duplicates m (by simp [hm]) n (by simp)
    have hsplit : delivered ++ n :: rest = delivered ++ [n] ++ rest := by simp
    rw [hsplit, run_cons]
    exact ih hn (fun m hm => fresh m (List.mem_cons_of_mem n hm)) (hsplit ▸ duplicates)

end Deliveries

section Subscriber

/-- An account that a customer was bound to. -/
def boundAccount : Billing :=
  run billingStep (Billing.initial ["user"])
    [(Shipped.activated, .bindCustomer "user" "customer" 1704067200)]

/-- Binding a customer leaves the account onboarded. -/
theorem boundAccount_onboarded :
    Onboarded Shipped.activated "user" "customer" "subscription" boundAccount where
  named := by decide
  account := by
    obtain ⟨row, hrow⟩ : ∃ row, boundAccount.accounts.find? "user" = some row :=
      Option.isSome_iff_exists.mp (by decide)
    have hfields : ∀ row ∈ boundAccount.accounts.find? "user",
        row.externalCustomerRef = some "customer" ∧ row.providerEventCreated = none ∧
          Shipped.activated.plans.find? row.catalogId ≠ none := by
      decide
    exact ⟨row, hrow, hfields row hrow⟩
  customer := by decide
  subscription := by decide
  ungranted e he start := by
    have hmonth : ∀ e ∈ boundAccount.ledger.rows,
        e.idempotencyKey = ledgerKey .included ("free" ++ ":" ++ periodKey 1704067200) := by
      decide
    rw [hmonth e he]
    exact monthlyGrant_ne_periodGrant "free" "subscription" 1704067200 start

/-- The active subscription is sold at the individual plan's price. -/
theorem activeSubscription_update (id : String) (created : ℤ) :
    SubscriptionUpdate Shipped.activated "user" "customer" "subscription"
      ⟨id, "customer.subscription.updated", created, .obj activeSubscription⟩ where
  type := .inr rfl
  id := rfl
  customer := rfl
  owner := by simp [metadata, activeSubscription, Json.get, List.lookup, Json.str?, nonemptyText]
  active := ⟨"active", rfl, by decide⟩
  price := by
    refine ⟨"price_individual", Shipped.individual fun id => some ("price_" ++ id), rfl,
      by decide, ?_⟩
    simp [metadata, activeSubscription, Json.get, List.lookup, Json.str?, nonemptyText]
  period := ⟨rfl, rfl⟩

/-- An invoice for a month of the subscription is one. -/
theorem monthlyInvoice_paid (id : String) (created start : ℤ) :
    PaidInvoice "subscription" start ⟨id, "invoice.paid", created, .obj (monthlyInvoice start)⟩ :=
  ⟨rfl, rfl, rfl, by simp [monthlyInvoice, Json.get, List.lookup, Json.int?]⟩

/-- A notice of the active subscription. -/
def subscriptionNotice (id : String) (created : ℤ) (h : 0 < created) :
    Notice Shipped.activated "user" "customer" "subscription" where
  delivery := providerDelivery id "customer.subscription.updated" created activeSubscription
  now := created
  event := ⟨id, "customer.subscription.updated", created, .obj activeSubscription⟩
  verified := providerDelivery_event h
  kind := .inl (activeSubscription_update id created)

/-- A notice of a paid invoice for a month of the subscription. -/
def invoiceNotice (id : String) (created start : ℤ) (h : 0 < created) :
    Notice Shipped.activated "user" "customer" "subscription" where
  delivery := providerDelivery id "invoice.paid" created (monthlyInvoice start)
  now := created
  event := ⟨id, "invoice.paid", created, .obj (monthlyInvoice start)⟩
  verified := providerDelivery_event h
  kind := .inr ⟨start, monthlyInvoice_paid id created start⟩

/-- A subscription that is renewed before its first invoice is delivered. -/
def overtakenNotices : List (Notice Shipped.activated "user" "customer" "subscription") :=
  [subscriptionNotice "started" 1704067200 (by decide),
   subscriptionNotice "renewed" 1706745600 (by decide),
   invoiceNotice "paid" 1704067201 1704067200 (by decide)]

end Subscriber

end Magistrate
