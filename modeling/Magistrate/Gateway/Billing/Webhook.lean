import Magistrate.Gateway.Billing.Ledger

/-!
# Payment provider webhooks

A delivery is one transaction that records the event's identity before any other
write. The signature check and the digest of the payload are part of the
delivery; everything the processor reads of the payload is decoded JSON.
-/

namespace Magistrate

/-- A webhook request as the processor receives it. -/
structure WebhookDelivery where
  /-- The webhook secret is configured. -/
  configured : Bool
  /-- The signature verifies. -/
  verified : Bool
  /-- The decoded payload, unless decoding fails. -/
  payload : Option Json
  /-- Digest of the payload bytes. -/
  payloadSha256 : String

/-- The envelope of a provider event. -/
structure StripeEvent where
  id : String
  type : String
  created : ℤ
  /-- `data.object` -/
  object : Json

/-- Read the envelope and the object of an event. -/
def StripeEvent.ofJson (value : Json) : Except BillingFailure StripeEvent :=
  match (value.get "id").str?, (value.get "type").str?, (value.get "created").int? with
  | some id, some type, some created =>
    if created ≤ 0 then
      .error (billingError "webhook_invalid" "Stripe webhook envelope is invalid.")
    else
      let object := (value.get "data").get "object"
      if object.isObj then .ok { id, type, created, object }
      else .error (billingError "webhook_invalid" "Stripe webhook object is invalid.")
  | _, _, _ => .error (billingError "webhook_invalid" "Stripe webhook envelope is invalid.")

/-- The event of a verified delivery. -/
def WebhookDelivery.event (delivery : WebhookDelivery) : Except BillingFailure StripeEvent := do
  raiseIf (¬delivery.configured) (billingError "stripe_not_configured"
    "Stripe webhook handling is not activated." 503)
  raiseIf (¬delivery.verified) (billingError "webhook_signature_invalid"
    "Stripe webhook signature is invalid." 400)
  match delivery.payload with
  | none => .error (billingError "webhook_invalid" "Stripe webhook JSON is invalid.")
  | some value => StripeEvent.ofJson value

/-- What processing a delivery answers. -/
inductive WebhookStatus where
  | processed
  | duplicate
  deriving DecidableEq, Repr

/-- A text that is neither missing nor empty. -/
def nonemptyText (text : Option String) : Option String := text.filter (· ≠ "")

namespace StripeWebhookProcessor

/-- `_metadata`: the owner and the catalog id an object was tagged with. -/
def metadata (object : Json) : Option String × Option String :=
  (((object.get "metadata").get "magistrate_owner").str?,
    ((object.get "metadata").get "catalog_id").str?)

/-- The price id of the first subscription item. -/
def itemPrice (object : Json) : Except BillingFailure Json :=
  let items := object.get "items"
  -- a missing list of items reads as an empty one
  let data := if items.isObj then items.get "data" else .arr []
  match data with
  | .arr (item :: _) =>
    if item.isObj && (item.get "price").isObj then .ok ((item.get "price").get "id") else .ok .null
  | .obj (_ :: _) => .error .keyError
  | .bool true => .error .typeError
  | .int value => if value = 0 then .ok .null else .error .typeError
  | .real true => .error .typeError
  | _ => .ok .null

/-- The subscription plan sold at a subscription object's price. -/
def subscriptionPlan (catalog : BillingCatalog) (object : Json) (catalogId : Option String) :
    Except BillingFailure Plan := do
  let price ← itemPrice object
  let priceCatalogPlan := match price.str?.bind catalog.priceItem with
    | some (.subscription plan) => some plan
    | _ => none
  match priceCatalogPlan with
  | none => .error (billingError "subscription_price_unknown"
      "Stripe subscription price is not in the active catalog." 409)
  | some plan =>
    raiseIf ((nonemptyText catalogId).any fun id => plan.id ≠ "" ∧ id ≠ plan.id) (billingError
      "subscription_price_conflict" "Stripe subscription metadata and price disagree." 409)
    raiseIf (plan.kind ≠ .subscription) (billingError "subscription_price_unknown"
      "Stripe subscription price is not in the active catalog." 409)
    return plan

/-- The account owner that a subscription object is bound to by its customer. -/
def subscriptionOwner (db : Billing) (object : Json) (owner : Option String) :
    Except BillingFailure (String × String) := do
  let customerOwner := (object.get "customer").str?.bind fun customer =>
    (db.accountOfCustomer customer).map (·.ownerUserId)
  match nonemptyText owner, nonemptyText customerOwner with
  | some owner, some customerOwner =>
    raiseIf (owner ≠ customerOwner) (billingError "subscription_owner_conflict"
      "Stripe subscription ownership is inconsistent." 409)
  | _, _ => .ok ()
  let owner := (nonemptyText owner).or customerOwner
  match nonemptyText owner, (object.get "id").str? with
  | some owner, some subscriptionId =>
    raiseIf (customerOwner ≠ some owner) (billingError "subscription_unknown"
      "Stripe subscription is not bound to a Magistrate account." 409)
    return (owner, subscriptionId)
  | _, _ => .error (billingError "subscription_unknown"
      "Stripe subscription is not bound to a Magistrate account." 409)

/-- The grace of a past-due account starts once. -/
def graceFrom (account : BillingAccount) (plan : Plan) (now : ℤ) : ℤ :=
  account.graceEndsAt.getD (now + plan.graceDays * 86400)

/-- The account fields that a subscription event writes. -/
abbrev withSubscription (catalog : BillingCatalog) (plan : Plan) (subscriptionId status : String)
    (object : Json) (eventCreated now : ℤ) (account : BillingAccount) : BillingAccount :=
  { account with
    catalogId := if status = "canceled" then catalog.defaultPlan else plan.id
    status := if status = "canceled" then "active" else status
    subscriptionId := if status = "canceled" then none else some subscriptionId
    currentPeriodStart := object.get "current_period_start"
    currentPeriodEnd := object.get "current_period_end"
    cancelAtPeriodEnd := match object.get "cancel_at_period_end" with
      | .bool true => true
      | _ => false
    graceEndsAt :=
      if status = "past_due" ∨ status = "unpaid" then some (graceFrom account plan now) else none
    providerEventCreated := some eventCreated
    updatedAt := now }

/-- `_subscription`: move an account to the plan and the status of its subscription. -/
def subscription (catalog : BillingCatalog) (event : StripeEvent) (now : ℤ) (db : Billing) :
    Except BillingFailure Billing := do
  let object := event.object
  let (owner, catalogId) := metadata object
  let (owner, subscriptionId) ← subscriptionOwner db object owner
  let plan ← subscriptionPlan catalog object catalogId
  let (row, db) ← CreditLedger.account catalog owner now db
  if row.newerEventApplied event.created then return db
  else
    let status := if event.type = "customer.subscription.deleted" then "canceled"
      else (object.get "status").str?.getD "canceled"
    raiseIf (¬(object.get "current_period_start").isScalar ∨
      ¬(object.get "current_period_end").isScalar) .interfaceError
    -- the index on subscription ids is unique
    raiseIf (status ≠ "canceled" ∧
      ∃ other ∈ db.accounts.rows, other.subscriptionId = some subscriptionId ∧
        other.ownerUserId ≠ owner) .integrityError
    return { db with
      accounts := db.accounts.update owner
        (withSubscription catalog plan subscriptionId status object event.created now) }

/-- The ledger entry of a paid invoice's monthly grant. -/
def invoiceGrantEntry (account : BillingAccount) (plan : Plan) (subscriptionId : String)
    (periodStart now : ℤ) : LedgerEntry where
  ownerUserId := account.ownerUserId
  idempotencyKey := ledgerKey .included (subscriptionId ++ ":" ++ toString periodStart)
  entryType := .includedGrant
  amountMicrocredits := microcredits plan.monthlyIncludedCredits
  balanceAfterMicrocredits :=
    account.availableMicrocredits + microcredits plan.monthlyIncludedCredits
  reservationId := none
  objectiveId := none
  source := "stripe"
  createdAt := now

/-- The subscription of an invoice object, if it has one. -/
def invoiceSubscription (object : Json) : Option String :=
  let subscription := object.get "subscription"
  if subscription.isObj then (subscription.get "id").str? else subscription.str?

/-- An account after a paid invoice. -/
abbrev afterInvoicePaid (periodStart : ℤ) (periodEnd : Json) (granted : ℤ) (eventCreated now : ℤ)
    (account : BillingAccount) : BillingAccount :=
  { account with
    status := "active"
    graceEndsAt := none
    currentPeriodStart := .int periodStart
    currentPeriodEnd := periodEnd
    periodKey := some (toString periodStart)
    periodSpendMicrocredits := 0
    availableMicrocredits := account.availableMicrocredits + granted
    providerEventCreated := some eventCreated
    updatedAt := now }

/-- The start of an invoice's period, by default the time of its delivery. -/
def periodStart (object : Json) (now : ℤ) : ℤ := (object.get "period_start").int?.getD now

/-- A paid invoice grants its period once and starts the period's spend anew. -/
def invoicePaid (account : BillingAccount) (plan : Plan) (subscriptionId : String)
    (event : StripeEvent) (now : ℤ) (db : Billing) : Billing :=
  let start := periodStart event.object now
  let periodEnd := match (event.object.get "period_end").int? with
    | some value => .int value
    | none => account.currentPeriodEnd
  let grant : ℤ := microcredits plan.monthlyIncludedCredits
  let (inserted, db) := db.insertLedger (invoiceGrantEntry account plan subscriptionId start now)
  { db with
    accounts := db.accounts.update account.ownerUserId
      (afterInvoicePaid start periodEnd (if inserted then grant else 0) event.created now) }

/-- `_invoice`: apply a paid or a failed invoice to the account of its subscription. -/
def invoice (catalog : BillingCatalog) (event : StripeEvent) (now : ℤ) (db : Billing) :
    Except BillingFailure Billing :=
  match invoiceSubscription event.object with
  -- one-off invoices have no subscription
  | none => .ok db
  | some subscriptionId =>
    match db.accountOfSubscription subscriptionId with
    | none => .error (billingError "subscription_unknown"
        "Stripe invoice subscription is unknown." 409)
    | some account =>
      if account.newerEventApplied event.created then .ok db
      else
        match catalog.plans.find? account.catalogId with
        | none => .error (billingError "subscription_price_unknown"
            "Stripe invoice plan is unknown." 409)
        | some plan =>
          if plan.kind ≠ .subscription then .error (billingError "subscription_price_unknown"
            "Stripe invoice plan is unknown." 409)
          else if event.type = "invoice.payment_failed" then
            .ok { db with accounts := db.accounts.update account.ownerUserId fun a =>
              { a with
                status := "past_due"
                graceEndsAt := some (graceFrom account plan now)
                providerEventCreated := some event.created
                updatedAt := now } }
          else .ok (invoicePaid account plan subscriptionId event now db)

/-- A paid checkout adds the credits of the pack its session sells. -/
def purchase (catalog : BillingCatalog) (event : StripeEvent) (now : ℤ) (db : Billing) :
    Except BillingFailure Billing := do
  match (event.object.get "id").str?.bind db.checkoutSessions.find? with
  | none => .error (billingError "checkout_unknown"
      "Paid checkout is not bound to a Magistrate credit pack." 409)
  | some session =>
    raiseIf (session.kind ≠ .creditPack) (billingError "checkout_unknown"
      "Paid checkout is not bound to a Magistrate credit pack." 409)
    match catalog.packs.find? session.catalogId with
    | none => .error (billingError "catalog_item_not_found"
        "Purchased credit pack no longer exists." 409)
    | some pack =>
      let (row, db) ← CreditLedger.account catalog session.ownerUserId now db
      let amount : ℤ := microcredits pack.credits
      let balance := row.availableMicrocredits + amount
      let (_, db) := db.insertLedger
        (CreditLedger.topupEntry row amount (ledgerKey .stripe event.id) "stripe" now)
      return { db with
        accounts := db.accounts.update session.ownerUserId (CreditLedger.afterTopup balance now) }

/-- The event is a paid one-off checkout. -/
def isPurchase (event : StripeEvent) : Bool :=
  event.type == "checkout.session.completed" &&
    (event.object.get "mode").str? == some "payment" &&
    (event.object.get "payment_status").str? == some "paid"

/-- Apply a newly recorded event. -/
def dispatch (catalog : BillingCatalog) (event : StripeEvent) (now : ℤ) (db : Billing) :
    Except BillingFailure Billing :=
  if isPurchase event then purchase catalog event now db
  else if "customer.subscription.".toList <+: event.type.toList then
    subscription catalog event now db
  else if event.type = "invoice.paid" ∨ event.type = "invoice.payment_failed" then
    invoice catalog event now db
  else .ok db

/-- Paid invoices are dispatched as invoices. -/
theorem dispatch_paid {catalog : BillingCatalog} {event : StripeEvent} {now : ℤ} {db : Billing}
    (paid : event.type = "invoice.paid") :
    dispatch catalog event now db = invoice catalog event now db := by
  have hpurchase : isPurchase event = false := by simp [isPurchase, paid]
  have hsubscription : ¬"customer.subscription.".toList <+: event.type.toList := by
    rw [paid]
    decide
  rw [dispatch, hpurchase, if_neg Bool.false_ne_true, if_neg hsubscription, if_pos (.inl paid)]

/-- The row that records an event's identity. -/
def eventRow (event : StripeEvent) (payloadSha256 : String) (now : ℤ) : WebhookEventRow where
  eventId := event.id
  eventType := event.type
  receivedAt := now
  payloadSha256 := some payloadSha256
  processedAt := some now

/-- Record the identity of an event. -/
def recordEvent (event : StripeEvent) (payloadSha256 : String) (now : ℤ) (db : Billing) :
    Billing :=
  { db with webhookEvents := db.webhookEvents.insertOrIgnore (eventRow event payloadSha256 now) }

/-- `process`: consume a delivery once for its event id. -/
def process (catalog : BillingCatalog) (delivery : WebhookDelivery) (now : ℤ) (db : Billing) :
    Except BillingFailure (WebhookStatus × Billing) := do
  let event ← delivery.event
  match db.webhookEvents.find? event.id with
  | some prior =>
    raiseIf (prior.payloadSha256.any (· ≠ delivery.payloadSha256)) (billingError
      "webhook_conflict" "Stripe event id was reused with different bytes." 409)
    return (.duplicate, db)
  | none =>
    let db ← dispatch catalog event now (recordEvent event delivery.payloadSha256 now db)
    return (.processed, db)

end StripeWebhookProcessor

namespace LegacyWebhook

/-- The event of a delivery to the pre-catalog endpoint. -/
def event (delivery : WebhookDelivery) : Except BillingFailure StripeEvent := do
  raiseIf (¬delivery.configured) (billingError "stripe_not_configured"
    "Legacy Stripe billing is not configured." 503)
  raiseIf (¬delivery.verified) (billingError "webhook_signature_invalid"
    "Stripe webhook signature is invalid." 400)
  match delivery.payload with
  | none => .error (billingError "webhook_invalid" "Stripe webhook JSON is invalid.")
  | some value =>
    match (value.get "id").str?, (value.get "type").str?, (value.get "created").int? with
    | some id, some type, some created =>
      let object := (value.get "data").get "object"
      raiseIf (created ≤ 0 ∨ ¬object.isObj)
        (billingError "webhook_invalid" "Stripe webhook envelope is invalid.")
      return { id, type, created, object }
    | _, _, _ => .error (billingError "webhook_invalid" "Stripe webhook envelope is invalid.")

/-- The account owner that an event names, directly or by its customer. -/
def owner (db : Billing) (object : Json) : Option String :=
  let named := (object.get "metadata").get "magistrate_user_id"
  let reference := if named.truthy then named else object.get "client_reference_id"
  reference.str?.or <| (object.get "customer").str?.bind fun customer =>
    (db.accountOfCustomer customer).map (·.ownerUserId)

/-- Subscription events carry their subscription's state. -/
def isSubscription (event : StripeEvent) : Bool :=
  decide ("customer.subscription.".toList <+: event.type.toList)

/-- The columns of the account row that an event writes. -/
structure Upsert where
  customer : Option String
  subscriptionId : Option String
  status : String
  periodEnd : Json
  created : ℤ

/-- The columns an event writes. -/
def upsertOf (event : StripeEvent) : Upsert where
  customer := (event.object.get "customer").str?
  subscriptionId :=
    if isSubscription event then (event.object.get "id").str?
    else (event.object.get "subscription").str?
  status :=
    if isSubscription event then ((event.object.get "status").str?.filter (· ≠ "")).getD "none"
    else if event.type = "checkout.session.completed" then "pending" else "none"
  periodEnd :=
    match isSubscription event, (event.object.get "current_period_end").int? with
    | true, some value => .int value
    | _, _ => .null
  created := event.created

/-- Whether an event applies to the account as it stands. -/
def shouldApply (event : StripeEvent) (existing : Option BillingAccount) : Bool :=
  (isSubscription event && existing.all fun row => !row.newerEventApplied event.created) ||
    (event.type == "checkout.session.completed" &&
      existing.all fun row => ["none", "pending"].contains row.status)

/-- A new account row on the free plan. -/
def inserted (owner : String) (columns : Upsert) (now : ℤ) : BillingAccount :=
  { BillingAccount.opened owner "free" now with
    externalCustomerRef := columns.customer
    subscriptionId := columns.subscriptionId
    status := columns.status
    currentPeriodEnd := columns.periodEnd
    providerEventCreated := some columns.created }

/-- An account row after the conflict clause of the upsert. -/
abbrev conflicted (columns : Upsert) (now : ℤ) (row : BillingAccount) : BillingAccount :=
  { row with
    externalCustomerRef := columns.customer.or row.externalCustomerRef
    subscriptionId := columns.subscriptionId.or row.subscriptionId
    status := columns.status
    currentPeriodEnd := columns.periodEnd
    providerEventCreated :=
      if columns.created < row.providerEventCreated.getD 0 then row.providerEventCreated
      else some columns.created
    updatedAt := now }

/-- `INSERT ... ON CONFLICT(owner_user_id) DO UPDATE`. -/
def upsert (owner : String) (columns : Upsert) (now : ℤ) (db : Billing) :
    Except BillingFailure Billing := do
  -- the indexes on customers and on subscriptions are unique
  raiseIf (∃ other ∈ db.accounts.rows, other.ownerUserId ≠ owner ∧
    ((columns.customer ≠ none ∧ other.externalCustomerRef = columns.customer) ∨
      (columns.subscriptionId ≠ none ∧ other.subscriptionId = columns.subscriptionId)))
    .integrityError
  match db.accounts.find? owner with
  | none => return { db with accounts := db.accounts.insertOrIgnore (inserted owner columns now) }
  | some _ => return { db with accounts := db.accounts.update owner (conflicted columns now) }

/-- Apply an event to the account of a known user. -/
def applyEvent (event : StripeEvent) (now : ℤ) (db : Billing) : Except BillingFailure Billing :=
  match owner db event.object with
  | some owner =>
    if owner ∈ db.userProfiles ∧ shouldApply event (db.accounts.find? owner) then
      upsert owner (upsertOf event) now db
    else .ok db
  | none => .ok db

/-- `accept_webhook`: the pre-catalog subscription contract, which never grants credits. -/
def accept (delivery : WebhookDelivery) (now : ℤ) (db : Billing) :
    Except BillingFailure (WebhookStatus × Billing) := do
  let event ← event delivery
  match db.webhookEvents.find? event.id with
  | some prior =>
    raiseIf (prior.payloadSha256.any (· ≠ delivery.payloadSha256)) (billingError
      "webhook_conflict" "Stripe event id was reused with different bytes." 409)
    return (.duplicate, db)
  | none =>
    let db ← applyEvent event now db
    return (.processed, StripeWebhookProcessor.recordEvent event delivery.payloadSha256 now db)

end LegacyWebhook

end Magistrate
