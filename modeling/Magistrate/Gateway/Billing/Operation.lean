import Magistrate.Gateway.Billing.Webhook

/-!
# Billing runs

The transactions that write the billing tables, as one type of operations. A step
commits an operation under the catalog then in force, so a run is a list of
catalogs and operations in commit order.
-/

namespace Magistrate

namespace BillingService

/-- `_customer`: bind a provider's customer to an account that has none. -/
def bindCustomer (catalog : BillingCatalog) (owner customer : String) (now : ℤ) (db : Billing) :
    Except BillingFailure (String × Billing) := do
  let (row, db) ← CreditLedger.account catalog owner now db
  let customer := row.externalCustomerRef.getD customer
  -- the index on customers is unique
  raiseIf (∃ other ∈ db.accounts.rows, other.ownerUserId ≠ owner ∧
    other.externalCustomerRef = some customer) .integrityError
  return (customer, { db with accounts := db.accounts.update owner fun a =>
    { a with externalCustomerRef := some customer, updatedAt := now } })

/-- `checkout`: record the provider's session of a purchase. -/
def recordCheckout (session : CheckoutSession) (db : Billing) : Except BillingFailure Billing :=
  let prior := db.checkoutSessions.rows.find? fun s =>
    s.ownerUserId = session.ownerUserId ∧ s.idempotencyKey = session.idempotencyKey
  if db.checkoutSessions.find? session.stripeSessionId = none ∧ prior = none then
    .ok { db with checkoutSessions := db.checkoutSessions.insertOrIgnore session }
  else do
    raiseIf (prior.map (·.catalogId) ≠ some session.catalogId) (billingError
      "idempotency_conflict" "Checkout key is bound to another purchase." 409)
    return db

end BillingService

/-- A transaction on the billing tables. -/
inductive BillingOp where
  | summary (owner : String) (now : ℤ)
  | reserveObjective (owner objective key : String) (now : ℤ)
  | releaseObjective (owner objective : String) (now : ℤ)
  | settleObjective (owner objective : String) (usage : Json) (eventId : String) (now : ℤ)
  | refundObjective (owner objective : String) (amount : ℤ) (key : String) (now : ℤ)
  | addCredits (owner : String) (credits : ℤ) (key source : String) (now : ℤ)
  | process (delivery : WebhookDelivery) (now : ℤ)
  | acceptWebhook (delivery : WebhookDelivery) (now : ℤ)
  | bindCustomer (owner customer : String) (now : ℤ)
  | recordCheckout (session : CheckoutSession)

namespace BillingOp

/-- The tables an operation returns, unless it raises. -/
def apply (catalog : BillingCatalog) (db : Billing) : BillingOp → Except BillingFailure Billing
  | summary owner now => stateOf (CreditLedger.summary catalog owner now db)
  | reserveObjective owner objective key now =>
    stateOf (CreditLedger.reserveObjective catalog owner objective key now db)
  | releaseObjective owner objective now =>
    stateOf (CreditLedger.releaseObjective owner objective now db)
  | settleObjective owner objective usage eventId now =>
    stateOf (CreditLedger.settleObjective catalog owner objective usage eventId now db)
  | refundObjective owner objective amount key now =>
    stateOf (CreditLedger.refundObjective owner objective amount key now db)
  | addCredits owner credits key source now =>
    stateOf (CreditLedger.addCredits catalog owner credits key source now db)
  | process delivery now => stateOf (StripeWebhookProcessor.process catalog delivery now db)
  | acceptWebhook delivery now => stateOf (LegacyWebhook.accept delivery now db)
  | bindCustomer owner customer now =>
    stateOf (BillingService.bindCustomer catalog owner customer now db)
  | recordCheckout session => BillingService.recordCheckout session db

end BillingOp

/-- Commit an operation under a catalog. -/
def billingStep (db : Billing) (i : BillingCatalog × BillingOp) : Billing :=
  commit (i.2.apply i.1 db) db

end Magistrate
