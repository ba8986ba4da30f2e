import Magistrate.Core.Calendar
import Magistrate.Gateway.Billing.Catalog

/-!
# Billing tables

The rows of the billing schema and the keys its statements compute. Ids that the
code hashes are kept as the text that is hashed: user ids hold no NUL, so
distinct owners and names never share an id. Amounts are unbounded integers.
-/

namespace Magistrate

/-- A row of `billing_accounts`. -/
structure BillingAccount where
  ownerUserId : String
  externalCustomerRef : Option String
  status : String
  createdAt : ℤ
  updatedAt : ℤ
  subscriptionId : Option String
  /-- Provider values are stored as they came. -/
  currentPeriodStart : Json
  currentPeriodEnd : Json
  /-- Creation time of the newest provider event applied to the account. -/
  providerEventCreated : Option ℤ
  catalogId : String
  cancelAtPeriodEnd : Bool
  graceEndsAt : Option ℤ
  availableMicrocredits : ℤ
  reservedMicrocredits : ℤ
  periodSpendMicrocredits : ℤ
  /-- The period of the last grant. -/
  periodKey : Option String

/-- The kinds of ledger entries that the code writes. -/
inductive EntryType where
  | includedGrant
  | topup
  | reservation
  | release
  | settlement
  | refund
  deriving DecidableEq, Repr

/-- A row of `credit_ledger`. -/
structure LedgerEntry where
  ownerUserId : String
  idempotencyKey : String
  entryType : EntryType
  amountMicrocredits : ℤ
  balanceAfterMicrocredits : ℤ
  reservationId : Option String
  objectiveId : Option String
  source : String
  createdAt : ℤ
  deriving DecidableEq, Repr

/-- Entries are unique for an owner and an idempotency key. -/
def LedgerEntry.key (entry : LedgerEntry) : String × String :=
  (entry.ownerUserId, entry.idempotencyKey)

/-- The life of a reservation. -/
inductive ReservationStatus where
  | reserved
  | settled
  | released
  deriving DecidableEq, Repr

/-- A row of `credit_reservations`. -/
structure CreditReservation where
  reservationId : String
  ownerUserId : String
  objectiveId : String
  idempotencyKey : String
  estimatedMicrocredits : ℕ
  actualMicrocredits : Option ℕ
  status : ReservationStatus
  /-- The settled usage object. -/
  usage : Option Usage
  createdAt : ℤ
  updatedAt : ℤ
  deriving DecidableEq, Repr

/-- A row of `execution_usage_ledger`. -/
structure UsageRow where
  ownerUserId : String
  eventId : String
  objectiveId : String
  reservationId : String
  usage : Usage
  costMicrocredits : ℕ
  createdAt : ℤ
  deriving DecidableEq, Repr

/-- Usage rows are unique for an owner and an event. -/
def UsageRow.key (row : UsageRow) : String × String := (row.ownerUserId, row.eventId)

/-- A row of `billing_webhook_events`. -/
structure WebhookEventRow where
  eventId : String
  eventType : String
  receivedAt : ℤ
  payloadSha256 : Option String
  processedAt : Option ℤ
  deriving DecidableEq, Repr

/-- What a checkout session sells. -/
inductive CheckoutKind where
  | subscription
  | creditPack
  deriving DecidableEq, Repr

/-- A row of `billing_checkout_sessions`. -/
structure CheckoutSession where
  stripeSessionId : String
  ownerUserId : String
  catalogId : String
  kind : CheckoutKind
  idempotencyKey : String
  createdAt : ℤ
  deriving DecidableEq, Repr

/-- The billing tables, with the user profiles that accounts refer to. -/
structure Billing where
  userProfiles : List String
  accounts : Table BillingAccount.ownerUserId
  ledger : Table LedgerEntry.key
  reservations : Table CreditReservation.reservationId
  usage : Table UsageRow.key
  webhookEvents : Table WebhookEventRow.eventId
  checkoutSessions : Table CheckoutSession.stripeSessionId

/-- The tables of a new database with some user profiles. -/
def Billing.initial (userProfiles : List String) : Billing where
  userProfiles := userProfiles
  accounts := .empty
  ledger := .empty
  reservations := .empty
  usage := .empty
  webhookEvents := .empty
  checkoutSessions := .empty

/-- The families of idempotency keys that the ledger generates itself. -/
inductive KeyFamily where
  | reserve
  | release
  | settle
  | included
  | stripe
  deriving DecidableEq, Repr

/-- The text a family's keys start with. -/
def KeyFamily.tag : KeyFamily → String
  | reserve => "reserve:"
  | release => "release:"
  | settle => "settle:"
  | included => "included:"
  | stripe => "stripe:"

/-- A generated ledger key. -/
def ledgerKey (family : KeyFamily) (name : String) : String := family.tag ++ name

/-- Generated keys determine their family and their name. -/
theorem ledgerKey_inj {family family' : KeyFamily} {name name' : String} :
    ledgerKey family name = ledgerKey family' name' ↔ family = family' ∧ name = name' := by
  constructor
  · intro h
    have hl := congrArg String.toList h
    simp only [ledgerKey, String.toList_append] at hl
    have hf : family = family' := by
      cases family <;> cases family' <;> first
        | rfl
        | simp [KeyFamily.tag] at hl
    subst hf
    exact ⟨rfl, String.append_right_inj _ |>.mp h⟩
  · rintro ⟨rfl, rfl⟩
    rfl

/-- A caller's key is free of the generated families. -/
def callerKey (key : String) : Prop :=
  ∀ family : KeyFamily, ¬family.tag.toList <+: key.toList

instance (key : String) : Decidable (callerKey key) :=
  decidable_of_iff
    (∀ family ∈ [KeyFamily.reserve, .release, .settle, .included, .stripe],
      ¬family.tag.toList <+: key.toList)
    ⟨fun h family => h family (by cases family <;> simp), fun h family _ => h family⟩

/-- No generated key is a caller's key. -/
theorem ne_ledgerKey_of_callerKey {key : String} (h : callerKey key) (family : KeyFamily)
    (name : String) : key ≠ ledgerKey family name := by
  rintro rfl
  refine h family ?_
  rw [ledgerKey, String.toList_append]
  exact List.prefix_append _ _

/-- The id of an objective's reservation, as the text that is hashed. -/
def reservationId (owner objective : String) : String := "cr_" ++ owner ++ "\x00" ++ objective

/-- `%Y-%m` of a time in seconds, in UTC. -/
def periodKey (now : ℤ) : String :=
  let (year, month) := civilMonth (now / 86400)
  toString year ++ "-" ++ (if month < 10 then "0" else "") ++ toString month

example : periodKey 1704067199 = "2023-12" ∧ periodKey 1704067200 = "2024-01" := by decide

namespace Billing

/-- `INSERT OR IGNORE INTO credit_ledger`, and whether the entry was inserted. -/
def insertLedger (db : Billing) (entry : LedgerEntry) : Bool × Billing :=
  (decide (db.ledger.find? entry.key = none),
    { db with ledger := db.ledger.insertOrIgnore entry })

/-- The reservation of an owner's objective. -/
def reservationOf (db : Billing) (owner objective : String) : Option CreditReservation :=
  db.reservations.rows.find? fun r => r.ownerUserId = owner ∧ r.objectiveId = objective

/-- The reservation of an owner's objective, once it is settled. -/
def settledReservationOf (db : Billing) (owner objective : String) : Option CreditReservation :=
  db.reservations.rows.find? fun r =>
    r.ownerUserId = owner ∧ r.objectiveId = objective ∧ r.status = .settled

/-- The reservation made under an owner's key. -/
def reservationForKey (db : Billing) (owner key : String) : Option CreditReservation :=
  db.reservations.rows.find? fun r => r.ownerUserId = owner ∧ r.idempotencyKey = key

/-- The usage row of an owner's objective. -/
def usageOf (db : Billing) (owner objective : String) : Option UsageRow :=
  db.usage.rows.find? fun u => u.ownerUserId = owner ∧ u.objectiveId = objective

/-- The account with a provider's customer. -/
def accountOfCustomer (db : Billing) (customer : String) : Option BillingAccount :=
  db.accounts.rows.find? fun a => a.externalCustomerRef = some customer

/-- The account with a provider's subscription. -/
def accountOfSubscription (db : Billing) (subscription : String) : Option BillingAccount :=
  db.accounts.rows.find? fun a => a.subscriptionId = some subscription

/-- `INSERT INTO credit_reservations`: any taken unique key raises. -/
def insertReservation (db : Billing) (r : CreditReservation) : Except BillingFailure Billing := do
  raiseIf (db.reservations.find? r.reservationId ≠ none) .integrityError
  raiseIf (db.reservationOf r.ownerUserId r.objectiveId ≠ none) .integrityError
  raiseIf (db.reservationForKey r.ownerUserId r.idempotencyKey ≠ none) .integrityError
  return { db with reservations := db.reservations.insertOrIgnore r }

/-- `INSERT INTO execution_usage_ledger`: any taken unique key raises. -/
def insertUsage (db : Billing) (u : UsageRow) : Except BillingFailure Billing := do
  raiseIf (db.usage.find? u.key ≠ none) .integrityError
  raiseIf (db.usageOf u.ownerUserId u.objectiveId ≠ none) .integrityError
  return { db with usage := db.usage.insertOrIgnore u }

end Billing

end Magistrate
