import Magistrate.Gateway.Billing.State

/-!
# The credit ledger

Each operation is one transaction: it reads and writes the billing tables and
raises to discard its writes. Time is an argument.
-/

namespace Magistrate

namespace BillingAccount

/-- A new account on the default plan, without credits. -/
def opened (owner catalogId : String) (now : ℤ) : BillingAccount where
  ownerUserId := owner
  externalCustomerRef := none
  status := "active"
  createdAt := now
  updatedAt := now
  subscriptionId := none
  currentPeriodStart := .null
  currentPeriodEnd := .null
  providerEventCreated := none
  catalogId := catalogId
  cancelAtPeriodEnd := false
  graceEndsAt := none
  availableMicrocredits := 0
  reservedMicrocredits := 0
  periodSpendMicrocredits := 0
  periodKey := none

/-- A past-due account keeps execution until its grace ends; a zero end is no grace. -/
def grace (account : BillingAccount) (now : ℤ) : Bool :=
  account.status == "past_due" && account.graceEndsAt.any fun ends => ends != 0 &&
    decide (now < ends)

/-- The plan and the subscription status allow execution. -/
def executionEnabled (account : BillingAccount) (plan : Plan) (now : ℤ) : Bool :=
  plan.entitlements.contains "execution" &&
    (["active", "trialing"].contains account.status || account.grace now)

/-- A newer provider event was already applied. -/
def newerEventApplied (account : BillingAccount) (eventCreated : ℤ) : Bool :=
  account.providerEventCreated.any fun created => decide (eventCreated < created)

end BillingAccount

/-- The parts of an account summary that the ledger decides. -/
structure BillingSummary where
  catalogId : String
  planName : String
  subscriptionStatus : String
  currentPeriodEnd : Json
  cancelAtPeriodEnd : Bool
  graceEndsAt : Option ℤ
  balanceMicrocredits : ℤ
  reservedMicrocredits : ℤ
  periodSpendMicrocredits : ℤ
  lowCreditWarning : Bool
  executionEntitled : Bool
  concurrency : ℕ
  monthlySpendMicrocredits : ℕ

namespace CreditLedger

/-- The account row, opened on the default plan at first use. -/
def openAccount (catalog : BillingCatalog) (owner : String) (now : ℤ) (db : Billing) :
    Except BillingFailure (BillingAccount × Billing) :=
  match db.accounts.find? owner with
  | some row => .ok (row, db)
  | none => do
    raiseIf (owner ∉ db.userProfiles) .integrityError
    let row := BillingAccount.opened owner catalog.defaultPlan now
    return (row, { db with accounts := db.accounts.insertOrIgnore row })

/-- The ledger entry of a plan's calendar-month grant. -/
def monthlyGrantEntry (row : BillingAccount) (plan : Plan) (now : ℤ) : LedgerEntry where
  ownerUserId := row.ownerUserId
  idempotencyKey := ledgerKey .included (plan.id ++ ":" ++ periodKey now)
  entryType := .includedGrant
  amountMicrocredits := microcredits plan.monthlyIncludedCredits
  balanceAfterMicrocredits := row.availableMicrocredits + microcredits plan.monthlyIncludedCredits
  reservationId := none
  objectiveId := none
  source := "catalog"
  createdAt := now

/-- An account after its calendar-month grant. -/
abbrev afterMonthlyGrant (plan : Plan) (now : ℤ) (row : BillingAccount) : BillingAccount :=
  { row with
    availableMicrocredits := row.availableMicrocredits + microcredits plan.monthlyIncludedCredits
    periodSpendMicrocredits := 0
    periodKey := some (periodKey now)
    updatedAt := now }

/-- Free and demo plans are granted their credits once a calendar month. -/
def monthlyGrant (row : BillingAccount) (plan : Plan) (now : ℤ) (db : Billing) :
    BillingAccount × Billing :=
  if plan.kind ≠ .subscription ∧ row.periodKey ≠ some (periodKey now) then
    match db.insertLedger (monthlyGrantEntry row plan now) with
    | (true, db) => (afterMonthlyGrant plan now row,
        { db with accounts := db.accounts.update row.ownerUserId (afterMonthlyGrant plan now) })
    | (false, db) => (row, db)
  else (row, db)

/-- `_account`: the account row, opened and granted its month when due. -/
def account (catalog : BillingCatalog) (owner : String) (now : ℤ) (db : Billing) :
    Except BillingFailure (BillingAccount × Billing) := do
  let (row, db) ← openAccount catalog owner now db
  match catalog.plans.find? row.catalogId with
  | none => .error (billingError "account_plan_invalid"
      "Billing account references an unknown plan." 503)
  | some plan => return monthlyGrant row plan now db

/-- `summary`: the account as its owner sees it. -/
def summary (catalog : BillingCatalog) (owner : String) (now : ℤ) (db : Billing) :
    Except BillingFailure (BillingSummary × Billing) := do
  let (row, db) ← account catalog owner now db
  let plan ← catalog.plan row.catalogId
  return ({ catalogId := plan.id
            planName := plan.name
            subscriptionStatus := row.status
            currentPeriodEnd := row.currentPeriodEnd
            cancelAtPeriodEnd := row.cancelAtPeriodEnd
            graceEndsAt := row.graceEndsAt
            balanceMicrocredits := row.availableMicrocredits
            reservedMicrocredits := row.reservedMicrocredits
            periodSpendMicrocredits := row.periodSpendMicrocredits
            lowCreditWarning :=
              decide (row.availableMicrocredits ≤ microcredits plan.lowCreditWarningCredits)
            executionEntitled := row.executionEnabled plan now
            concurrency := plan.concurrencyLimit
            monthlySpendMicrocredits := microcredits plan.monthlySpendLimitCredits }, db)

/-- A new reservation of an objective. -/
def newReservation (owner objective key : String) (estimate : ℕ) (now : ℤ) :
    CreditReservation where
  reservationId := reservationId owner objective
  ownerUserId := owner
  objectiveId := objective
  idempotencyKey := key
  estimatedMicrocredits := estimate
  actualMicrocredits := none
  status := .reserved
  usage := none
  createdAt := now
  updatedAt := now

/-- The number of reservations that hold an owner's credits. -/
def activeReservations (db : Billing) (owner : String) : ℕ :=
  db.reservations.rows.countP fun r => r.ownerUserId = owner ∧ r.status = .reserved

/-- The ledger entry of a new reservation. -/
def reservationEntry (reservation : CreditReservation) (balance now : ℤ) : LedgerEntry where
  ownerUserId := reservation.ownerUserId
  idempotencyKey := ledgerKey .reserve reservation.idempotencyKey
  entryType := .reservation
  amountMicrocredits := -reservation.estimatedMicrocredits
  balanceAfterMicrocredits := balance
  reservationId := some reservation.reservationId
  objectiveId := some reservation.objectiveId
  source := "execution"
  createdAt := now

/-- An account after a reservation. -/
abbrev afterReserve (balance : ℤ) (estimate : ℕ) (now : ℤ) (a : BillingAccount) : BillingAccount :=
  { a with
    availableMicrocredits := balance
    reservedMicrocredits := a.reservedMicrocredits + estimate
    updatedAt := now }

/-- `reserve_objective`: hold the plan's estimate for an objective, once for a key. -/
def reserveObjective (catalog : BillingCatalog) (owner objective key : String) (now : ℤ)
    (db : Billing) : Except BillingFailure (CreditReservation × Billing) := do
  let (row, db) ← account catalog owner now db
  let plan ← catalog.plan row.catalogId
  match db.reservationForKey owner key with
  | some existing =>
    raiseIf (existing.objectiveId ≠ objective) (billingError "idempotency_conflict"
      "Reservation key is bound to another objective." 409)
    return (existing, db)
  | none =>
    raiseIf (¬row.executionEnabled plan now) (billingError "execution_not_entitled"
      "This account is not entitled to start execution." 403)
    raiseIf (plan.concurrencyLimit ≤ activeReservations db owner) (billingError
      "concurrency_limit" "The plan concurrency limit is already in use." 409)
    let estimate := microcredits plan.objectiveReserveCredits
    raiseIf (row.availableMicrocredits < estimate) (billingError "insufficient_credits"
      "Insufficient Magistrate credits for this execution." 402)
    let spendLimit := microcredits plan.monthlySpendLimitCredits
    raiseIf ((spendLimit : ℤ) <
        row.periodSpendMicrocredits + row.reservedMicrocredits + estimate)
      (billingError "spend_limit" "The monthly execution spend limit would be exceeded." 402)
    let balance := row.availableMicrocredits - estimate
    let reservation := newReservation owner objective key estimate now
    let db ← db.insertReservation reservation
    let db := { db with accounts := db.accounts.update owner (afterReserve balance estimate now) }
    let (_, db) := db.insertLedger (reservationEntry reservation balance now)
    return (reservation, db)

/-- A released reservation. -/
abbrev released (now : ℤ) (r : CreditReservation) : CreditReservation :=
  { r with status := .released, updatedAt := now }

/-- The ledger entry of a released reservation. -/
def releaseEntry (reservation : CreditReservation) (balance now : ℤ) : LedgerEntry where
  ownerUserId := reservation.ownerUserId
  idempotencyKey := ledgerKey .release reservation.reservationId
  entryType := .release
  amountMicrocredits := reservation.estimatedMicrocredits
  balanceAfterMicrocredits := balance
  reservationId := some reservation.reservationId
  objectiveId := some reservation.objectiveId
  source := "execution"
  createdAt := now

/-- An account after a release. -/
abbrev afterRelease (balance : ℤ) (amount : ℕ) (now : ℤ) (a : BillingAccount) : BillingAccount :=
  { a with
    availableMicrocredits := balance
    reservedMicrocredits := a.reservedMicrocredits - amount
    updatedAt := now }

/-- `release_objective`: give back the estimate of a reservation that never ran. -/
def releaseObjective (owner objective : String) (now : ℤ) (db : Billing) :
    Except BillingFailure (Bool × Billing) :=
  match db.reservationOf owner objective with
  | none => .ok (false, db)
  | some reservation =>
    if reservation.status ≠ .reserved then .ok (false, db)
    else
      match db.accounts.find? owner with
      | none => .error .typeError
      | some row =>
        let amount := reservation.estimatedMicrocredits
        let balance := row.availableMicrocredits + amount
        let db := { db with
          reservations := db.reservations.update reservation.reservationId (released now) }
        let db := { db with accounts := db.accounts.update owner (afterRelease balance amount now) }
        let (_, db) := db.insertLedger (releaseEntry reservation balance now)
        .ok (true, db)

/-- A settled reservation. -/
abbrev settled (usage : Usage) (actual : ℕ) (now : ℤ) (r : CreditReservation) : CreditReservation :=
  { r with
    status := .settled
    actualMicrocredits := some actual
    usage := some usage
    updatedAt := now }

/-- The usage row of a settlement. -/
def usageRow (reservation : CreditReservation) (usage : Usage) (actual : ℕ) (eventId : String)
    (now : ℤ) : UsageRow where
  ownerUserId := reservation.ownerUserId
  eventId := eventId
  objectiveId := reservation.objectiveId
  reservationId := reservation.reservationId
  usage := usage
  costMicrocredits := actual
  createdAt := now

/-- The ledger entry of a settlement: what is left of the estimate, or the overrun. -/
def settlementEntry (reservation : CreditReservation) (actual : ℕ) (eventId : String)
    (balance now : ℤ) : LedgerEntry where
  ownerUserId := reservation.ownerUserId
  idempotencyKey := ledgerKey .settle eventId
  entryType := .settlement
  amountMicrocredits := reservation.estimatedMicrocredits - actual
  balanceAfterMicrocredits := balance
  reservationId := some reservation.reservationId
  objectiveId := some reservation.objectiveId
  source := "execution"
  createdAt := now

/-- An account after a settlement. -/
abbrev afterSettle (balance : ℤ) (estimate actual : ℕ) (now : ℤ) (a : BillingAccount) :
    BillingAccount :=
  { a with
    availableMicrocredits := balance
    reservedMicrocredits := a.reservedMicrocredits - estimate
    periodSpendMicrocredits := a.periodSpendMicrocredits + actual
    updatedAt := now }

/-- `settle_objective`: charge the measured cost of an execution in place of its estimate. -/
def settleObjective (catalog : BillingCatalog) (owner objective : String) (usage : Json)
    (eventId : String) (now : ℤ) (db : Billing) :
    Except BillingFailure (CreditReservation × Billing) := do
  let (usage, actual) ← catalog.measuredCost usage
  match db.reservationOf owner objective with
  | none => .error (billingError "reservation_not_found"
      "Execution has no credit reservation." 409)
  | some reservation =>
    match reservation.status with
    | .settled =>
      raiseIf (reservation.actualMicrocredits ≠ some actual ∨ reservation.usage ≠ some usage ∨
          (db.usageOf owner objective).map (·.eventId) ≠ some eventId)
        (billingError "settlement_conflict"
          "Execution was already settled with different usage." 409)
      return (reservation, db)
    | .released => .error (billingError "reservation_released"
        "A released execution reservation cannot settle." 409)
    | .reserved =>
      match db.accounts.find? owner with
      | none => .error .typeError
      | some row =>
        let estimate := reservation.estimatedMicrocredits
        let balance := row.availableMicrocredits + (estimate - actual)
        let db := { db with
          reservations := db.reservations.update reservation.reservationId
            (settled usage actual now) }
        let db ← db.insertUsage (usageRow reservation usage actual eventId now)
        let db := { db with
          accounts := db.accounts.update owner (afterSettle balance estimate actual now) }
        let (_, db) := db.insertLedger (settlementEntry reservation actual eventId balance now)
        return (settled usage actual now reservation, db)

/-- The refunds already made for a reservation. -/
def refunded (db : Billing) (owner reservationId : String) : ℤ :=
  ((db.ledger.rows.filter fun e => e.ownerUserId = owner ∧ e.reservationId = some reservationId ∧
    e.entryType = .refund).map (·.amountMicrocredits)).sum

/-- The ledger entry of a refund under the caller's key. -/
def refundEntry (reservation : CreditReservation) (amount : ℤ) (key : String)
    (balance now : ℤ) : LedgerEntry where
  ownerUserId := reservation.ownerUserId
  idempotencyKey := key
  entryType := .refund
  amountMicrocredits := amount
  balanceAfterMicrocredits := balance
  reservationId := some reservation.reservationId
  objectiveId := some reservation.objectiveId
  source := "execution"
  createdAt := now

/-- The spend of a period after a refund: never below zero. -/
def spendAfterRefund (spend refund : ℤ) : ℤ := if refund < spend then spend - refund else 0

/-- An account after a refund. -/
abbrev afterRefund (balance amount now : ℤ) (a : BillingAccount) : BillingAccount :=
  { a with
    availableMicrocredits := balance
    periodSpendMicrocredits := spendAfterRefund a.periodSpendMicrocredits amount
    updatedAt := now }

/-- `refund_objective`: give back part of a settled cost, once for a key. -/
def refundObjective (owner objective : String) (amount : ℤ) (key : String) (now : ℤ)
    (db : Billing) : Except BillingFailure (Bool × Billing) := do
  raiseIf (amount ≤ 0) (billingError "refund_invalid" "Refund amount is invalid.")
  match db.settledReservationOf owner objective with
  | none => .error (billingError "refund_invalid" "Refund exceeds settled execution cost." 409)
  | some reservation =>
    match reservation.actualMicrocredits with
    | none => .error .typeError
    | some actual =>
      raiseIf ((actual : ℤ) < amount)
        (billingError "refund_invalid" "Refund exceeds settled execution cost." 409)
      match db.ledger.find? (owner, key) with
      | some existing =>
        raiseIf (existing.entryType ≠ .refund ∨ existing.amountMicrocredits ≠ amount ∨
            existing.objectiveId ≠ some objective)
          (billingError "idempotency_conflict" "Refund key is bound to different facts." 409)
        return (false, db)
      | none =>
        raiseIf ((actual : ℤ) < refunded db owner reservation.reservationId + amount)
          (billingError "refund_invalid" "Cumulative refunds exceed settled execution cost." 409)
        match db.accounts.find? owner with
        | none => .error .typeError
        | some row =>
          let balance := row.availableMicrocredits + amount
          let (_, db) := db.insertLedger (refundEntry reservation amount key balance now)
          let db :=
            { db with accounts := db.accounts.update owner (afterRefund balance amount now) }
          return (true, db)

/-- The ledger entry of granted credits under the caller's key. -/
def topupEntry (row : BillingAccount) (amount : ℤ) (key source : String) (now : ℤ) :
    LedgerEntry where
  ownerUserId := row.ownerUserId
  idempotencyKey := key
  entryType := .topup
  amountMicrocredits := amount
  balanceAfterMicrocredits := row.availableMicrocredits + amount
  reservationId := none
  objectiveId := none
  source := source
  createdAt := now

/-- An account after added credits. -/
abbrev afterTopup (balance now : ℤ) (a : BillingAccount) : BillingAccount :=
  { a with availableMicrocredits := balance, updatedAt := now }

/-- `add_credits`: grant whole credits, once for a key. -/
def addCredits (catalog : BillingCatalog) (owner : String) (credits : ℤ) (key source : String)
    (now : ℤ) (db : Billing) : Except BillingFailure (Bool × Billing) := do
  raiseIf (credits ≤ 0) (billingError "credits_invalid" "Credit grant is invalid.")
  let amount : ℤ := microcredits credits.toNat
  let (row, db) ← account catalog owner now db
  match db.ledger.find? (owner, key) with
  | some existing =>
    raiseIf (existing.entryType ≠ .topup ∨ existing.amountMicrocredits ≠ amount ∨
        existing.source ≠ source)
      (billingError "idempotency_conflict" "Credit grant key is bound to different facts." 409)
    return (false, db)
  | none =>
    let balance := row.availableMicrocredits + amount
    let (_, db) := db.insertLedger (topupEntry row amount key source now)
    let db := { db with accounts := db.accounts.update owner (afterTopup balance now) }
    return (true, db)

end CreditLedger

end Magistrate
