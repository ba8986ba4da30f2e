import Magistrate.Core.Run
import Magistrate.Core.Table
import Magistrate.Core.Binary64
import Magistrate.Core.Json

/-!
# The billing catalog

Plans, credit packs and usage rates of a validated catalog. The checks made when
a catalog is loaded are fields here: an out-of-range plan cannot be built. All
prices and grants are whole credits; the ledger counts microcredits.
-/

namespace Magistrate

/-- An error answered by the billing service. -/
structure BillingError where
  /-- Stable error code. -/
  code : String
  /-- Text shown to the caller. -/
  message : String
  /-- HTTP status of the answer. -/
  statusCode : ℕ := 400
  deriving DecidableEq, Repr

/-- What a billing transaction can raise. -/
inductive BillingFailure where
  | billing (error : BillingError)
  | integrityError
  | interfaceError
  | keyError
  | typeError
  | overflowError
  deriving DecidableEq, Repr

/-- Raise a billing error. -/
abbrev billingError (code message : String) (statusCode : ℕ := 400) : BillingFailure :=
  .billing { code, message, statusCode }

/-- One credit is a million microcredits. -/
def microcreditsPerCredit : ℕ := 1000000

/-- Whole credits in microcredits. -/
def microcredits (credits : ℕ) : ℕ := credits * microcreditsPerCredit

/-- How a plan is obtained. -/
inductive PlanKind where
  | free
  | demo
  | subscription
  deriving DecidableEq, Repr

/-- A catalog plan with the limits its validation enforces. -/
structure Plan where
  /-- Catalog id. -/
  id : String
  /-- Display name. -/
  name : String
  /-- Only subscriptions are paid. -/
  kind : PlanKind
  /-- The provider's price, once activated. -/
  stripePriceId : Option String
  /-- Credits granted once a month. -/
  monthlyIncludedCredits : ℕ
  /-- Credits held for one execution. -/
  objectiveReserveCredits : ℕ
  /-- Most credits spent and held in one period. -/
  monthlySpendLimitCredits : ℕ
  /-- Most executions holding credits at once. -/
  concurrencyLimit : ℕ
  /-- Balance at which the summary warns. -/
  lowCreditWarningCredits : ℕ
  /-- Days a past-due account keeps execution. -/
  graceDays : ℕ
  /-- Named permissions. -/
  entitlements : List String
  /-- At least one execution may run. -/
  concurrencyLimit_pos : 1 ≤ concurrencyLimit
  /-- One execution fits in the spend limit. -/
  reserve_le_limit : objectiveReserveCredits ≤ monthlySpendLimitCredits
  /-- Permissions are named once. -/
  entitlements_nodup : entitlements.Nodup
  /-- Unpaid plans have no price. -/
  price_none : kind ≠ .subscription → stripePriceId = none
  deriving DecidableEq, Repr

/-- A purchasable number of credits. -/
structure CreditPack where
  /-- Catalog id. -/
  id : String
  /-- The provider's price, once activated. -/
  stripePriceId : Option String
  /-- Credits in the pack. -/
  credits : ℕ
  /-- A pack is not empty. -/
  credits_pos : 0 < credits
  deriving DecidableEq, Repr

/-- The rate of one provider's model. -/
structure Rate where
  /-- Provider name. -/
  provider : String
  /-- Model name. -/
  model : String
  inputUsdMicrosPerMillion : ℕ
  outputUsdMicrosPerMillion : ℕ
  computeUsdMicrosPerHour : ℕ
  /-- Margin in hundredths of a percent. -/
  marginBps : ℕ
  deriving DecidableEq, Repr

/-- Rates are looked up by provider and model. -/
def Rate.key (rate : Rate) : String × String := (rate.provider, rate.model)

/-- A loaded catalog: plans, packs and rates under distinct keys, and an unpaid default. -/
structure BillingCatalog where
  usdMicrosPerCredit : ℕ
  plans : Table Plan.id
  packs : Table CreditPack.id
  rates : Table Rate.key
  /-- The plan of new and of cancelled accounts. -/
  defaultPlan : String
  /-- A credit is worth something. -/
  usdMicrosPerCredit_pos : 0 < usdMicrosPerCredit
  /-- The default plan exists and is not paid for. -/
  defaultPlan_unpaid : ∃ plan ∈ plans.rows, plan.id = defaultPlan ∧ plan.kind ≠ .subscription

/-- A catalog item found by its price. -/
inductive PriceItem where
  | subscription (plan : Plan)
  | creditPack (pack : CreditPack)
  deriving DecidableEq, Repr

namespace BillingCatalog

/-- The first plan, else the first pack, sold at a price. -/
def priceItem (catalog : BillingCatalog) (priceId : String) : Option PriceItem :=
  match catalog.plans.rows.find? fun plan => plan.stripePriceId = some priceId with
  | some plan => some (.subscription plan)
  | none =>
    (catalog.packs.rows.find? fun pack => pack.stripePriceId = some priceId).map .creditPack

/-- `catalog.plans[id]`. -/
def plan (catalog : BillingCatalog) (id : String) : Except BillingFailure Plan :=
  match catalog.plans.find? id with
  | some plan => .ok plan
  | none => .error .keyError

@[simp] theorem plan_eq_ok {catalog : BillingCatalog} {id : String} {plan : Plan} :
    catalog.plan id = .ok plan ↔ catalog.plans.find? id = some plan := by
  unfold BillingCatalog.plan
  cases catalog.plans.find? id <;> simp

/-- A plan found by its price is a catalog plan. -/
theorem mem_of_priceItem {catalog : BillingCatalog} {priceId : String} {plan : Plan}
    (h : catalog.priceItem priceId = some (.subscription plan)) : plan ∈ catalog.plans.rows := by
  unfold priceItem at h
  split at h
  · next p hp =>
    obtain rfl : p = plan := by simpa using h
    exact List.mem_of_find?_eq_some hp
  · simp at h

end BillingCatalog

/-- The measured consumption of one execution. -/
structure Usage where
  provider : String
  model : String
  inputTokens : ℕ
  outputTokens : ℕ
  computeMilliseconds : ℕ
  deriving DecidableEq, Repr

namespace Usage

/-- The members of a usage object. -/
def fieldNames : List String :=
  ["provider", "model", "input_tokens", "output_tokens", "compute_milliseconds"]

/-- A counter of a usage object: a non-negative integer. -/
def counter (usage : Json) (name : String) : Except BillingFailure ℕ :=
  match (usage.get name).int? with
  | some value =>
    if value < 0 then
      .error (billingError "usage_invalid" "Measured execution usage is invalid." 422)
    else .ok value.toNat
  | none => .error (billingError "usage_invalid" "Measured execution usage is invalid." 422)

end Usage

namespace BillingCatalog

/-- The rate of a usage object; only a provider and a model that are texts can have one. -/
def rate (catalog : BillingCatalog) (provider model : Json) : Except BillingFailure Rate :=
  if !provider.isScalar || !model.isScalar then .error .typeError
  else
    match provider.str?, model.str? with
    | some provider, some model =>
      match catalog.rates.find? (provider, model) with
      | some rate => .ok rate
      | none => .error (billingError "rate_not_configured"
          "Measured execution usage has no configured billing rate." 422)
    | _, _ => .error (billingError "rate_not_configured"
        "Measured execution usage has no configured billing rate." 422)

/-- A rounded-up quotient of the host language; too large a quotient overflows. -/
def ceilDiv (n d : ℕ) : Except BillingFailure ℕ :=
  match Binary64.ceilDiv? n d with
  | some value => .ok value
  | none => .error .overflowError

/-- The cost of a usage object in microcredits, with the usage it was read as. -/
def measuredCost (catalog : BillingCatalog) (usage : Json) : Except BillingFailure (Usage × ℕ) := do
  raiseIf (¬usage.namesAre Usage.fieldNames)
    (billingError "usage_invalid" "Measured execution usage is invalid." 422)
  let rate ← catalog.rate (usage.get "provider") (usage.get "model")
  let inputTokens ← Usage.counter usage "input_tokens"
  let outputTokens ← Usage.counter usage "output_tokens"
  let computeMilliseconds ← Usage.counter usage "compute_milliseconds"
  let numerator :=
    inputTokens * rate.inputUsdMicrosPerMillion + outputTokens * rate.outputUsdMicrosPerMillion
  let tokenUsdMicros ← ceilDiv numerator 1000000
  let computeUsdMicros ← ceilDiv (computeMilliseconds * rate.computeUsdMicrosPerHour) 3600000
  let usdMicros := tokenUsdMicros + computeUsdMicros
  let billableUsdMicros ← ceilDiv (usdMicros * (10000 + rate.marginBps)) 10000
  let cost ← ceilDiv (billableUsdMicros * microcreditsPerCredit) catalog.usdMicrosPerCredit
  return ({ provider := rate.provider, model := rate.model, inputTokens, outputTokens,
            computeMilliseconds }, cost)

end BillingCatalog

end Magistrate
