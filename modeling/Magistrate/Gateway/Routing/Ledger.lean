import Magistrate.Core.Calendar
import Magistrate.Gateway.Chat.State

/-!
# The model route ledger

Every provider attempt reserves its estimate in one transaction and settles it
in another. The monthly budget of an owner and the credits of a model are
checked when an estimate is reserved; a settlement can charge more than the
estimate, and only that overrun can pass the limits.
-/

namespace Magistrate

/-- `MagiModelError` -/
structure MagiModelError where
  code : String
  retryable : Bool := true
  toolCalls : ℕ := 0
  billingUncertain : Bool := false
  deriving DecidableEq, Repr

/-- What a transaction of the route ledger can raise. -/
inductive RouteFailure where
  | model (error : MagiModelError)
  | integrityError
  /-- A value or a sum that no column can hold. -/
  | overflowError
  deriving DecidableEq, Repr

/-- `MagiModelUsage` -/
structure MagiModelUsage where
  inputTokens : ℤ
  outputTokens : ℤ
  cachedInputTokens : ℤ := 0
  deriving DecidableEq, Repr

/-- How a model is paid for. -/
inductive BillingMode where
  | metered
  | subscription
  | credits
  deriving DecidableEq, Repr

/-- `ModelCandidate` -/
structure ModelCandidate where
  id : String
  provider : String
  model : String
  capabilityClass : String
  reasoning : ℤ
  contextTokens : ℤ
  tools : Bool
  multimodal : Bool
  reliability : ℚ
  latencyMs : ℤ
  inputMicroUsdPerMillion : ℤ
  outputMicroUsdPerMillion : ℤ
  cachedInputMicroUsdPerMillion : ℤ
  billingMode : BillingMode
  creditsMicroUsd : Option ℕ
  enabled : Bool
  available : Bool
  safetyTier : ℤ
  deriving DecidableEq

/-- `RoutingPolicy` -/
structure RoutingPolicy where
  monthlyBudgetMicroUsd : ℕ
  perRequestBudgetMicroUsd : ℕ
  outputReservationTokens : ℕ
  minReliability : ℚ
  maxSameModelRetries : ℕ
  maxAutomaticFallbackMicroUsd : ℕ
  deriving DecidableEq

/-- `RoutingCatalog` -/
structure RoutingCatalog where
  candidates : List ModelCandidate
  policy : RoutingPolicy
  deriving DecidableEq

/-- The state of a route. -/
inductive RouteState where
  | reserved
  | succeeded
  | failed
  deriving DecidableEq, Repr

/-- A row of `magi_model_routes`. -/
structure ModelRoute where
  id : String
  ownerUserId : String
  requestId : String
  category : RouteCategory
  providerId : String
  modelId : String
  capabilityClass : String
  attemptOrdinal : ℕ
  fallbackFrom : Option String
  state : RouteState
  estimatedCost : ℤ
  actualCost : Option ℤ
  budgetCharge : ℤ
  inputTokens : Option ℤ
  outputTokens : Option ℤ
  errorCode : Option String
  createdAt : ℤ
  updatedAt : ℤ
  deriving DecidableEq, Repr

/-- The route ledger. -/
abbrev ModelRoutes : Type := Table ModelRoute.id

/-- The calendar month of a time in milliseconds, in UTC. -/
def monthOf (nowMs : ℤ) : ℤ × ℤ := civilMonth (nowMs / 86400000)

/-- `_month_start_ms` -/
def monthStartMs (nowMs : ℤ) : ℤ := firstDayOf (monthOf nowMs) * 86400000

/-- The largest value of a column. -/
def maxColumn : ℤ := 9223372036854775807

namespace ModelRouteStore

/-- The charges of an owner's routes since a time. -/
def spent (routes : ModelRoutes) (owner : String) (since : ℤ) : ℤ :=
  ((routes.rows.filter fun r => r.ownerUserId = owner ∧ since ≤ r.createdAt).map
    (·.budgetCharge)).sum

/-- The charges of a model's routes. -/
def creditsSpent (routes : ModelRoutes) (provider model : String) : ℤ :=
  ((routes.rows.filter fun r => r.providerId = provider ∧ r.modelId = model).map
    (·.budgetCharge)).sum

/-- `reserve`: charge the estimate of an attempt if the budget and the credits allow it. -/
def reserve (owner : String) (category : RouteCategory) (requestId : String)
    (candidate : ModelCandidate) (ordinal : ℕ) (estimated : ℤ) (monthlyBudget : ℕ)
    (fallbackFrom : Option String) (routeId : String) (now : ℤ) (routes : ModelRoutes) :
    Except RouteFailure (String × ModelRoutes) := do
  raiseIf (maxColumn < spent routes owner (monthStartMs now)) .overflowError
  raiseIf ((monthlyBudget : ℤ) < spent routes owner (monthStartMs now) + estimated)
    (.model { code := "model_budget_exhausted", retryable := false })
  raiseIf (candidate.creditsMicroUsd.isSome ∧
    maxColumn < creditsSpent routes candidate.provider candidate.model) .overflowError
  raiseIf (candidate.creditsMicroUsd.any fun credits =>
      (credits : ℤ) < creditsSpent routes candidate.provider candidate.model + estimated)
    (.model { code := "model_credits_exhausted", retryable := false })
  raiseIf (maxColumn < estimated) .overflowError
  raiseIf (estimated < 0 ∨ routes.find? routeId ≠ none ∨ ∃ r ∈ routes.rows,
    r.ownerUserId = owner ∧ r.requestId = requestId ∧ r.attemptOrdinal = ordinal) .integrityError
  return (routeId, routes.insertOrIgnore
    { id := routeId
      ownerUserId := owner
      requestId
      category
      providerId := candidate.provider
      modelId := candidate.model
      capabilityClass := candidate.capabilityClass
      attemptOrdinal := ordinal
      fallbackFrom
      state := .reserved
      estimatedCost := estimated
      actualCost := none
      budgetCharge := estimated
      inputTokens := none
      outputTokens := none
      errorCode := none
      createdAt := now
      updatedAt := now })

end ModelRouteStore

namespace ModelRoute

/-- The charge of a settlement: the actual cost, or the estimate while billing is uncertain. -/
def settledCharge (actual : Option ℤ) (uncertainCharge : Bool) (r : ModelRoute) : ℤ :=
  actual.getD (if uncertainCharge = true then r.estimatedCost else 0)

/-- A settled route. -/
abbrev settled (usage : Option MagiModelUsage) (actual : Option ℤ) (error : Option MagiModelError)
    (uncertainCharge : Bool) (now : ℤ) (r : ModelRoute) : ModelRoute :=
  { r with
    state := if error.isSome then .failed else .succeeded
    actualCost := actual
    budgetCharge := r.settledCharge actual uncertainCharge
    inputTokens := usage.map (·.inputTokens)
    outputTokens := usage.map (·.outputTokens)
    errorCode := error.map (·.code)
    updatedAt := now }

/-- What a settlement charged beyond the estimate. -/
def overrun (r : ModelRoute) : ℤ :=
  if r.state = .reserved then 0 else max 0 (r.budgetCharge - r.estimatedCost)

end ModelRoute

namespace ModelRouteStore

/-- What a settlement binds fits in its columns. -/
def Fits (usage : Option MagiModelUsage) (actual : Option ℤ) : Prop :=
  (∀ cost ∈ actual, cost ≤ maxColumn) ∧
    ∀ u ∈ usage, u.inputTokens ≤ maxColumn ∧ u.outputTokens ≤ maxColumn

instance (usage : Option MagiModelUsage) (actual : Option ℤ) : Decidable (Fits usage actual) := by
  unfold Fits
  infer_instance

/-- `settle`: charge a reserved attempt for what it cost. -/
def settle (routeId : String) (usage : Option MagiModelUsage) (actual : Option ℤ)
    (error : Option MagiModelError) (uncertainCharge : Bool) (now : ℤ) (routes : ModelRoutes) :
    Except RouteFailure ModelRoutes :=
  match (routes.find? routeId).filter fun r => r.state = .reserved with
  | none => .ok routes
  | some _ => do
    raiseIf (¬Fits usage actual) .overflowError
    raiseIf (actual.any (· < 0) ∨ usage.any fun u => u.inputTokens < 0 ∨ u.outputTokens < 0)
      .integrityError
    return routes.update routeId (ModelRoute.settled usage actual error uncertainCharge now)

end ModelRouteStore

/-- A transaction on the route ledger of a catalog. -/
inductive RouteStep where
  | reserve (owner : String) (category : RouteCategory) (requestId : String) (candidate : ℕ)
      (ordinal : ℕ) (estimated : ℤ) (fallbackFrom : Option String) (routeId : String) (now : ℤ)
  | settle (routeId : String) (usage : Option MagiModelUsage) (actual : Option ℤ)
      (error : Option MagiModelError) (uncertainCharge : Bool) (now : ℤ)

/-- The ledger after a transaction; candidates are named by their place in the catalog. -/
def routeStep (catalog : RoutingCatalog) (routes : ModelRoutes) : RouteStep → ModelRoutes
  | .reserve owner category requestId candidate ordinal estimated fallbackFrom routeId now =>
    match catalog.candidates[candidate]? with
    | none => routes
    | some candidate => commit (stateOf (ModelRouteStore.reserve owner category requestId candidate
        ordinal estimated catalog.policy.monthlyBudgetMicroUsd fallbackFrom routeId now routes))
        routes
  | .settle routeId usage actual error uncertainCharge now =>
    commit (ModelRouteStore.settle routeId usage actual error uncertainCharge now routes) routes

/-- The sum of a value over an owner's routes created in a month. -/
def monthSum (value : ModelRoute → ℤ) (routes : ModelRoutes) (owner : String) (month : ℤ × ℤ) : ℤ :=
  ((routes.rows.filter fun r => r.ownerUserId = owner ∧ monthOf r.createdAt = month).map value).sum

/-- The sum of a value over all routes of a model. -/
def modelSum (value : ModelRoute → ℤ) (routes : ModelRoutes) (provider model : String) : ℤ :=
  ((routes.rows.filter fun r => r.providerId = provider ∧ r.modelId = model).map value).sum

/-- A month starts no later than its times. -/
theorem monthStartMs_le (now : ℤ) : monthStartMs now ≤ now := by
  have hday := firstDayOf_civilMonth_le (now / 86400000)
  unfold monthStartMs monthOf
  omega

/-- What holds of every row of the ledger. -/
structure ModelRoute.Sound (r : ModelRoute) : Prop where
  charge : 0 ≤ r.budgetCharge
  reserved : r.state = .reserved → r.budgetCharge = r.estimatedCost

/-- The charges that a test selects, less their overruns, are within a cap. -/
def Within (cap : ℤ) (test : ModelRoute → Bool) (routes : ModelRoutes) : Prop :=
  (routes.rows.map fun r => if test r then r.budgetCharge - r.overrun else 0).sum ≤ cap

namespace ModelRoutes

variable {routes routes' : ModelRoutes} {catalog : RoutingCatalog}

/-- A settlement changes nothing, or charges one reserved route. -/
theorem settle_cases {routeId : String} {usage : Option MagiModelUsage} {actual : Option ℤ}
    {error : Option MagiModelError} {uncertainCharge : Bool} {now : ℤ}
    (h : ModelRouteStore.settle routeId usage actual error uncertainCharge now routes =
      .ok routes') :
    routes = routes' ∨ ∃ r, routes.find? routeId = some r ∧ r.state = .reserved ∧
      (∀ cost ∈ actual, 0 ≤ cost) ∧ routes' =
        routes.update routeId (ModelRoute.settled usage actual error uncertainCharge now) := by
  unfold ModelRouteStore.settle at h
  split at h
  · exact .inl (Except.ok.inj h)
  · next r found =>
    obtain ⟨hfind, hstate⟩ := Option.filter_eq_some_iff.mp found
    simp only [bind_eq_ok, raiseIf_eq_ok, pure_eq_ok, exists_const, not_or] at h
    obtain ⟨-, ⟨hactual, -⟩, rfl⟩ := h
    refine .inr ⟨r, hfind, of_decide_eq_true hstate, fun cost hcost => ?_, rfl⟩
    simpa [Option.mem_def.mp hcost] using hactual

/-- A reservation adds a route that the budget and the credits allow. -/
theorem reserve_cases {owner : String} {category : RouteCategory} {requestId : String}
    {candidate : ModelCandidate} {ordinal : ℕ} {estimated : ℤ} {monthlyBudget : ℕ}
    {fallbackFrom : Option String} {routeId id : String} {now : ℤ}
    (h : ModelRouteStore.reserve owner category requestId candidate ordinal estimated monthlyBudget
      fallbackFrom routeId now routes = .ok (id, routes')) :
    ModelRouteStore.spent routes owner (monthStartMs now) + estimated ≤ monthlyBudget ∧
      (∀ credits ∈ candidate.creditsMicroUsd,
        ModelRouteStore.creditsSpent routes candidate.provider candidate.model + estimated ≤
          (credits : ℤ)) ∧ 0 ≤ estimated ∧
      ∃ r : ModelRoute, routes.find? r.id = none ∧ routes' = routes.insertOrIgnore r ∧
        r.ownerUserId = owner ∧ r.createdAt = now ∧ r.providerId = candidate.provider ∧
        r.modelId = candidate.model ∧ r.state = .reserved ∧ r.estimatedCost = estimated ∧
        r.budgetCharge = estimated := by
  simp only [ModelRouteStore.reserve, bind_eq_ok, raiseIf_eq_ok, pure_eq_ok, exists_const, not_or,
    not_not, Prod.mk.injEq, not_lt] at h
  obtain ⟨-, hbudget, -, hcredits, -, ⟨hestimated, hfree, -⟩, -, rfl⟩ := h
  refine ⟨hbudget, fun credits hc => ?_, hestimated, _, hfree, rfl, rfl, rfl, rfl, rfl, rfl, rfl,
    rfl⟩
  simpa [Option.mem_def.mp hc] using hcredits

/-- Every row is sound. -/
def Sound (routes : ModelRoutes) : Prop := ∀ r ∈ routes.rows, r.Sound

/-- A reservation keeps the rows sound. -/
theorem Sound.insert (h : Sound routes) {r : ModelRoute} {estimated : ℤ}
    (hestimated : 0 ≤ estimated) (hcharge : r.budgetCharge = estimated)
    (hcost : r.estimatedCost = estimated) : Sound (routes.insertOrIgnore r) := by
  intro s hs
  rcases Table.mem_insertOrIgnore hs with hs | ⟨-, rfl⟩
  · exact h s hs
  · exact ⟨hcharge ▸ hestimated, fun _ => hcharge.trans hcost.symm⟩

/-- A settled charge is not negative. -/
theorem settledCharge_nonneg {r : ModelRoute} (h : r.Sound) (hstate : r.state = .reserved)
    {actual : Option ℤ} (hactual : ∀ cost ∈ actual, 0 ≤ cost) (uncertainCharge : Bool) :
    0 ≤ r.settledCharge actual uncertainCharge := by
  unfold ModelRoute.settledCharge
  cases actual with
  | some cost => exact hactual cost rfl
  | none =>
    rw [Option.getD_none]
    split
    · rw [← h.reserved hstate]
      exact h.charge
    · exact le_refl 0

/-- A settlement keeps the rows sound. -/
theorem Sound.settle (h : Sound routes) {routeId : String} {r : ModelRoute}
    (hfind : routes.find? routeId = some r) (hstate : r.state = .reserved)
    {usage : Option MagiModelUsage} {actual : Option ℤ} (hactual : ∀ cost ∈ actual, 0 ≤ cost)
    (error : Option MagiModelError) (uncertainCharge : Bool) (now : ℤ) :
    Sound (routes.update routeId (ModelRoute.settled usage actual error uncertainCharge now)) := by
  intro s hs
  rw [Table.mem_update] at hs
  obtain ⟨old, hold, rfl⟩ := hs
  by_cases hid : old.id = routeId
  · obtain rfl : r = old := by
      have hfound := Table.find?_of_mem hold
      rw [hid, hfind] at hfound
      exact Option.some.inj hfound
    rw [if_pos hid]
    refine ⟨settledCharge_nonneg (h r hold) hstate hactual uncertainCharge, fun hreserved => ?_⟩
    cases error <;> simp at hreserved
  · rw [if_neg hid]
    exact h old hold

/-- A route charges its overrun at most beyond what a settlement's estimate was. -/
theorem settled_le {r : ModelRoute} (h : r.Sound) (hstate : r.state = .reserved)
    (usage : Option MagiModelUsage) (actual : Option ℤ) (error : Option MagiModelError)
    (uncertainCharge : Bool) (now : ℤ) :
    (r.settled usage actual error uncertainCharge now).budgetCharge -
      (r.settled usage actual error uncertainCharge now).overrun ≤ r.budgetCharge - r.overrun := by
  have hended : (r.settled usage actual error uncertainCharge now).state ≠ .reserved := by
    cases error <;> simp
  rw [ModelRoute.overrun, if_neg hended, ModelRoute.overrun, if_pos hstate, h.reserved hstate]
  simp only
  omega

/-- A settlement stays within every cap on what settlements do not change. -/
theorem within_settle {cap : ℤ} {test : ModelRoute → Bool} (h : Within cap test routes)
    {routeId : String} {r : ModelRoute} (hsound : r.Sound)
    (hfind : routes.find? routeId = some r) (hstate : r.state = .reserved)
    (usage : Option MagiModelUsage) (actual : Option ℤ) (error : Option MagiModelError)
    (uncertainCharge : Bool) (now : ℤ)
    (htest : test (r.settled usage actual error uncertainCharge now) = test r) :
    Within cap test
      (routes.update routeId (ModelRoute.settled usage actual error uncertainCharge now)) := by
  have hle := settled_le hsound hstate usage actual error uncertainCharge now
  unfold Within at h ⊢
  rw [Table.sum_update _ hfind]
  by_cases hselected : test r = true
  · rw [if_pos hselected, if_pos (htest.trans hselected)]
    omega
  · rw [if_neg hselected, if_neg fun he => hselected (htest.symm.trans he)]
    omega

/-- A reservation stays within a cap that its estimate was checked against, and within every cap
that does not select it. -/
theorem within_reserve {cap : ℤ} {test : ModelRoute → Bool} (h : Within cap test routes)
    {r : ModelRoute} (hfree : routes.find? r.id = none) (hstate : r.state = .reserved)
    (hchecked : test r = true → (routes.rows.map fun s => if test s then s.budgetCharge -
      s.overrun else 0).sum + r.budgetCharge ≤ cap) :
    Within cap test (routes.insertOrIgnore r) := by
  unfold Within at h ⊢
  rw [Table.sum_insertOrIgnore _ hfree]
  by_cases hselected : test r = true
  · have hnone : r.overrun = 0 := if_pos hstate
    rw [if_pos hselected, hnone, Int.sub_zero]
    exact hchecked hselected
  · rw [if_neg hselected, Int.add_zero]
    exact h

/-- What a test selects charges no more than what a weaker test does. -/
theorem sum_le_filter (test weaker : ModelRoute → Bool) (h : Sound routes)
    (hweaker : ∀ r ∈ routes.rows, test r = true → weaker r = true) :
    (routes.rows.map fun r => if test r then r.budgetCharge - r.overrun else 0).sum ≤
      ((routes.rows.filter weaker).map (·.budgetCharge)).sum := by
  rw [sum_map_filter]
  refine List.sum_le_sum fun r hr => ?_
  have hcharge := (h r hr).charge
  have hoverrun : 0 ≤ r.overrun := by
    unfold ModelRoute.overrun
    split
    · exact le_refl 0
    · exact le_max_left 0 _
  by_cases hselected : test r = true
  · rw [if_pos hselected, if_pos (hweaker r hr hselected)]
    omega
  · rw [if_neg hselected]
    split
    · exact hcharge
    · exact le_refl 0

/-- Charges are the charges without overruns and the overruns. -/
theorem charge_le_of_within {cap : ℤ} {test : ModelRoute → Bool} (h : Within cap test routes) :
    ((routes.rows.filter test).map (·.budgetCharge)).sum ≤
      cap + ((routes.rows.filter test).map (·.overrun)).sum := by
  have hsplit : ((routes.rows.filter test).map (·.budgetCharge)).sum =
      (routes.rows.map fun r => if test r then r.budgetCharge - r.overrun else 0).sum +
        ((routes.rows.filter test).map (·.overrun)).sum := by
    rw [sum_map_filter, sum_map_filter, ← List.sum_map_add]
    refine congrArg List.sum (List.map_congr_left fun r _ => ?_)
    by_cases hselected : test r = true <;> simp [hselected]
  unfold Within at h
  omega

/-- The budgets of a catalog hold: of every owner and month, and of every candidate's credits. -/
structure WithinBudgets (catalog : RoutingCatalog) (routes : ModelRoutes) : Prop where
  sound : Sound routes
  months : ∀ owner month, Within catalog.policy.monthlyBudgetMicroUsd
    (fun r => r.ownerUserId = owner ∧ monthOf r.createdAt = month) routes
  credits : ∀ c ∈ catalog.candidates, ∀ credits ∈ c.creditsMicroUsd,
    Within credits (fun r => r.providerId = c.provider ∧ r.modelId = c.model) routes

/-- A new ledger is within every budget. -/
theorem WithinBudgets.empty (catalog : RoutingCatalog) : WithinBudgets catalog .empty where
  sound _ hr := by simp at hr
  months _ _ := by simp [Within]
  credits _ _ _ _ := by simp [Within]

/-- Reserving keeps within the budgets, when no two candidates are of one model. -/
theorem WithinBudgets.reserve (h : WithinBudgets catalog routes)
    (unique : (catalog.candidates.map fun c => (c.provider, c.model)).Nodup)
    {candidate : ModelCandidate} (hcandidate : candidate ∈ catalog.candidates) {owner : String}
    {category : RouteCategory} {requestId : String} {ordinal : ℕ} {estimated : ℤ}
    {fallbackFrom : Option String} {routeId id : String} {now : ℤ}
    (hreserve : ModelRouteStore.reserve owner category requestId candidate ordinal estimated
      catalog.policy.monthlyBudgetMicroUsd fallbackFrom routeId now routes = .ok (id, routes')) :
    WithinBudgets catalog routes' := by
  obtain ⟨hbudget, hcredits, hestimated, r, hfree, rfl, howner, hcreated, hprovider, hmodel,
    hstate, hcost, hcharge⟩ := reserve_cases hreserve
  refine ⟨h.sound.insert hestimated hcharge hcost, fun who month => ?_, fun c hc credits hcr => ?_⟩
  · refine within_reserve (h.months who month) hfree hstate fun hselected => ?_
    obtain ⟨hwho, hmonth⟩ := of_decide_eq_true hselected
    have hsince := sum_le_filter (fun r => r.ownerUserId = who ∧ monthOf r.createdAt = month)
      (fun r => r.ownerUserId = owner ∧ monthStartMs now ≤ r.createdAt) h.sound fun s _ hs => ?_
    · unfold ModelRouteStore.spent at hbudget
      omega
    · obtain ⟨hswho, hsmonth⟩ := of_decide_eq_true hs
      have hsame : monthStartMs s.createdAt = monthStartMs now := by
        rw [monthStartMs, hsmonth, monthStartMs, ← hcreated, hmonth]
      have hle := monthStartMs_le s.createdAt
      exact decide_eq_true ⟨hswho.trans (hwho.symm.trans howner), by omega⟩
  · refine within_reserve (h.credits c hc credits hcr) hfree hstate fun hselected => ?_
    obtain ⟨hp, hm⟩ := of_decide_eq_true hselected
    obtain rfl : c = candidate := List.inj_on_of_nodup_map unique hc hcandidate
      (Prod.ext (hp.symm.trans hprovider) (hm.symm.trans hmodel))
    have hchecked := hcredits credits hcr
    have hle := sum_le_filter (fun r => r.providerId = c.provider ∧ r.modelId = c.model) _ h.sound
      fun _ _ hs => hs
    unfold ModelRouteStore.creditsSpent at hchecked
    omega

/-- Settling keeps within the budgets. -/
theorem WithinBudgets.settle (h : WithinBudgets catalog routes) {routeId : String}
    {usage : Option MagiModelUsage} {actual : Option ℤ} {error : Option MagiModelError}
    {uncertainCharge : Bool} {now : ℤ}
    (hsettle : ModelRouteStore.settle routeId usage actual error uncertainCharge now routes =
      .ok routes') : WithinBudgets catalog routes' := by
  rcases settle_cases hsettle with rfl | ⟨r, hfind, hstate, hactual, rfl⟩
  · exact h
  · have hsound := h.sound r (Table.mem_of_find? hfind).1
    exact ⟨h.sound.settle hfind hstate hactual error uncertainCharge now,
      fun owner month => within_settle (h.months owner month) hsound hfind hstate usage actual
        error uncertainCharge now rfl,
      fun c hc credits hcr => within_settle (h.credits c hc credits hcr) hsound hfind hstate usage
        actual error uncertainCharge now rfl⟩

/-- Every transaction keeps within the budgets. -/
theorem WithinBudgets.step (unique : (catalog.candidates.map fun c => (c.provider, c.model)).Nodup)
    (h : WithinBudgets catalog routes) (op : RouteStep) :
    WithinBudgets catalog (routeStep catalog routes op) := by
  cases op with
  | reserve owner category requestId candidate ordinal estimated fallbackFrom routeId now =>
    simp only [routeStep]
    split
    · exact h
    · next candidate hcandidate =>
      refine commit_of h fun routes' hok => ?_
      obtain ⟨id, hreserve⟩ := stateOf_eq_ok.mp hok
      exact h.reserve unique (List.mem_of_getElem? hcandidate) hreserve
  | settle routeId usage actual error uncertainCharge now =>
    exact commit_of h fun routes' hok => h.settle hok

/-- A settled route is never written again. -/
theorem step_settled (routes : ModelRoutes) (op : RouteStep) {r : ModelRoute}
    (hr : r ∈ routes.rows) (hsettled : r.state ≠ .reserved) :
    r ∈ (routeStep catalog routes op).rows := by
  cases op with
  | reserve owner category requestId candidate ordinal estimated fallbackFrom routeId now =>
    simp only [routeStep]
    split
    · exact hr
    · refine commit_of (P := fun routes : ModelRoutes => r ∈ routes.rows) hr fun routes' hok => ?_
      obtain ⟨id, hreserve⟩ := stateOf_eq_ok.mp hok
      obtain ⟨-, -, -, s, -, rfl, -⟩ := reserve_cases hreserve
      exact Table.mem_insertOrIgnore_of_mem hr
  | settle routeId usage actual error uncertainCharge now =>
    refine commit_of (P := fun routes : ModelRoutes => r ∈ routes.rows) hr fun routes' hok => ?_
    rcases settle_cases hok with rfl | ⟨s, hfind, hstate, -, rfl⟩
    · exact hr
    · rw [Table.mem_update]
      refine ⟨r, hr, if_neg fun hid => hsettled ?_⟩
      have hfound := Table.find?_of_mem hr
      rw [hid, hfind] at hfound
      exact Option.some.inj hfound ▸ hstate

end ModelRoutes

/-- The model budget is never exceeded. In every run of reservations and settlements, an owner's
charges of a month are within the monthly budget and the charges of a model are within its credits,
but for what settlements charged beyond their estimates; and a settled route stays as it is. -/
theorem model_budget_never_exceeded (catalog : RoutingCatalog)
    (unique : (catalog.candidates.map fun c => (c.provider, c.model)).Nodup)
    (steps : List RouteStep) :
    let routes := run (routeStep catalog) .empty steps
    (∀ owner month, monthSum (·.budgetCharge) routes owner month ≤
      catalog.policy.monthlyBudgetMicroUsd + monthSum (·.overrun) routes owner month) ∧
    (∀ c ∈ catalog.candidates, ∀ credits ∈ c.creditsMicroUsd,
      modelSum (·.budgetCharge) routes c.provider c.model ≤
        (credits : ℤ) + modelSum (·.overrun) routes c.provider c.model) ∧
    ∀ before after, steps = before ++ after →
      ∀ r ∈ (run (routeStep catalog) .empty before).rows, r.state ≠ .reserved →
        r ∈ routes.rows := by
  intro routes
  have hbudgets : ModelRoutes.WithinBudgets catalog routes :=
    run_invariant' (fun _ op h => h.step unique op) steps (.empty catalog)
  refine ⟨fun owner month => ModelRoutes.charge_le_of_within (hbudgets.months owner month),
    fun c hc credits hcr => ModelRoutes.charge_le_of_within (hbudgets.credits c hc credits hcr), ?_⟩
  rintro before after rfl r hr hsettled
  have hrun : routes = run (routeStep catalog) (run (routeStep catalog) .empty before) after :=
    run_append _ _ _ _
  rw [hrun]
  exact run_invariant' (I := fun routes : ModelRoutes => r ∈ routes.rows)
    (fun routes op h => ModelRoutes.step_settled routes op h hsettled) after hr

/-- `_default_routing_config`: the catalog that is shipped. -/
def defaultRoutingCatalog : RoutingCatalog where
  policy :=
    { monthlyBudgetMicroUsd := 100000000
      perRequestBudgetMicroUsd := 2000000
      outputReservationTokens := 4096
      minReliability := 95 / 100
      maxSameModelRetries := 0
      maxAutomaticFallbackMicroUsd := 50000 }
  candidates :=
    [{ id := "openai:gpt-4.1-mini"
       provider := "openai"
       model := "gpt-4.1-mini"
       capabilityClass := "general-tools"
       reasoning := 4
       contextTokens := 1048576
       tools := true
       multimodal := true
       reliability := 99 / 100
       latencyMs := 1800
       inputMicroUsdPerMillion := 400000
       outputMicroUsdPerMillion := 1600000
       cachedInputMicroUsdPerMillion := 100000
       billingMode := .metered
       creditsMicroUsd := none
       enabled := true
       available := true
       safetyTier := 4 },
     { id := "google:gemini-2.0-flash"
       provider := "google"
       model := "gemini-2.0-flash"
       capabilityClass := "general-tools"
       reasoning := 4
       contextTokens := 1048576
       tools := true
       multimodal := true
       reliability := 98 / 100
       latencyMs := 1400
       inputMicroUsdPerMillion := 100000
       outputMicroUsdPerMillion := 400000
       cachedInputMicroUsdPerMillion := 25000
       billingMode := .metered
       creditsMicroUsd := none
       enabled := true
       available := true
       safetyTier := 4 },
     { id := "anthropic:claude-3-5-haiku"
       provider := "anthropic"
       model := "claude-3-5-haiku-latest"
       capabilityClass := "general-tools"
       reasoning := 4
       contextTokens := 200000
       tools := true
       multimodal := false
       reliability := 99 / 100
       latencyMs := 1600
       inputMicroUsdPerMillion := 800000
       outputMicroUsdPerMillion := 4000000
       cachedInputMicroUsdPerMillion := 80000
       billingMode := .metered
       creditsMicroUsd := none
       enabled := true
       available := true
       safetyTier := 4 }]

/-- A route of the shipped catalog that costs more than its estimate. -/
theorem model_budget_never_exceeded_default :
    monthSum (·.budgetCharge) (run (routeStep defaultRoutingCatalog) .empty
      [.reserve "owner" .execution "request" 1 1 7000 none "route" 1700000000000,
        .settle "route" none (some 9000) none false 1700000001000]) "owner" (2023, 11) ≤
      (100000000 : ℕ) + monthSum (·.overrun) (run (routeStep defaultRoutingCatalog) .empty
        [.reserve "owner" .execution "request" 1 1 7000 none "route" 1700000000000,
          .settle "route" none (some 9000) none false 1700000001000]) "owner" (2023, 11) :=
  (model_budget_never_exceeded defaultRoutingCatalog (by decide) _).1 "owner" (2023, 11)

end Magistrate
