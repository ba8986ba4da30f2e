import Mathlib.Algebra.Order.Ring.Unbundled.Rat
import Mathlib.Data.List.Sort
import Magistrate.Gateway.Routing.Ledger

/-!
# Routed completions

A completion tries its eligible candidates in order, each of them up to the
configured number of retries. Every attempt reserves its estimate on the route
ledger, calls the provider and settles what the call cost; other requests use
the same ledger before and during every call.
-/

namespace Magistrate

/-- `MagiModelToolCall` -/
structure MagiModelToolCall where
  id : String
  name : String
  argumentsJson : String
  deriving DecidableEq, Repr

/-- `MagiModelResult`; the provider adapters report token counts that are not negative, however
large. -/
structure MagiModelResult where
  text : Option String
  finishReason : String := "stop"
  toolCalls : List MagiModelToolCall := []
  usage : Option MagiModelUsage := none
  usage_nonneg : ∀ u ∈ usage, 0 ≤ u.inputTokens ∧ 0 ≤ u.outputTokens
  deriving DecidableEq

/-- How a provider call ends. -/
inductive ProviderOutcome where
  | result (result : MagiModelResult)
  | error (error : MagiModelError)
  /-- Any other exception. -/
  | failure
  /-- The task of the call is cancelled. -/
  | cancelled
  deriving DecidableEq

/-- `ModelRouteContext` -/
structure ModelRouteContext where
  ownerUserId : String
  category : RouteCategory
  permissionGranted : Bool
  explicitConfirmation : Bool := false
  contextTokens : ℤ := 0
  requiresTools : Bool := false
  requiresMultimodal : Bool := false
  preferredProvider : Option String := none
  preferredModel : Option String := none
  deriving DecidableEq, Repr

namespace ModelCandidate

/-- `estimated_cost` -/
def estimatedCost (c : ModelCandidate) (inputTokens outputTokens : ℤ) : ℤ :=
  max 0 ((max 0 inputTokens * c.inputMicroUsdPerMillion +
    max 0 outputTokens * c.outputMicroUsdPerMillion + 999999) / 1000000)

/-- `actual_cost` -/
def actualCost (c : ModelCandidate) (usage : MagiModelUsage) : ℤ :=
  max 0 ((max 0 (usage.inputTokens - usage.cachedInputTokens) * c.inputMicroUsdPerMillion +
    usage.cachedInputTokens * c.cachedInputMicroUsdPerMillion +
    usage.outputTokens * c.outputMicroUsdPerMillion + 999999) / 1000000)

end ModelCandidate

/-- `reliability`: the configured reliability, or less when enough settled routes failed. -/
def ModelRouteStore.reliability (routes : ModelRoutes) (c : ModelCandidate) : ℚ :=
  let settled := routes.rows.filter fun r =>
    r.providerId = c.provider ∧ r.modelId = c.model ∧ r.state ≠ .reserved
  if settled.length < 5 then c.reliability
  else min c.reliability ((settled.countP fun r => r.state = .succeeded : ℚ) / settled.length)

/-- `_REASONING_REQUIRED` -/
def RouteCategory.reasoningRequired : RouteCategory → ℤ
  | .directConversation => 1
  | .readOnlyInvestigation => 2
  | .execution => 3
  | .decisionResponse => 3
  | .highImpactAction => 4

/-- `RoutedMagiModel`: the catalog, and which credentials and providers are there. -/
structure RoutedMagiModel where
  catalog : RoutingCatalog
  credentialPresent : ModelCandidate → Bool
  providerRegistered : ModelCandidate → Bool

/-- A completion that is asked for, with the estimate of its input tokens. -/
structure RoutedRequest where
  requestId : String
  context : ModelRouteContext
  estimatedInputTokens : ℤ

/-- The sort key of a candidate and its estimate. -/
structure RouteRank where
  marginal : ℤ
  preference : ℕ
  reliability : ℚ
  latencyMs : ℤ
  id : String
  deriving DecidableEq

/-- Ranks in lexicographic order, the more reliable candidate first. -/
def RouteRank.le (a b : RouteRank) : Bool :=
  if a.marginal ≠ b.marginal then a.marginal < b.marginal
  else if a.preference ≠ b.preference then a.preference < b.preference
  else if a.reliability ≠ b.reliability then b.reliability < a.reliability
  else if a.latencyMs ≠ b.latencyMs then a.latencyMs < b.latencyMs
  else a.id ≤ b.id

namespace RoutedMagiModel

variable (model : RoutedMagiModel) (context : ModelRouteContext)

/-- Whether a candidate meets the requirements of a request but for its costs. -/
def suits (inputTokens : ℤ) (routes : ModelRoutes) (c : ModelCandidate) : Bool :=
  let policy := model.catalog.policy
  (c.enabled && c.available && model.credentialPresent c && model.providerRegistered c) &&
  context.category.reasoningRequired ≤ c.reasoning &&
  (if context.category = .highImpactAction then 4 else 1) ≤ c.safetyTier &&
  inputTokens + policy.outputReservationTokens ≤ c.contextTokens &&
  (!context.requiresTools || c.tools) &&
  (!context.requiresMultimodal || c.multimodal) &&
  policy.minReliability ≤ ModelRouteStore.reliability routes c

/-- Whether a candidate meets every requirement of a request. -/
def admits (inputTokens : ℤ) (routes : ModelRoutes) (c : ModelCandidate) : Bool :=
  let estimate := c.estimatedCost inputTokens model.catalog.policy.outputReservationTokens
  model.suits context inputTokens routes c &&
  (c.creditsMicroUsd.all fun credits =>
    estimate ≤ max 0 ((credits : ℤ) - ModelRouteStore.creditsSpent routes c.provider c.model)) &&
  estimate ≤ model.catalog.policy.perRequestBudgetMicroUsd

/-- The credits that a suitable candidate has spent cannot be summed up. -/
def creditsOverflow (inputTokens : ℤ) (routes : ModelRoutes) (c : ModelCandidate) : Bool :=
  model.suits context inputTokens routes c && c.creditsMicroUsd.isSome &&
    maxColumn < ModelRouteStore.creditsSpent routes c.provider c.model

/-- The rank of a candidate. -/
def rank (routes : ModelRoutes) (item : ModelCandidate × ℤ) : RouteRank where
  marginal := if item.1.billingMode = .subscription then 0 else item.2
  preference := if context.preferredModel = some item.1.model then 0
    else if context.preferredProvider = some item.1.provider then 1 else 2
  reliability := ModelRouteStore.reliability routes item.1
  latencyMs := item.1.latencyMs
  id := item.1.id

/-- `_eligible`: the candidates to try with their estimates, the class of the best one first. -/
def eligible (inputTokens : ℤ) (routes : ModelRoutes) : List (ModelCandidate × ℤ) :=
  let admitted := (model.catalog.candidates.filter (model.admits context inputTokens routes)).map
    fun c => (c, c.estimatedCost inputTokens model.catalog.policy.outputReservationTokens)
  let ranked := admitted.insertionSort fun a b => (rank context routes a).le (rank context routes b)
  match ranked with
  | [] => []
  | primary :: _ =>
    ranked.filter (fun item => item.1.capabilityClass = primary.1.capabilityClass) ++
      ranked.filter (fun item => item.1.capabilityClass ≠ primary.1.capabilityClass)

end RoutedMagiModel

/-- How a completion ends. -/
inductive RouteExit where
  | returned (result : MagiModelResult)
  | raised (failure : RouteFailure)
  | cancelled
  deriving DecidableEq

/-- A turn of the loops: a candidate that is tried, and the number of the try. -/
structure RouteAttempt where
  index : ℕ
  candidate : ModelCandidate
  estimate : ℤ
  ordinal : ℕ
  deriving DecidableEq

/-- What a completion does to the route ledger and to the providers. -/
inductive RouteEvent where
  | reserve (attempt : RouteAttempt) (outcome : Except RouteFailure String)
  | call (attempt : RouteAttempt) (outcome : ProviderOutcome)
  | settle (attempt : RouteAttempt) (routeId : String)

/-- What a completion meets: how the call of each attempt ends, what other requests do to the
ledger before the reservation and during the call, and the ids and times that are drawn. -/
structure RouteWorld where
  provider : ℕ → ProviderOutcome
  before : ℕ → List RouteStep
  during : ℕ → List RouteStep
  routeId : ℕ → String
  reservedAt : ℕ → ℤ
  settledAt : ℕ → ℤ

/-- The variables of the loops of `complete_routed`, and the ledger. -/
structure RouteLoop where
  ordinal : ℕ := 0
  fallbackFrom : Option String := none
  lastError : Option MagiModelError := none
  routes : ModelRoutes

/-- What a completion did, how it ended, and the ledger after it. -/
structure RoutedRun where
  exit : RouteExit
  events : List RouteEvent
  routes : ModelRoutes

/-- The events of an attempt come before those of the attempts after it. -/
def RoutedRun.prepend (events : List RouteEvent) (r : RoutedRun) : RoutedRun :=
  { r with events := events ++ r.events }

/-- Where the loops go after an attempt. -/
inductive Verdict where
  | stop (exit : RouteExit)
  /-- The same candidate is tried again, if a retry is left. -/
  | retry (error : MagiModelError)
  /-- The candidate has no credits left. -/
  | exhausted (error : MagiModelError)

/-- An error after which no attempt is made: it is not retryable, tool calls were seen, or an
amount above the automatic ceiling may have been charged. -/
def MagiModelError.Final (ceiling : ℕ) (estimate : ℤ) (e : MagiModelError) : Prop :=
  e.retryable = false ∨ e.toolCalls ≠ 0 ∨ (e.billingUncertain = true ∧ (ceiling : ℤ) < estimate)

instance (ceiling : ℕ) (estimate : ℤ) (e : MagiModelError) :
    Decidable (e.Final ceiling estimate) := by
  unfold MagiModelError.Final
  infer_instance

/-- The error that stands for every other exception of a provider. -/
def providerFailure : MagiModelError := { code := "provider_failure", billingUncertain := true }

/-- The ledger can hold what a call of a candidate reports. -/
def ProviderOutcome.Storable (c : ModelCandidate) : ProviderOutcome → Prop
  | .result answer => ModelRouteStore.Fits answer.usage (answer.usage.map c.actualCost)
  | .error _ | .failure | .cancelled => True

/-- The way on after a provider call that was settled. -/
def ProviderOutcome.verdict (ceiling : ℕ) (estimate : ℤ) : ProviderOutcome → Verdict
  | .result answer => .stop (.returned answer)
  | .error e => if e.Final ceiling estimate then .stop (.raised (.model e)) else .retry e
  | .failure => .stop (.raised (.model providerFailure))
  | .cancelled => .stop .cancelled

namespace RoutedMagiModel

variable (model : RoutedMagiModel) (request : RoutedRequest) (world : RouteWorld)

/-- The settlement of a provider call; a call that is cancelled is not settled. -/
def settleCall (a : RouteAttempt) (routeId : String) (routes : ModelRoutes) :
    ProviderOutcome → Option (Except RouteFailure ModelRoutes)
  | .result result => some (ModelRouteStore.settle routeId result.usage
      (result.usage.map a.candidate.actualCost) none result.usage.isNone
      (world.settledAt a.ordinal) routes)
  | .error e => some (ModelRouteStore.settle routeId none none (some e) e.billingUncertain
      (world.settledAt a.ordinal) routes)
  | .failure => some (ModelRouteStore.settle routeId none none (some providerFailure) true
      (world.settledAt a.ordinal) routes)
  | .cancelled => none

/-- The body of the inner loop: reserve the estimate, call the provider, settle. -/
def attempt (a : RouteAttempt) (s : RouteLoop) : Verdict × List RouteEvent × ModelRoutes :=
  let policy := model.catalog.policy
  let routes := run (routeStep model.catalog) s.routes (world.before a.ordinal)
  match ModelRouteStore.reserve request.context.ownerUserId request.context.category
      request.requestId a.candidate a.ordinal a.estimate policy.monthlyBudgetMicroUsd
      s.fallbackFrom (world.routeId a.ordinal) (world.reservedAt a.ordinal) routes with
  | .error (.model e) =>
    (if e.code ≠ "model_credits_exhausted" then .stop (.raised (.model e)) else .exhausted e,
      [.reserve a (.error (.model e))], routes)
  | .error failure => (.stop (.raised failure), [.reserve a (.error failure)], routes)
  | .ok (routeId, reserved) =>
    let outcome := world.provider a.ordinal
    let routes := run (routeStep model.catalog) reserved (world.during a.ordinal)
    let verdict := outcome.verdict policy.maxAutomaticFallbackMicroUsd a.estimate
    match settleCall world a routeId routes outcome with
    | none => (verdict, [.reserve a (.ok routeId), .call a outcome], routes)
    | some (.error failure) =>
      (.stop (.raised failure), [.reserve a (.ok routeId), .call a outcome], routes)
    | some (.ok settled) =>
      (verdict, [.reserve a (.ok routeId), .call a outcome, .settle a routeId], settled)

/-- The inner loop: the tries of one candidate, with the retries that are left after the next
one. `next` goes on with the next candidate. -/
def tryCandidate (index : ℕ) (item : ModelCandidate × ℤ) (next : RouteLoop → RoutedRun) :
    ℕ → RouteLoop → RoutedRun
  | left, s =>
    let a : RouteAttempt :=
      { index, candidate := item.1, estimate := item.2, ordinal := s.ordinal + 1 }
    match model.attempt request world a s with
    | (.stop exit, events, routes) => ⟨exit, events, routes⟩
    | (.exhausted e, events, routes) => (next ⟨a.ordinal, item.1.id, e, routes⟩).prepend events
    | (.retry e, events, routes) =>
      match left with
      | 0 => (next ⟨a.ordinal, item.1.id, e, routes⟩).prepend events
      | left + 1 =>
        (tryCandidate index item next left ⟨a.ordinal, s.fallbackFrom, e, routes⟩).prepend events

/-- The outer loop: the candidates from an index on. -/
def tryCandidates : ℕ → List (ModelCandidate × ℤ) → RouteLoop → RoutedRun
  | _, [], s =>
    ⟨.raised (.model (s.lastError.getD
      { code := "no_reliably_capable_model", retryable := false })), [], s.routes⟩
  | index, item :: rest, s =>
    if index ≠ 0 ∧ (model.catalog.policy.maxAutomaticFallbackMicroUsd : ℤ) < item.2 ∧
        request.context.explicitConfirmation = false then
      ⟨.raised (.model { code := "route_fallback_confirmation_required", retryable := false }), [],
        s.routes⟩
    else
      model.tryCandidate request world index item (tryCandidates (index + 1) rest)
        model.catalog.policy.maxSameModelRetries s

/-- The tokens that a request is taken to have. -/
def inputTokens : ℤ := max request.context.contextTokens request.estimatedInputTokens

/-- The candidates of a request, in the order in which they are tried. -/
def candidates (routes : ModelRoutes) : List (ModelCandidate × ℤ) :=
  model.eligible request.context (inputTokens request) routes

/-- `complete_routed` -/
def completeRouted (routes : ModelRoutes) : RoutedRun :=
  let refuse (code : String) : RoutedRun :=
    ⟨.raised (.model { code, retryable := false }), [], routes⟩
  if request.context.category ≠ .directConversation ∧ request.context.permissionGranted = false then
    refuse "route_permission_required"
  else if request.context.category = .highImpactAction ∧
      request.context.explicitConfirmation = false then
    refuse "route_confirmation_required"
  else if model.catalog.candidates.any
      (model.creditsOverflow request.context (inputTokens request) routes) = true then
    ⟨.raised .overflowError, [], routes⟩
  else if model.candidates request routes = [] then
    refuse "no_reliably_capable_model"
  else
    model.tryCandidates request world 0 (model.candidates request routes) { routes }

end RoutedMagiModel

/-- The columns that a settlement leaves. -/
def ModelRoute.reservation (r : ModelRoute) : ModelRoute :=
  { r with
    state := .reserved
    actualCost := none
    budgetCharge := 0
    inputTokens := none
    outputTokens := none
    errorCode := none
    updatedAt := 0 }

namespace ModelRoutes

variable {routes routes' : ModelRoutes} {catalog : RoutingCatalog}

/-- Every route stays on the ledger, and what is settled stays settled. -/
def Grow (routes routes' : ModelRoutes) : Prop :=
  ∀ id r, routes.find? id = some r → ∃ r', routes'.find? id = some r' ∧
    r'.reservation = r.reservation ∧ (r.state ≠ .reserved → r'.state ≠ .reserved)

/-- A ledger grows into itself. -/
theorem Grow.refl (routes : ModelRoutes) : Grow routes routes := fun _ r h =>
  ⟨r, h, rfl, id⟩

/-- Growth composes. -/
theorem Grow.trans {routes'' : ModelRoutes} (h : Grow routes routes') (h' : Grow routes' routes'') :
    Grow routes routes'' := by
  intro id r hr
  obtain ⟨r', hr', hsame, hstate⟩ := h id r hr
  obtain ⟨r'', hr'', hsame', hstate'⟩ := h' id r' hr'
  exact ⟨r'', hr'', hsame'.trans hsame, fun h => hstate' (hstate h)⟩

/-- A new route leaves the others. -/
theorem Grow.insert (routes : ModelRoutes) (r : ModelRoute) :
    Grow routes (routes.insertOrIgnore r) := by
  intro id old hold
  refine ⟨old, ?_, rfl, fun h => h⟩
  obtain ⟨hmem, rfl⟩ := Table.mem_of_find? hold
  exact Table.find?_of_mem (Table.mem_insertOrIgnore_of_mem hmem)

/-- A settled route is no longer reserved. -/
theorem settled_state (r : ModelRoute) (usage : Option MagiModelUsage) (actual : Option ℤ)
    (error : Option MagiModelError) (uncertainCharge : Bool) (now : ℤ) :
    (r.settled usage actual error uncertainCharge now).state ≠ .reserved := by
  cases error <;> simp

/-- A settlement leaves every route but for what it settles. -/
theorem Grow.settle {routeId : String} {usage : Option MagiModelUsage} {actual : Option ℤ}
    {error : Option MagiModelError} {uncertainCharge : Bool} {now : ℤ}
    (h : ModelRouteStore.settle routeId usage actual error uncertainCharge now routes =
      .ok routes') : Grow routes routes' := by
  rcases settle_cases h with rfl | ⟨-, -, -, -, rfl⟩
  · exact .refl routes
  · intro id r hr
    by_cases hid : id = routeId
    · subst hid
      refine ⟨r.settled usage actual error uncertainCharge now, ?_, rfl,
        fun _ => settled_state r usage actual error uncertainCharge now⟩
      rw [Table.find?_update_self, hr, Option.map_some]
    · refine ⟨r, ?_, rfl, fun h => h⟩
      rw [Table.find?_update_ne _ hid, hr]

/-- A settlement of amounts that are not negative and fit succeeds. -/
theorem settle_ok (routeId : String) (routes : ModelRoutes) {usage : Option MagiModelUsage}
    {actual : Option ℤ} (hfits : ModelRouteStore.Fits usage actual)
    (hactual : ∀ cost ∈ actual, 0 ≤ cost)
    (husage : ∀ u ∈ usage, 0 ≤ u.inputTokens ∧ 0 ≤ u.outputTokens)
    (error : Option MagiModelError) (uncertainCharge : Bool) (now : ℤ) :
    ∃ settled, ModelRouteStore.settle routeId usage actual error uncertainCharge now routes =
      .ok settled := by
  unfold ModelRouteStore.settle
  split
  · exact ⟨_, rfl⟩
  · rw [raiseIf_ok (not_not.mpr hfits), ok_bind, raiseIf_ok]
    · exact ⟨_, rfl⟩
    · rintro (hcost | htokens)
      · cases actual with
        | none => simp at hcost
        | some cost => exact not_lt.mpr (hactual cost rfl) (of_decide_eq_true hcost)
      · cases usage with
        | none => simp at htokens
        | some u =>
          have hneg : u.inputTokens < 0 ∨ u.outputTokens < 0 := of_decide_eq_true htokens
          have hnonneg := husage u rfl
          omega

/-- After a settlement its route is no longer reserved. -/
theorem settle_ended {routeId : String} {usage : Option MagiModelUsage} {actual : Option ℤ}
    {error : Option MagiModelError} {uncertainCharge : Bool} {now : ℤ}
    (h : ModelRouteStore.settle routeId usage actual error uncertainCharge now routes =
      .ok routes') {r : ModelRoute} (hr : routes'.find? routeId = some r) :
    r.state ≠ .reserved := by
  unfold ModelRouteStore.settle at h
  split at h
  · next hnone =>
    obtain rfl := Except.ok.inj h
    intro hstate
    rw [hr, Option.filter_some, if_pos (decide_eq_true hstate)] at hnone
    exact Option.some_ne_none _ hnone
  · next old hold =>
    simp only [bind_eq_ok, raiseIf_eq_ok, pure_eq_ok, exists_const] at h
    obtain ⟨-, -, rfl⟩ := h
    rw [Table.find?_update_self, (Option.filter_eq_some_iff.mp hold).1, Option.map_some,
      Option.some.injEq] at hr
    exact hr ▸ settled_state old usage actual error uncertainCharge now

/-- A settlement of amounts that are not negative fails only when they do not fit. -/
theorem settle_error {routeId : String} {usage : Option MagiModelUsage} {actual : Option ℤ}
    (hactual : ∀ cost ∈ actual, 0 ≤ cost)
    (husage : ∀ u ∈ usage, 0 ≤ u.inputTokens ∧ 0 ≤ u.outputTokens) {error : Option MagiModelError}
    {uncertainCharge : Bool} {now : ℤ} {failure : RouteFailure}
    (h : ModelRouteStore.settle routeId usage actual error uncertainCharge now routes =
      .error failure) : failure = .overflowError ∧ ¬ModelRouteStore.Fits usage actual := by
  by_cases hfits : ModelRouteStore.Fits usage actual
  · obtain ⟨settled, hok⟩ := settle_ok routeId routes hfits hactual husage error uncertainCharge now
    cases hok.symm.trans h
  · unfold ModelRouteStore.settle at h
    split at h
    · cases h
    · rw [raiseIf_error hfits] at h
      exact ⟨(Except.error.inj h).symm, hfits⟩

/-- The ledger grows with every transaction. -/
theorem Grow.step (routes : ModelRoutes) (op : RouteStep) :
    Grow routes (routeStep catalog routes op) := by
  cases op with
  | reserve owner category requestId candidate ordinal estimated fallbackFrom routeId now =>
    simp only [routeStep]
    split
    · exact .refl routes
    · refine commit_of (.refl routes) fun routes' hok => ?_
      obtain ⟨id, hreserve⟩ := stateOf_eq_ok.mp hok
      obtain ⟨-, -, -, r, -, rfl, -⟩ := reserve_cases hreserve
      exact .insert routes r
  | settle routeId usage actual error uncertainCharge now =>
    exact commit_of (.refl routes) fun routes' hok => .settle hok

/-- The ledger grows along every run. -/
theorem Grow.run (catalog : RoutingCatalog) (routes : ModelRoutes) (steps : List RouteStep) :
    Grow routes (Magistrate.run (routeStep catalog) routes steps) :=
  run_monotone Grow.refl (fun _ _ _ => Grow.trans) Grow.step routes steps

/-- What a grown ledger does not have was never there. -/
theorem Grow.fresh (h : Grow routes routes') {id : String} (hid : routes'.find? id = none) :
    routes.find? id = none := by
  by_contra hsome
  obtain ⟨r, hr⟩ := Option.ne_none_iff_exists'.mp hsome
  obtain ⟨r', hr', -⟩ := h id r hr
  exact absurd (hid.symm.trans hr') (by simp)

end ModelRoutes

namespace RouteEvent

/-- A provider call. -/
def isCall : RouteEvent → Bool
  | .call .. => true
  | _ => false

/-- The attempt whose reservation is asked for. -/
def tried : RouteEvent → Option RouteAttempt
  | .reserve a _ => a
  | _ => none

/-- The route that is reserved. -/
def reservedRoute : RouteEvent → Option String
  | .reserve _ (.ok id) => id
  | _ => none

/-- The route that is settled. -/
def settledRoute : RouteEvent → Option String
  | .settle _ id => id
  | _ => none

/-- A call that does not end in an error that may be tried again. -/
def Final (ceiling : ℕ) : RouteEvent → Prop
  | .call a (.error e) => e.Final ceiling a.estimate
  | .call _ _ => True
  | _ => False

end RouteEvent

/-- A completion that ends neither in a cancellation nor in a settlement that the ledger cannot
hold. -/
def RoutedRun.Ends (r : RoutedRun) : Prop :=
  r.exit ≠ .cancelled ∧ (r.exit = .raised .overflowError →
    ∀ a outcome, .call a outcome ∈ r.events → outcome.Storable a.candidate)

/-- What comes before a completion does not change how it ends. -/
theorem RoutedRun.Ends.of_prepend {r : RoutedRun} {events : List RouteEvent}
    (h : (r.prepend events).Ends) : r.Ends :=
  ⟨h.1, fun hexit a outcome hcall => h.2 hexit a outcome (List.mem_append_right events hcall)⟩

/-- Every call directly follows its own reservation. -/
def ReservedFirst (events : List RouteEvent) : Prop :=
  ∀ before a outcome after, events = before ++ .call a outcome :: after →
    ∃ id, before.getLast? = some (.reserve a (.ok id))

/-- Nothing but a settlement follows a final call. -/
def Quiet (ceiling : ℕ) (events : List RouteEvent) : Prop :=
  events.Pairwise fun first later => first.Final ceiling → ∃ a id, later = .settle a id

namespace ReservedFirst

variable {events : List RouteEvent}

/-- No calls follow no reservations. -/
theorem nil : ReservedFirst [] := fun before a outcome after h => by simp at h

/-- What comes before the events takes no reservation away. -/
theorem getLast?_cons {before : List RouteEvent} {last : RouteEvent}
    (h : before.getLast? = some last) (x : RouteEvent) : (x :: before).getLast? = some last := by
  rw [List.getLast?_cons, h, Option.getD_some]

/-- An event that is no call may come before. -/
theorem cons (h : ReservedFirst events) {x : RouteEvent} (hx : x.isCall = false) :
    ReservedFirst (x :: events) := by
  intro before a outcome after hsplit
  cases before with
  | nil =>
    obtain ⟨rfl, -⟩ := List.cons.inj hsplit
    simp [RouteEvent.isCall] at hx
  | cons y before =>
    obtain ⟨-, hrest⟩ := List.cons.inj hsplit
    obtain ⟨id, hlast⟩ := h before a outcome after hrest
    exact ⟨id, getLast?_cons hlast y⟩

/-- A reservation and its call may come before. -/
theorem cons_call (h : ReservedFirst events) (a : RouteAttempt) (id : String)
    (outcome : ProviderOutcome) :
    ReservedFirst (.reserve a (.ok id) :: .call a outcome :: events) := by
  intro before b outcome' after hsplit
  match before, hsplit with
  | [], hsplit => simp at hsplit
  | [_], hsplit =>
    simp only [List.cons_append, List.nil_append, List.cons.injEq, RouteEvent.call.injEq] at hsplit
    obtain ⟨rfl, ⟨rfl, -⟩, -⟩ := hsplit
    exact ⟨id, rfl⟩
  | x :: y :: before, hsplit =>
    simp only [List.cons_append, List.cons.injEq] at hsplit
    obtain ⟨id', hlast⟩ := h before b outcome' after hsplit.2.2
    exact ⟨id', getLast?_cons (getLast?_cons hlast y) x⟩

end ReservedFirst

namespace RoutedMagiModel

variable {model : RoutedMagiModel} {request : RoutedRequest} {world : RouteWorld}

/-- The row of an attempt. -/
def Recorded (request : RoutedRequest) (a : RouteAttempt) (r : ModelRoute) : Prop :=
  r.ownerUserId = request.context.ownerUserId ∧ r.requestId = request.requestId ∧
    r.attemptOrdinal = a.ordinal ∧ r.providerId = a.candidate.provider ∧
    r.modelId = a.candidate.model ∧ r.estimatedCost = a.estimate

/-- A row stays the row of its attempt while the ledger grows. -/
theorem Recorded.of_reservation {a : RouteAttempt} {r r' : ModelRoute} (h : Recorded request a r)
    (hsame : r'.reservation = r.reservation) : Recorded request a r' := by
  simp only [ModelRoute.reservation, ModelRoute.mk.injEq] at hsame
  obtain ⟨-, howner, hrequest, -, hprovider, hmodel, -, hordinal, -, -, hestimate, -⟩ := hsame
  obtain ⟨h1, h2, h3, h4, h5, h6⟩ := h
  exact ⟨howner.trans h1, hrequest.trans h2, hordinal.trans h3, hprovider.trans h4,
    hmodel.trans h5, hestimate.trans h6⟩

/-- The settlement of a call that is not cancelled ends its reservation, or the ledger cannot hold
what the call reports. -/
theorem settleCall_cases (world : RouteWorld) (a : RouteAttempt) (routeId : String)
    (routes : ModelRoutes) (outcome : ProviderOutcome) :
    (outcome = .cancelled ∧ settleCall world a routeId routes outcome = none) ∨
      (settleCall world a routeId routes outcome = some (.error .overflowError) ∧
        ¬outcome.Storable a.candidate) ∨
      ∃ settled, settleCall world a routeId routes outcome = some (.ok settled) ∧
        ModelRoutes.Grow routes settled ∧
        ∀ r, settled.find? routeId = some r → r.state ≠ .reserved := by
  have hunused : ∀ error uncertainCharge, ∃ settled, ModelRouteStore.settle routeId none none error
      uncertainCharge (world.settledAt a.ordinal) routes = .ok settled := by
    intro error uncertainCharge
    exact ModelRoutes.settle_ok routeId routes ⟨by simp, by simp⟩ (by simp) (by simp) error
      uncertainCharge _
  cases outcome with
  | result answer =>
    have hactual : ∀ cost ∈ answer.usage.map a.candidate.actualCost, 0 ≤ cost := by
      intro cost hcost
      obtain ⟨usage, -, rfl⟩ := Option.map_eq_some_iff.mp hcost
      exact le_max_left 0 _
    cases hsettle : ModelRouteStore.settle routeId answer.usage
        (answer.usage.map a.candidate.actualCost) none answer.usage.isNone
        (world.settledAt a.ordinal) routes with
    | error failure =>
      obtain ⟨rfl, hlarge⟩ := ModelRoutes.settle_error hactual answer.usage_nonneg hsettle
      exact .inr (.inl ⟨congrArg some hsettle, hlarge⟩)
    | ok settled =>
      exact .inr (.inr ⟨settled, congrArg some hsettle, .settle hsettle,
        fun r => ModelRoutes.settle_ended hsettle⟩)
  | error e =>
    obtain ⟨settled, hok⟩ := hunused (some e) e.billingUncertain
    exact .inr (.inr ⟨settled, congrArg some hok, .settle hok,
      fun r => ModelRoutes.settle_ended hok⟩)
  | failure =>
    obtain ⟨settled, hok⟩ := hunused (some providerFailure) true
    exact .inr (.inr ⟨settled, congrArg some hok, .settle hok,
      fun r => ModelRoutes.settle_ended hok⟩)
  | cancelled => exact .inl ⟨rfl, rfl⟩

/-- A reservation records its attempt under a new id. -/
theorem reserve_recorded {a : RouteAttempt} {monthlyBudget : ℕ} {fallbackFrom : Option String}
    {routeId id : String} {now : ℤ} {routes reserved : ModelRoutes}
    (h : ModelRouteStore.reserve request.context.ownerUserId request.context.category
      request.requestId a.candidate a.ordinal a.estimate monthlyBudget fallbackFrom routeId now
      routes = .ok (id, reserved)) :
    routes.find? id = none ∧ ModelRoutes.Grow routes reserved ∧
      ∃ r, reserved.find? id = some r ∧ Recorded request a r := by
  simp only [ModelRouteStore.reserve, bind_eq_ok, raiseIf_eq_ok, pure_eq_ok, exists_const, not_or,
    not_not, Prod.mk.injEq] at h
  obtain ⟨-, -, -, -, -, ⟨-, hfree, -⟩, rfl, rfl⟩ := h
  refine ⟨hfree, .insert routes _, _, Table.find?_of_mem (Table.mem_insertOrIgnore_self hfree), ?_⟩
  exact ⟨rfl, rfl, rfl, rfl, rfl, rfl⟩

/-- What an attempt does: its reservation is refused, or it is reserved and the provider is called,
and the reservation is settled unless the call was cancelled or cannot be stored. -/
theorem attempt_cases {a : RouteAttempt} {s : RouteLoop} {verdict : Verdict}
    {events : List RouteEvent} {routes : ModelRoutes}
    (h : model.attempt request world a s = (verdict, events, routes)) :
    ModelRoutes.Grow s.routes routes ∧
      ((∃ failure, events = [.reserve a (.error failure)] ∧
          (verdict = .stop (.raised failure) ∨ ∃ e, verdict = .exhausted e)) ∨
        ∃ id r, s.routes.find? id = none ∧ routes.find? id = some r ∧ Recorded request a r ∧
          ((events = [.reserve a (.ok id), .call a (world.provider a.ordinal)] ∧
              (verdict = .stop .cancelled ∨ verdict = .stop (.raised .overflowError) ∧
                ¬(world.provider a.ordinal).Storable a.candidate)) ∨
            (r.state ≠ .reserved ∧
              verdict = (world.provider a.ordinal).verdict
                model.catalog.policy.maxAutomaticFallbackMicroUsd a.estimate ∧
              events = [.reserve a (.ok id), .call a (world.provider a.ordinal),
                .settle a id]))) := by
  have hbefore := ModelRoutes.Grow.run model.catalog s.routes (world.before a.ordinal)
  unfold attempt at h
  simp only at h
  split at h
  · next e hreserve =>
    obtain ⟨rfl, rfl, rfl⟩ := h
    refine ⟨hbefore, .inl ⟨_, rfl, ?_⟩⟩
    split
    · exact .inl rfl
    · exact .inr ⟨e, rfl⟩
  · obtain ⟨rfl, rfl, rfl⟩ := h
    exact ⟨hbefore, .inl ⟨_, rfl, .inl rfl⟩⟩
  · next id reserved hreserve =>
    obtain ⟨hfree, hgrow, r, hr, hrecorded⟩ := reserve_recorded hreserve
    have hduring := ModelRoutes.Grow.run model.catalog reserved
      (world.during a.ordinal)
    obtain ⟨r', hr', hsame, -⟩ := hduring id r hr
    have hfresh := hbefore.fresh hfree
    have hcalled := (hbefore.trans hgrow).trans hduring
    have hkept := hrecorded.of_reservation hsame
    rcases settleCall_cases world a id (run (routeStep model.catalog) reserved
      (world.during a.ordinal)) (world.provider a.ordinal) with ⟨hcancelled, hnone⟩ |
      ⟨hfails, hlarge⟩ | ⟨settled, hsettled, hsettles, hended⟩
    · rw [hnone] at h
      obtain ⟨rfl, rfl, rfl⟩ := h
      refine ⟨hcalled, .inr ⟨id, r', hfresh, hr', hkept, .inl ⟨rfl, .inl ?_⟩⟩⟩
      rw [hcancelled, ProviderOutcome.verdict]
    · rw [hfails] at h
      obtain ⟨rfl, rfl, rfl⟩ := h
      exact ⟨hcalled, .inr ⟨id, r', hfresh, hr', hkept, .inl ⟨rfl, .inr ⟨rfl, hlarge⟩⟩⟩⟩
    · rw [hsettled] at h
      obtain ⟨rfl, rfl, rfl⟩ := h
      obtain ⟨r'', hr'', hsame', -⟩ := hsettles id r' hr'
      exact ⟨hcalled.trans hsettles, .inr ⟨id, r'', hfresh, hr'', hkept.of_reservation hsame',
        .inr ⟨hended r'' hr'', rfl, rfl⟩⟩⟩

/-- What is lawful in the attempts made from a state of the loops on: at most `bound` calls are
made, and every attempt is an admitted one. -/
structure Lawful (model : RoutedMagiModel) (request : RoutedRequest) (bound : ℕ)
    (admitted : RouteAttempt → Prop) (s : RouteLoop) (r : RoutedRun) : Prop where
  grows : ModelRoutes.Grow s.routes r.routes
  calls : r.events.countP RouteEvent.isCall ≤ bound
  ordinals : (r.events.filterMap RouteEvent.tried).map (·.ordinal) =
    List.range' (s.ordinal + 1) (r.events.filterMap RouteEvent.tried).length
  tried : ∀ a ∈ r.events.filterMap RouteEvent.tried, admitted a
  reservedFirst : ReservedFirst r.events
  quiet : Quiet model.catalog.policy.maxAutomaticFallbackMicroUsd r.events
  nodup : (r.events.filterMap RouteEvent.reservedRoute).Nodup
  fresh : ∀ id ∈ r.events.filterMap RouteEvent.reservedRoute, s.routes.find? id = none
  recorded : ∀ a id, .reserve a (.ok id) ∈ r.events → ∃ row, r.routes.find? id = some row ∧
    Recorded request a row ∧ (r.Ends → row.state ≠ .reserved)
  settled : r.Ends → r.events.filterMap RouteEvent.settledRoute =
    r.events.filterMap RouteEvent.reservedRoute

/-- What is returned is the result of the last attempt. -/
def ReturnsLast (r : RoutedRun) : Prop :=
  ∀ answer, r.exit = .returned answer → ∃ before a id, r.events = before ++
    [.reserve a (.ok id), .call a (.result answer), .settle a id]

/-- Attempts that come before do not change the last one. -/
theorem ReturnsLast.prepend {r : RoutedRun} (h : ReturnsLast r) (events : List RouteEvent) :
    ReturnsLast (r.prepend events) := by
  intro answer hexit
  obtain ⟨before, a, id, hevents⟩ := h answer hexit
  refine ⟨events ++ before, a, id, ?_⟩
  rw [RoutedRun.prepend, hevents, List.append_assoc]

namespace Lawful

variable {bound : ℕ} {admitted : RouteAttempt → Prop} {s s' : RouteLoop} {r : RoutedRun}
  {a : RouteAttempt}

/-- More calls may be allowed. -/
theorem mono (h : Lawful model request bound admitted s r) {more : ℕ} (hle : bound ≤ more) :
    Lawful model request more admitted s r :=
  { h with calls := h.calls.trans hle }

/-- Making no attempt is lawful. -/
theorem stop (s : RouteLoop) (exit : RouteExit) :
    Lawful model request 0 admitted s ⟨exit, [], s.routes⟩ where
  grows := .refl _
  calls := le_refl 0
  ordinals := rfl
  tried _ ha := by simp at ha
  reservedFirst := .nil
  quiet := .nil
  nodup := .nil
  fresh _ hid := by simp at hid
  recorded _ _ h := by simp at h
  settled _ := rfl

/-- A refused reservation comes before what is lawful after it. -/
theorem refusal (h : Lawful model request bound admitted s' r)
    (hgrow : ModelRoutes.Grow s.routes s'.routes) (hordinal : s'.ordinal = s.ordinal + 1)
    (ha : a.ordinal = s.ordinal + 1) (hadmitted : admitted a) (failure : RouteFailure) :
    Lawful model request bound admitted s (r.prepend [.reserve a (.error failure)]) where
  grows := hgrow.trans h.grows
  calls := h.calls
  ordinals := by
    have hrest := h.ordinals
    rw [hordinal] at hrest
    simp [RoutedRun.prepend, RouteEvent.tried, List.range'_succ, ha, hrest]
  tried := List.forall_mem_cons.mpr ⟨hadmitted, h.tried⟩
  reservedFirst := h.reservedFirst.cons rfl
  quiet := List.pairwise_cons.mpr ⟨fun _ _ hfinal => hfinal.elim, h.quiet⟩
  nodup := h.nodup
  fresh id hid := hgrow.fresh (h.fresh id hid)
  recorded b id hb := by
    rcases List.mem_cons.mp hb with hb | hb
    · simp at hb
    · obtain ⟨row, hrow, hrecorded, hstate⟩ := h.recorded b id hb
      exact ⟨row, hrow, hrecorded, fun hends => hstate hends.of_prepend⟩
  settled hends := h.settled hends.of_prepend

/-- An attempt that is settled comes before what is lawful after it; nothing comes after a final
call. -/
theorem call (h : Lawful model request bound admitted s' r)
    (hgrow : ModelRoutes.Grow s.routes s'.routes) (hordinal : s'.ordinal = s.ordinal + 1)
    (ha : a.ordinal = s.ordinal + 1) (hadmitted : admitted a) {id : String} {row : ModelRoute}
    (hfree : s.routes.find? id = none) (hrow : s'.routes.find? id = some row)
    (hrecorded : Recorded request a row) (hended : row.state ≠ .reserved)
    {outcome : ProviderOutcome}
    (hfinal : (RouteEvent.call a outcome).Final
      model.catalog.policy.maxAutomaticFallbackMicroUsd → r.events = []) :
    Lawful model request (bound + 1) admitted s
      (r.prepend [.reserve a (.ok id), .call a outcome, .settle a id]) where
  grows := hgrow.trans h.grows
  calls := by simpa [RoutedRun.prepend, List.countP_cons, RouteEvent.isCall] using h.calls
  ordinals := by
    have hrest := h.ordinals
    rw [hordinal] at hrest
    simp [RoutedRun.prepend, List.filterMap_cons, RouteEvent.tried, List.range'_succ, ha, hrest]
  tried := List.forall_mem_cons.mpr ⟨hadmitted, h.tried⟩
  reservedFirst := (h.reservedFirst.cons rfl).cons_call a id outcome
  quiet := by
    refine List.pairwise_cons.mpr ⟨fun _ _ hfinal => hfinal.elim, List.pairwise_cons.mpr
      ⟨fun later hlater hcall => ?_, List.pairwise_cons.mpr ⟨fun _ _ hfinal => hfinal.elim,
        h.quiet⟩⟩⟩
    rcases List.mem_cons.mp hlater with rfl | hlater
    · exact ⟨a, id, rfl⟩
    · have hnone : later ∈ r.events := hlater
      simp [hfinal hcall] at hnone
  nodup := by
    refine List.nodup_cons.mpr ⟨fun hid => ?_, h.nodup⟩
    simp [h.fresh id hid] at hrow
  fresh := List.forall_mem_cons.mpr ⟨hfree, fun id hid => hgrow.fresh (h.fresh id hid)⟩
  recorded b id' hb := by
    rcases List.mem_cons.mp hb with hb | hb
    · obtain ⟨rfl, hid⟩ := RouteEvent.reserve.inj hb
      obtain rfl := Except.ok.inj hid
      obtain ⟨row', hrow', hsame, hstate⟩ := h.grows id' row hrow
      exact ⟨row', hrow', hrecorded.of_reservation hsame, fun _ => hstate hended⟩
    · have hrest : .reserve b (.ok id') ∈
          RouteEvent.call a outcome :: .settle a id :: r.events := hb
      simp only [List.mem_cons, reduceCtorEq, false_or] at hrest
      obtain ⟨row', hrow', hrest, hstate⟩ := h.recorded b id' hrest
      exact ⟨row', hrow', hrest, fun hends => hstate hends.of_prepend⟩
  settled hends := congrArg (id :: ·) (h.settled hends.of_prepend)

/-- A call that is cancelled or cannot be stored ends the attempts; its reservation stays. -/
theorem unsettled {routes : ModelRoutes} {exit : RouteExit} {outcome : ProviderOutcome}
    (hexit : exit = .cancelled ∨ exit = .raised .overflowError ∧ ¬outcome.Storable a.candidate)
    (hgrow : ModelRoutes.Grow s.routes routes) (ha : a.ordinal = s.ordinal + 1)
    (hadmitted : admitted a) {id : String} {row : ModelRoute} (hfree : s.routes.find? id = none)
    (hrow : routes.find? id = some row) (hrecorded : Recorded request a row) :
    Lawful model request 1 admitted s
      ⟨exit, [.reserve a (.ok id), .call a outcome], routes⟩ := by
  have hopen : ¬RoutedRun.Ends ⟨exit, [.reserve a (.ok id), .call a outcome], routes⟩ := by
    rintro ⟨hcompleted, hstored⟩
    rcases hexit with hcancelled | ⟨hraised, hlarge⟩
    · exact hcompleted hcancelled
    · exact hlarge (hstored hraised a outcome (by simp))
  exact {
    grows := hgrow
    calls := le_refl 1
    ordinals := by simp [List.filterMap_cons, RouteEvent.tried, ha]
    tried := List.forall_mem_singleton.mpr hadmitted
    reservedFirst := ReservedFirst.nil.cons_call a id outcome
    quiet := List.pairwise_pair.mpr fun hfinal => hfinal.elim
    nodup := List.nodup_singleton id
    fresh := List.forall_mem_singleton.mpr hfree
    recorded := fun b id' hb => by
      simp only [List.mem_cons, RouteEvent.reserve.injEq, Except.ok.injEq, reduceCtorEq,
        List.not_mem_nil, or_false] at hb
      obtain ⟨rfl, rfl⟩ := hb
      exact ⟨row, hrow, hrecorded, fun hends => absurd hends hopen⟩
    settled := fun hends => absurd hends hopen }

end Lawful

/-- What is lawful and returns the result of its last attempt. -/
def Completes (model : RoutedMagiModel) (request : RoutedRequest) (bound : ℕ)
    (admitted : RouteAttempt → Prop) (s : RouteLoop) (r : RoutedRun) : Prop :=
  Lawful model request bound admitted s r ∧ ReturnsLast r

/-- More calls may be allowed. -/
theorem Completes.mono {bound more : ℕ} {admitted : RouteAttempt → Prop} {s : RouteLoop}
    {r : RoutedRun} (h : Completes model request bound admitted s r) (hle : bound ≤ more) :
    Completes model request more admitted s r :=
  ⟨h.1.mono hle, h.2⟩

section Attempt

variable {admitted : RouteAttempt → Prop} {a : RouteAttempt} {s : RouteLoop} {verdict : Verdict}
  {events : List RouteEvent} {routes : ModelRoutes}

/-- An attempt that stops the loops is lawful, and returns the result of its call. -/
theorem attempt_stops (h : model.attempt request world a s = (verdict, events, routes))
    (ha : a.ordinal = s.ordinal + 1) (hadmitted : admitted a) {exit : RouteExit}
    (hstop : verdict = .stop exit) :
    Completes model request 1 admitted s ⟨exit, events, routes⟩ := by
  let s' : RouteLoop := { s with ordinal := s.ordinal + 1, routes }
  have hstopped : Lawful model request 0 admitted s' ⟨exit, [], routes⟩ := .stop s' exit
  obtain ⟨hgrow, ⟨failure, rfl, hverdict⟩ | ⟨id, row, hfree, hrow, hrecorded, houtcome⟩⟩ :=
    attempt_cases h
  · refine ⟨(hstopped.refusal hgrow rfl ha hadmitted failure).mono (Nat.zero_le 1), ?_⟩
    rintro answer rfl
    rcases hverdict with hraised | ⟨e, hexhausted⟩
    · simp [hstop] at hraised
    · simp [hstop] at hexhausted
  · rcases houtcome with ⟨rfl, hopen⟩ | ⟨hended, hverdict, rfl⟩
    · simp only [hstop, Verdict.stop.injEq] at hopen
      refine ⟨.unsettled hopen hgrow ha hadmitted hfree hrow hrecorded, ?_⟩
      rintro answer rfl
      simp at hopen
    · refine ⟨hstopped.call hgrow rfl ha hadmitted hfree hrow hrecorded hended fun _ => rfl, ?_⟩
      rintro answer rfl
      refine ⟨[], a, id, ?_⟩
      have hresult : world.provider a.ordinal = .result answer := by
        rw [hstop] at hverdict
        cases houtcome : world.provider a.ordinal with
        | result other =>
          rw [houtcome] at hverdict
          obtain rfl := RouteExit.returned.inj (Verdict.stop.inj hverdict)
          rfl
        | error e =>
          rw [houtcome, ProviderOutcome.verdict] at hverdict
          split at hverdict <;> simp at hverdict
        | failure => simp [houtcome, ProviderOutcome.verdict] at hverdict
        | cancelled => simp [houtcome, ProviderOutcome.verdict] at hverdict
      rw [hresult, List.nil_append]

/-- An attempt that does not stop the loops comes before what is lawful after it. -/
theorem attempt_continues (h : model.attempt request world a s = (verdict, events, routes))
    (ha : a.ordinal = s.ordinal + 1) (hadmitted : admitted a) (hgoes : ∀ exit, verdict ≠ .stop exit)
    {bound : ℕ} {fallbackFrom : Option String} {lastError : Option MagiModelError} {r : RoutedRun}
    (hr : Completes model request bound admitted ⟨a.ordinal, fallbackFrom, lastError, routes⟩ r) :
    Completes model request (bound + 1) admitted s (r.prepend events) := by
  refine ⟨?_, hr.2.prepend events⟩
  obtain ⟨hgrow, ⟨failure, rfl, -⟩ | ⟨id, row, hfree, hrow, hrecorded, houtcome⟩⟩ :=
    attempt_cases h
  · exact (hr.1.refusal hgrow ha ha hadmitted failure).mono (Nat.le_succ bound)
  · rcases houtcome with ⟨rfl, hcancelled | ⟨hraised, -⟩⟩ | ⟨hended, hverdict, rfl⟩
    · exact absurd hcancelled (hgoes .cancelled)
    · exact absurd hraised (hgoes _)
    · refine hr.1.call hgrow ha ha hadmitted hfree hrow hrecorded hended fun hfinal => ?_
      cases houtcome : world.provider a.ordinal with
      | error e =>
        rw [houtcome] at hfinal hverdict
        have he : e.Final model.catalog.policy.maxAutomaticFallbackMicroUsd a.estimate := hfinal
        rw [ProviderOutcome.verdict, if_pos he] at hverdict
        exact absurd hverdict (hgoes _)
      | _ => exact absurd (by rw [hverdict, houtcome]; rfl) (hgoes _)

end Attempt

/-- The tries of a candidate are lawful when the rest is, and make one call more for every retry
that is left. -/
theorem tryCandidate_completes {bound index : ℕ} {admitted : RouteAttempt → Prop}
    {item : ModelCandidate × ℤ} {next : RouteLoop → RoutedRun}
    (hnext : ∀ s, Completes model request bound admitted s (next s))
    (hadmitted : ∀ ordinal, admitted ⟨index, item.1, item.2, ordinal⟩) (left : ℕ) (s : RouteLoop) :
    Completes model request (bound + left + 1) admitted s
      (model.tryCandidate request world index item next left s) := by
  induction left generalizing s with
  | zero =>
    unfold tryCandidate
    simp only
    split
    · next exit events routes h =>
      exact (attempt_stops h rfl (hadmitted _) rfl).mono (by omega)
    · next e events routes h => exact attempt_continues h rfl (hadmitted _) (by simp) (hnext _)
    · next e events routes h => exact attempt_continues h rfl (hadmitted _) (by simp) (hnext _)
  | succ left ih =>
    unfold tryCandidate
    simp only
    split
    · next exit events routes h =>
      exact (attempt_stops h rfl (hadmitted _) rfl).mono (by omega)
    · next e events routes h =>
      exact (attempt_continues h rfl (hadmitted _) (by simp) (hnext _)).mono (by omega)
    · next e events routes h =>
      exact (attempt_continues h rfl (hadmitted _) (by simp) (ih _)).mono (by omega)

/-- The tries of the candidates from an index on are lawful, when every candidate that may be used
there is an admitted one. -/
theorem tryCandidates_completes {admitted : RouteAttempt → Prop}
    (items : List (ModelCandidate × ℤ)) (index : ℕ)
    (hadmitted : ∀ i item, items[i]? = some item → (index + i = 0 ∨
      request.context.explicitConfirmation = true ∨
      item.2 ≤ (model.catalog.policy.maxAutomaticFallbackMicroUsd : ℤ)) →
      ∀ ordinal, admitted ⟨index + i, item.1, item.2, ordinal⟩) (s : RouteLoop) :
    Completes model request (items.length * (model.catalog.policy.maxSameModelRetries + 1)) admitted
      s (model.tryCandidates request world index items s) := by
  induction items generalizing index s with
  | nil =>
    refine ⟨(Lawful.stop s _).mono (Nat.zero_le _), fun answer hexit => ?_⟩
    simp [tryCandidates] at hexit
  | cons item rest ih =>
    unfold tryCandidates
    split
    · refine ⟨(Lawful.stop s _).mono (Nat.zero_le _), fun answer hexit => ?_⟩
      simp at hexit
    · next hconfirmed =>
      have hrest : ∀ s, Completes model request
          (rest.length * (model.catalog.policy.maxSameModelRetries + 1)) admitted s
          (model.tryCandidates request world (index + 1) rest s) := by
        refine ih (index + 1) fun i item' hitem hused => ?_
        rw [Nat.add_right_comm] at hused ⊢
        exact hadmitted (i + 1) item' (by rw [List.getElem?_cons_succ, hitem]) hused
      have hused : index + 0 = 0 ∨ request.context.explicitConfirmation = true ∨
          item.2 ≤ (model.catalog.policy.maxAutomaticFallbackMicroUsd : ℤ) := by
        rcases Nat.eq_zero_or_pos index with hindex | hindex
        · exact .inl hindex
        · cases hexplicit : request.context.explicitConfirmation with
          | true => exact .inr (.inl rfl)
          | false =>
            exact .inr (.inr (not_lt.mp fun hlt => hconfirmed ⟨hindex.ne', hlt, hexplicit⟩))
      refine (tryCandidate_completes hrest (hadmitted 0 item rfl hused) _ s).mono ?_
      rw [List.length_cons, Nat.succ_mul, Nat.add_assoc]

/-- An attempt that a request allows: the estimate of a candidate, and after the first candidate an
estimate within the automatic ceiling or an explicit confirmation. -/
def Admitted (model : RoutedMagiModel) (request : RoutedRequest) (routes : ModelRoutes)
    (a : RouteAttempt) : Prop :=
  (model.candidates request routes)[a.index]? = some (a.candidate, a.estimate) ∧
    (a.index = 0 ∨ request.context.explicitConfirmation = true ∨
      a.estimate ≤ (model.catalog.policy.maxAutomaticFallbackMicroUsd : ℤ))

/-- A completion is lawful. -/
theorem completeRouted_completes (model : RoutedMagiModel) (request : RoutedRequest)
    (world : RouteWorld) (routes : ModelRoutes) :
    Completes model request ((model.candidates request routes).length *
        (model.catalog.policy.maxSameModelRetries + 1)) (Admitted model request routes) { routes }
      (model.completeRouted request world routes) := by
  have hrefused : ∀ failure : RouteFailure, Completes model request
      ((model.candidates request routes).length * (model.catalog.policy.maxSameModelRetries + 1))
      (Admitted model request routes) { routes } ⟨.raised failure, [], routes⟩ := fun failure =>
    ⟨(Lawful.stop { routes } _).mono (Nat.zero_le _), fun answer hexit => by simp at hexit⟩
  unfold completeRouted
  simp only
  split
  · exact hrefused _
  · split
    · exact hrefused _
    · split
      · exact hrefused _
      · split
        · exact hrefused _
        · refine tryCandidates_completes _ 0 (fun i item hitem hused ordinal => ?_) _
          exact ⟨by rw [Nat.zero_add]; exact hitem, hused⟩

end RoutedMagiModel

/-- The law of routed completions. A completion makes at most as many calls as it has candidates
and tries; it numbers its attempts consecutively, and records each attempt it is allowed to make
under its own number; every call directly follows its own reservation; nothing is attempted after a
final error; no candidate after the first is used above the automatic ceiling without a
confirmation; every reservation is settled exactly once unless the task is cancelled or a settlement
raises because the ledger cannot hold what the call reports; and the result of the last attempt is
returned. -/
theorem routed_completion_law (model : RoutedMagiModel) (request : RoutedRequest)
    (world : RouteWorld) (routes : ModelRoutes) :
    let candidates := model.candidates request routes
    let ceiling := model.catalog.policy.maxAutomaticFallbackMicroUsd
    let r := model.completeRouted request world routes
    let tried := r.events.filterMap RouteEvent.tried
    let reserved := r.events.filterMap RouteEvent.reservedRoute
    r.events.countP RouteEvent.isCall ≤
      candidates.length * (model.catalog.policy.maxSameModelRetries + 1) ∧
    tried.map (·.ordinal) = List.range' 1 tried.length ∧
    (∀ a id, .reserve a (.ok id) ∈ r.events → ∃ row, r.routes.find? id = some row ∧
      RoutedMagiModel.Recorded request a row) ∧
    (∀ before a outcome after, r.events = before ++ .call a outcome :: after →
      ∃ id, before.getLast? = some (.reserve a (.ok id))) ∧
    (r.events.Pairwise fun first later => first.Final ceiling → ∃ a id, later = .settle a id) ∧
    (∀ a ∈ tried, candidates[a.index]? = some (a.candidate, a.estimate) ∧
      (a.index = 0 ∨ request.context.explicitConfirmation = true ∨ a.estimate ≤ (ceiling : ℤ))) ∧
    (r.exit ≠ .cancelled → (r.exit = .raised .overflowError →
        ∀ a outcome, .call a outcome ∈ r.events → outcome.Storable a.candidate) →
      r.events.filterMap RouteEvent.settledRoute = reserved ∧ reserved.Nodup ∧
      ∀ id ∈ reserved, ∃ row, r.routes.find? id = some row ∧ row.state ≠ .reserved) ∧
    ∀ answer, r.exit = .returned answer → ∃ before a id, r.events = before ++
      [.reserve a (.ok id), .call a (.result answer), .settle a id] := by
  intro candidates ceiling r tried reserved
  obtain ⟨hlaw, hreturns⟩ := model.completeRouted_completes request world routes
  refine ⟨hlaw.calls, hlaw.ordinals, fun a id hid => ?_, hlaw.reservedFirst, hlaw.quiet, hlaw.tried,
    fun hexit hstored => ⟨hlaw.settled ⟨hexit, hstored⟩, hlaw.nodup, fun id hid => ?_⟩, hreturns⟩
  · obtain ⟨row, hrow, hrecorded, -⟩ := hlaw.recorded a id hid
    exact ⟨row, hrow, hrecorded⟩
  · obtain ⟨event, hevent, hreserved⟩ := List.mem_filterMap.mp hid
    cases event with
    | reserve a outcome =>
      cases outcome with
      | ok id' =>
        obtain rfl := Option.some.inj hreserved
        obtain ⟨row, hrow, -, hstate⟩ := hlaw.recorded a id' hevent
        exact ⟨row, hrow, hstate ⟨hexit, hstored⟩⟩
      | error failure => simp [RouteEvent.reservedRoute] at hreserved
    | call a outcome => simp [RouteEvent.reservedRoute] at hreserved
    | settle a id' => simp [RouteEvent.reservedRoute] at hreserved

/-- The numbers of the recorded attempts of a request. -/
def recordedOrdinals (request : RoutedRequest) (routes : ModelRoutes) : List ℕ :=
  (routes.rows.filter fun r =>
    r.ownerUserId = request.context.ownerUserId ∧ r.requestId = request.requestId).map
    (·.attemptOrdinal)

/-- The first shipped candidate with credits for one attempt, then the second; one retry. -/
def creditedModel : RoutedMagiModel where
  catalog :=
    { policy := { defaultRoutingCatalog.policy with maxSameModelRetries := 1 }
      candidates := defaultRoutingCatalog.candidates.map fun c =>
        if c.provider = "google" then { c with creditsMicroUsd := some 2000 } else c }
  credentialPresent _ := true
  providerRegistered _ := true

/-- A question of a user. -/
def directRequest : RoutedRequest where
  requestId := "request"
  context :=
    { ownerUserId := "owner"
      category := .directConversation
      permissionGranted := true }
  estimatedInputTokens := 100

/-- The first provider fails after it may have charged; the next one answers. -/
def uncertainWorld : RouteWorld where
  provider ordinal :=
    if ordinal = 1 then .error { code := "provider_timeout", billingUncertain := true }
    else .result { text := "answer", usage_nonneg := by simp }
  before _ := []
  during _ := []
  routeId ordinal := if ordinal = 1 then "first" else if ordinal = 2 then "second" else "third"
  reservedAt _ := 1700000000000
  settledAt _ := 1700000001000

/-- The provider reports more tokens than a column can hold. -/
def countlessWorld : RouteWorld :=
  { uncertainWorld with
    provider := fun _ => .result
      { text := "answer"
        usage := some { inputTokens := 9223372036854775808, outputTokens := 1 }
        usage_nonneg := by simp } }

/-- The retry of a candidate without credits uses its number and records nothing; a call that
reports more tokens than a column can hold leaves its reservation. -/
theorem routed_completion_skips_ordinal :
    recordedOrdinals directRequest
        (creditedModel.completeRouted directRequest uncertainWorld .empty).routes = [1, 3] ∧
      (creditedModel.completeRouted directRequest countlessWorld .empty).exit =
        .raised .overflowError ∧
      ((creditedModel.completeRouted directRequest countlessWorld .empty).routes.find? "first").map
        (·.state) = some .reserved ∧
      ¬∀ (model : RoutedMagiModel) (request : RoutedRequest) (world : RouteWorld),
        recordedOrdinals request (model.completeRouted request world .empty).routes =
          List.range' 1 (recordedOrdinals request
            (model.completeRouted request world .empty).routes).length := by
  have hskipped : recordedOrdinals directRequest
      (creditedModel.completeRouted directRequest uncertainWorld .empty).routes = [1, 3] := by
    decide +kernel
  refine ⟨hskipped, by decide +kernel, by decide +kernel, fun hall => ?_⟩
  have hconsecutive := hall creditedModel directRequest uncertainWorld
  rw [hskipped] at hconsecutive
  simp [List.range'_succ] at hconsecutive

end Magistrate
