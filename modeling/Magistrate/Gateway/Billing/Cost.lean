import Magistrate.Gateway.Billing.Shipped

/-!
# Measured cost

The cost of an execution is a chain of rounded-up quotients. The quotients are binary64
numbers: one that is a little above a whole number can be rounded down to it, and the
cost is too low then.
-/

namespace Magistrate

open Binary64

/-- A usage object with the measured consumption of an execution. -/
structure Usage.Reads (usage : Json) (u : Usage) : Prop where
  names : usage.namesAre Usage.fieldNames
  provider : usage.get "provider" = .str u.provider
  model : usage.get "model" = .str u.model
  inputTokens : usage.get "input_tokens" = .int u.inputTokens
  outputTokens : usage.get "output_tokens" = .int u.outputTokens
  computeMilliseconds : usage.get "compute_milliseconds" = .int u.computeMilliseconds

namespace Rate

variable (rate : Rate) (u : Usage)

/-- The cost of the tokens, in millionths of a micro dollar. -/
def tokenNumerator : ℕ :=
  u.inputTokens * rate.inputUsdMicrosPerMillion + u.outputTokens * rate.outputUsdMicrosPerMillion

/-- The cost of the computation, in parts of a micro dollar that make an hour of milliseconds. -/
def computeNumerator : ℕ := u.computeMilliseconds * rate.computeUsdMicrosPerHour

/-- The exact cost in micro dollars. -/
def usdMicros : ℕ := rate.tokenNumerator u ⌈/⌉ 1000000 + rate.computeNumerator u ⌈/⌉ 3600000

/-- The exact cost with the margin. -/
def billableUsdMicros : ℕ := rate.usdMicros u * (10000 + rate.marginBps) ⌈/⌉ 10000

/-- The exact cost in microcredits. -/
def exactCost (catalog : BillingCatalog) : ℕ :=
  rate.billableUsdMicros u * microcreditsPerCredit ⌈/⌉ catalog.usdMicrosPerCredit

/-- No quotient of the exact chain is rounded to a number with another ceiling. -/
structure Exact (catalog : BillingCatalog) : Prop where
  token : CeilExact (rate.tokenNumerator u) 1000000
  compute : CeilExact (rate.computeNumerator u) 3600000
  margin : CeilExact (rate.usdMicros u * (10000 + rate.marginBps)) 10000
  credit : CeilExact (rate.billableUsdMicros u * microcreditsPerCredit) catalog.usdMicrosPerCredit

/-- The quotients of the exact chain are below `2 ^ 53`, and a micro dollar is at least a
microcredit. -/
structure Moderate (catalog : BillingCatalog) : Prop where
  token : rate.tokenNumerator u < 1000000 * 2 ^ 53
  compute : rate.computeNumerator u < 3600000 * 2 ^ 53
  margin : rate.usdMicros u * (10000 + rate.marginBps) < 10000 * 2 ^ 53
  credit : rate.billableUsdMicros u * microcreditsPerCredit < catalog.usdMicrosPerCredit * 2 ^ 53
  price : catalog.usdMicrosPerCredit ≤ microcreditsPerCredit

end Rate

/-- A larger number has a larger ceiling where it is multiplied by more than it is divided by. -/
theorem ceilDiv_mul_lt {a b k d : ℕ} (hd : 0 < d) (hk : d ≤ k) (h : a < b) :
    a * k ⌈/⌉ d < b * k ⌈/⌉ d := by
  have hb : b * k ≤ d * (b * k ⌈/⌉ d) := (ceilDiv_le_iff_le_mul hd).mp le_rfl
  have hstep : a * k + k ≤ b * k := by
    rw [← Nat.succ_mul]
    exact Nat.mul_le_mul_right k h
  refine Nat.lt_of_not_le fun hle => ?_
  have hpred : b * k ⌈/⌉ d - 1 < a * k ⌈/⌉ d := by
    have hpos : 0 < b * k ⌈/⌉ d := Nat.pos_of_ne_zero fun hzero => by
      rw [hzero, Nat.mul_zero] at hb
      omega
    omega
  refine absurd ((ceilDiv_le_iff_le_mul hd).mpr ?_) (Nat.not_le.mpr hpred)
  rw [Nat.mul_sub_one]
  omega

/-- Ceilings grow with what is divided. -/
theorem ceilDiv_mono {a b d : ℕ} (hd : 0 < d) (h : a ≤ b) : a ⌈/⌉ d ≤ b ⌈/⌉ d :=
  (ceilDiv_le_iff_le_mul hd).mpr (h.trans ((ceilDiv_le_iff_le_mul hd).mp le_rfl))

section Cost

variable {catalog : BillingCatalog} {usage : Json} {u : Usage} {rate : Rate}

theorem counter_eq {name : String} {value : ℕ} (h : usage.get name = .int value) :
    Usage.counter usage name = .ok value := by
  simp [Usage.counter, h, Json.int?]

theorem catalogCeilDiv_eq_ok {n d c : ℕ} :
    BillingCatalog.ceilDiv n d = .ok c ↔ ceilDiv? n d = some c := by
  unfold BillingCatalog.ceilDiv
  cases ceilDiv? n d <;> simp

/-- The cost of a usage object is the chain of the rounded-up binary64 quotients. -/
theorem measuredCost_eq (reads : Usage.Reads usage u)
    (hrate : catalog.rates.find? (u.provider, u.model) = some rate) {cost : Usage × ℕ} :
    catalog.measuredCost usage = .ok cost ↔ ∃ token compute billable credit,
      ceilDiv? (rate.tokenNumerator u) 1000000 = some token ∧
      ceilDiv? (rate.computeNumerator u) 3600000 = some compute ∧
      ceilDiv? ((token + compute) * (10000 + rate.marginBps)) 10000 = some billable ∧
      ceilDiv? (billable * microcreditsPerCredit) catalog.usdMicrosPerCredit = some credit ∧
      (u, credit) = cost := by
  obtain ⟨-, hkey⟩ := Table.mem_of_find? hrate
  obtain ⟨hprovider, hmodel⟩ := Prod.ext_iff.mp hkey
  have hrated : catalog.rate (usage.get "provider") (usage.get "model") = .ok rate := by
    simp only [reads.provider, reads.model, BillingCatalog.rate, Json.isScalar, Json.str?, hrate]
    rfl
  have hnames : ¬¬usage.namesAre Usage.fieldNames := not_not.mpr reads.names
  have hread : ({ provider := rate.provider, model := rate.model, inputTokens := u.inputTokens
                  outputTokens := u.outputTokens
                  computeMilliseconds := u.computeMilliseconds } : Usage) = u := by
    rw [show rate.provider = u.provider from hprovider, show rate.model = u.model from hmodel]
  rw [BillingCatalog.measuredCost, raiseIf_ok hnames, ok_bind, hrated, ok_bind,
    counter_eq reads.inputTokens, ok_bind, counter_eq reads.outputTokens, ok_bind,
    counter_eq reads.computeMilliseconds, ok_bind]
  simp only [bind_eq_ok, catalogCeilDiv_eq_ok, pure_eq_ok, hread]
  constructor
  · rintro ⟨token, htoken, compute, hcompute, billable, hbillable, credit, hcredit, hcost⟩
    exact ⟨token, compute, billable, credit, htoken, hcompute, hbillable, hcredit, hcost⟩
  · rintro ⟨token, compute, billable, credit, htoken, hcompute, hbillable, hcredit, hcost⟩
    exact ⟨token, htoken, compute, hcompute, billable, hbillable, credit, hcredit, hcost⟩

/-- The cost is the exact one where no quotient of the exact chain is rounded to a number with
another ceiling. -/
theorem Rate.Exact.measuredCost (h : rate.Exact u catalog) (reads : Usage.Reads usage u)
    (hrate : catalog.rates.find? (u.provider, u.model) = some rate) :
    catalog.measuredCost usage = .ok (u, rate.exactCost u catalog) :=
  (measuredCost_eq reads hrate).mpr ⟨_, _, _, _, (ceilDiv?_eq_some_iff (by decide)).mpr h.token,
    (ceilDiv?_eq_some_iff (by decide)).mpr h.compute,
    (ceilDiv?_eq_some_iff (by decide)).mpr h.margin,
    (ceilDiv?_eq_some_iff catalog.usdMicrosPerCredit_pos).mpr h.credit, rfl⟩

/-- A moderate quotient is rounded to a number with the same ceiling, or with a lower one. -/
theorem ceilDiv?_moderate {n m d c : ℕ} (hd : 0 < d) (hn : n ≤ m) (hm : m < d * 2 ^ 53)
    (h : ceilDiv? n d = some c) : c ≤ n ⌈/⌉ d ∧ n ⌈/⌉ d ≤ m ⌈/⌉ d := by
  obtain ⟨c', hc', hle⟩ := ceilDiv?_le hd (hn.trans_lt hm)
  obtain rfl := Option.some.inj (h.symm.trans hc')
  exact ⟨hle, ceilDiv_mono hd hn⟩

/-- In a chain of moderate quotients a cost that is too low stays too low. -/
theorem Rate.Moderate.exact (h : rate.Moderate u catalog) (reads : Usage.Reads usage u)
    (hrate : catalog.rates.find? (u.provider, u.model) = some rate)
    (hcost : catalog.measuredCost usage = .ok (u, rate.exactCost u catalog)) :
    rate.Exact u catalog := by
  have hpos := catalog.usdMicrosPerCredit_pos
  obtain ⟨token, compute, billable, credit, htoken, hcompute, hbillable, hcredit, hsame⟩ :=
    (measuredCost_eq reads hrate).mp hcost
  have hexact : credit = rate.exactCost u catalog := congrArg Prod.snd hsame
  have hmarginPos : 10000 ≤ 10000 + rate.marginBps := Nat.le_add_right _ _
  obtain ⟨htokenLe, -⟩ := ceilDiv?_moderate (by decide) le_rfl h.token htoken
  obtain ⟨hcomputeLe, -⟩ := ceilDiv?_moderate (by decide) le_rfl h.compute hcompute
  have husd : token + compute ≤ rate.usdMicros u := Nat.add_le_add htokenLe hcomputeLe
  obtain ⟨hbillableLe, hbillableLe'⟩ := ceilDiv?_moderate (by decide)
    (Nat.mul_le_mul_right (10000 + rate.marginBps) husd) h.margin hbillable
  have hbillable' : billable ≤ rate.billableUsdMicros u := hbillableLe.trans hbillableLe'
  obtain ⟨hcreditLe, -⟩ := ceilDiv?_moderate hpos
    (Nat.mul_le_mul_right microcreditsPerCredit hbillable') h.credit hcredit
  -- a cost that is too low at one quotient is too low at the next one
  have hbillableEq : billable = rate.billableUsdMicros u := by
    refine Nat.le_antisymm hbillable' (Nat.le_of_not_lt fun hlt => ?_)
    have hless := ceilDiv_mul_lt hpos h.price hlt
    exact absurd (hcreditLe.trans_lt hless) (by rw [hexact, Rate.exactCost]; exact lt_irrefl _)
  have husdEq : token + compute = rate.usdMicros u := by
    refine Nat.le_antisymm husd (Nat.le_of_not_lt fun hlt => ?_)
    have hless := ceilDiv_mul_lt (by decide) hmarginPos hlt
    refine absurd (hbillableLe.trans_lt hless) ?_
    rw [hbillableEq, Rate.billableUsdMicros]
    exact lt_irrefl _
  have hsum : token + compute =
      rate.tokenNumerator u ⌈/⌉ 1000000 + rate.computeNumerator u ⌈/⌉ 3600000 := husdEq
  have htokenEq : token = rate.tokenNumerator u ⌈/⌉ 1000000 := by omega
  have hcomputeEq : compute = rate.computeNumerator u ⌈/⌉ 3600000 := by omega
  rw [husdEq, hbillableEq] at hbillable
  rw [hbillableEq, hexact] at hcredit
  rw [htokenEq] at htoken
  rw [hcomputeEq] at hcompute
  exact ⟨(ceilDiv?_eq_some_iff (by decide)).mp htoken,
    (ceilDiv?_eq_some_iff (by decide)).mp hcompute, (ceilDiv?_eq_some_iff (by decide)).mp hbillable,
      (ceilDiv?_eq_some_iff hpos).mp hcredit⟩

/-- The cost of a usage object at a rate is the exact one if no quotient of the exact chain is
rounded to a number with another ceiling, and only then where the quotients are moderate. -/
theorem measured_cost_exact_iff (catalog : BillingCatalog) (usage : Json) (u : Usage) (rate : Rate)
    (reads : Usage.Reads usage u) (hrate : catalog.rates.find? (u.provider, u.model) = some rate) :
    (rate.Exact u catalog → catalog.measuredCost usage = .ok (u, rate.exactCost u catalog)) ∧
      (rate.Moderate u catalog →
        (catalog.measuredCost usage = .ok (u, rate.exactCost u catalog) ↔ rate.Exact u catalog)) :=
  ⟨fun h => h.measuredCost reads hrate,
    fun h => ⟨h.exact reads hrate, fun hexact => hexact.measuredCost reads hrate⟩⟩

end Cost

section Example

/-- The rate of the priced model that is shipped. -/
private def shippedRate : Rate where
  provider := "openai"
  model := "gpt-4o-mini"
  inputUsdMicrosPerMillion := 150000
  outputUsdMicrosPerMillion := 600000
  computeUsdMicrosPerHour := 0
  marginBps := 2500

/-- A short conversation is charged exactly. -/
theorem measured_cost_short :
    Shipped.activated.measuredCost shortUsage = .ok (⟨"openai", "gpt-4o-mini", 1000, 2000, 0⟩,
      shippedRate.exactCost ⟨"openai", "gpt-4o-mini", 1000, 2000, 0⟩ Shipped.activated) :=
  (measured_cost_exact_iff Shipped.activated shortUsage ⟨"openai", "gpt-4o-mini", 1000, 2000, 0⟩
    shippedRate ⟨rfl, rfl, rfl, rfl, rfl, rfl⟩ (by decide)).1
    ⟨by decide, by decide, by decide, by decide⟩

/-- Consumption that costs a twentieth of a micro dollar more than a whole number of them. -/
private def manyTokens : Usage := ⟨"openai", "gpt-4o-mini", 9007199254740987, 0, 0⟩

private def manyTokensUsage : Json :=
  .obj [("provider", .str "openai"), ("model", .str "gpt-4o-mini"),
    ("input_tokens", .int 9007199254740987), ("output_tokens", .int 0),
    ("compute_milliseconds", .int 0)]

/-- The twentieth is lost. -/
theorem measured_cost_low :
    Shipped.activated.rates.find? ("openai", "gpt-4o-mini") = some shippedRate ∧
      manyTokens.inputTokens ≤ 2 ^ 53 - 1 ∧
      Shipped.activated.measuredCost manyTokensUsage = .ok (manyTokens, 168884986026393504) ∧
      Shipped.activated.measuredCost manyTokensUsage ≠
        .ok (manyTokens, shippedRate.exactCost manyTokens Shipped.activated) := by
  decide

end Example

end Magistrate
