import Magistrate.Gateway.Billing.Catalog

/-!
# The shipped catalog

The catalog that comes with the gateway. Price ids are left open there until the
provider account is activated, so they are an argument here.
-/

namespace Magistrate

namespace Shipped

/-- The free plan of new accounts. -/
def free : Plan where
  id := "free"
  name := "Free"
  kind := .free
  stripePriceId := none
  monthlyIncludedCredits := 500
  objectiveReserveCredits := 100
  monthlySpendLimitCredits := 500
  concurrencyLimit := 1
  lowCreditWarningCredits := 125
  graceDays := 0
  entitlements := ["chat", "usage", "execution", "topups"]
  concurrencyLimit_pos := by decide
  reserve_le_limit := by decide
  entitlements_nodup := by decide
  price_none _ := rfl

/-- The operator-assigned demo plan. -/
def demo : Plan where
  id := "demo"
  name := "Demo"
  kind := .demo
  stripePriceId := none
  monthlyIncludedCredits := 2000
  objectiveReserveCredits := 150
  monthlySpendLimitCredits := 2000
  concurrencyLimit := 1
  lowCreditWarningCredits := 300
  graceDays := 0
  entitlements := ["chat", "usage", "execution", "topups", "demo"]
  concurrencyLimit_pos := by decide
  reserve_le_limit := by decide
  entitlements_nodup := by decide
  price_none _ := rfl

/-- The smaller subscription. -/
def individual (price : String → Option String) : Plan where
  id := "individual"
  name := "Individual"
  kind := .subscription
  stripePriceId := price "individual"
  monthlyIncludedCredits := 10000
  objectiveReserveCredits := 200
  monthlySpendLimitCredits := 15000
  concurrencyLimit := 2
  lowCreditWarningCredits := 1000
  graceDays := 3
  entitlements := ["chat", "usage", "execution", "topups", "billing_portal"]
  concurrencyLimit_pos := by decide
  reserve_le_limit := by decide
  entitlements_nodup := by decide
  price_none h := absurd rfl h

/-- The larger subscription. -/
def pro (price : String → Option String) : Plan where
  id := "pro"
  name := "Pro"
  kind := .subscription
  stripePriceId := price "pro"
  monthlyIncludedCredits := 50000
  objectiveReserveCredits := 300
  monthlySpendLimitCredits := 100000
  concurrencyLimit := 8
  lowCreditWarningCredits := 5000
  graceDays := 7
  entitlements := ["chat", "usage", "execution", "topups", "billing_portal", "priority"]
  concurrencyLimit_pos := by decide
  reserve_le_limit := by decide
  entitlements_nodup := by decide
  price_none h := absurd rfl h

/-- The credit pack on sale. -/
def credits10k (price : String → Option String) : CreditPack where
  id := "credits-10k"
  stripePriceId := price "credits-10k"
  credits := 10000
  credits_pos := by decide

/-- The rates of measured usage. -/
def rates : List Rate :=
  [{ provider := "magistrate", model := "no-worker", inputUsdMicrosPerMillion := 0
     outputUsdMicrosPerMillion := 0, computeUsdMicrosPerHour := 0, marginBps := 0 },
   { provider := "openai", model := "gpt-4o-mini", inputUsdMicrosPerMillion := 150000
     outputUsdMicrosPerMillion := 600000, computeUsdMicrosPerHour := 0, marginBps := 2500 }]

/-- The shipped catalog at some prices. -/
def catalog (price : String → Option String) : BillingCatalog where
  usdMicrosPerCredit := 10000
  plans := ⟨[free, demo, individual price, pro price], 
    (by decide : ["free", "demo", "individual", "pro"].Nodup)⟩
  packs := ⟨[credits10k price], List.nodup_singleton _⟩
  rates := ⟨rates, by decide⟩
  defaultPlan := "free"
  usdMicrosPerCredit_pos := by decide
  defaultPlan_unpaid := ⟨free, List.mem_cons_self, rfl, by decide⟩

/-- The shipped catalog with every price activated. -/
def activated : BillingCatalog := catalog fun id => some ("price_" ++ id)

end Shipped

/-- The usage of a short conversation with a priced model. -/
def shortUsage : Json :=
  .obj [("provider", .str "openai"), ("model", .str "gpt-4o-mini"), ("input_tokens", .int 1000),
    ("output_tokens", .int 2000), ("compute_milliseconds", .int 0)]

end Magistrate
