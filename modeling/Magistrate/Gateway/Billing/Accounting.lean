import Magistrate.Gateway.Billing.Movement
import Magistrate.Core.Wallet

/-!
# The wallets behind the billing tables

What an account row says about its owner is a wallet; what the ledger and the
reservations say are sums over their rows. Every movement is one posting on one
owner's wallet, and moves the sums by the parts of that posting.
-/

namespace Magistrate

open CreditLedger StripeWebhookProcessor

/-- The amounts of an account row. -/
def BillingAccount.wallet (a : BillingAccount) : Wallet ℤ where
  available := a.availableMicrocredits
  reserved := a.reservedMicrocredits
  spend := a.periodSpendMicrocredits

/-- By how much a settled reservation cost more than its estimate. -/
def CreditReservation.overrun (r : CreditReservation) : ℤ :=
  max 0 ((r.actualMicrocredits.getD 0 : ℤ) - r.estimatedMicrocredits)

namespace Billing

/-- The wallet of an owner; an owner without an account has nothing. -/
def wallet (db : Billing) (owner : String) : Wallet ℤ :=
  ((db.accounts.find? owner).map (·.wallet)).getD ⟨0, 0, 0⟩

/-- The ledger entries of an owner, oldest first. -/
def entries (db : Billing) (owner : String) : List LedgerEntry :=
  db.ledger.rows.filter fun e => e.ownerUserId = owner

/-- The sum of an owner's ledger amounts. -/
def ledgerTotal (db : Billing) (owner : String) : ℤ :=
  ((db.entries owner).map (·.amountMicrocredits)).sum

/-- The sum of the estimates that an owner's held reservations hold. -/
def reservedTotal (db : Billing) (owner : String) : ℤ :=
  ((db.reservations.rows.filter fun r => r.ownerUserId = owner ∧ r.status = .reserved).map
    fun r => (r.estimatedMicrocredits : ℤ)).sum

/-- The sum of the overruns of an owner's settled reservations. -/
def overrun (db : Billing) (owner : String) : ℤ :=
  ((db.reservations.rows.filter fun r => r.ownerUserId = owner ∧ r.status = .settled).map
    (·.overrun)).sum

/-- What a reservation holds of an owner's credits. -/
def heldBy (owner : String) (r : CreditReservation) : ℤ :=
  if r.ownerUserId = owner ∧ r.status = .reserved then r.estimatedMicrocredits else 0

/-- What a reservation overran of an owner's credits. -/
def overrunOf (owner : String) (r : CreditReservation) : ℤ :=
  if r.ownerUserId = owner ∧ r.status = .settled then r.overrun else 0

variable {db db' : Billing} {owner who : String}

theorem reservedTotal_eq :
    db.reservedTotal owner = (db.reservations.rows.map (heldBy owner)).sum := by
  simp only [reservedTotal, sum_map_filter, decide_eq_true_eq]
  rfl

theorem overrun_eq : db.overrun owner = (db.reservations.rows.map (overrunOf owner)).sum := by
  simp only [overrun, sum_map_filter, decide_eq_true_eq]
  rfl

/-- Equal reservations hold and overran the same. -/
theorem reservedTotal_congr (h : db'.reservations = db.reservations) (owner : String) :
    db'.reservedTotal owner = db.reservedTotal owner := by
  simp only [reservedTotal, h]

theorem overrun_congr (h : db'.reservations = db.reservations) (owner : String) :
    db'.overrun owner = db.overrun owner := by
  simp only [overrun, h]

/-- The wallet of a stored account. -/
theorem wallet_of_find? {row : BillingAccount} (h : db.accounts.find? owner = some row) :
    db.wallet owner = row.wallet := by
  simp [wallet, h]

/-- Writing one account changes its owner's wallet only. -/
theorem wallet_update {row : BillingAccount} {f : BillingAccount → BillingAccount}
    (hf : ∀ a, (f a).ownerUserId = a.ownerUserId) (account : db.accounts.find? who = some row)
    (h : db'.accounts = db.accounts.update who f hf) (owner : String) :
    db'.wallet owner = if owner = who then (f row).wallet else db.wallet owner := by
  by_cases ho : owner = who
  · subst ho
    simp [wallet, h, Table.find?_update_self, account]
  · simp [wallet, h, Table.find?_update_ne _ ho, ho]

/-- Wallets depend on the account rows only. -/
theorem wallet_congr (h : db'.accounts = db.accounts) (owner : String) :
    db'.wallet owner = db.wallet owner := by
  simp only [wallet, h]

end Billing

/-- The keys that an operation's caller chooses stay out of the generated families. -/
def BillingOp.CallerKeys : BillingOp → Prop
  | .refundObjective _ _ _ key _ => callerKey key
  | .addCredits _ _ key _ _ => callerKey key
  | _ => True

instance (op : BillingOp) : Decidable op.CallerKeys := by
  cases op <;> unfold BillingOp.CallerKeys <;> infer_instance

/-- Every generated ledger key is accounted for by the row that its writer left behind. -/
structure Accounted (db : Billing) : Prop where
  reserve : ∀ owner key, db.ledger.find? (owner, ledgerKey .reserve key) ≠ none →
    db.reservationForKey owner key ≠ none
  release : ∀ owner id, db.ledger.find? (owner, ledgerKey .release id) ≠ none →
    ∃ r, db.reservations.find? id = some r ∧ r.status = .released
  settle : ∀ owner event, db.ledger.find? (owner, ledgerKey .settle event) ≠ none →
    db.usage.find? (owner, event) ≠ none
  stripe : ∀ owner event, db.ledger.find? (owner, ledgerKey .stripe event) ≠ none →
    db.webhookEvents.find? event ≠ none

/-- What a movement does to the wallets, to the sums and to the ledger. -/
structure Effect (catalog : BillingCatalog) (op : BillingOp) (db db' : Billing) (who : String)
    (p : Posting ℤ) (entry : Option LedgerEntry) : Prop where
  /-- One owner's wallet takes the posting. -/
  wallet : ∀ owner, db'.wallet owner = if owner = who then p.apply (db.wallet owner)
    else db.wallet owner
  reservedTotal : ∀ owner, db'.reservedTotal owner =
    db.reservedTotal owner + if owner = who then p.held else 0
  overrun : ∀ owner, db'.overrun owner = db.overrun owner + if owner = who then p.overrun else 0
  /-- At most one entry is offered to the ledger. -/
  ledger : db'.ledger = entry.elim db.ledger db.ledger.insertOrIgnore
  owned : ∀ e ∈ entry, e.ownerUserId = who
  balance : ∀ e ∈ entry, e.balanceAfterMicrocredits =
    (db.wallet who).available + e.amountMicrocredits
  /-- An entry under a free key carries the amount of the posting. -/
  amount : (∀ e ∈ entry, db.ledger.find? e.key = none) →
    p.amount = entry.elim 0 (·.amountMicrocredits)
  /-- In accounted books, an entry under a taken key comes with no amount. -/
  taken : Accounted db → op.CallerKeys → ∀ e ∈ entry, db.ledger.find? e.key ≠ none →
    p.amount = 0
  /-- A posting that holds nothing respects every limit. -/
  within : (∀ estimate, p ≠ .hold estimate) → ∀ limit, p.Within limit (db.wallet who)
  /-- A hold is a reservation that its owner's plan admits. -/
  hold : ∀ estimate, p = .hold estimate → ∃ objective key now row plan,
    op = .reserveObjective who objective key now ∧ db.accounts.find? who = some row ∧
      catalog.plans.find? row.catalogId = some plan ∧
      p.Within (microcredits plan.monthlySpendLimitCredits : ℤ) (db.wallet who)

section Effect

variable {catalog : BillingCatalog} {op : BillingOp} {db db' : Billing} {who : String}

/-- A movement that leaves wallets, reservations and ledger as they were. -/
theorem Effect.keep (hwallet : ∀ owner, db'.wallet owner = db.wallet owner)
    (hreservations : db'.reservations = db.reservations) (hledger : db'.ledger = db.ledger) :
    Effect catalog op db db' who .keep none where
  wallet owner := by simp [hwallet, Posting.apply]
  reservedTotal owner := by simp [Billing.reservedTotal_congr hreservations, Posting.held]
  overrun owner := by simp [Billing.overrun_congr hreservations, Posting.overrun]
  ledger := hledger
  owned := by simp
  balance := by simp
  amount _ := rfl
  taken := by simp
  within _ _ := trivial
  hold _ h := by simp at h

/-- A posting without a reservation: one account row and one ledger entry. -/
theorem Effect.post {row : BillingAccount} {f : BillingAccount → BillingAccount}
    {p : Posting ℤ} {e : LedgerEntry} (hf : ∀ a, (f a).ownerUserId = a.ownerUserId)
    (account : db.accounts.find? who = some row)
    (haccounts : db'.accounts = db.accounts.update who f hf)
    (hreservations : db'.reservations = db.reservations)
    (hledger : db'.ledger = db.ledger.insertOrIgnore e)
    (hposting : (f row).wallet = p.apply row.wallet)
    (hheld : p.held = 0) (hoverrun : p.overrun = 0)
    (howner : e.ownerUserId = who)
    (hbalance : e.balanceAfterMicrocredits = row.availableMicrocredits + e.amountMicrocredits)
    (hamount : db.ledger.find? e.key = none → p.amount = e.amountMicrocredits)
    (htaken : Accounted db → op.CallerKeys → db.ledger.find? e.key ≠ none → p.amount = 0)
    (hholds : ∀ estimate, p ≠ .hold estimate) (hwithin : ∀ limit, p.Within limit row.wallet) :
    Effect catalog op db db' who p (some e) where
  wallet owner := by
    rw [Billing.wallet_update hf account haccounts]
    split
    · next h => rw [h, Billing.wallet_of_find? account, hposting]
    · rfl
  reservedTotal owner := by simp [Billing.reservedTotal_congr hreservations, hheld]
  overrun owner := by simp [Billing.overrun_congr hreservations, hoverrun]
  ledger := hledger
  owned := by simp [howner]
  balance := by simp [Billing.wallet_of_find? account, hbalance, BillingAccount.wallet]
  amount h := hamount (h e rfl)
  taken accounted keys := by simpa using htaken accounted keys
  within _ limit := by
    rw [Billing.wallet_of_find? account]
    exact hwithin limit
  hold estimate h := absurd h (hholds estimate)

/-- A posting on a stored reservation: its row, the account row and one ledger entry. -/
theorem Effect.ofReservation {row : BillingAccount} {f : BillingAccount → BillingAccount}
    {r : CreditReservation} {g : CreditReservation → CreditReservation} {p : Posting ℤ}
    {e : LedgerEntry} (hf : ∀ a, (f a).ownerUserId = a.ownerUserId)
    (hg : ∀ r, (g r).reservationId = r.reservationId)
    (account : db.accounts.find? who = some row)
    (stored : r ∈ db.reservations.rows) (rowner : r.ownerUserId = who)
    (held : r.status = .reserved)
    (haccounts : db'.accounts = db.accounts.update who f hf)
    (hreservations : db'.reservations = db.reservations.update r.reservationId g hg)
    (hledger : db'.ledger = db.ledger.insertOrIgnore e)
    (hposting : (f row).wallet = p.apply row.wallet)
    (gowner : (g r).ownerUserId = r.ownerUserId) (gstatus : (g r).status ≠ .reserved)
    (hheld : p.held = -r.estimatedMicrocredits)
    (hoverrun : p.overrun = if (g r).status = .settled then (g r).overrun else 0)
    (howner : e.ownerUserId = who)
    (hbalance : e.balanceAfterMicrocredits = row.availableMicrocredits + e.amountMicrocredits)
    (hamount : p.amount = e.amountMicrocredits)
    (hfree : Accounted db → db.ledger.find? e.key = none)
    (hholds : ∀ estimate, p ≠ .hold estimate) (hwithin : ∀ limit, p.Within limit row.wallet) :
    Effect catalog op db db' who p (some e) where
  wallet owner := by
    rw [Billing.wallet_update hf account haccounts]
    split
    · next h => rw [h, Billing.wallet_of_find? account, hposting]
    · rfl
  reservedTotal owner := by
    rw [Billing.reservedTotal_eq, hreservations, Table.sum_update _ (Table.find?_of_mem stored),
      ← Billing.reservedTotal_eq, hheld]
    by_cases h : owner = who
    · simp [Billing.heldBy, gowner, gstatus, held, rowner, h, sub_eq_add_neg]
    · simp [Billing.heldBy, gowner, gstatus, rowner, h, Ne.symm h]
  overrun owner := by
    rw [Billing.overrun_eq, hreservations, Table.sum_update _ (Table.find?_of_mem stored),
      ← Billing.overrun_eq, hoverrun]
    by_cases h : owner = who
    · simp [Billing.overrunOf, gowner, held, rowner, h]
    · simp [Billing.overrunOf, gowner, rowner, h, Ne.symm h]
  ledger := hledger
  owned := by simp [howner]
  balance := by simp [Billing.wallet_of_find? account, hbalance, BillingAccount.wallet]
  amount _ := hamount
  taken accounted _ e' he' taken := by
    obtain rfl : e = e' := by simpa using he'
    exact absurd (hfree accounted) taken
  within _ limit := by
    rw [Billing.wallet_of_find? account]
    exact hwithin limit
  hold estimate h := absurd h (hholds estimate)

/-- A refund leaves the larger of zero and the difference. -/
theorem spendAfterRefund_eq (spend amount : ℤ) :
    spendAfterRefund spend amount = max 0 (spend - amount) := by
  unfold spendAfterRefund
  split <;> omega

/-- A new reservation holds its estimate from its owner's free credits. -/
theorem Effect.ofNewReservation {row : BillingAccount} {plan : Plan} {r : CreditReservation}
    {now : ℤ} (source : op = .reserveObjective r.ownerUserId r.objectiveId r.idempotencyKey now)
    (account : db.accounts.find? r.ownerUserId = some row)
    (onPlan : catalog.plans.find? row.catalogId = some plan)
    (freeId : db.reservations.find? r.reservationId = none)
    (freeKey : db.reservationForKey r.ownerUserId r.idempotencyKey = none)
    (held : r.status = .reserved)
    (funded : r.estimatedMicrocredits ≤ row.availableMicrocredits)
    (limited : row.periodSpendMicrocredits + row.reservedMicrocredits + r.estimatedMicrocredits ≤
      microcredits plan.monthlySpendLimitCredits) :
    Effect catalog op db { db with
      reservations := db.reservations.insertOrIgnore r
      accounts := db.accounts.update r.ownerUserId
        (afterReserve (row.availableMicrocredits - r.estimatedMicrocredits)
          r.estimatedMicrocredits now)
      ledger := db.ledger.insertOrIgnore
        (reservationEntry r (row.availableMicrocredits - r.estimatedMicrocredits) now) }
      r.ownerUserId (.hold r.estimatedMicrocredits)
      (some (reservationEntry r (row.availableMicrocredits - r.estimatedMicrocredits) now)) where
  wallet owner := by
    rw [Billing.wallet_update (f := afterReserve _ _ now) (fun _ => rfl) account rfl]
    split
    · next h => rw [h, Billing.wallet_of_find? account]; rfl
    · rfl
  reservedTotal owner := by
    rw [Billing.reservedTotal_eq, Table.sum_insertOrIgnore _ freeId, ← Billing.reservedTotal_eq]
    by_cases h : owner = r.ownerUserId
    · simp [Billing.heldBy, Posting.held, held, h]
    · simp [Billing.heldBy, h, Ne.symm h]
  overrun owner := by
    rw [Billing.overrun_eq, Table.sum_insertOrIgnore _ freeId, ← Billing.overrun_eq]
    simp [Billing.overrunOf, Posting.overrun, held]
  ledger := rfl
  owned := by simp [reservationEntry]
  balance := by
    simp [Billing.wallet_of_find? account, BillingAccount.wallet, reservationEntry,
      sub_eq_add_neg]
  amount _ := rfl
  taken accounted _ e' he' taken := by
    obtain rfl : reservationEntry r _ now = e' := by simpa using he'
    exact absurd freeKey (accounted.reserve _ _ taken)
  within h := absurd rfl (h _)
  hold _ _ := by
    refine ⟨_, _, _, row, plan, source, account, onPlan, ?_⟩
    rw [Billing.wallet_of_find? account]
    exact ⟨funded, limited⟩

/-- Every movement is one posting. -/
theorem Move.effect (h : Move catalog op db db') :
    ∃ who p entry, Effect catalog op db db' who p entry := by
  cases h with
  | insertAccount row free zero =>
    refine ⟨row.ownerUserId, .keep, none, .keep (fun owner => ?_) rfl rfl⟩
    unfold Billing.wallet
    rw [Table.find?_insertOrIgnore]
    by_cases h : row.ownerUserId = owner
    · subst h
      simp [free, BillingAccount.wallet, zero.available, zero.reserved, zero.spend]
    · simp [h]
  | monthlyGrant row plan now account free =>
    exact ⟨_, .renew _, _, .post (f := afterMonthlyGrant plan now) (fun _ => rfl) account rfl
      rfl rfl rfl rfl rfl rfl rfl (fun _ => rfl) (fun _ _ taken => absurd free taken)
      (by simp) fun _ => Int.natCast_nonneg _⟩
  | reserve row plan reservation source new account onPlan freeId _ freeKey _ funded limited =>
    subst new
    exact ⟨_, _, _, .ofNewReservation source account onPlan freeId freeKey rfl funded limited⟩
  | release row reservation source found held account =>
    obtain ⟨stored, rowner, -⟩ := of_reservationOf found
    refine ⟨_, .release _, _, .ofReservation (f := afterRelease _ _ _) (g := released _)
      (fun _ => rfl) (fun _ => rfl) account stored rowner held rfl rfl rfl rfl rfl (by simp) rfl
      (by simp [Posting.overrun]) rowner rfl rfl ?_ (by simp) fun _ => Int.natCast_nonneg _⟩
    intro accounted
    by_contra taken
    obtain ⟨r, hr, hreleased⟩ := accounted.release _ _ taken
    obtain rfl : reservation = r := by simpa [Table.find?_of_mem stored] using hr
    simp [held] at hreleased
  | settle row reservation usage actual source cost found held account freeEvent =>
    obtain ⟨stored, rfl, -⟩ := of_reservationOf found
    refine ⟨_, .settle _ _, _, .ofReservation (f := afterSettle _ _ _ _) (g := settled _ _ _)
      (fun _ => rfl) (fun _ => rfl) account stored rfl held rfl rfl rfl rfl rfl (by simp) rfl
      (by simp [Posting.overrun, CreditReservation.overrun]) rfl rfl rfl ?_
      (by simp) fun _ => Int.natCast_nonneg _⟩
    intro accounted
    by_contra taken
    exact accounted.settle _ _ taken freeEvent
  | refund row reservation actual source positive stored owned bound settled cost account free =>
    subst owned
    refine ⟨_, .refund _, _, .post (f := afterRefund _ _ _) (fun _ => rfl) account rfl rfl rfl ?_
      rfl rfl rfl rfl (fun _ => rfl) (fun _ _ taken => absurd free taken)
      (by simp) fun _ => positive.le⟩
    simp [BillingAccount.wallet, Posting.apply, spendAfterRefund_eq, refundEntry]
  | topup row source account free =>
    obtain ⟨-, rfl⟩ := Table.mem_of_find? account
    exact ⟨_, .topup _, _, .post (f := afterTopup _ _) (fun _ => rfl) account rfl rfl rfl rfl rfl
      rfl rfl rfl (fun _ => rfl) (fun _ _ taken => absurd free taken)
      (by simp) fun _ => Int.natCast_nonneg _⟩
  | purchase row pack event digest fresh account =>
    obtain ⟨-, rfl⟩ := Table.mem_of_find? account
    exact ⟨_, .topup _, _, .post (f := afterTopup _ _) (fun _ => rfl) account rfl rfl rfl rfl rfl
      rfl rfl rfl (fun _ => rfl)
      (fun accounted _ taken => absurd fresh (accounted.stripe _ _ taken))
      (by simp) fun _ => Int.natCast_nonneg _⟩
  | invoicePaid row plan subscriptionId event source paid account onPlan =>
    refine ⟨_, .renew _, _, .post (f := afterInvoicePaid _ _ _ _ _) (fun _ => rfl) account rfl
      rfl rfl rfl rfl rfl rfl rfl ?_ ?_ (by simp) ?_⟩
    · exact fun free => if_pos (decide_eq_true free)
    · exact fun _ _ taken => if_neg (by simpa [Billing.insertLedger] using taken)
    · intro limit
      simp only [Posting.Within]
      split <;> positivity
  | touchAccount f keeps =>
    rename_i owner
    refine ⟨owner, .keep, none, .keep (fun o => ?_) rfl rfl⟩
    unfold Billing.wallet
    by_cases h : o = owner
    · subst h
      cases hfind : db.accounts.find? o with
      | none => simp [Table.find?_update_self, hfind]
      | some row =>
        simp [Table.find?_update_self, hfind, BillingAccount.wallet, keeps.available,
          keeps.reserved, keeps.spend]
    · simp [Table.find?_update_ne _ h]
  | recordEvent event digest now => exact ⟨"", .keep, none, .keep (fun _ => rfl) rfl rfl⟩
  | recordCheckout session => exact ⟨"", .keep, none, .keep (fun _ => rfl) rfl rfl⟩

end Effect

end Magistrate
