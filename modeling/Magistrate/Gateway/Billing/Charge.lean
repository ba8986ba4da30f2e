import Magistrate.Gateway.Billing.Conservation
import Mathlib.Tactic.Ring

/-!
# One charge for each reservation

A reservation's ledger entries add up to its estimate while it is held, to
nothing once released, and to its cost less its refunds once settled. This needs
every generated ledger key to be free when its writer inserts under it: the
ledger silently ignores an entry whose key a refund or a grant has taken, while
the balance and the reservation are written all the same.
-/

namespace Magistrate

open CreditLedger StripeWebhookProcessor

namespace Billing

/-- The sum of the ledger amounts that carry a reservation's id. -/
def charged (db : Billing) (id : String) : ℤ :=
  ((db.ledger.rows.filter fun e => e.reservationId = some id).map (·.amountMicrocredits)).sum

variable {db db' : Billing} {e : LedgerEntry}

/-- Offering an entry under a free key adds its amount to the sum it is part of. -/
theorem sum_filter_insert (p : LedgerEntry → Bool)
    (hledger : db'.ledger = db.ledger.insertOrIgnore e) (free : db.ledger.find? e.key = none) :
    ((db'.ledger.rows.filter p).map (·.amountMicrocredits)).sum =
      ((db.ledger.rows.filter p).map (·.amountMicrocredits)).sum +
        if p e then e.amountMicrocredits else 0 := by
  rw [hledger, Table.rows_insertOrIgnore free, List.filter_append]
  by_cases h : p e <;> simp [h]

/-- Offering an entry outside a sum leaves the sum. -/
theorem sum_filter_insert_of_not (p : LedgerEntry → Bool)
    (hledger : db'.ledger = db.ledger.insertOrIgnore e) (hp : p e = false) :
    ((db'.ledger.rows.filter p).map (·.amountMicrocredits)).sum =
      ((db.ledger.rows.filter p).map (·.amountMicrocredits)).sum := by
  by_cases free : db.ledger.find? e.key = none
  · rw [sum_filter_insert p hledger free]
    simp [hp]
  · rw [hledger, Table.insertOrIgnore_of_ne_none free]

end Billing

/-- What the ledger charges a reservation for, in each of its states. -/
def ChargeOf (db : Billing) (r : CreditReservation) : Prop :=
  match r.status with
  | .reserved => db.charged r.reservationId = -r.estimatedMicrocredits ∧
      refunded db r.ownerUserId r.reservationId = 0
  | .released => db.charged r.reservationId = 0 ∧
      refunded db r.ownerUserId r.reservationId = 0
  | .settled => ∃ actual : ℕ, r.actualMicrocredits = some actual ∧
      db.charged r.reservationId =
        -actual + refunded db r.ownerUserId r.reservationId ∧
      0 ≤ refunded db r.ownerUserId r.reservationId ∧
      refunded db r.ownerUserId r.reservationId ≤ actual

/-- A usage row measures a settled reservation. -/
structure Measures (u : UsageRow) (r : CreditReservation) : Prop where
  reservation : u.reservationId = r.reservationId
  owner : u.ownerUserId = r.ownerUserId
  objective : u.objectiveId = r.objectiveId
  settled : r.status = .settled
  cost : r.actualMicrocredits = some u.costMicrocredits
  usage : r.usage = some u.usage

/-- Every reservation is charged once and measured once. -/
structure Charged (db : Billing) : Prop where
  /-- A reservation's id is that of its objective. -/
  named : ∀ r ∈ db.reservations.rows, r.reservationId = reservationId r.ownerUserId r.objectiveId
  /-- Entries carry the ids of stored reservations. -/
  carried : ∀ e ∈ db.ledger.rows, ∀ id ∈ e.reservationId, db.reservations.find? id ≠ none
  charge : ∀ r ∈ db.reservations.rows, ChargeOf db r
  /-- Usage is of settled reservations. -/
  usage : ∀ u ∈ db.usage.rows, ∃ r ∈ db.reservations.rows, Measures u r
  /-- Settled reservations have usage. -/
  measured : ∀ r ∈ db.reservations.rows, r.status = .settled → ∃ u ∈ db.usage.rows, Measures u r
  /-- An objective has one usage row. -/
  once : ∀ u ∈ db.usage.rows, ∀ v ∈ db.usage.rows, u.ownerUserId = v.ownerUserId →
    u.objectiveId = v.objectiveId → u = v

/-- The ledger key that an operation generates is taken only by its own earlier entry. -/
def KeyFree (db : Billing) : BillingOp → Prop
  | .reserveObjective owner _ key _ => db.reservationForKey owner key = none →
      db.ledger.find? (owner, ledgerKey .reserve key) = none
  | .releaseObjective owner objective _ => ∀ r ∈ db.reservationOf owner objective,
      r.status = .reserved → db.ledger.find? (owner, ledgerKey .release r.reservationId) = none
  | .settleObjective owner objective _ eventId _ => ∀ r ∈ db.reservationOf owner objective,
      r.status = .reserved → db.usage.find? (owner, eventId) = none →
        db.ledger.find? (owner, ledgerKey .settle eventId) = none
  | _ => True

instance (db : Billing) : ∀ op : BillingOp, Decidable (KeyFree db op)
  | .reserveObjective owner _ key _ => inferInstanceAs (Decidable
      (db.reservationForKey owner key = none →
        db.ledger.find? (owner, ledgerKey .reserve key) = none))
  | .releaseObjective owner objective _ => inferInstanceAs (Decidable
      (∀ r ∈ db.reservationOf owner objective, r.status = .reserved →
        db.ledger.find? (owner, ledgerKey .release r.reservationId) = none))
  | .settleObjective owner objective _ eventId _ => inferInstanceAs (Decidable
      (∀ r ∈ db.reservationOf owner objective, r.status = .reserved →
        db.usage.find? (owner, eventId) = none →
          db.ledger.find? (owner, ledgerKey .settle eventId) = none))
  | .summary .. | .refundObjective .. | .addCredits .. | .process .. | .acceptWebhook ..
  | .bindCustomer .. | .recordCheckout .. => .isTrue trivial

section Moves

variable {catalog : BillingCatalog} {op : BillingOp} {db db' : Billing}

/-- Keys stay free under an entry of another family. -/
theorem KeyFree.insert {e : LedgerEntry} {family : KeyFamily} {name : String}
    (free : KeyFree db op) (hreservations : db'.reservations = db.reservations)
    (husage : db'.usage = db.usage) (hledger : db'.ledger = db.ledger.insertOrIgnore e)
    (hkey : e.idempotencyKey = ledgerKey family name)
    (hfamily : family = .included ∨ family = .stripe) : KeyFree db' op := by
  have hfind : ∀ {owner name'} {family' : KeyFamily},
      family' ≠ .included → family' ≠ .stripe →
      db.ledger.find? (owner, ledgerKey family' name') = none →
        db'.ledger.find? (owner, ledgerKey family' name') = none := by
    intro owner name' family' hi hs h
    have hne : e.key ≠ (owner, ledgerKey family' name') := by
      intro he
      have hk : ledgerKey family name = ledgerKey family' name' :=
        hkey ▸ congrArg Prod.snd he
      obtain ⟨rfl, -⟩ := ledgerKey_inj.mp hk
      exact hfamily.elim hi hs
    rw [hledger, Table.find?_insertOrIgnore, h]
    simp [hne]
  cases op with
  | reserveObjective owner objective key now =>
    intro h
    simp only [Billing.reservationForKey, hreservations] at h
    exact hfind (by decide) (by decide) (free h)
  | releaseObjective owner objective now =>
    intro r hr held
    simp only [Billing.reservationOf, hreservations] at hr
    exact hfind (by decide) (by decide) (free r hr held)
  | settleObjective owner objective usage eventId now =>
    intro r hr held hevent
    simp only [Billing.reservationOf, hreservations] at hr
    rw [husage] at hevent
    exact hfind (by decide) (by decide) (free r hr held hevent)
  | _ => trivial

/-- Movements of an operation leave its key free, or leave nothing to insert under it. -/
theorem KeyFree.move (free : KeyFree db op) (h : Move catalog op db db') : KeyFree db' op := by
  cases h with
  | insertAccount | touchAccount | recordEvent | recordCheckout => cases op <;> exact free
  | monthlyGrant row plan now => exact free.insert rfl rfl rfl rfl (.inl rfl)
  | invoicePaid row plan subscriptionId event => exact free.insert rfl rfl rfl rfl (.inl rfl)
  | purchase row pack event digest => exact free.insert rfl rfl rfl rfl (.inr rfl)
  | reserve row plan reservation source new account onPlan freeId =>
    subst source new
    intro h
    simp only [Billing.reservationForKey, List.find?_eq_none, Table.rows_insertOrIgnore freeId]
      at h
    exact absurd (h _ (List.mem_append_right _ (List.mem_singleton_self _))) (by
      simp [newReservation])
  | @release owner objective now row reservation source found held =>
    subst source
    intro r hr heldr
    rw [reservationOf_update (g := released now) (fun _ => rfl) (fun _ => ⟨rfl, rfl⟩) rfl,
      found] at hr
    simp only [Option.map_some, if_true, Option.mem_def, Option.some.injEq] at hr
    subst hr
    simp at heldr
  | settle row reservation usage actual source cost found held account freeEvent =>
    subst source
    intro r hr heldr hevent
    rw [Table.find?_insertOrIgnore] at hevent
    obtain ⟨-, rfl, -⟩ := of_reservationOf found
    simp [usageRow, UsageRow.key] at hevent
  | refund row reservation actual source => subst source; trivial
  | topup row source => subst source; trivial

/-- Two reservations of one objective are one. -/
theorem Charged.eq_of_objective (charged : Charged db) {r s : CreditReservation}
    (hr : r ∈ db.reservations.rows) (hs : s ∈ db.reservations.rows)
    (howner : r.ownerUserId = s.ownerUserId) (hobjective : r.objectiveId = s.objectiveId) :
    r = s := by
  refine Table.eq_of_mem hr hs ?_
  rw [charged.named r hr, charged.named s hs, howner, hobjective]

/-- Equal sums charge a reservation equally. -/
theorem ChargeOf.congr {r : CreditReservation} (h : ChargeOf db r)
    (hcharged : db'.charged r.reservationId = db.charged r.reservationId)
    (hrefunded : refunded db' r.ownerUserId r.reservationId =
      refunded db r.ownerUserId r.reservationId) : ChargeOf db' r := by
  unfold ChargeOf at h ⊢
  rwa [hcharged, hrefunded]

/-- Entries outside reservations charge nobody. -/
theorem Charged.of_outside (charged : Charged db)
    (hreservations : db'.reservations = db.reservations) (husage : db'.usage = db.usage)
    (hledger : db'.ledger = db.ledger ∨
      ∃ e, e.reservationId = none ∧ db'.ledger = db.ledger.insertOrIgnore e) : Charged db' := by
  have hcarried : ∀ e ∈ db'.ledger.rows, ∀ id ∈ e.reservationId,
    db.reservations.find? id ≠ none := by
    intro e he id hid
    rcases hledger with h | ⟨new, hnew, h⟩
    · exact charged.carried e (h ▸ he) id hid
    · rw [h] at he
      rcases Table.mem_insertOrIgnore he with he | ⟨-, rfl⟩
      · exact charged.carried e he id hid
      · simp [hnew] at hid
  have hsum : ∀ p : LedgerEntry → Bool, (∀ e, e.reservationId = none → p e = false) →
      ((db'.ledger.rows.filter p).map (·.amountMicrocredits)).sum =
        ((db.ledger.rows.filter p).map (·.amountMicrocredits)).sum := by
    intro p hp
    rcases hledger with h | ⟨new, hnew, h⟩
    · rw [h]
    · exact Billing.sum_filter_insert_of_not p h (hp new hnew)
  refine ⟨hreservations ▸ charged.named, hreservations ▸ hcarried, fun r hr => ?_, ?_, ?_,
    husage ▸ charged.once⟩
  · rw [hreservations] at hr
    refine (charged.charge r hr).congr (hsum _ ?_) (hsum _ ?_)
    · intro e he
      simp [he]
    · intro e he
      simp [he]
  · rw [hreservations, husage]
    exact charged.usage
  · rw [hreservations, husage]
    exact charged.measured

/-- An entry of one reservation charges no other. -/
theorem ChargeOf.of_ne {r : CreditReservation} {e : LedgerEntry} {id : String}
    (h : ChargeOf db r) (hledger : db'.ledger = db.ledger.insertOrIgnore e)
    (hid : e.reservationId = some id) (hne : r.reservationId ≠ id) : ChargeOf db' r := by
  refine h.congr (Billing.sum_filter_insert_of_not _ hledger ?_)
    (Billing.sum_filter_insert_of_not _ hledger ?_)
  · simp [hid, Ne.symm hne]
  · simp [hid, Ne.symm hne]

/-- An entry of a reservation under a free key adds its amount to the charge. -/
theorem Billing.charged_insert {e : LedgerEntry} {id : String}
    (hledger : db'.ledger = db.ledger.insertOrIgnore e) (free : db.ledger.find? e.key = none)
    (hid : e.reservationId = some id) :
    db'.charged id = db.charged id + e.amountMicrocredits := by
  simp [charged, sum_filter_insert _ hledger free, hid]

/-- An entry that is no refund refunds nothing. -/
theorem Billing.refunded_insert {e : LedgerEntry} {owner id : String}
    (hledger : db'.ledger = db.ledger.insertOrIgnore e) (hrefund : e.entryType ≠ .refund) :
    refunded db' owner id = refunded db owner id :=
  sum_filter_insert_of_not _ hledger (by simp [hrefund])

/-- A new reservation is charged its estimate. -/
theorem Charged.reserve {r : CreditReservation} {e : LedgerEntry} (charged : Charged db)
    (hid : r.reservationId = reservationId r.ownerUserId r.objectiveId)
    (held : r.status = .reserved)
    (freeId : db.reservations.find? r.reservationId = none)
    (hreservations : db'.reservations = db.reservations.insertOrIgnore r)
    (husage : db'.usage = db.usage) (hledger : db'.ledger = db.ledger.insertOrIgnore e)
    (free : db.ledger.find? e.key = none) (carries : e.reservationId = some r.reservationId)
    (hamount : e.amountMicrocredits = -r.estimatedMicrocredits)
    (hrefund : e.entryType ≠ .refund) : Charged db' := by
  have hrows : db'.reservations.rows = db.reservations.rows ++ [r] := by
    rw [hreservations, Table.rows_insertOrIgnore freeId]
  have hcarried : ∀ id, db.reservations.find? id ≠ none → db'.reservations.find? id ≠ none := by
    intro id h
    obtain ⟨s, hs⟩ := Option.ne_none_iff_exists'.mp h
    rw [hreservations, Table.find?_insertOrIgnore, hs]
    simp
  have hnone : ∀ e ∈ db.ledger.rows, e.reservationId ≠ some r.reservationId :=
    fun e he h => charged.carried e he _ h freeId
  have hzero : db.charged r.reservationId = 0 ∧
      refunded db r.ownerUserId r.reservationId = 0 := by
    constructor
    · rw [Billing.charged, List.filter_eq_nil_iff.mpr (by simpa using hnone)]
      rfl
    · rw [refunded, List.filter_eq_nil_iff.mpr fun e he => by simp [hnone e he]]
      rfl
  refine ⟨?_, ?_, ?_, ?_, ?_, husage ▸ charged.once⟩
  · rw [hrows]
    intro s hs
    rcases List.mem_append.mp hs with hs | hs
    · exact charged.named s hs
    · rw [List.mem_singleton.mp hs, hid]
  · rw [hledger]
    intro e' he' id hmem
    rcases Table.mem_insertOrIgnore he' with he' | ⟨-, rfl⟩
    · exact hcarried id (charged.carried e' he' id hmem)
    · obtain rfl : r.reservationId = id := by simpa [carries] using hmem
      rw [hreservations, Table.find?_insertOrIgnore]
      simp [freeId]
  · rw [hrows]
    intro s hs
    rcases List.mem_append.mp hs with hs | hs
    · refine (charged.charge s hs).of_ne hledger carries fun h => ?_
      exact absurd freeId (h ▸ by simp [Table.find?_of_mem hs])
    · rw [List.mem_singleton.mp hs]
      unfold ChargeOf
      rw [held, Billing.charged_insert hledger free carries,
        Billing.refunded_insert hledger hrefund, hzero.1, hzero.2, hamount]
      simp
  · rw [husage, hrows]
    intro u hu
    obtain ⟨s, hs, hm⟩ := charged.usage u hu
    exact ⟨s, List.mem_append_left _ hs, hm⟩
  · rw [husage, hrows]
    intro s hs settled
    rcases List.mem_append.mp hs with hs | hs
    · exact charged.measured s hs settled
    · rw [List.mem_singleton.mp hs, held] at settled
      simp at settled

/-- Finishing a held reservation replaces its charge. -/
theorem Charged.finish {r : CreditReservation} {g : CreditReservation → CreditReservation}
    {e : LedgerEntry} (hg : ∀ r, (g r).reservationId = r.reservationId) (charged : Charged db)
    (stored : r ∈ db.reservations.rows) (held : r.status = .reserved)
    (gowner : (g r).ownerUserId = r.ownerUserId) (gobjective : (g r).objectiveId = r.objectiveId)
    (hreservations : db'.reservations = db.reservations.update r.reservationId g hg)
    (hledger : db'.ledger = db.ledger.insertOrIgnore e)
    (carries : e.reservationId = some r.reservationId)
    (hcharge : ChargeOf db' (g r))
    (husage : ∀ u ∈ db'.usage.rows, u ∈ db.usage.rows ∨ Measures u (g r))
    (hkept : ∀ u ∈ db.usage.rows, u ∈ db'.usage.rows)
    (hmeasured : (g r).status = .settled → ∃ u ∈ db'.usage.rows, Measures u (g r))
    (honce : ∀ u ∈ db'.usage.rows, ∀ v ∈ db'.usage.rows, u.ownerUserId = v.ownerUserId →
      u.objectiveId = v.objectiveId → u = v) : Charged db' := by
  have hcases : ∀ s ∈ db'.reservations.rows,
      s = g r ∨ s ∈ db.reservations.rows ∧ s.reservationId ≠ r.reservationId := by
    intro s hs
    rw [hreservations] at hs
    obtain ⟨t, ht, rfl⟩ := Table.mem_update.mp hs
    by_cases h : t.reservationId = r.reservationId
    · exact .inl (by rw [if_pos h, Table.eq_of_mem ht stored h])
    · exact .inr (by simpa [h] using ht)
  have hkeep : ∀ s ∈ db.reservations.rows, s.reservationId ≠ r.reservationId →
      s ∈ db'.reservations.rows := by
    intro s hs h
    rw [hreservations]
    exact Table.mem_update.mpr ⟨s, hs, by simp [h]⟩
  have hfinished : g r ∈ db'.reservations.rows := by
    rw [hreservations]
    exact Table.mem_update.mpr ⟨r, stored, by simp⟩
  refine ⟨?_, ?_, ?_, ?_, ?_, honce⟩
  · intro s hs
    rcases hcases s hs with rfl | ⟨hs, -⟩
    · rw [hg, gowner, gobjective, charged.named r stored]
    · exact charged.named s hs
  · rw [hledger]
    intro e' he' id hmem
    have hfound : db.reservations.find? id ≠ none := by
      rcases Table.mem_insertOrIgnore he' with he' | ⟨-, rfl⟩
      · exact charged.carried e' he' id hmem
      · obtain rfl : r.reservationId = id := by simpa [carries] using hmem
        simp [Table.find?_of_mem stored]
    rw [hreservations, Table.find?_update]
    simpa using hfound
  · intro s hs
    rcases hcases s hs with rfl | ⟨hs, hne⟩
    · exact hcharge
    · exact (charged.charge s hs).of_ne hledger carries hne
  · intro u hu
    rcases husage u hu with hu | hm
    · obtain ⟨s, hs, hm⟩ := charged.usage u hu
      refine ⟨s, hkeep s hs fun h => ?_, hm⟩
      obtain rfl := Table.eq_of_mem hs stored h
      simpa [held] using hm.settled
    · exact ⟨g r, hfinished, hm⟩
  · intro s hs settled
    rcases hcases s hs with rfl | ⟨hs, -⟩
    · exact hmeasured settled
    · obtain ⟨u, hu, hm⟩ := charged.measured s hs settled
      exact ⟨u, hkept u hu, hm⟩

/-- A bounded refund lowers the charge of a settled reservation. -/
theorem Charged.refund {r : CreditReservation} {e : LedgerEntry} {actual : ℕ}
    (charged : Charged db) (stored : r ∈ db.reservations.rows) (settled : r.status = .settled)
    (cost : r.actualMicrocredits = some actual)
    (hreservations : db'.reservations = db.reservations) (husage : db'.usage = db.usage)
    (hledger : db'.ledger = db.ledger.insertOrIgnore e) (free : db.ledger.find? e.key = none)
    (howner : e.ownerUserId = r.ownerUserId) (carries : e.reservationId = some r.reservationId)
    (hrefund : e.entryType = .refund) (positive : 0 < e.amountMicrocredits)
    (bounded : refunded db r.ownerUserId r.reservationId + e.amountMicrocredits ≤ actual) :
    Charged db' := by
  have hrefunded : refunded db' r.ownerUserId r.reservationId =
      refunded db r.ownerUserId r.reservationId + e.amountMicrocredits := by
    simp only [refunded, Billing.sum_filter_insert _ hledger free]
    simp [howner, carries, hrefund]
  refine ⟨hreservations ▸ charged.named, ?_, ?_, ?_, ?_, husage ▸ charged.once⟩
  · rw [hledger, hreservations]
    intro e' he' id hmem
    rcases Table.mem_insertOrIgnore he' with he' | ⟨-, rfl⟩
    · exact charged.carried e' he' id hmem
    · obtain rfl : r.reservationId = id := by simpa [carries] using hmem
      simp [Table.find?_of_mem stored]
  · rw [hreservations]
    intro s hs
    by_cases h : s.reservationId = r.reservationId
    · obtain rfl := Table.eq_of_mem hs stored h
      have hcharge := charged.charge s hs
      unfold ChargeOf at hcharge ⊢
      rw [settled] at hcharge ⊢
      obtain ⟨a, ha, hsum, hnonneg, -⟩ := hcharge
      obtain rfl : actual = a := Option.some.inj (cost.symm.trans ha)
      refine ⟨actual, cost, ?_, ?_, ?_⟩
      · rw [Billing.charged_insert hledger free carries, hrefunded, hsum]
        ring
      · omega
      · omega
    · exact (charged.charge s hs).of_ne hledger carries h
  · rw [hreservations, husage]
    exact charged.usage
  · rw [hreservations, husage]
    exact charged.measured

/-- A movement whose key is free charges every reservation once. -/
theorem Charged.move (charged : Charged db) (h : Move catalog op db db')
    (free : KeyFree db op) : Charged db' := by
  cases h with
  | insertAccount | touchAccount | recordEvent | recordCheckout =>
    exact charged.of_outside rfl rfl (.inl rfl)
  | monthlyGrant row plan now => exact charged.of_outside rfl rfl (.inr ⟨_, rfl, rfl⟩)
  | topup row source => exact charged.of_outside rfl rfl (.inr ⟨_, rfl, rfl⟩)
  | purchase row pack event => exact charged.of_outside rfl rfl (.inr ⟨_, rfl, rfl⟩)
  | invoicePaid row plan subscriptionId event =>
    exact charged.of_outside rfl rfl (.inr ⟨_, rfl, rfl⟩)
  | reserve row plan reservation source new account onPlan freeId freeObjective freeKey =>
    subst source new
    exact charged.reserve rfl rfl freeId rfl rfl rfl (free freeKey) rfl rfl
      (by simp [reservationEntry])
  | @release owner objective now row reservation source found held account =>
    subst source
    obtain ⟨stored, rfl, -⟩ := of_reservationOf found
    have hcharge := charged.charge reservation stored
    unfold ChargeOf at hcharge
    rw [held] at hcharge
    refine charged.finish (g := released now) (fun _ => rfl) stored held rfl rfl rfl rfl rfl ?_
      (fun _ hu => .inl hu) (fun _ hu => hu) (by simp) charged.once
    refine ⟨?_, ?_⟩
    · rw [Billing.charged_insert (e := releaseEntry reservation _ now) rfl
        (free reservation found held) rfl, hcharge.1]
      simp [releaseEntry]
    · rw [Billing.refunded_insert (e := releaseEntry reservation _ now) rfl
        (by simp [releaseEntry])]
      exact hcharge.2
  | @settle owner objective eventId measured now row reservation usage actual source cost found
      held account freeEvent freeObjective =>
    subst source
    obtain ⟨stored, rfl, rfl⟩ := of_reservationOf found
    have hcharge := charged.charge reservation stored
    unfold ChargeOf at hcharge
    rw [held] at hcharge
    have hmeasures : Measures (usageRow reservation usage actual eventId now)
        (settled usage actual now reservation) := ⟨rfl, rfl, rfl, rfl, rfl, rfl⟩
    have hrows : ∀ u ∈ (db.usage.insertOrIgnore
        (usageRow reservation usage actual eventId now)).rows,
        u ∈ db.usage.rows ∨ u = usageRow reservation usage actual eventId now :=
      fun u hu => (Table.mem_insertOrIgnore hu).imp_right And.right
    have hnew : usageRow reservation usage actual eventId now ∈ (db.usage.insertOrIgnore
        (usageRow reservation usage actual eventId now)).rows := by
      rw [Table.rows_insertOrIgnore freeEvent]
      exact List.mem_append_right _ (List.mem_singleton_self _)
    have hfree : ∀ u ∈ db.usage.rows, u.ownerUserId = reservation.ownerUserId →
        u.objectiveId ≠ reservation.objectiveId := by
      simpa [Billing.usageOf, List.find?_eq_none] using freeObjective
    refine charged.finish (g := settled usage actual now) (fun _ => rfl) stored held rfl rfl rfl
      rfl rfl ?_ (fun u hu => (hrows u hu).imp_right (by rintro rfl; exact hmeasures))
      (fun _ hu => Table.mem_insertOrIgnore_of_mem hu) (fun _ => ⟨_, hnew, hmeasures⟩) ?_
    · refine ⟨actual, rfl, ?_, ?_⟩
      · rw [Billing.charged_insert (e := settlementEntry reservation actual eventId _ now) rfl
          (free reservation found held freeEvent) rfl, hcharge.1,
          Billing.refunded_insert (e := settlementEntry reservation actual eventId _ now) rfl
            (by simp [settlementEntry]), hcharge.2]
        simp only [settlementEntry]
        ring
      · rw [Billing.refunded_insert (e := settlementEntry reservation actual eventId _ now) rfl
          (by simp [settlementEntry]), hcharge.2]
        omega
    · intro u hu v hv howner hobjective
      rcases hrows u hu with hu | rfl <;> rcases hrows v hv with hv | rfl
      · exact charged.once u hu v hv howner hobjective
      · exact absurd hobjective (hfree u hu howner)
      · exact absurd hobjective.symm (hfree v hv howner.symm)
      · rfl
  | refund row reservation actual source positive stored owned bound settled cost account
      freeKey bounded =>
    subst source owned
    exact charged.refund stored settled cost rfl rfl rfl freeKey rfl rfl rfl positive bounded

/-- A step whose key is free charges every reservation once. -/
theorem Charged.step (charged : Charged db) (free : KeyFree db op) :
    Charged (billingStep db (catalog, op)) :=
  ((billingStep_moves catalog op db).preserve (I := fun db => Charged db ∧ KeyFree db op)
    (fun move h => ⟨h.1.move move h.2, h.2.move move⟩) ⟨charged, free⟩).1

end Moves

section Replays

variable {catalog : BillingCatalog} {db db' : Billing} {owner objective key eventId : String}
  {measured : Json} {amount now : ℤ}

/-- A stored reservation is the one its objective finds. -/
theorem Charged.reservationOf_of_mem (charged : Charged db) {r : CreditReservation}
    (hr : r ∈ db.reservations.rows) :
    db.reservationOf r.ownerUserId r.objectiveId = some r := by
  cases hfind : db.reservationOf r.ownerUserId r.objectiveId with
  | none =>
    simp only [Billing.reservationOf, List.find?_eq_none] at hfind
    simpa using hfind r hr
  | some s =>
    obtain ⟨hs, howner, hobjective⟩ := of_reservationOf hfind
    rw [charged.eq_of_objective hs hr howner hobjective]

/-- A settled reservation is the settled one its objective finds. -/
theorem Charged.settledReservationOf_of_mem (charged : Charged db) {r : CreditReservation}
    (hr : r ∈ db.reservations.rows) (settled : r.status = .settled) :
    db.settledReservationOf r.ownerUserId r.objectiveId = some r := by
  cases hfind : db.settledReservationOf r.ownerUserId r.objectiveId with
  | none =>
    simp only [Billing.settledReservationOf, List.find?_eq_none] at hfind
    simpa [settled] using hfind r hr
  | some s =>
    obtain ⟨hs, howner, hobjective, -⟩ := of_settledReservationOf hfind
    rw [charged.eq_of_objective hs hr howner hobjective]

/-- A stored usage row is the one its objective finds. -/
theorem Charged.usageOf_of_mem (charged : Charged db) {u : UsageRow} (hu : u ∈ db.usage.rows) :
    db.usageOf u.ownerUserId u.objectiveId = some u := by
  cases hfind : db.usageOf u.ownerUserId u.objectiveId with
  | none =>
    simp only [Billing.usageOf, List.find?_eq_none] at hfind
    simpa using hfind u hu
  | some v =>
    have hp := List.find?_some hfind
    simp only [Bool.decide_and, Bool.and_eq_true, decide_eq_true_eq] at hp
    rw [charged.once v (List.mem_of_find?_eq_some hfind) u hu hp.1 hp.2]

/-- An objective's reservation is released. -/
def IsReleased (db : Billing) (owner objective : String) : Prop :=
  ∃ r ∈ db.reservations.rows, r.ownerUserId = owner ∧ r.objectiveId = objective ∧
    r.status = .released

/-- An objective is settled for an event at a measured cost. -/
def IsSettled (db : Billing) (owner objective eventId : String) (usage : Usage) (actual : ℕ) :
    Prop :=
  (∃ r ∈ db.reservations.rows, r.ownerUserId = owner ∧ r.objectiveId = objective ∧
    r.status = .settled ∧ r.actualMicrocredits = some actual ∧ r.usage = some usage) ∧
  ∃ u ∈ db.usage.rows, u.ownerUserId = owner ∧ u.objectiveId = objective ∧ u.eventId = eventId

/-- A key is bound to a refund of an objective. -/
def IsRefunded (db : Billing) (owner objective key : String) (amount : ℤ) : Prop :=
  0 < amount ∧
  (∃ r ∈ db.reservations.rows, r.ownerUserId = owner ∧ r.objectiveId = objective ∧
    r.status = .settled ∧ ∃ actual : ℕ, r.actualMicrocredits = some actual ∧ amount ≤ actual) ∧
  ∃ e ∈ db.ledger.rows, e.key = (owner, key) ∧ e.entryType = .refund ∧
    e.amountMicrocredits = amount ∧ e.objectiveId = some objective

/-- A finished reservation is kept as it is. -/
theorem Grows.finished (grows : Grows db db') {r : CreditReservation}
    (hr : r ∈ db.reservations.rows) (done : r.status ≠ .reserved) : r ∈ db'.reservations.rows := by
  obtain ⟨r', hr', -, -, -, -, -, hdone⟩ := grows.reservation r hr
  exact hdone done ▸ hr'

theorem IsReleased.grows (h : IsReleased db owner objective) (grows : Grows db db') :
    IsReleased db' owner objective := by
  obtain ⟨r, hr, howner, hobjective, hstatus⟩ := h
  exact ⟨r, grows.finished hr (by simp [hstatus]), howner, hobjective, hstatus⟩

theorem IsSettled.grows {usage : Usage} {actual : ℕ}
    (h : IsSettled db owner objective eventId usage actual) (grows : Grows db db') :
    IsSettled db' owner objective eventId usage actual := by
  obtain ⟨⟨r, hr, howner, hobjective, hstatus, hrest⟩, u, hu, hfacts⟩ := h
  exact ⟨⟨r, grows.finished hr (by simp [hstatus]), howner, hobjective, hstatus, hrest⟩,
    u, grows.usage u hu, hfacts⟩

theorem IsRefunded.grows (h : IsRefunded db owner objective key amount) (grows : Grows db db') :
    IsRefunded db' owner objective key amount := by
  obtain ⟨hpos, ⟨r, hr, howner, hobjective, hstatus, hrest⟩, e, he, hfacts⟩ := h
  exact ⟨hpos, ⟨r, grows.finished hr (by simp [hstatus]), howner, hobjective, hstatus, hrest⟩,
    e, grows.ledger e he, hfacts⟩

/-- A release that does something leaves its objective released. -/
theorem isReleased_of_release (h : releaseObjective owner objective now db = .ok (true, db')) :
    IsReleased db' owner objective := by
  unfold releaseObjective at h
  split at h
  · simp at h
  · next reservation found =>
    split at h
    · simp at h
    · split at h
      · simp at h
      · next row account =>
        simp only [Billing.insertLedger, Except.ok.injEq, Prod.mk.injEq, true_and] at h
        subst h
        obtain ⟨stored, howner, hobjective⟩ := of_reservationOf found
        refine ⟨released now reservation, ?_, howner, hobjective, rfl⟩
        rw [Table.mem_update]
        exact ⟨reservation, stored, by simp⟩

/-- A settlement leaves its objective settled with its facts. -/
theorem isSettled_of_settle {result : CreditReservation} {usage : Usage} {actual : ℕ}
    (h : settleObjective catalog owner objective measured eventId now db = .ok (result, db'))
    (cost : catalog.measuredCost measured = .ok (usage, actual)) :
    IsSettled db' owner objective eventId usage actual := by
  simp only [settleObjective, cost, bind_eq_ok, Except.ok.injEq, Prod.exists, Prod.mk.injEq] at h
  obtain ⟨_, _, ⟨rfl, rfl⟩, h⟩ := h
  split at h
  · simp at h
  · next reservation found =>
    obtain ⟨stored, howner, hobjective⟩ := of_reservationOf found
    split at h
    · next hstatus =>
      simp only [bind_eq_ok, raiseIf_eq_ok, pure_eq_ok, exists_const, Prod.mk.injEq, not_or,
        not_not] at h
      obtain ⟨⟨hactual, husage, hevent⟩, -, rfl⟩ := h
      obtain ⟨u, hu, rfl⟩ := Option.map_eq_some_iff.mp hevent
      have hp := List.find?_some hu
      simp only [Bool.decide_and, Bool.and_eq_true, decide_eq_true_eq] at hp
      exact ⟨⟨reservation, stored, howner, hobjective, hstatus, hactual, husage⟩,
        u, List.mem_of_find?_eq_some hu, hp.1, hp.2, rfl⟩
    · simp at h
    · split at h
      · simp at h
      · next row account =>
        simp only [bind_eq_ok, pure_eq_ok, Prod.mk.injEq, insertUsage_eq_ok,
          Billing.insertLedger] at h
        obtain ⟨_, ⟨freeEvent, -, rfl⟩, -, rfl⟩ := h
        refine ⟨⟨settled usage actual now reservation, ?_, howner, hobjective, rfl, rfl, rfl⟩,
          usageRow reservation usage actual eventId now, ?_, howner, hobjective, rfl⟩
        · rw [Table.mem_update]
          exact ⟨reservation, stored, by simp⟩
        · rw [Table.rows_insertOrIgnore freeEvent]
          exact List.mem_append_right _ (List.mem_singleton_self _)

/-- A refund leaves its key bound to its facts. -/
theorem isRefunded_of_refund {result : Bool}
    (h : refundObjective owner objective amount key now db = .ok (result, db')) :
    IsRefunded db' owner objective key amount := by
  simp only [refundObjective, bind_eq_ok, raiseIf_eq_ok, exists_const] at h
  obtain ⟨positive, h⟩ := h
  split at h
  · simp at h
  · next reservation found =>
    obtain ⟨stored, howner, hobjective, hstatus⟩ := of_settledReservationOf found
    split at h
    · simp at h
    · next actual cost =>
      simp only [bind_eq_ok, raiseIf_eq_ok, exists_const] at h
      obtain ⟨hle, h⟩ := h
      have hsettled : ∃ r ∈ db.reservations.rows, r.ownerUserId = owner ∧
          r.objectiveId = objective ∧ r.status = .settled ∧
          ∃ actual : ℕ, r.actualMicrocredits = some actual ∧ amount ≤ actual :=
        ⟨reservation, stored, howner, hobjective, hstatus, actual, cost, by omega⟩
      split at h
      · next existing hexisting =>
        simp only [bind_eq_ok, raiseIf_eq_ok, pure_eq_ok, exists_const, Prod.mk.injEq, not_or,
          not_not] at h
        obtain ⟨⟨htype, hamount, hbound⟩, -, rfl⟩ := h
        obtain ⟨hm, hk⟩ := Table.mem_of_find? hexisting
        exact ⟨by omega, hsettled, existing, hm, hk, htype, hamount, hbound⟩
      · next free =>
        simp only [bind_eq_ok, raiseIf_eq_ok, exists_const] at h
        obtain ⟨-, h⟩ := h
        split at h
        · simp at h
        · next row account =>
          simp only [Billing.insertLedger, pure_eq_ok, Prod.mk.injEq] at h
          obtain ⟨-, rfl⟩ := h
          subst howner hobjective
          refine ⟨by omega, hsettled, refundEntry reservation amount key
            (row.availableMicrocredits + amount) now, ?_, rfl, rfl, rfl, rfl⟩
          rw [Table.rows_insertOrIgnore free]
          exact List.mem_append_right _ (List.mem_singleton_self _)

/-- Releasing again changes nothing. -/
theorem IsReleased.replay (h : IsReleased db owner objective) (charged : Charged db) (now : ℤ) :
    releaseObjective owner objective now db = .ok (false, db) := by
  obtain ⟨r, hr, rfl, rfl, hstatus⟩ := h
  simp [releaseObjective, charged.reservationOf_of_mem hr, hstatus]

/-- Settling again with the same facts changes nothing. -/
theorem IsSettled.replay {usage : Usage} {actual : ℕ}
    (h : IsSettled db owner objective eventId usage actual) (charged : Charged db)
    (cost : catalog.measuredCost measured = .ok (usage, actual)) (now : ℤ) :
    ∃ r, settleObjective catalog owner objective measured eventId now db = .ok (r, db) := by
  obtain ⟨⟨r, hr, rfl, rfl, hstatus, hactual, husage⟩, u, hu, howner, hobjective, rfl⟩ := h
  have hfound : db.usageOf r.ownerUserId r.objectiveId = some u := by
    rw [← howner, ← hobjective]
    exact charged.usageOf_of_mem hu
  refine ⟨r, ?_⟩
  simp [settleObjective, cost, charged.reservationOf_of_mem hr, hstatus, hactual, husage, hfound,
    raiseIf, bind, Except.bind, pure, Except.pure]

/-- Settling a settled objective, or another one for its event, with other facts raises. -/
theorem IsSettled.conflict {objective' eventId' : String} {usage : Usage} {actual : ℕ}
    (h : IsSettled db owner objective eventId usage actual) (charged : Charged db)
    (same : objective' = objective ∨ eventId' = eventId)
    (differs : ¬(objective' = objective ∧ eventId' = eventId ∧
      catalog.measuredCost measured = .ok (usage, actual))) (now : ℤ) :
    ∃ e, settleObjective catalog owner objective' measured eventId' now db = .error e := by
  obtain ⟨⟨r, hr, rfl, rfl, hstatus, hactual, husage⟩, u, hu, howner, hobjective, rfl⟩ := h
  cases hcost : catalog.measuredCost measured with
  | error e => exact ⟨e, by simp [settleObjective, hcost, bind, Except.bind]⟩
  | ok facts =>
    obtain ⟨usage', actual'⟩ := facts
    by_cases hobj : objective' = r.objectiveId
    · subst hobj
      have hfound : db.usageOf r.ownerUserId r.objectiveId = some u := by
        rw [← howner, ← hobjective]
        exact charged.usageOf_of_mem hu
      have hne : actual ≠ actual' ∨ usage ≠ usage' ∨ u.eventId ≠ eventId' := by
        by_contra hall
        simp only [not_or, not_not] at hall
        obtain ⟨rfl, rfl, rfl⟩ := hall
        exact differs ⟨rfl, rfl, hcost⟩
      simp [settleObjective, hcost, charged.reservationOf_of_mem hr, hstatus, hactual, husage,
        hfound, raiseIf, bind, Except.bind, hne]
    · obtain rfl : eventId' = u.eventId := same.resolve_left hobj
      cases hsettle : settleObjective catalog r.ownerUserId objective' measured
        u.eventId now db with
      | error e => exact ⟨e, rfl⟩
      | ok result =>
        exfalso
        have hkey : db.usage.find? (r.ownerUserId, u.eventId) = some u := by
          rw [← howner]
          exact Table.find?_of_mem hu
        simp only [settleObjective, hcost, bind_eq_ok, Except.ok.injEq, Prod.exists,
          Prod.mk.injEq] at hsettle
        obtain ⟨_, _, ⟨rfl, rfl⟩, hsettle⟩ := hsettle
        split at hsettle
        · simp at hsettle
        · next s hs =>
          obtain ⟨-, sowner, sobjective⟩ := of_reservationOf hs
          split at hsettle
          · -- another objective settled for this event would share the usage row
            simp only [bind_eq_ok, raiseIf_eq_ok, pure_eq_ok, exists_const, not_or,
              not_not] at hsettle
            obtain ⟨v, hv, hevent⟩ := Option.map_eq_some_iff.mp hsettle.1.2.2
            have hp := List.find?_some hv
            simp only [Bool.decide_and, Bool.and_eq_true, decide_eq_true_eq] at hp
            have hvu : v = u := Table.eq_of_mem (List.mem_of_find?_eq_some hv) hu
              (Prod.ext (hp.1.trans howner.symm) hevent)
            exact hobj (hp.2.symm.trans (hvu ▸ hobjective))
          · simp at hsettle
          · split at hsettle
            · simp at hsettle
            · simp only [bind_eq_ok, insertUsage_eq_ok] at hsettle
              obtain ⟨_, ⟨hfree, -⟩, -⟩ := hsettle
              rw [UsageRow.key, usageRow, sowner, hkey] at hfree
              simp at hfree

/-- Refunding again under a key with the same facts changes nothing. -/
theorem IsRefunded.replay (h : IsRefunded db owner objective key amount) (charged : Charged db)
    (now : ℤ) : refundObjective owner objective amount key now db = .ok (false, db) := by
  obtain ⟨hpos, ⟨r, hr, rfl, rfl, hstatus, actual, hactual, hle⟩, e, he, hkey, htype, hamount,
    hbound⟩ := h
  have hfound := charged.settledReservationOf_of_mem hr hstatus
  have hentry : db.ledger.find? (r.ownerUserId, key) = some e := hkey ▸ Table.find?_of_mem he
  simp [refundObjective, hfound, hactual, hentry, htype, hamount, hbound, raiseIf, bind,
    Except.bind, pure, Except.pure, not_le.mpr hpos, not_lt.mpr hle]

/-- Refunding under a bound key with other facts raises. -/
theorem IsRefunded.conflict {objective' : String} {amount' : ℤ}
    (h : IsRefunded db owner objective key amount)
    (differs : ¬(objective' = objective ∧ amount' = amount)) (now : ℤ) :
    ∃ e, refundObjective owner objective' amount' key now db = .error e := by
  obtain ⟨-, -, e, he, hkey, htype, hamount, hbound⟩ := h
  have hentry : db.ledger.find? (owner, key) = some e := hkey ▸ Table.find?_of_mem he
  cases hrefund : refundObjective owner objective' amount' key now db with
  | error failure => exact ⟨failure, rfl⟩
  | ok result =>
    exfalso
    simp only [refundObjective, hentry, bind_eq_ok, raiseIf_eq_ok, exists_const] at hrefund
    obtain ⟨-, hrefund⟩ := hrefund
    split at hrefund
    · simp at hrefund
    · split at hrefund
      · simp at hrefund
      · simp only [bind_eq_ok, raiseIf_eq_ok, exists_const, not_or, not_not, htype, hamount,
          hbound, Option.some.injEq] at hrefund
        exact differs ⟨hrefund.2.1.2.2.symm, hrefund.2.1.2.1.symm⟩

end Replays

section Runs

/-- A reservation has one usage row if it is settled and none otherwise. -/
theorem Charged.countP_usage {db : Billing} (charged : Charged db) {r : CreditReservation}
    (hr : r ∈ db.reservations.rows) :
    (db.usage.rows.countP fun u => u.reservationId = r.reservationId) =
      if r.status = .settled then 1 else 0 := by
  have hmeasures : ∀ u ∈ db.usage.rows, u.reservationId = r.reservationId → Measures u r := by
    intro u hu h
    obtain ⟨s, hs, hm⟩ := charged.usage u hu
    obtain rfl := Table.eq_of_mem hs hr (hm.reservation.symm.trans h)
    exact hm
  split
  · next settled =>
    obtain ⟨u, hu, hm⟩ := charged.measured r hr settled
    refine countP_eq_one_of_unique (List.Nodup.of_map _ db.usage.unique) hu
      (by simpa using hm.reservation) fun v hv h => ?_
    have hv' := hmeasures v hv (by simpa using h)
    exact charged.once v hv u hu (hv'.owner.trans hm.owner.symm)
      (hv'.objective.trans hm.objective.symm)
  · next open_ =>
    rw [List.countP_eq_zero]
    intro u hu h
    exact open_ (hmeasures u hu (by simpa using h)).settled

/-- The empty tables charge nobody. -/
theorem Charged.initial (userProfiles : List String) : Charged (Billing.initial userProfiles) where
  named := by simp [Billing.initial]
  carried := by simp [Billing.initial]
  charge := by simp [Billing.initial]
  usage := by simp [Billing.initial]
  measured := by simp [Billing.initial]
  once := by simp [Billing.initial]

/-- The condition under which every objective is charged exactly once: no step, even one that raises
before it inserts, finds the ledger key that it generates taken by another writer's entry. -/
def KeysFree (userProfiles : List String) (steps : List (BillingCatalog × BillingOp)) : Prop :=
  RunMeets billingStep (fun db i => KeyFree db i.2) (Billing.initial userProfiles) steps

instance (userProfiles : List String) (steps : List (BillingCatalog × BillingOp)) :
    Decidable (KeysFree userProfiles steps) :=
  inferInstanceAs (Decidable (RunMeets _ _ _ _))

variable {userProfiles : List String} {steps : List (BillingCatalog × BillingOp)}

/-- Where generated keys are free, every reservation is charged and measured once. -/
theorem Charged.run (free : KeysFree userProfiles steps) :
    Charged (run billingStep (Billing.initial userProfiles) steps) :=
  run_invariant (fun _ ⟨_, _⟩ charged free => charged.step free) free
    (Charged.initial userProfiles)

/-- In every run whose steps find the ledger keys that they generate free, an objective is
charged exactly once: entries add up to the charge of each status, settled reservations and
only they have one usage row, a finished reservation never changes, replays change nothing,
and replays with other facts raise. -/
theorem billing_objective_charged_once (userProfiles : List String)
    (steps : List (BillingCatalog × BillingOp)) (free : KeysFree userProfiles steps) :
    let db := Magistrate.run billingStep (Billing.initial userProfiles) steps
    (∀ r ∈ db.reservations.rows, ChargeOf db r ∧
      (db.usage.rows.countP fun u => u.reservationId = r.reservationId) =
        if r.status = .settled then 1 else 0) ∧
    ∀ before i after, steps = before ++ i :: after →
      let s := Magistrate.run billingStep (Billing.initial userProfiles) before
      (∀ r ∈ s.reservations.rows, r.status ≠ .reserved → r ∈ db.reservations.rows) ∧
      (∀ owner objective now s', i.2 = .releaseObjective owner objective now →
        releaseObjective owner objective now s = .ok (true, s') →
        ∀ now', releaseObjective owner objective now' db = .ok (false, db)) ∧
      (∀ owner objective measured eventId now result s' facts,
        i.2 = .settleObjective owner objective measured eventId now →
        settleObjective i.1 owner objective measured eventId now s = .ok (result, s') →
        i.1.measuredCost measured = .ok facts →
        ∀ catalog objective' measured' eventId' now',
          objective' = objective ∨ eventId' = eventId →
          if objective' = objective ∧ eventId' = eventId ∧
              catalog.measuredCost measured' = .ok facts then
            ∃ r, settleObjective catalog owner objective' measured' eventId' now' db = .ok (r, db)
          else
            ∃ e, settleObjective catalog owner objective' measured' eventId' now' db = .error e) ∧
      (∀ owner objective amount key now result s',
        i.2 = .refundObjective owner objective amount key now →
        refundObjective owner objective amount key now s = .ok (result, s') →
        ∀ objective' amount' now',
          if objective' = objective ∧ amount' = amount then
            refundObjective owner objective' amount' key now' db = .ok (false, db)
          else ∃ e, refundObjective owner objective' amount' key now' db = .error e) := by
  intro db
  have charged : Charged db := Charged.run free
  refine ⟨fun r hr => ⟨charged.charge r hr, charged.countP_usage hr⟩, ?_⟩
  rintro before i after rfl
  intro s
  have hrun : db = Magistrate.run billingStep (billingStep s i) after := by
    simp only [db, run_append, run_cons, s]
  have later : Grows (billingStep s i) db := hrun ▸ run_grows _ after
  have grows : Grows s db := (billingStep_grows s i).trans later
  refine ⟨fun r hr done => grows.finished hr done, ?_, ?_, ?_⟩
  · intro owner objective now s' hop h now'
    have hstep : billingStep s i = s' := by simp [billingStep, hop, BillingOp.apply, h]
    exact ((isReleased_of_release h).grows (hstep ▸ later)).replay charged now'
  · intro owner objective measured eventId now result s' facts hop h cost catalog objective'
      measured' eventId' now' same
    have hstep : billingStep s i = s' := by simp [billingStep, hop, BillingOp.apply, h]
    have settled := (isSettled_of_settle h cost).grows (hstep ▸ later)
    split
    · next hsame =>
      obtain ⟨rfl, rfl, cost'⟩ := hsame
      exact settled.replay charged cost' now'
    · next hdiffers => exact settled.conflict charged same hdiffers now'
  · intro owner objective amount key now result s' hop h objective' amount' now'
    have hstep : billingStep s i = s' := by simp [billingStep, hop, BillingOp.apply, h]
    have refunded := (isRefunded_of_refund h).grows (hstep ▸ later)
    split
    · next hsame =>
      obtain ⟨rfl, rfl⟩ := hsame
      exact refunded.replay charged now'
    · next hdiffers => exact refunded.conflict hdiffers now'

end Runs

/-- The charge of a run that reserves, settles and refunds. -/
theorem billing_objective_charged_once_refundedRun :
    KeysFree ["user"] refundedRun ∧
      ∀ r ∈ (run billingStep (Billing.initial ["user"]) refundedRun).reservations.rows,
        ChargeOf (run billingStep (Billing.initial ["user"]) refundedRun) r :=
  have free : KeysFree ["user"] refundedRun := by decide
  ⟨free, fun r hr => ((billing_objective_charged_once ["user"] refundedRun free).1 r hr).1⟩

/-- A refund under a key that a later reservation generates. -/
def collidingRun : List (BillingCatalog × BillingOp) :=
  [.reserveObjective "user" "first" "one" 1704067200,
   .settleObjective "user" "first" shortUsage "event" 1704067201,
   .refundObjective "user" "first" 5 "reserve:two" 1704067202,
   .reserveObjective "user" "second" "two" 1704067203].map (Shipped.activated, ·)

/-- After a refund under the key of a later reservation, that reservation is held and taken from
the balance, and no ledger entry charges it. -/
theorem billing_objective_uncharged :
    ∃ r ∈ (run billingStep (Billing.initial ["user"]) collidingRun).reservations.rows,
      r.status = .reserved ∧ r.estimatedMicrocredits = 100000000 ∧
        (run billingStep (Billing.initial ["user"]) collidingRun).charged r.reservationId = 0 := by
  decide

end Magistrate
