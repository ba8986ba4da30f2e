import Magistrate.Gateway.Billing.Accounting
import Magistrate.Gateway.Billing.Shipped

/-!
# Conservation of credits

In every reachable state each account row says what the ledger and the
reservations add up to, and each ledger entry carries the running balance. The
generated ledger keys are accounted for, so no write of a balance goes without
its entry.
-/

namespace Magistrate

open CreditLedger StripeWebhookProcessor

/-- What is kept for ever: reservations, finished ones as they are, and every row of the ledger,
of the usage and of the events. -/
structure Grows (db db' : Billing) : Prop where
  reservation : ∀ r ∈ db.reservations.rows, ∃ r' ∈ db'.reservations.rows,
    r'.reservationId = r.reservationId ∧ r'.ownerUserId = r.ownerUserId ∧
      r'.objectiveId = r.objectiveId ∧ r'.idempotencyKey = r.idempotencyKey ∧
      r'.estimatedMicrocredits = r.estimatedMicrocredits ∧ (r.status ≠ .reserved → r' = r)
  ledger : ∀ e ∈ db.ledger.rows, e ∈ db'.ledger.rows
  usage : ∀ u ∈ db.usage.rows, u ∈ db'.usage.rows
  events : ∀ e ∈ db.webhookEvents.rows, e ∈ db'.webhookEvents.rows

namespace Grows

variable {db db' db'' : Billing}

/-- A larger ledger beside unchanged tables. -/
theorem of_eq (hledger : ∀ e ∈ db.ledger.rows, e ∈ db'.ledger.rows)
    (hreservations : db'.reservations = db.reservations) (husage : db'.usage = db.usage)
    (hevents : db'.webhookEvents = db.webhookEvents) : Grows db db' where
  reservation r hr := ⟨r, by rwa [hreservations], rfl, rfl, rfl, rfl, rfl, fun _ => rfl⟩
  ledger := hledger
  usage u hu := by rwa [husage]
  events e he := by rwa [hevents]

theorem refl (db : Billing) : Grows db db := .of_eq (fun _ he => he) rfl rfl rfl

theorem trans (h : Grows db db') (h' : Grows db' db'') : Grows db db'' where
  reservation r hr := by
    obtain ⟨r', hr', hid, howner, hobj, hkey, hest, hdone⟩ := h.reservation r hr
    obtain ⟨r'', hr'', hid', howner', hobj', hkey', hest', hdone'⟩ := h'.reservation r' hr'
    refine ⟨r'', hr'', hid'.trans hid, howner'.trans howner, hobj'.trans hobj, hkey'.trans hkey,
      hest'.trans hest, fun done => ?_⟩
    obtain rfl := hdone done
    exact hdone' done
  ledger e he := h'.ledger e (h.ledger e he)
  usage u hu := h'.usage u (h.usage u hu)
  events e he := h'.events e (h.events e he)

/-- A held reservation may be finished, every other one is kept. -/
theorem of_finish {r : CreditReservation} {g : CreditReservation → CreditReservation}
    (hg : ∀ r, (g r).reservationId = r.reservationId)
    (hledger : ∀ e ∈ db.ledger.rows, e ∈ db'.ledger.rows) (stored : r ∈ db.reservations.rows)
    (held : r.status = .reserved)
    (hreservations : db'.reservations = db.reservations.update r.reservationId g hg)
    (hfields : (g r).ownerUserId = r.ownerUserId ∧ (g r).objectiveId = r.objectiveId ∧
      (g r).idempotencyKey = r.idempotencyKey ∧
      (g r).estimatedMicrocredits = r.estimatedMicrocredits)
    (husage : ∀ u ∈ db.usage.rows, u ∈ db'.usage.rows)
    (hevents : db'.webhookEvents = db.webhookEvents) : Grows db db' where
  reservation s hs := by
    by_cases h : s.reservationId = r.reservationId
    · obtain rfl := Table.eq_of_mem hs stored h
      obtain ⟨howner, hobj, hkey, hest⟩ := hfields
      refine ⟨g s, ?_, hg s, howner, hobj, hkey, hest, fun done => absurd held done⟩
      rw [hreservations]
      exact Table.mem_update.mpr ⟨s, hs, by simp⟩
    · refine ⟨s, ?_, rfl, rfl, rfl, rfl, rfl, fun _ => rfl⟩
      rw [hreservations]
      exact Table.mem_update.mpr ⟨s, hs, by simp [h]⟩
  ledger := hledger
  usage := husage
  events e he := by rwa [hevents]

/-- A key with a reservation keeps one. -/
theorem reservationForKey (h : Grows db db') {owner key : String}
    (hfound : db.reservationForKey owner key ≠ none) :
    db'.reservationForKey owner key ≠ none := by
  simp only [Billing.reservationForKey, ne_eq, List.find?_eq_none, decide_eq_true_eq,
    not_forall, not_not] at hfound ⊢
  obtain ⟨r, hr, howner, hkey⟩ := hfound
  obtain ⟨r', hr', -, howner', -, hkey', -⟩ := h.reservation r hr
  exact ⟨r', hr', howner'.trans howner, hkey'.trans hkey⟩

/-- A released reservation stays released. -/
theorem released (h : Grows db db') {id : String}
    (hfound : ∃ r, db.reservations.find? id = some r ∧ r.status = .released) :
    ∃ r, db'.reservations.find? id = some r ∧ r.status = .released := by
  obtain ⟨r, hr, hstatus⟩ := hfound
  obtain ⟨hm, rfl⟩ := Table.mem_of_find? hr
  obtain ⟨r', hm', -, -, -, -, -, hdone⟩ := h.reservation r hm
  obtain rfl := hdone (by simp [hstatus])
  exact ⟨r', Table.find?_of_mem hm', hstatus⟩

/-- A charged event stays charged. -/
theorem usage_ne_none (h : Grows db db') {key : String × String}
    (hfound : db.usage.find? key ≠ none) : db'.usage.find? key ≠ none := by
  obtain ⟨u, hu⟩ := Option.ne_none_iff_exists'.mp hfound
  obtain ⟨hm, rfl⟩ := Table.mem_of_find? hu
  simp [Table.find?_of_mem (h.usage u hm)]

/-- A recorded event stays recorded. -/
theorem event_ne_none (h : Grows db db') {id : String}
    (hfound : db.webhookEvents.find? id ≠ none) : db'.webhookEvents.find? id ≠ none := by
  obtain ⟨e, he⟩ := Option.ne_none_iff_exists'.mp hfound
  obtain ⟨hm, rfl⟩ := Table.mem_of_find? he
  simp [Table.find?_of_mem (h.events e hm)]

end Grows

section Moves

variable {catalog : BillingCatalog} {op : BillingOp} {db db' : Billing}

/-- Movements keep reservations, entries, usage and events. -/
theorem Move.grows (h : Move catalog op db db') : Grows db db' := by
  have hledger : ∀ e ∈ db.ledger.rows, e ∈ db'.ledger.rows := by
    obtain ⟨who, p, entry, effect⟩ := h.effect
    intro e he
    rw [effect.ledger]
    cases entry with
    | none => exact he
    | some new => exact Table.mem_insertOrIgnore_of_mem he
  cases h with
  | insertAccount | monthlyGrant | refund | topup | invoicePaid | touchAccount | recordCheckout =>
    exact .of_eq hledger rfl rfl rfl
  | reserve row plan reservation =>
    exact ⟨fun r hr => ⟨r, Table.mem_insertOrIgnore_of_mem hr, rfl, rfl, rfl, rfl, rfl,
      fun _ => rfl⟩, hledger, fun _ hu => hu, fun _ he => he⟩
  | release row reservation source found held =>
    exact .of_finish (g := released _) (fun _ => rfl) hledger (of_reservationOf found).1 held rfl
      ⟨rfl, rfl, rfl, rfl⟩ (fun _ hu => hu) rfl
  | settle row reservation usage actual source cost found held =>
    exact .of_finish (g := settled _ _ _) (fun _ => rfl) hledger (of_reservationOf found).1 held
      rfl ⟨rfl, rfl, rfl, rfl⟩ (fun _ hu => Table.mem_insertOrIgnore_of_mem hu) rfl
  | purchase | recordEvent =>
    exact ⟨fun r hr => ⟨r, hr, rfl, rfl, rfl, rfl, rfl, fun _ => rfl⟩, hledger, fun _ hu => hu,
      fun _ he => Table.mem_insertOrIgnore_of_mem he⟩

/-- A committed step keeps them. -/
theorem billingStep_grows (db : Billing) (i : BillingCatalog × BillingOp) :
    Grows db (billingStep db i) :=
  (billingStep_moves i.1 i.2 db).preserve (I := fun db' => Grows db db')
    (fun move grows => grows.trans move.grows) (.refl db)

/-- A run keeps them. -/
theorem run_grows (db : Billing) (steps : List (BillingCatalog × BillingOp)) :
    Grows db (run billingStep db steps) :=
  run_monotone Grows.refl (fun _ _ _ => Grows.trans) billingStep_grows db steps

/-- Offering an entry keeps the books accounted if the entry is. -/
theorem Accounted.insert {e : LedgerEntry} (accounted : Accounted db) (grows : Grows db db')
    (hledger : db'.ledger = db.ledger.insertOrIgnore e)
    (hreserve : ∀ key, e.idempotencyKey = ledgerKey .reserve key →
      db'.reservationForKey e.ownerUserId key ≠ none)
    (hrelease : ∀ id, e.idempotencyKey = ledgerKey .release id →
      ∃ r, db'.reservations.find? id = some r ∧ r.status = .released)
    (hsettle : ∀ event, e.idempotencyKey = ledgerKey .settle event →
      db'.usage.find? (e.ownerUserId, event) ≠ none)
    (hstripe : ∀ event, e.idempotencyKey = ledgerKey .stripe event →
      db'.webhookEvents.find? event ≠ none) : Accounted db' := by
  have hsplit : ∀ {owner key}, db'.ledger.find? (owner, key) ≠ none →
      db.ledger.find? (owner, key) ≠ none ∨ e.ownerUserId = owner ∧ e.idempotencyKey = key := by
    intro owner key h
    rw [hledger, Table.find?_insertOrIgnore] at h
    by_cases hk : e.key = (owner, key)
    · exact .inr (by simpa [LedgerEntry.key] using hk)
    · exact .inl (by simpa [hk] using h)
  refine ⟨fun owner key h => ?_, fun owner id h => ?_, fun owner event h => ?_,
    fun owner event h => ?_⟩
  · rcases hsplit h with h | ⟨rfl, hk⟩
    · exact grows.reservationForKey (accounted.reserve _ _ h)
    · exact hreserve _ hk
  · rcases hsplit h with h | ⟨rfl, hk⟩
    · exact grows.released (accounted.release _ _ h)
    · exact hrelease _ hk
  · rcases hsplit h with h | ⟨rfl, hk⟩
    · exact grows.usage_ne_none (accounted.settle _ _ h)
    · exact hsettle _ hk
  · rcases hsplit h with h | ⟨rfl, hk⟩
    · exact grows.event_ne_none (accounted.stripe _ _ h)
    · exact hstripe _ hk

/-- Without a new entry the books stay accounted. -/
theorem Accounted.of_ledger_eq (accounted : Accounted db) (grows : Grows db db')
    (hledger : db'.ledger = db.ledger) : Accounted db' where
  reserve owner key h := grows.reservationForKey (accounted.reserve owner key (hledger ▸ h))
  release owner id h := grows.released (accounted.release owner id (hledger ▸ h))
  settle owner event h := grows.usage_ne_none (accounted.settle owner event (hledger ▸ h))
  stripe owner event h := grows.event_ne_none (accounted.stripe owner event (hledger ▸ h))

/-- Offering an entry under a key outside the tracked families keeps the books accounted. -/
theorem Accounted.insert_untracked {e : LedgerEntry} (accounted : Accounted db)
    (grows : Grows db db') (hledger : db'.ledger = db.ledger.insertOrIgnore e)
    (hkey : callerKey e.idempotencyKey ∨ ∃ name, e.idempotencyKey = ledgerKey .included name) :
    Accounted db' := by
  have hne : ∀ family name, family ≠ KeyFamily.included →
      e.idempotencyKey ≠ ledgerKey family name := by
    intro family name hfamily
    rcases hkey with hkey | ⟨included, hkey⟩
    · exact ne_ledgerKey_of_callerKey hkey family name
    · rw [hkey, ne_eq, ledgerKey_inj]
      exact fun h => hfamily h.1.symm
  exact accounted.insert grows hledger (fun _ h => absurd h (hne _ _ (by decide)))
    (fun _ h => absurd h (hne _ _ (by decide))) (fun _ h => absurd h (hne _ _ (by decide)))
    (fun _ h => absurd h (hne _ _ (by decide)))

/-- Movements keep the books accounted, as long as callers keep to their own keys. -/
theorem Move.accounted (h : Move catalog op db db') (keys : op.CallerKeys)
    (accounted : Accounted db) : Accounted db' := by
  have grows := h.grows
  cases h with
  | insertAccount | touchAccount | recordEvent | recordCheckout =>
    exact accounted.of_ledger_eq grows rfl
  | monthlyGrant row plan now =>
    exact accounted.insert_untracked grows rfl (.inr ⟨_, rfl⟩)
  | invoicePaid row plan subscriptionId event =>
    exact accounted.insert_untracked grows rfl (.inr ⟨_, rfl⟩)
  | refund row reservation actual source =>
    subst source
    exact accounted.insert_untracked grows rfl (.inl keys)
  | topup row source =>
    subst source
    exact accounted.insert_untracked grows rfl (.inl keys)
  | reserve row plan reservation source new account onPlan freeId =>
    refine accounted.insert grows rfl ?_ ?_ ?_ ?_
    · intro key hkey
      obtain rfl := (ledgerKey_inj.mp hkey).2
      simp only [Billing.reservationForKey, ne_eq, List.find?_eq_none, decide_eq_true_eq,
        not_forall, not_not]
      refine ⟨reservation, ?_, rfl, rfl⟩
      rw [Table.rows_insertOrIgnore freeId]
      exact List.mem_append_right _ (List.mem_singleton_self _)
    all_goals exact fun _ hkey => absurd (ledgerKey_inj.mp hkey).1 (by decide)
  | @release owner objective now row reservation source found held account =>
    refine accounted.insert grows rfl ?_ ?_ ?_ ?_
    case refine_2 =>
      intro id hkey
      obtain rfl := (ledgerKey_inj.mp hkey).2
      refine ⟨released now reservation, ?_, rfl⟩
      rw [Table.find?_update_self, Table.find?_of_mem (of_reservationOf found).1]
      rfl
    all_goals exact fun _ hkey => absurd (ledgerKey_inj.mp hkey).1 (by decide)
  | settle row reservation usage actual source cost found held account freeEvent =>
    obtain ⟨-, rfl, -⟩ := of_reservationOf found
    refine accounted.insert grows rfl ?_ ?_ ?_ ?_
    case refine_3 =>
      intro event hkey
      obtain rfl := (ledgerKey_inj.mp hkey).2
      rw [Table.find?_insertOrIgnore]
      simp [UsageRow.key, usageRow, settlementEntry]
    all_goals exact fun _ hkey => absurd (ledgerKey_inj.mp hkey).1 (by decide)
  | purchase row pack event digest fresh account =>
    refine accounted.insert grows rfl ?_ ?_ ?_ ?_
    case refine_4 =>
      intro id hkey
      obtain rfl := (ledgerKey_inj.mp hkey).2
      rw [Table.find?_insertOrIgnore]
      simp [eventRow]
    all_goals exact fun _ hkey => absurd (ledgerKey_inj.mp hkey).1 (by decide)

/-- Entries carry the balance that the earlier ones and they themselves add up to. -/
def RunningBalances (entries : List LedgerEntry) : Prop :=
  ∀ before e after, entries = before ++ e :: after →
    e.balanceAfterMicrocredits = (before.map (·.amountMicrocredits)).sum + e.amountMicrocredits

/-- An entry with the right balance extends running balances. -/
theorem RunningBalances.append {entries : List LedgerEntry} {e : LedgerEntry}
    (h : RunningBalances entries)
    (he : e.balanceAfterMicrocredits =
      (entries.map (·.amountMicrocredits)).sum + e.amountMicrocredits) :
    RunningBalances (entries ++ [e]) := by
  intro before e' after hsplit
  rcases List.eq_nil_or_concat after with rfl | ⟨after, last, rfl⟩
  · obtain ⟨rfl, heq⟩ := List.append_inj' hsplit rfl
    obtain rfl : e = e' := by simpa using heq
    exact he
  · have hs : entries ++ [e] = (before ++ e' :: after) ++ [last] := by
      simpa [List.concat_eq_append] using hsplit
    obtain ⟨rfl, -⟩ := List.append_inj' hs rfl
    exact h before e' after rfl

/-- What the tables of every reachable state say about the owners' credits. -/
structure Books (db : Billing) : Prop where
  /-- Generated keys are accounted for. -/
  accounted : Accounted db
  /-- Free credits are what the ledger adds up to. -/
  available : ∀ owner, (db.wallet owner).available = db.ledgerTotal owner
  /-- Held credits are what the reservations hold. -/
  reserved : ∀ owner, (db.wallet owner).reserved = db.reservedTotal owner
  /-- Every entry carries its running balance. -/
  running : ∀ owner, RunningBalances (db.entries owner)

/-- The entries of an owner after an entry is offered under a free key. -/
theorem Billing.entries_insert {e : LedgerEntry} (hledger : db'.ledger = db.ledger.insertOrIgnore e)
    (free : db.ledger.find? e.key = none) (owner : String) :
    db'.entries owner = db.entries owner ++ if e.ownerUserId = owner then [e] else [] := by
  simp only [Billing.entries, hledger, Table.rows_insertOrIgnore free, List.filter_append]
  by_cases h : e.ownerUserId = owner <;> simp [h]

/-- The empty books are in order. -/
theorem Books.initial (userProfiles : List String) : Books (Billing.initial userProfiles) where
  accounted := ⟨by simp [Billing.initial], by simp [Billing.initial], by simp [Billing.initial],
    by simp [Billing.initial]⟩
  available _ := rfl
  reserved _ := rfl
  running owner before e after h := by simp [Billing.initial, Billing.entries] at h

/-- A movement keeps the books, as long as callers keep to their own keys. -/
theorem Books.move (books : Books db) (h : Move catalog op db db') (keys : op.CallerKeys) :
    Books db' := by
  obtain ⟨who, p, entry, effect⟩ := h.effect
  have accounted := h.accounted keys books.accounted
  have available (owner : String) : (db'.wallet owner).available =
      (db.wallet owner).available + if owner = who then p.amount else 0 := by
    rw [effect.wallet]
    split
    · exact Posting.available_apply p _
    · exact (add_zero _).symm
  have reserved (owner : String) : (db'.wallet owner).reserved = db'.reservedTotal owner := by
    rw [effect.wallet, effect.reservedTotal, ← books.reserved]
    split
    · exact Posting.reserved_apply p _
    · exact (add_zero _).symm
  by_cases free : ∀ e ∈ entry, db.ledger.find? e.key = none
  · cases entry with
    | none =>
      have hentries (owner : String) : db'.entries owner = db.entries owner := by
        simp only [Billing.entries, effect.ledger, Option.elim_none]
      refine ⟨accounted, fun owner => ?_, reserved, fun owner => ?_⟩
      · have hamount : p.amount = 0 := effect.amount free
        simp [available, hamount, books.available, Billing.ledgerTotal, hentries]
      · rw [hentries]
        exact books.running owner
    | some e =>
      have hentries := Billing.entries_insert effect.ledger (free e rfl)
      have howner : e.ownerUserId = who := effect.owned e rfl
      refine ⟨accounted, fun owner => ?_, reserved, fun owner => ?_⟩
      · have hamount : p.amount = e.amountMicrocredits := effect.amount free
        simp only [available, books.available, Billing.ledgerTotal, hentries, hamount, howner,
          List.map_append, List.sum_append]
        by_cases h : owner = who
        · simp [h]
        · simp [h, Ne.symm h]
      · rw [hentries, howner]
        split
        · next h =>
          subst h
          refine (books.running _).append ?_
          rw [effect.balance e rfl, books.available, Billing.ledgerTotal]
        · simpa using books.running owner
  · obtain ⟨e, he, taken⟩ : ∃ e ∈ entry, db.ledger.find? e.key ≠ none := by
      simpa using free
    obtain rfl : entry = some e := he
    have hledger : db'.ledger = db.ledger := by
      rw [effect.ledger, Option.elim_some, Table.insertOrIgnore_of_ne_none taken]
    have hentries (owner : String) : db'.entries owner = db.entries owner := by
      simp only [Billing.entries, hledger]
    have hamount : p.amount = 0 := effect.taken books.accounted keys e rfl taken
    refine ⟨accounted, fun owner => ?_, reserved, fun owner => ?_⟩
    · simp [available, hamount, books.available, Billing.ledgerTotal, hentries]
    · rw [hentries]
      exact books.running owner

end Moves

section Runs

variable {userProfiles : List String} {steps : List (BillingCatalog × BillingOp)}

/-- A committed step keeps the books. -/
theorem Books.step {db : Billing} {i : BillingCatalog × BillingOp} (books : Books db)
    (keys : i.2.CallerKeys) : Books (billingStep db i) :=
  (billingStep_moves i.1 i.2 db).preserve (fun move h => h.move move keys) books

/-- The books of every reachable state are in order. -/
theorem Books.run (keys : ∀ i ∈ steps, i.2.CallerKeys) :
    Books (run billingStep (Billing.initial userProfiles) steps) := by
  refine run_invariant (C := fun _ i => i.2.CallerKeys) (fun _ _ books keys => books.step keys) ?_
    (Books.initial userProfiles)
  exact runMeets_of_mem keys _

/-- Credits are conserved in every reachable state: account rows agree with the ledger and
with the held reservations, entries carry running balances, and a raise changes nothing. -/
theorem billing_credits_conserved (userProfiles : List String)
    (steps : List (BillingCatalog × BillingOp)) (keys : ∀ i ∈ steps, i.2.CallerKeys) :
    let db := run billingStep (Billing.initial userProfiles) steps
    (∀ a ∈ db.accounts.rows, a.availableMicrocredits = db.ledgerTotal a.ownerUserId ∧
      a.reservedMicrocredits = db.reservedTotal a.ownerUserId) ∧
    (∀ owner, RunningBalances (db.entries owner)) ∧
    ∀ catalog op error, BillingOp.apply catalog db op = .error error →
      billingStep db (catalog, op) = db := by
  intro db
  have books : Books db := Books.run keys
  refine ⟨fun a ha => ?_, books.running, fun catalog op error h => ?_⟩
  · have hwallet := Billing.wallet_of_find? (Table.find?_of_mem ha)
    have havailable := books.available a.ownerUserId
    have hreserved := books.reserved a.ownerUserId
    rw [hwallet] at havailable hreserved
    exact ⟨havailable, hreserved⟩
  · simp [billingStep, h]

end Runs

/-- An execution that is reserved, charged and partly refunded. -/
def refundedRun : List (BillingCatalog × BillingOp) :=
  [.reserveObjective "user" "objective" "key" 1704067200,
   .settleObjective "user" "objective" shortUsage "event" 1704067201,
   .refundObjective "user" "objective" 5 "correction" 1704067202].map (Shipped.activated, ·)

/-- Conservation on a run that reserves, settles and refunds. -/
theorem billing_credits_conserved_refundedRun :
    let db := run billingStep (Billing.initial ["user"]) refundedRun
    (db.wallet "user").available = 499831205 ∧
      ∀ a ∈ db.accounts.rows, a.availableMicrocredits = db.ledgerTotal a.ownerUserId ∧
        a.reservedMicrocredits = db.reservedTotal a.ownerUserId :=
  ⟨by decide, (billing_credits_conserved ["user"] refundedRun (by decide)).1⟩

end Magistrate
