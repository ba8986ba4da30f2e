import Magistrate.Gateway.Billing.Conservation
import Magistrate.Gateway.Billing.Spend

/-!
# Paid checkouts

A paid checkout of a credit pack is posted under the id of the event that reports
it, and its entry and its balance are written together. An event is applied once;
a session is, as long as one event id reports it.
-/

namespace Magistrate

open CreditLedger StripeWebhookProcessor

/-- A delivery that reports the paid checkout of a credit pack on sale, under a new event id. -/
structure Purchase (db : Billing) (i : BillingCatalog × BillingOp) where
  delivery : WebhookDelivery
  now : ℤ
  event : StripeEvent
  session : CheckoutSession
  pack : CreditPack
  source : i.2 = .process delivery now
  verified : delivery.event = .ok event
  paid : isPurchase event = true
  fresh : db.webhookEvents.find? event.id = none
  bound : (event.object.get "id").str?.bind db.checkoutSessions.find? = some session
  kind : session.kind = .creditPack
  sold : i.1.packs.find? session.catalogId = some pack
  /-- The buyer's account can be read. -/
  readable : ∃ row mid, account i.1 session.ownerUserId now db = .ok (row, mid)

/-- A step adds a topup entry. -/
structure AddsTopup (db : Billing) (i : BillingCatalog × BillingOp) (e : LedgerEntry) : Prop where
  added : e ∈ (billingStep db i).ledger.rows
  new : e ∉ db.ledger.rows
  topup : e.entryType = .topup

section Steps

variable {catalog : BillingCatalog} {i : BillingCatalog × BillingOp} {owner : String}
  {event : StripeEvent} {digest : String} {now : ℤ} {row : BillingAccount} {db mid db' : Billing}

/-- Reading an account adds the grant of its month at most. -/
theorem account_ledger (h : account catalog owner now db = .ok (row, mid)) :
    ∀ e ∈ mid.ledger.rows, e ∈ db.ledger.rows ∨
      e.entryType = .includedGrant ∧ ∃ name, e.idempotencyKey = ledgerKey .included name := by
  have hopen {opened : BillingAccount} {mid : Billing}
      (h : openAccount catalog owner now db = .ok (opened, mid)) : mid.ledger = db.ledger := by
    unfold openAccount at h
    split at h
    · obtain ⟨-, rfl⟩ : _ = opened ∧ db = mid := by simpa using h
      rfl
    · simp only [bind_eq_ok, raiseIf_eq_ok, pure_eq_ok, Prod.mk.injEq] at h
      obtain ⟨-, -, -, rfl⟩ := h
      rfl
  unfold CreditLedger.account at h
  simp only [bind_eq_ok, Prod.exists] at h
  obtain ⟨opened, read, ho, h⟩ := h
  intro e he
  split at h
  · simp at h
  · next plan _ =>
    rw [pure_eq_ok] at h
    rcases monthlyGrant_cases opened plan now read with hnone | ⟨-, hgrant⟩
    · obtain ⟨-, rfl⟩ := Prod.mk.inj (hnone.symm.trans h)
      exact .inl (hopen ho ▸ he)
    · obtain ⟨-, rfl⟩ := Prod.mk.inj (hgrant.symm.trans h)
      rcases Table.mem_insertOrIgnore he with he | ⟨-, rfl⟩
      · exact .inl (hopen ho ▸ he)
      · exact .inr ⟨rfl, _, rfl⟩

/-- A recorded purchase is one of a session on sale, and posts its pack. -/
theorem purchase_recorded (h : purchase catalog event now (recordEvent event digest now db) =
      .ok db') :
    ∃ session pack row mid,
      (event.object.get "id").str?.bind db.checkoutSessions.find? = some session ∧
      session.kind = .creditPack ∧ catalog.packs.find? session.catalogId = some pack ∧
      account catalog session.ownerUserId now db = .ok (row, mid) := by
  unfold purchase at h
  split at h
  · simp at h
  · next session bound =>
    simp only [bind_eq_ok, raiseIf_eq_ok, exists_const, not_not] at h
    obtain ⟨kind, h⟩ := h
    split at h
    · simp at h
    · next pack sold =>
      simp only [bind_eq_ok, Prod.exists, account_recordEvent] at h
      obtain ⟨row, recorded, hacc, -⟩ := h
      cases hread : account catalog session.ownerUserId now db with
      | error e => simp [hread, Except.map] at hacc
      | ok result => exact ⟨session, pack, result.1, result.2, bound, kind, sold, hread⟩

/-- A subscription event adds the grant of its account's month at most. -/
theorem subscription_ledger (h : subscription catalog event now db = .ok db') :
    ∀ e ∈ db'.ledger.rows, e ∈ db.ledger.rows ∨ e.entryType = .includedGrant := by
  simp only [subscription, bind_eq_ok, Prod.exists] at h
  obtain ⟨owner, subscriptionId, -, plan, -, row, mid, hacc, h⟩ := h
  intro e he
  refine (account_ledger hacc e ?_).imp_right (·.1)
  split at h
  · rw [pure_eq_ok] at h
    exact h ▸ he
  · simp only [bind_eq_ok, raiseIf_eq_ok, pure_eq_ok, exists_const] at h
    obtain ⟨-, -, rfl⟩ := h
    exact he

/-- An invoice event adds the grant of its period at most. -/
theorem invoice_ledger (h : invoice catalog event now db = .ok db') :
    ∀ e ∈ db'.ledger.rows, e ∈ db.ledger.rows ∨ e.entryType = .includedGrant := by
  intro e he
  unfold invoice at h
  split at h
  · exact .inl (Except.ok.inj h ▸ he)
  · split at h
    · simp at h
    · split at h
      · exact .inl (Except.ok.inj h ▸ he)
      · split at h
        · simp at h
        · split at h
          · simp at h
          · split at h
            · exact .inl (by simpa [← Except.ok.inj h] using he)
            · obtain rfl := Except.ok.inj h
              rcases Table.mem_insertOrIgnore he with he | ⟨-, rfl⟩
              · exact .inl he
              · exact .inr rfl

/-- A purchase posts the pack of its session. -/
theorem purchase_of_account {session : CheckoutSession} {pack : CreditPack}
    (bound : (event.object.get "id").str?.bind db.checkoutSessions.find? = some session)
    (kind : session.kind = .creditPack) (sold : catalog.packs.find? session.catalogId = some pack)
    (h : account catalog session.ownerUserId now db = .ok (row, mid)) :
    purchase catalog event now db = .ok { mid with
      ledger := mid.ledger.insertOrIgnore
        (topupEntry row (microcredits pack.credits) (ledgerKey .stripe event.id) "stripe" now)
      accounts := mid.accounts.update session.ownerUserId
        (afterTopup (row.availableMicrocredits + microcredits pack.credits) now) } := by
  rw [purchase, bound]
  show (raiseIf (session.kind ≠ .creditPack) _ >>= fun _ => _) = _
  rw [raiseIf_ok (not_not.mpr kind), ok_bind, sold]
  show (CreditLedger.account catalog session.ownerUserId now db >>= fun _ => _) = _
  rw [h]
  rfl

/-- An applied purchase records its event, offers its entry and writes the buyer's balance. -/
theorem Purchase.step (p : Purchase db i)
    (h : account i.1 p.session.ownerUserId p.now db = .ok (row, mid)) :
    billingStep db i = { mid with
      webhookEvents :=
        mid.webhookEvents.insertOrIgnore (eventRow p.event p.delivery.payloadSha256 p.now)
      ledger := mid.ledger.insertOrIgnore (topupEntry row (microcredits p.pack.credits)
        (ledgerKey .stripe p.event.id) "stripe" p.now)
      accounts := mid.accounts.update p.session.ownerUserId
        (afterTopup (row.availableMicrocredits + microcredits p.pack.credits) p.now) } := by
  have hrecorded : account i.1 p.session.ownerUserId p.now
      (recordEvent p.event p.delivery.payloadSha256 p.now db) =
        .ok (row, recordEvent p.event p.delivery.payloadSha256 p.now mid) := by
    rw [account_recordEvent, h]
    rfl
  have hbound : (p.event.object.get "id").str?.bind
      (recordEvent p.event p.delivery.payloadSha256 p.now db).checkoutSessions.find? =
        some p.session := p.bound
  have hdispatch := purchase_of_account hbound p.kind p.sold hrecorded
  simp only [billingStep, BillingOp.apply, p.source, process, p.verified, p.fresh, ok_bind,
    dispatch, p.paid, if_true, hdispatch]
  rfl

/-- Purchases add their entry, and no other topup. -/
theorem Purchase.addsTopup_iff (p : Purchase db i) (accounted : Accounted db)
    (h : account i.1 p.session.ownerUserId p.now db = .ok (row, mid)) {e : LedgerEntry} :
    AddsTopup db i e ↔ e = topupEntry row (microcredits p.pack.credits)
      (ledgerKey .stripe p.event.id) "stripe" p.now := by
  have hunposted : ∀ e ∈ db.ledger.rows, e.idempotencyKey ≠ ledgerKey .stripe p.event.id := by
    intro e he hkey
    refine accounted.stripe e.ownerUserId p.event.id ?_ p.fresh
    rw [← hkey]
    exact Option.ne_none_iff_exists'.mpr ⟨e, Table.find?_of_mem he⟩
  have hfree : ∀ e ∈ mid.ledger.rows, e.idempotencyKey ≠ ledgerKey .stripe p.event.id := by
    intro e he
    rcases account_ledger h e he with he | ⟨-, name, hkey⟩
    · exact hunposted e he
    · rw [hkey, ne_eq, ledgerKey_inj]
      exact fun h => absurd h.1 (by decide)
  constructor
  · rintro ⟨added, new, topup⟩
    rw [p.step h] at added
    rcases Table.mem_insertOrIgnore added with he | ⟨-, he⟩
    · rcases account_ledger h e he with he | ⟨hgrant, -⟩
      · exact absurd he new
      · exact absurd (topup.symm.trans hgrant) (by decide)
    · exact he
  · rintro rfl
    refine ⟨?_, fun he => hunposted _ he rfl, rfl⟩
    rw [p.step h]
    refine Table.mem_insertOrIgnore_self ?_
    by_contra hne
    obtain ⟨e, he⟩ := Option.ne_none_iff_exists'.mp hne
    obtain ⟨stored, hkey⟩ := Table.mem_of_find? he
    exact hfree e stored (congrArg Prod.snd hkey)

/-- A purchase raises the buyer's balance by its pack, and no other balance. -/
theorem Purchase.wallet (p : Purchase db i)
    (h : account i.1 p.session.ownerUserId p.now db = .ok (row, mid)) (owner : String) :
    ((billingStep db i).wallet owner).available = (mid.wallet owner).available +
      if owner = p.session.ownerUserId then (microcredits p.pack.credits : ℤ) else 0 := by
  obtain ⟨-, account, -⟩ := account_moves i.2 h
  have hwritten : (billingStep db i).accounts = mid.accounts.update p.session.ownerUserId
      (afterTopup (row.availableMicrocredits + microcredits p.pack.credits) p.now) := by
    rw [p.step h]
  rw [Billing.wallet_update (f := afterTopup (row.availableMicrocredits +
    microcredits p.pack.credits) p.now) (fun _ => rfl) account hwritten owner]
  split
  · next howner =>
    rw [howner, Billing.wallet_of_find? account]
    rfl
  · exact (add_zero _).symm

/-- A delivery that applies no purchase adds no topup entry. -/
theorem process_ledger {delivery : WebhookDelivery} (source : i.2 = .process delivery now)
    (none : IsEmpty (Purchase db i)) (e : LedgerEntry) : ¬AddsTopup db i e := by
  rintro ⟨added, new, topup⟩
  have hkept : ∀ db' : Billing, i.2.apply i.1 db = .ok db' → e ∈ db'.ledger.rows →
      e ∈ db.ledger.rows := by
    intro db' h he
    have hadded : e.entryType ≠ .includedGrant := by simp [topup]
    rw [source, BillingOp.apply, stateOf_eq_ok] at h
    obtain ⟨status, h⟩ := h
    simp only [process, bind_eq_ok] at h
    obtain ⟨event, verified, h⟩ := h
    split at h
    · simp only [bind_eq_ok, raiseIf_eq_ok, pure_eq_ok, exists_const, Prod.mk.injEq] at h
      exact h.2.2 ▸ he
    · next fresh =>
      simp only [bind_eq_ok, pure_eq_ok, Prod.mk.injEq] at h
      obtain ⟨_, hdispatch, -, rfl⟩ := h
      unfold dispatch at hdispatch
      split at hdispatch
      · next paid =>
        obtain ⟨session, pack, row, mid, bound, kind, sold, hacc⟩ := purchase_recorded hdispatch
        exact (none.false ⟨delivery, now, event, session, pack, source, verified, paid, fresh,
          bound, kind, sold, row, mid, hacc⟩).elim
      · split at hdispatch
        · exact ((subscription_ledger hdispatch e he).resolve_right hadded)
        · split at hdispatch
          · exact ((invoice_ledger hdispatch e he).resolve_right hadded)
          · obtain rfl := Except.ok.inj hdispatch
            exact he
  exact new (commit_of (P := fun db' : Billing => e ∈ db'.ledger.rows → e ∈ db.ledger.rows) id hkept
    added)

end Steps

section Runs

/-- A position of a run at which a paid checkout is applied. -/
structure Credit (userProfiles : List String) (steps : List (BillingCatalog × BillingOp)) where
  before : List (BillingCatalog × BillingOp)
  i : BillingCatalog × BillingOp
  after : List (BillingCatalog × BillingOp)
  split : steps = before ++ i :: after
  purchase : Purchase (run billingStep (Billing.initial userProfiles) before) i

/-- In a run every paid session is credited once at most and as a whole; deliveries of recorded
events change nothing, and deliveries that raise leave no record. -/
structure CreditedOnce (userProfiles : List String) (steps : List (BillingCatalog × BillingOp)) :
    Prop where
  /-- A session raises a balance at one position at most. -/
  balance : ∀ c c' : Credit userProfiles steps,
    c.purchase.session.stripeSessionId = c'.purchase.session.stripeSessionId → c.before = c'.before
  /-- A session has one topup entry at most. -/
  entry : ∀ c c' : Credit userProfiles steps,
    c.purchase.session.stripeSessionId = c'.purchase.session.stripeSessionId →
    ∀ e e', AddsTopup (run billingStep (Billing.initial userProfiles) c.before) c.i e →
      AddsTopup (run billingStep (Billing.initial userProfiles) c'.before) c'.i e' → e = e'
  /-- The entry of a session and the increase of its buyer's balance go together. -/
  whole : ∀ c : Credit userProfiles steps,
    let db := run billingStep (Billing.initial userProfiles) c.before
    ∃ row mid e, account c.i.1 c.purchase.session.ownerUserId c.purchase.now db = .ok (row, mid) ∧
      (∀ e', AddsTopup db c.i e' ↔ e' = e) ∧
      e.amountMicrocredits = microcredits c.purchase.pack.credits ∧
      ∀ owner, ((billingStep db c.i).wallet owner).available = (mid.wallet owner).available +
        if owner = c.purchase.session.ownerUserId then e.amountMicrocredits else 0
  /-- No other delivery adds a topup. -/
  others : ∀ before i after, steps = before ++ i :: after →
    let db := run billingStep (Billing.initial userProfiles) before
    ∀ delivery now, i.2 = .process delivery now → IsEmpty (Purchase db i) →
      ∀ e, ¬AddsTopup db i e
  /-- A recorded event changes nothing, and raises when its bytes changed. -/
  recorded : ∀ before i after, steps = before ++ i :: after →
    let db := run billingStep (Billing.initial userProfiles) before
    ∀ delivery now event prior, i.2 = .process delivery now → delivery.event = .ok event →
      db.webhookEvents.find? event.id = some prior →
      billingStep db i = db ∧ process i.1 delivery now db =
        if prior.payloadSha256 = some delivery.payloadSha256 then .ok (.duplicate, db)
        else .error (billingError "webhook_conflict"
          "Stripe event id was reused with different bytes." 409)
  /-- A new event whose delivery raises stays new, and is dispatched when it is delivered again. -/
  raised : ∀ before i after, steps = before ++ i :: after →
    let db := run billingStep (Billing.initial userProfiles) before
    ∀ delivery now event error, i.2 = .process delivery now → delivery.event = .ok event →
      db.webhookEvents.find? event.id = none → process i.1 delivery now db = .error error →
      billingStep db i = db ∧ ∀ catalog now', process catalog delivery now' (billingStep db i) =
        (dispatch catalog event now' (recordEvent event delivery.payloadSha256 now' db)).map
          (WebhookStatus.processed, ·)

variable {userProfiles : List String} {steps : List (BillingCatalog × BillingOp)}

/-- Movements record events with the digest of their bytes. -/
theorem Move.digests {catalog : BillingCatalog} {op : BillingOp} {db db' : Billing}
    (h : Move catalog op db db')
    (digests : ∀ r ∈ db.webhookEvents.rows, r.payloadSha256 ≠ none) :
    ∀ r ∈ db'.webhookEvents.rows, r.payloadSha256 ≠ none := by
  cases h with
  | recordEvent event digest now =>
    intro r hr
    rcases Table.mem_insertOrIgnore hr with hr | ⟨-, rfl⟩
    · exact digests r hr
    · simp [eventRow]
  | purchase row pack event digest fresh account =>
    intro r hr
    rcases Table.mem_insertOrIgnore hr with hr | ⟨-, rfl⟩
    · exact digests r hr
    · simp [eventRow]
  | _ => exact digests

/-- Every recorded event has the digest of its bytes. -/
theorem run_digests (userProfiles : List String) (steps : List (BillingCatalog × BillingOp)) :
    ∀ r ∈ (run billingStep (Billing.initial userProfiles) steps).webhookEvents.rows,
      r.payloadSha256 ≠ none :=
  run_invariant' (I := fun db : Billing => ∀ r ∈ db.webhookEvents.rows, r.payloadSha256 ≠ none)
    (fun db i h => (billingStep_moves i.1 i.2 db).preserve (fun move => move.digests) h) steps
    (by simp [Billing.initial])

/-- A recorded event is a duplicate, or a conflict when its bytes changed. -/
theorem process_recorded {i : BillingCatalog × BillingOp} {delivery : WebhookDelivery} {now : ℤ}
    {event : StripeEvent} {prior : WebhookEventRow} {db : Billing}
    (source : i.2 = .process delivery now) (verified : delivery.event = .ok event)
    (recorded : db.webhookEvents.find? event.id = some prior)
    (digests : ∀ r ∈ db.webhookEvents.rows, r.payloadSha256 ≠ none) :
    billingStep db i = db ∧ process i.1 delivery now db =
      if prior.payloadSha256 = some delivery.payloadSha256 then .ok (.duplicate, db)
      else .error (billingError "webhook_conflict"
        "Stripe event id was reused with different bytes." 409) := by
  obtain ⟨digest, hdigest⟩ := Option.ne_none_iff_exists'.mp
    (digests prior (Table.mem_of_find? recorded).1)
  have hprocess : process i.1 delivery now db =
      if prior.payloadSha256 = some delivery.payloadSha256 then .ok (.duplicate, db)
      else .error (billingError "webhook_conflict"
        "Stripe event id was reused with different bytes." 409) := by
    simp only [process, verified, ok_bind, recorded, hdigest, Option.any_some, Option.some.injEq]
    by_cases hsame : digest = delivery.payloadSha256
    · rw [raiseIf_ok (by simp [hsame]), if_pos hsame]
      rfl
    · rw [raiseIf_error (by simp [hsame]), if_neg hsame]
      rfl
  refine ⟨?_, hprocess⟩
  simp only [billingStep, BillingOp.apply, source, hprocess]
  split <;> rfl

/-- A new event whose delivery raises stays new. -/
theorem process_raised {i : BillingCatalog × BillingOp} {delivery : WebhookDelivery} {now : ℤ}
    {event : StripeEvent} {error : BillingFailure} {db : Billing}
    (source : i.2 = .process delivery now) (verified : delivery.event = .ok event)
    (fresh : db.webhookEvents.find? event.id = none)
    (raised : process i.1 delivery now db = .error error) :
    billingStep db i = db ∧ ∀ catalog now', process catalog delivery now' (billingStep db i) =
      (dispatch catalog event now' (recordEvent event delivery.payloadSha256 now' db)).map
        (WebhookStatus.processed, ·) := by
  have hstep : billingStep db i = db := by simp [billingStep, BillingOp.apply, source, raised]
  refine ⟨hstep, fun catalog now' => ?_⟩
  rw [hstep]
  simp only [process, verified, ok_bind, fresh]
  cases dispatch catalog event now' (recordEvent event delivery.payloadSha256 now' db) <;> rfl

/-- Two positions of a run that apply one event are the same. -/
theorem Credit.before_eq_of_event (c c' : Credit userProfiles steps)
    (h : c.purchase.event.id = c'.purchase.event.id) : c.before = c'.before := by
  have hle (c c' : Credit userProfiles steps)
      (h : c.purchase.event.id = c'.purchase.event.id) : c'.before <+: c.before := by
    rcases List.append_eq_append_iff.mp (c.split.symm.trans c'.split) with
      ⟨rest, hbefore, hafter⟩ | ⟨rest, hbefore, -⟩
    · cases rest with
      | nil => simp [hbefore]
      | cons i rest =>
        obtain ⟨rfl, -⟩ := List.cons.inj hafter
        -- the first position leaves its event recorded
        obtain ⟨row, mid, hacc⟩ := c.purchase.readable
        have hrecorded : (billingStep (run billingStep (Billing.initial userProfiles) c.before)
            c.i).webhookEvents.find? c.purchase.event.id ≠ none := by
          rw [c.purchase.step hacc, Table.find?_insertOrIgnore]
          simp [eventRow]
        have hgrown := (run_grows _ rest).event_ne_none hrecorded
        have hfresh := c'.purchase.fresh
        rw [← h, hbefore, run_append, run_cons] at hfresh
        exact absurd hfresh hgrown
    · exact hbefore ▸ List.prefix_append _ _
  exact (hle c' c h.symm).eq_of_length_le (hle c c' h).length_le

/-- In every run purchases are credited once exactly if the applied deliveries of paid checkouts
that name one session all carry one event id. -/
theorem purchases_credited_once_iff (userProfiles : List String)
    (steps : List (BillingCatalog × BillingOp)) (keys : ∀ i ∈ steps, i.2.CallerKeys) :
    CreditedOnce userProfiles steps ↔ ∀ c c' : Credit userProfiles steps,
      c.purchase.session.stripeSessionId = c'.purchase.session.stripeSessionId →
      c.purchase.event.id = c'.purchase.event.id := by
  have hbooks {before i after} (split : steps = before ++ i :: after) :
      Books (run billingStep (Billing.initial userProfiles) before) :=
    Books.run fun j hj => keys j (by simp [split, hj])
  have hadds (c : Credit userProfiles steps) {row mid} (hacc : account c.i.1
      c.purchase.session.ownerUserId c.purchase.now
        (run billingStep (Billing.initial userProfiles) c.before) = .ok (row, mid))
      {e : LedgerEntry} := c.purchase.addsTopup_iff (hbooks c.split).accounted hacc (e := e)
  constructor
  · intro once c c' hsession
    obtain ⟨row, mid, hacc⟩ := c.purchase.readable
    obtain ⟨row', mid', hacc'⟩ := c'.purchase.readable
    have hentry := once.entry c c' hsession _ _ ((hadds c hacc).mpr rfl) ((hadds c' hacc').mpr rfl)
    exact (ledgerKey_inj.mp (congrArg LedgerEntry.idempotencyKey hentry)).2
  · intro hids
    have hbefore (c c' : Credit userProfiles steps) (hsession :
        c.purchase.session.stripeSessionId = c'.purchase.session.stripeSessionId) :
        c.before = c'.before := c.before_eq_of_event c' (hids c c' hsession)
    refine ⟨hbefore, fun c c' hsession e e' he he' => ?_, fun c => ?_,
      fun before i after _ delivery now source none e => process_ledger source none e,
      fun before i after _ delivery now event prior source verified recorded =>
        process_recorded source verified recorded (run_digests userProfiles before),
      fun before i after _ delivery now event error source verified fresh raised =>
        process_raised source verified fresh raised⟩
    · obtain ⟨before, i, after, split, p⟩ := c
      obtain ⟨before', i', after', split', p'⟩ := c'
      obtain rfl : before = before' := hbefore _ _ hsession
      obtain ⟨rfl, -⟩ := List.cons.inj (List.append_cancel_left (split.symm.trans split'))
      obtain ⟨row, mid, hacc⟩ := p.readable
      have accounted := (hbooks split).accounted
      rw [p.addsTopup_iff accounted hacc] at he he'
      exact he.trans he'.symm
    · obtain ⟨row, mid, hacc⟩ := c.purchase.readable
      exact ⟨row, mid, _, hacc, fun e => hadds c hacc, rfl, c.purchase.wallet hacc⟩

end Runs

section Buyer

/-- The object of a paid one-off checkout. -/
def paidCheckout : List (String × Json) :=
  [("id", .str "cs_pack"), ("mode", .str "payment"), ("payment_status", .str "paid")]

/-- The checkout session of a credit pack. -/
def packSession : CheckoutSession :=
  ⟨"cs_pack", "user", "credits-10k", .creditPack, "purchase", 1704067200⟩

/-- The report of the paid checkout under an event id. -/
def paidReport (id : String) (created : ℤ) : BillingCatalog × BillingOp :=
  (Shipped.activated,
    .process (providerDelivery id "checkout.session.completed" created paidCheckout) created)

/-- A credit pack is bought and its paid checkout is reported. -/
def purchasedRun : List (BillingCatalog × BillingOp) :=
  [(Shipped.activated, .recordCheckout packSession), paidReport "evt_paid" 1704067201]

/-- A paid checkout that one event reports is credited once. -/
theorem purchases_credited_once_iff_purchasedRun : CreditedOnce ["user"] purchasedRun := by
  have hevent (c : Credit ["user"] purchasedRun) : c.purchase.event.id = "evt_paid" := by
    obtain ⟨before, i, after, split, p⟩ := c
    have hm : i ∈ purchasedRun := by
      rw [split]
      simp
    have hverified := p.verified
    simp only [purchasedRun, List.mem_cons, List.not_mem_nil, or_false] at hm
    rcases hm with rfl | rfl
    · cases p.source
    · obtain ⟨hdelivery, -⟩ := BillingOp.process.inj p.source
      rw [← hdelivery, providerDelivery_event (by decide)] at hverified
      rw [← Except.ok.inj hverified]
  exact (purchases_credited_once_iff ["user"] purchasedRun (by decide)).mpr fun c c' _ =>
    (hevent c).trans (hevent c').symm

/-- The report of the paid checkout under a new event id is a purchase. -/
def paidReport_purchase {id : String} {created : ℤ} (h : 0 < created) {db : Billing}
    (fresh : db.webhookEvents.find? id = none)
    (bound : db.checkoutSessions.find? "cs_pack" = some packSession)
    (readable : (account Shipped.activated "user" created db).isOk = true) :
    Purchase db (paidReport id created) where
  delivery := providerDelivery id "checkout.session.completed" created paidCheckout
  now := created
  event := ⟨id, "checkout.session.completed", created, .obj paidCheckout⟩
  session := packSession
  pack := Shipped.credits10k fun id => some ("price_" ++ id)
  source := rfl
  verified := providerDelivery_event h
  paid := rfl
  fresh := fresh
  bound := bound
  kind := rfl
  sold := rfl
  readable := by
    cases hread : account Shipped.activated "user" created db with
    | error error => simp [hread, Except.isOk, Except.toBool] at readable
    | ok result => exact ⟨result.1, result.2, hread⟩

/-- The paid checkout is reported again under another event id. -/
def repurchasedRun : List (BillingCatalog × BillingOp) :=
  purchasedRun ++ [paidReport "evt_again" 1704067202]

/-- One paid checkout of ten thousand credits that two events report is credited twice. -/
theorem purchase_credited_twice :
    ¬CreditedOnce ["user"] repurchasedRun ∧
      ((run billingStep (Billing.initial ["user"]) repurchasedRun).wallet "user").available =
        microcredits (500 + 2 * 10000) := by
  refine ⟨fun once => ?_, by decide⟩
  let first : Credit ["user"] repurchasedRun :=
    { before := [(Shipped.activated, .recordCheckout packSession)]
      i := paidReport "evt_paid" 1704067201
      after := [paidReport "evt_again" 1704067202]
      split := rfl
      purchase := paidReport_purchase (by decide) (by decide) (by decide)
        (by decide) }
  let second : Credit ["user"] repurchasedRun :=
    { before := purchasedRun
      i := paidReport "evt_again" 1704067202
      after := []
      split := rfl
      purchase := paidReport_purchase (by decide) (by decide) (by decide)
        (by decide) }
  exact absurd (congrArg List.length (once.balance first second rfl)) (by decide)

end Buyer

end Magistrate
