import Magistrate.Gateway.Billing.Movement

/-!
# The hold on an objective

The status of an objective's reservation, and what an operation can do to it: a
first reservation holds the objective's credits, a release or a settlement ends
the hold, and a hold that has ended stays as it is.
-/

namespace Magistrate

open CreditLedger

/-- The status of an objective's reservation. -/
def Billing.reservationStatus (db : Billing) (owner objective : String) :
    Option ReservationStatus :=
  (db.reservationOf owner objective).map (·.status)

/-- What an operation does to the status of an objective's reservation. -/
inductive HoldChange (op : BillingOp) (owner objective : String) :
    Option ReservationStatus → Option ReservationStatus → Prop
  | kept (status : Option ReservationStatus) : HoldChange op owner objective status status
  | reserved (key : String) (now : ℤ) (source : op = .reserveObjective owner objective key now) :
      HoldChange op owner objective none (some .reserved)
  | released (now : ℤ) (source : op = .releaseObjective owner objective now) :
      HoldChange op owner objective (some .reserved) (some .released)
  | settled (usage : Json) (eventId : String) (now : ℤ)
      (source : op = .settleObjective owner objective usage eventId now) :
      HoldChange op owner objective (some .reserved) (some .settled)

namespace HoldChange

variable {op : BillingOp} {owner objective : String} {s t u : Option ReservationStatus}

/-- An operation changes the status once. -/
theorem trans (h : HoldChange op owner objective s t) (h' : HoldChange op owner objective t u) :
    HoldChange op owner objective s u := by
  cases h with
  | kept => exact h'
  | reserved key now source =>
    cases h' with
    | kept => exact .reserved key now source
    | released now' source' => simp [source] at source'
    | settled usage eventId now' source' => simp [source] at source'
  | released now source =>
    cases h'
    exact .released now source
  | settled usage eventId now source =>
    cases h'
    exact .settled usage eventId now source

/-- An objective with a reservation keeps one. -/
theorem ne_none (h : HoldChange op owner objective s t) (hs : s ≠ none) : t ≠ none := by
  cases h with
  | kept => exact hs
  | reserved | released | settled => simp

/-- A hold that has ended stays as it is. -/
theorem eq_of_over (h : HoldChange op owner objective s t) (hs : s ≠ none)
    (hover : s ≠ some .reserved) : t = s := by
  cases h with
  | kept => rfl
  | reserved => exact absurd rfl hs
  | released | settled => exact absurd rfl hover

/-- Only its own release releases an objective. -/
theorem ne_released (h : HoldChange op owner objective s t) (hs : s ≠ some .released)
    (hop : s = some .reserved → ∀ now, op ≠ .releaseObjective owner objective now) :
    t ≠ some .released := by
  cases h with
  | kept => exact hs
  | reserved | settled => simp
  | released now source => exact absurd source (hop rfl now)

/-- Only its own first reservation holds an objective. -/
theorem ne_reserved (h : HoldChange op owner objective s t) (hs : s ≠ some .reserved)
    (hop : s = none → ∀ key now, op ≠ .reserveObjective owner objective key now) :
    t ≠ some .reserved := by
  cases h with
  | kept => exact hs
  | reserved key now source => exact absurd source (hop rfl key now)
  | released | settled => simp

end HoldChange

section Moves

variable {catalog : BillingCatalog} {op : BillingOp} {db db' : Billing}

/-- Ending the hold of a stored reservation ends it for its objective alone. -/
theorem reservationStatus_update {r : CreditReservation} {g : CreditReservation → CreditReservation}
    (hg : ∀ r, (g r).reservationId = r.reservationId)
    (hfields : ∀ r, (g r).ownerUserId = r.ownerUserId ∧ (g r).objectiveId = r.objectiveId)
    {owner objective : String} (found : db.reservationOf owner objective = some r)
    (owner' objective' : String)
    (h : db'.reservations = db.reservations.update r.reservationId g hg) :
    db'.reservationStatus owner' objective' =
      if (owner', objective') = (owner, objective) then some (g r).status
      else db.reservationStatus owner' objective' := by
  obtain ⟨stored, howner, hobjective⟩ := of_reservationOf found
  rw [Billing.reservationStatus, reservationOf_update hg hfields h, Option.map_map]
  by_cases htarget : (owner', objective') = (owner, objective)
  · obtain ⟨rfl, rfl⟩ := Prod.mk.inj htarget
    simp [found]
  · rw [if_neg htarget]
    refine Option.map_congr fun s hs => ?_
    obtain ⟨hstored, howner', hobjective'⟩ := of_reservationOf hs
    have hid : s.reservationId ≠ r.reservationId := by
      intro heq
      obtain rfl := Table.eq_of_mem hstored stored heq
      exact htarget (Prod.ext (howner'.symm.trans howner) (hobjective'.symm.trans hobjective))
    simp [hid]

/-- Ending the hold of a stored reservation changes the status of its objective alone. -/
theorem HoldChange.of_update {r : CreditReservation} {g : CreditReservation → CreditReservation}
    (hg : ∀ r, (g r).reservationId = r.reservationId)
    (hfields : ∀ r, (g r).ownerUserId = r.ownerUserId ∧ (g r).objectiveId = r.objectiveId)
    {owner objective : String} (found : db.reservationOf owner objective = some r)
    (held : r.status = .reserved)
    (change : HoldChange op owner objective (some .reserved) (some (g r).status))
    (owner' objective' : String)
    (h : db'.reservations = db.reservations.update r.reservationId g hg) :
    HoldChange op owner' objective' (db.reservationStatus owner' objective')
      (db'.reservationStatus owner' objective') := by
  rw [reservationStatus_update hg hfields found owner' objective' h]
  split
  · next htarget =>
    obtain ⟨rfl, rfl⟩ := Prod.mk.inj htarget
    rw [Billing.reservationStatus, found, Option.map_some, held]
    exact change
  · exact .kept _

/-- What a movement does to the status of an objective's reservation. -/
theorem Move.holdChange (h : Move catalog op db db') (owner objective : String) :
    HoldChange op owner objective (db.reservationStatus owner objective)
      (db'.reservationStatus owner objective) := by
  cases h with
  | insertAccount | monthlyGrant | refund | topup | purchase | invoicePaid | touchAccount
  | recordEvent | recordCheckout => exact .kept _
  | @reserve owner' objective' key now row plan reservation source new account onPlan freeId
      freeObjective =>
    subst new
    simp only [Billing.reservationStatus, Billing.reservationOf, Table.rows_insertOrIgnore freeId,
      List.find?_append]
    cases hfind : db.reservations.rows.find? fun r =>
        r.ownerUserId = owner ∧ r.objectiveId = objective with
    | some r => exact .kept _
    | none =>
      by_cases htarget : owner' = owner ∧ objective' = objective
      · obtain ⟨rfl, rfl⟩ := htarget
        simpa [newReservation] using HoldChange.reserved key now source
      · have hother : ¬(owner' = owner ∧ objective' = objective) := htarget
        simp only [newReservation, List.find?_cons, List.find?_nil, hother, decide_false,
          Option.none_or, Option.map_none]
        exact .kept none
  | @release _ _ now row reservation source found held =>
    exact .of_update (g := released now) (fun _ => rfl) (fun _ => ⟨rfl, rfl⟩) found held
      (.released now source) owner objective rfl
  | @settle _ _ eventId measured now row reservation usage actual source cost found held =>
    exact .of_update (g := settled usage actual now) (fun _ => rfl) (fun _ => ⟨rfl, rfl⟩) found held
      (.settled measured eventId now source) owner objective rfl

/-- What an operation does to the status of an objective's reservation. -/
theorem Moves.holdChange (h : Moves catalog op db db') (owner objective : String) :
    HoldChange op owner objective (db.reservationStatus owner objective)
      (db'.reservationStatus owner objective) :=
  h.preserve (I := fun db' => HoldChange op owner objective
    (db.reservationStatus owner objective) (db'.reservationStatus owner objective))
    (fun move change => change.trans (move.holdChange owner objective)) (.kept _)

end Moves

section Operations

variable {catalog : BillingCatalog} {owner objective : String} {now : ℤ} {db db' : Billing}

/-- A stored reservation gives its objective a status. -/
theorem reservationStatus_ne_none {r : CreditReservation} (hr : r ∈ db.reservations.rows) :
    db.reservationStatus r.ownerUserId r.objectiveId ≠ none := by
  intro h
  have hnone := List.find?_eq_none.mp (Option.map_eq_none_iff.mp h) r hr
  simp at hnone

/-- A reservation that returns leaves its objective with one. -/
theorem reserveObjective_status {key : String} {result : CreditReservation}
    (h : reserveObjective catalog owner objective key now db = .ok (result, db')) :
    db'.reservationStatus owner objective ≠ none := by
  simp only [reserveObjective, bind_eq_ok, Prod.exists, BillingCatalog.plan_eq_ok] at h
  obtain ⟨row, mid, -, plan, -, h⟩ := h
  split at h
  · next existing hfound =>
    simp only [bind_eq_ok, raiseIf_eq_ok, pure_eq_ok, exists_const, not_not, Prod.mk.injEq] at h
    obtain ⟨rfl, -, rfl⟩ := h
    have hkey := List.find?_some hfound
    obtain ⟨rfl, -⟩ := of_decide_eq_true hkey
    exact reservationStatus_ne_none (List.mem_of_find?_eq_some hfound)
  · simp only [bind_eq_ok, raiseIf_eq_ok, pure_eq_ok, exists_const, Prod.mk.injEq,
      insertReservation_eq_ok, Billing.insertLedger] at h
    obtain ⟨-, -, -, -, _, ⟨freeId, -, -, rfl⟩, -, rfl⟩ := h
    exact reservationStatus_ne_none (r := newReservation owner objective key _ now)
      (Table.mem_insertOrIgnore_self freeId)

/-- A release that returns leaves its objective without a hold. -/
theorem releaseObjective_status {result : Bool}
    (h : releaseObjective owner objective now db = .ok (result, db')) :
    db'.reservationStatus owner objective ≠ some .reserved := by
  unfold releaseObjective at h
  split at h
  · next hnone =>
    obtain ⟨-, rfl⟩ : false = result ∧ db = db' := by simpa using h
    simp [Billing.reservationStatus, hnone]
  · next reservation found =>
    split at h
    · next hover =>
      obtain ⟨-, rfl⟩ : false = result ∧ db = db' := by simpa using h
      simpa [Billing.reservationStatus, found] using hover
    · split at h
      · simp at h
      · simp only [Billing.insertLedger, Except.ok.injEq, Prod.mk.injEq] at h
        obtain ⟨-, rfl⟩ := h
        rw [reservationStatus_update (g := released now) (fun _ => rfl) (fun _ => ⟨rfl, rfl⟩) found
          owner objective rfl]
        simp

/-- A settlement that returns leaves its objective settled. -/
theorem settleObjective_status {measured : Json} {eventId : String} {result : CreditReservation}
    (h : settleObjective catalog owner objective measured eventId now db = .ok (result, db')) :
    db'.reservationStatus owner objective = some .settled := by
  simp only [settleObjective, bind_eq_ok, Prod.exists] at h
  obtain ⟨usage, actual, -, h⟩ := h
  split at h
  · simp at h
  · next reservation found =>
    split at h
    · next hsettled =>
      simp only [bind_eq_ok, raiseIf_eq_ok, pure_eq_ok, exists_const, Prod.mk.injEq] at h
      obtain ⟨-, -, rfl⟩ := h
      simp [Billing.reservationStatus, found, hsettled]
    · simp at h
    · split at h
      · simp at h
      · simp only [bind_eq_ok, pure_eq_ok, Prod.mk.injEq, insertUsage_eq_ok,
          Billing.insertLedger] at h
        obtain ⟨_, ⟨-, -, rfl⟩, -, rfl⟩ := h
        rw [reservationStatus_update (g := settled usage actual now) (fun _ => rfl)
          (fun _ => ⟨rfl, rfl⟩) found owner objective rfl, if_pos rfl]

end Operations

end Magistrate
