import Mathlib.Data.List.Perm.Basic
import Magistrate.Gateway.Notifications.Push

/-!
# Sends are bounded and fenced

Every claim raises the attempts of its delivery and is held by one dispatcher, so
there are at most three claims and at most one send for each. What closes or renews
a delivery under a claim that is not sent yet waits for its lease or its expiry.
-/

namespace Magistrate

/-- What happens to a delivery apart from a new claim: `acting` is the claim that is finished, a
delivery and its attempts. -/
structure PushDelivery.Moves (now : ℕ) (acting : Option (String × ℕ)) (row row' : PushDelivery) :
    Prop where
  attempts : row'.sendAttempts = row.sendAttempts
  expires : row'.expiresAt = row.expiresAt
  sendable : row'.state.sendable = true → row.state.sendable = true ∧
    (row'.nextAttemptAt = row.nextAttemptAt ∨ now + 120 ≤ row'.nextAttemptAt)
  sending : row'.state = .sending → row' = row
  waits : row.state = .sending → row' = row ∨ row.nextAttemptAt ≤ now ∨ row.expiresAt ≤ now ∨
    acting = some (row.deliveryId, row.sendAttempts)

namespace PushDelivery

variable {now : ℕ} {acting : Option (String × ℕ)}

theorem Moves.refl (row : PushDelivery) : Moves now acting row row :=
  ⟨rfl, rfl, fun h => ⟨h, .inl rfl⟩, fun _ => rfl, fun _ => .inl rfl⟩

/-- A delivery that is not sending moves to a state in which it is not sent. -/
theorem Moves.close {row row' : PushDelivery} (hattempts : row'.sendAttempts = row.sendAttempts)
    (hexpires : row'.expiresAt = row.expiresAt) (hclosed : row'.state.sendable = false)
    (hwaits : row.state = .sending → row.nextAttemptAt ≤ now ∨ row.expiresAt ≤ now ∨
      acting = some (row.deliveryId, row.sendAttempts)) : Moves now acting row row' := by
  refine ⟨hattempts, hexpires, fun h => ?_, fun h => ?_, fun h => .inr (hwaits h)⟩
  · cases hclosed.symm.trans h
  · rw [h] at hclosed
    cases hclosed

theorem Moves.trans {row row' row'' : PushDelivery} (h : Moves now acting row row')
    (h' : Moves now acting row' row'') : Moves now acting row row'' := by
  refine ⟨h'.attempts.trans h.attempts, h'.expires.trans h.expires, fun hsendable => ?_,
    fun hsending => ?_, fun hsending => ?_⟩
  · obtain ⟨hmiddle, hnext'⟩ := h'.sendable hsendable
    obtain ⟨hfirst, hnext⟩ := h.sendable hmiddle
    refine ⟨hfirst, ?_⟩
    omega
  · have hlast := h'.sending hsending
    rw [hlast] at hsending ⊢
    exact h.sending hsending
  · rcases h.waits hsending with rfl | hlate
    · exact h'.waits hsending
    · exact .inr hlate

/-- A delivery that is pending stays out of the way of sends. -/
theorem Moves.pending {row row' : PushDelivery} (hpending : row.state = .pending)
    (hattempts : row'.sendAttempts = row.sendAttempts) (hexpires : row'.expiresAt = row.expiresAt)
    (hclosed : row'.state.sendable = false) : Moves now acting row row' := by
  refine .close hattempts hexpires hclosed fun h => ?_
  rw [hpending] at h
  cases h

end PushDelivery

namespace PushDeliveries

variable {now : ℕ} {acting : Option (String × ℕ)} {t t' : PushDeliveries}

/-- What happens to the deliveries apart from a new claim. -/
def Moves (now : ℕ) (acting : Option (String × ℕ)) (t t' : PushDeliveries) : Prop :=
  ∀ id, (t.find? id = none ∧ t'.find? id = none) ∨
    ∃ row row', t.find? id = some row ∧ t'.find? id = some row' ∧ row.Moves now acting row'

theorem Moves.refl (t : PushDeliveries) : Moves now acting t t := by
  intro id
  cases hrow : t.find? id with
  | none => exact .inl ⟨rfl, rfl⟩
  | some row => exact .inr ⟨row, row, rfl, rfl, .refl row⟩

/-- One delivery moves. -/
theorem Moves.update {id : String} {f : PushDelivery → PushDelivery}
    (hf : ∀ row, (f row).deliveryId = row.deliveryId)
    (h : ∀ row, t.find? id = some row → row.Moves now acting (f row)) :
    Moves now acting t (t.update id f hf) := by
  intro other
  rw [Table.find?_update]
  cases hrow : t.find? other with
  | none => exact .inl ⟨rfl, rfl⟩
  | some row =>
    refine .inr ⟨row, _, rfl, rfl, ?_⟩
    split
    · next hsame => exact h row (hsame ▸ hrow)
    · exact .refl row

/-- All deliveries that meet a condition move. -/
theorem Moves.updateWhere {p : PushDelivery → Bool} {f : PushDelivery → PushDelivery}
    (hf : ∀ row, (f row).deliveryId = row.deliveryId)
    (h : ∀ row ∈ t.rows, p row = true → row.Moves now acting (f row)) :
    Moves now acting t (t.updateWhere p f hf) := by
  intro id
  rw [Table.find?_updateWhere]
  cases hrow : t.find? id with
  | none => exact .inl ⟨rfl, rfl⟩
  | some row =>
    refine .inr ⟨row, _, rfl, rfl, ?_⟩
    dsimp only
    split
    · next hp => exact h row (Table.mem_of_find? hrow).1 hp
    · exact .refl row

/-- A delivery is there after the deliveries moved. -/
theorem Moves.row (h : Moves now acting t t') {id : String} {row : PushDelivery}
    (hrow : t.find? id = some row) :
    ∃ row', t'.find? id = some row' ∧ row.Moves now acting row' := by
  rcases h id with ⟨hnone, -⟩ | ⟨old, row', hold, hrow', hmoves⟩
  · cases hrow.symm.trans hnone
  · obtain rfl : old = row := Option.some.inj (hold.symm.trans hrow)
    exact ⟨row', hrow', hmoves⟩

/-- A delivery that is there after the deliveries moved was there. -/
theorem Moves.row' (h : Moves now acting t t') {id : String} {row' : PushDelivery}
    (hrow' : t'.find? id = some row') :
    ∃ row, t.find? id = some row ∧ row.Moves now acting row' := by
  rcases h id with ⟨-, hnone⟩ | ⟨row, new, hrow, hnew, hmoves⟩
  · cases hrow'.symm.trans hnone
  · obtain rfl : new = row' := Option.some.inj (hnew.symm.trans hrow')
    exact ⟨row, hrow, hmoves⟩

/-- The ways of a claim: nothing is granted, or a claim is, of a new delivery or of one whose lease
is over. -/
theorem claimSend_cases (rules : PushRules) (now : ℕ) (userId itemId fingerprint token : String)
    (ownerTest : Bool) (t : PushDeliveries) :
    (∃ t', t.claimSend rules now userId itemId fingerprint token ownerTest = (none, t') ∧
        Moves now none t t') ∨
      ∃ claim : PushDelivery,
        t.claimSend rules now userId itemId fingerprint token ownerTest =
          (some claim, t.put claim) ∧
        claim.deliveryId = rules.identity userId itemId fingerprint (rules.tokenDigest token) ∧
        claim.state = .sending ∧ claim.nextAttemptAt = now + 120 ∧
        (t.find? claim.deliveryId = none ∧ claim.sendAttempts = 1 ∨
          ∃ row, t.find? claim.deliveryId = some row ∧ row.state.sendable = true ∧
            row.nextAttemptAt ≤ now ∧ row.sendAttempts < maxSends ∧
            claim.sendAttempts = row.sendAttempts + 1 ∧ claim.expiresAt = row.expiresAt) := by
  unfold claimSend
  dsimp only
  cases hrow : t.find? (rules.identity userId itemId fingerprint (rules.tokenDigest token)) with
  | none =>
    dsimp only
    split
    · exact .inl ⟨t, rfl, .refl t⟩
    · exact .inr ⟨_, rfl, rfl, rfl, rfl, .inl ⟨hrow, rfl⟩⟩
  | some row =>
    have hid : row.deliveryId = rules.identity userId itemId fingerprint
      (rules.tokenDigest token) :=
      (Table.mem_of_find? hrow).2
    dsimp only
    split
    · next hexpired =>
      refine .inl ⟨_, rfl, .update (by intro; rfl) fun other hother => ?_⟩
      obtain rfl : row = other := Option.some.inj (hrow.symm.trans hother)
      exact .close rfl rfl rfl fun _ => .inr (.inl hexpired.2)
    · split
      · exact .inl ⟨t, rfl, .refl t⟩
      · next hdue =>
        rw [not_or, Bool.not_eq_false, not_lt] at hdue
        split
        · refine .inl ⟨_, rfl, .update (by intro; rfl) fun other hother => ?_⟩
          obtain rfl : row = other := Option.some.inj (hrow.symm.trans hother)
          exact .close rfl rfl rfl fun _ => .inl hdue.2
        · next hfew =>
          exact .inr ⟨_, rfl, hid, rfl, rfl, .inr ⟨row, hid ▸ hrow, hdue.1, hdue.2,
            not_le.mp hfew, rfl, rfl⟩⟩

/-- A ticket ends the claim that holds its delivery. -/
theorem Moves.accepted {claim : PushDelivery} {ticket : String}
    (h : t.accepted now claim ticket = .ok t') :
    Moves now (some (claim.deliveryId, claim.sendAttempts)) t t' := by
  unfold PushDeliveries.accepted at h
  split at h
  · next hholds =>
    split at h
    · cases h
    · cases h
      obtain ⟨row, hrow, -, hattempts⟩ := hholds
      refine .update (by intro; rfl) fun other hother => ?_
      obtain rfl : row = other := Option.some.inj ((Option.mem_def.mp hrow).symm.trans hother)
      refine .close rfl rfl rfl fun _ => .inr (.inr ?_)
      rw [hattempts, (Table.mem_of_find? hother).2]
  · cases h
    exact .refl t

/-- So does a failure. -/
theorem Moves.sendFailed {claim : PushDelivery} (hpos : 1 ≤ claim.sendAttempts) (retryable : Bool) :
    Moves now (some (claim.deliveryId, claim.sendAttempts)) t
      (t.sendFailed now claim retryable) := by
  unfold PushDeliveries.sendFailed
  split
  · next hholds =>
    obtain ⟨row, hrow, hsending, hattempts⟩ := hholds
    refine .update (by intro; rfl) fun other hother => ?_
    obtain rfl : row = other := Option.some.inj ((Option.mem_def.mp hrow).symm.trans hother)
    have hpow : 2 ^ 1 ≤ 2 ^ claim.sendAttempts := Nat.pow_le_pow_right (by decide) hpos
    refine ⟨rfl, rfl, fun _ => ⟨by rw [hsending]; rfl, .inr ?_⟩, fun h => ?_,
      fun _ => .inr (.inr (.inr ?_))⟩
    · dsimp only
      omega
    · exfalso
      dsimp only at h
      split at h <;> cases h
    · rw [hattempts, (Table.mem_of_find? hother).2]
  · exact .refl t

theorem Moves.trans {t'' : PushDeliveries} (h : Moves now acting t t')
    (h' : Moves now acting t' t'') :
    Moves now acting t t'' := by
  intro id
  rcases h id with ⟨hnone, hnone'⟩ | ⟨row, row', hrow, hrow', hmoves⟩
  · rcases h' id with ⟨-, hnone''⟩ | ⟨row', -, hrow', -⟩
    · exact .inl ⟨hnone, hnone''⟩
    · cases hnone'.symm.trans hrow'
  · obtain ⟨row'', hrow'', hmoves'⟩ := h'.row hrow'
    exact .inr ⟨row, row'', hrow, hrow'', hmoves.trans hmoves'⟩

/-- A poll moves what is pending. -/
theorem Moves.claimReceipts (t : PushDeliveries) : Moves now acting t (t.claimReceipts now).2 := by
  refine Moves.trans (.updateWhere (by intro; rfl) fun row _ hrow => ?_)
    (.updateWhere (by intro; rfl) fun row hmem hdue => ?_)
  · simp only [Bool.and_eq_true, beq_iff_eq] at hrow
    exact .pending hrow.1 rfl rfl rfl
  · obtain ⟨claim, hclaim, hsame⟩ := List.any_eq_true.mp hdue
    have hkept := List.mem_mergeSort.mp (List.mem_of_mem_take hclaim)
    simp only [List.mem_filter, Bool.and_eq_true, beq_iff_eq] at hkept
    obtain rfl : claim = row := Table.eq_of_mem hkept.1 hmem (by simpa using hsame)
    refine .pending hkept.2.1 rfl rfl ?_
    rw [hkept.2.1]
    rfl

/-- How often the send of a delivery was claimed. -/
def attempts (t : PushDeliveries) (id : String) : ℕ := ((t.find? id).map (·.sendAttempts)).getD 0

theorem Moves.attempts_eq (h : Moves now acting t t') (id : String) :
    t'.attempts id = t.attempts id := by
  unfold PushDeliveries.attempts
  rcases h id with ⟨hnone, hnone'⟩ | ⟨row, row', hrow, hrow', hmoves⟩
  · rw [hnone, hnone']
  · rw [hrow, hrow']
    exact hmoves.attempts

end PushDeliveries

namespace PushStage

/-- The claim that a dispatcher holds. -/
def claim? : PushStage → Option PushDelivery
  | .listed | .ready _ => none
  | .claimed _ claim | .checked _ claim | .answered _ claim _ | .conflicted _ claim => some claim

/-- The claim that a dispatcher has not sent yet. -/
def unsent? : PushStage → Option PushDelivery
  | .claimed _ claim | .checked _ claim => some claim
  | .listed | .ready _ | .answered .. | .conflicted .. => none

end PushStage

namespace PushWorker

/-- The claim that a worker holds. -/
def claim? : PushWorker → Option PushDelivery
  | .dispatcher _ _ stage => stage.claim?
  | .poll _ => none

/-- The claim that a worker has not sent yet. -/
def unsent? : PushWorker → Option PushDelivery
  | .dispatcher _ _ stage => stage.unsent?
  | .poll _ => none

/-- A worker holds a claim of a delivery with its attempts. -/
def holds (key : String × ℕ) (worker : PushWorker) : Bool :=
  worker.claim?.any fun claim => decide ((claim.deliveryId, claim.sendAttempts) = key)

/-- A worker has not sent its claim of a delivery yet. -/
def sends (id : String) (worker : PushWorker) : Bool :=
  worker.unsent?.any fun claim => claim.deliveryId == id

/-- The claim that a dispatcher has not sent yet is of its next job. -/
def Identified (rules : PushRules) : PushWorker → Prop
  | .dispatcher userId jobs (.claimed token claim)
  | .dispatcher userId jobs (.checked token claim) => ∃ job ∈ jobs.head?,
    claim.deliveryId = rules.identity userId job.itemId job.fingerprint (rules.tokenDigest token)
  | _ => True

/-- A claim that is not sent yet is held. -/
theorem claim?_of_unsent? {worker : PushWorker} {claim : PushDelivery}
    (h : worker.unsent? = some claim) : worker.claim? = some claim := by
  cases worker with
  | poll deliveries => cases h
  | dispatcher userId jobs stage =>
    cases stage with
    | claimed token held => exact h
    | checked token held => exact h
    | listed => cases h
    | ready token => cases h
    | answered token held answer => cases h
    | conflicted token held => cases h

end PushWorker

/-- Claims are apart, each is held by one dispatcher and sent once, and one that is not sent yet is
the last one of its delivery, or its lease or its delivery is over. -/
structure PushFenced (rules : PushRules) (t : PushDeliveries) (clock : ℕ) (claims : List PushClaim)
    (sends : List PushSend) (workers : List PushWorker) : Prop where
  bounded : ∀ row ∈ t.rows, row.sendAttempts ≤ maxSends
  leased : ∀ claim ∈ claims, claim.grantedAt ≤ clock ∧
    ∃ row, t.find? claim.delivery.deliveryId = some row ∧
      claim.delivery.sendAttempts ≤ row.sendAttempts ∧
      (row.state.sendable = true → claim.grantedAt + 120 ≤ row.nextAttemptAt)
  apart : claims.Pairwise fun a b =>
    a.delivery.deliveryId = b.delivery.deliveryId → a.grantedAt + 120 ≤ b.grantedAt
  held : ∀ worker ∈ workers, ∀ claim, worker.claim? = some claim → 1 ≤ claim.sendAttempts ∧
    ∃ row, t.find? claim.deliveryId = some row ∧ claim.sendAttempts ≤ row.sendAttempts ∧
      row.expiresAt = claim.expiresAt ∧
      (row.state = .sending → row.sendAttempts = claim.sendAttempts →
        row.nextAttemptAt = claim.nextAttemptAt)
  single : ∀ key, workers.countP (·.holds key) ≤ 1
  sent : ∀ id, sends.countP (·.claim.deliveryId == id) + workers.countP (·.sends id) ≤ t.attempts id
  current : ∀ worker ∈ workers, ∀ claim, worker.unsent? = some claim →
    t.Holds claim ∨ claim.nextAttemptAt ≤ clock ∨ claim.expiresAt ≤ clock
  identified : ∀ worker ∈ workers, worker.Identified rules
  recorded : ∀ send ∈ sends, send.claim.deliveryId =
    rules.identity send.userId send.itemId send.fingerprint (rules.tokenDigest send.token)
  timely : ∀ send ∈ sends,
    (∃ row ∈ send.stored, row.state = .sending ∧ row.sendAttempts = send.claim.sendAttempts) ∨
      send.claim.nextAttemptAt ≤ send.sentAt ∨ send.claim.expiresAt ≤ send.sentAt

namespace PushFenced

variable {rules : PushRules} {t t' : PushDeliveries} {clock : ℕ} {claims : List PushClaim}
  {sends : List PushSend} {rest workers : List PushWorker} {worker worker' : PushWorker}

/-- The order of the workers does not matter. -/
theorem perm {workers' : List PushWorker} (h : PushFenced rules t clock claims sends workers)
    (hperm : workers.Perm workers') : PushFenced rules t clock claims sends workers' where
  bounded := h.bounded
  leased := h.leased
  apart := h.apart
  held := fun worker hmem => h.held worker (hperm.mem_iff.mpr hmem)
  single := fun key => hperm.countP_eq (·.holds key) ▸ h.single key
  sent := fun id => hperm.countP_eq (·.sends id) ▸ h.sent id
  current := fun worker hmem => h.current worker (hperm.mem_iff.mpr hmem)
  identified := fun worker hmem => h.identified worker (hperm.mem_iff.mpr hmem)
  recorded := h.recorded
  timely := h.timely

/-- A worker stops. -/
theorem drop (h : PushFenced rules t clock claims sends (worker :: rest)) :
    PushFenced rules t clock claims sends rest where
  bounded := h.bounded
  leased := h.leased
  apart := h.apart
  held := fun other hmem => h.held other (List.mem_cons_of_mem _ hmem)
  single := fun key => (List.sublist_cons_self worker rest).countP_le.trans (h.single key)
  sent := fun id =>
    (Nat.add_le_add_left (List.sublist_cons_self worker rest).countP_le _).trans (h.sent id)
  current := fun other hmem => h.current other (List.mem_cons_of_mem _ hmem)
  identified := fun other hmem => h.identified other (List.mem_cons_of_mem _ hmem)
  recorded := h.recorded
  timely := h.timely

/-- A worker goes on that holds no claim. -/
theorem idle (h : PushFenced rules t clock claims sends rest) (hclaim : worker.claim? = none)
    (hidentified : worker.Identified rules) :
    PushFenced rules t clock claims sends (worker :: rest) := by
  have hunsent : worker.unsent? = none := by
    by_contra hsome
    obtain ⟨claim, hsome⟩ := Option.ne_none_iff_exists'.mp hsome
    cases hclaim.symm.trans (PushWorker.claim?_of_unsent? hsome)
  refine ⟨h.bounded, h.leased, h.apart, fun other hmem claim hother => ?_,
    fun key => ?_, fun id => ?_, fun other hmem claim hother => ?_,
      fun other hmem => ?_, h.recorded, h.timely⟩
  · rcases List.mem_cons.mp hmem with rfl | hmem
    · cases hclaim.symm.trans hother
    · exact h.held other hmem claim hother
  · rw [List.countP_cons, PushWorker.holds, hclaim]
    exact h.single key
  · rw [List.countP_cons, PushWorker.sends, hunsent]
    exact h.sent id
  · rcases List.mem_cons.mp hmem with rfl | hmem
    · cases hunsent.symm.trans hother
    · exact h.current other hmem claim hother
  · rcases List.mem_cons.mp hmem with rfl | hmem
    · exact hidentified
    · exact h.identified other hmem

/-- Time passes. -/
theorem tick (h : PushFenced rules t clock claims sends workers) (seconds : ℕ) :
    PushFenced rules t (clock + seconds) claims sends workers where
  bounded := h.bounded
  leased := fun claim hmem =>
    ⟨(h.leased claim hmem).1.trans (Nat.le_add_right _ _), (h.leased claim hmem).2⟩
  apart := h.apart
  held := h.held
  single := h.single
  sent := h.sent
  current := fun worker hmem claim hclaim =>
    (h.current worker hmem claim hclaim).imp_right fun hlate =>
    hlate.imp (fun hle => hle.trans (Nat.le_add_right _ _)) fun hle =>
      hle.trans (Nat.le_add_right _ _)
  identified := h.identified
  recorded := h.recorded
  timely := h.timely

/-- The deliveries move, by none of the claims that are held. -/
theorem moves (h : PushFenced rules t clock claims sends workers) {acting : Option (String × ℕ)}
    (hmoves : PushDeliveries.Moves clock acting t t')
    (hother : ∀ worker ∈ workers, ∀ key, acting = some key → worker.holds key = false) :
    PushFenced rules t' clock claims sends workers := by
  refine ⟨fun row' hrow' => ?_, fun claim hmem => ?_, h.apart, fun worker hmem claim hclaim => ?_,
    h.single, fun id => ?_, fun worker hmem claim hclaim => ?_, h.identified, h.recorded, h.timely⟩
  · obtain ⟨row, hrow, hmove⟩ := hmoves.row' (Table.find?_of_mem hrow')
    rw [hmove.attempts]
    exact h.bounded row (Table.mem_of_find? hrow).1
  · obtain ⟨hgranted, row, hrow, hattempts, hlease⟩ := h.leased claim hmem
    obtain ⟨row', hrow', hmove⟩ := hmoves.row hrow
    refine ⟨hgranted, row', hrow', hmove.attempts.symm ▸ hattempts, fun hsendable => ?_⟩
    obtain ⟨hsendable, hnext⟩ := hmove.sendable hsendable
    have hle := hlease hsendable
    omega
  · obtain ⟨hpos, row, hrow, hattempts, hexpires, hnext⟩ := h.held worker hmem claim hclaim
    obtain ⟨row', hrow', hmove⟩ := hmoves.row hrow
    refine ⟨hpos, row', hrow', hmove.attempts.symm ▸ hattempts, hmove.expires.trans hexpires,
      fun hsending hsame => ?_⟩
    obtain rfl := hmove.sending hsending
    exact hnext hsending hsame
  · rw [hmoves.attempts_eq]
    exact h.sent id
  · rcases h.current worker hmem claim hclaim with ⟨row, hrow, hsending, hsame⟩ | hlate
    · have hheld := PushWorker.claim?_of_unsent? hclaim
      obtain ⟨-, stored, hstored, -, hexpires, hnext⟩ := h.held worker hmem claim hheld
      obtain rfl : row = stored := Option.some.inj ((Option.mem_def.mp hrow).symm.trans hstored)
      obtain ⟨row', hrow', hmove⟩ := hmoves.row hstored
      rcases hmove.waits hsending with rfl | hover | hover | hacting
      · exact .inl ⟨row', hrow', hsending, hsame⟩
      · exact .inr (.inl (hnext hsending hsame ▸ hover))
      · exact .inr (.inr (hexpires ▸ hover))
      · -- The claim that is finished would be this one.
        exfalso
        have hnone := hother worker hmem _ hacting
        rw [PushWorker.holds, hheld, Option.any_some, decide_eq_false_iff_not] at hnone
        exact hnone (Prod.ext (Table.mem_of_find? hstored).2.symm hsame.symm)
    · exact .inr hlate

/-- A worker keeps its claim and goes on with it, sent or not. -/
theorem swap (h : PushFenced rules t clock claims sends (worker :: rest))
    (hclaim : worker'.claim? = worker.claim?)
    (hunsent : worker'.unsent? = worker.unsent? ∨ worker'.unsent? = none)
    (hidentified : worker'.Identified rules) :
    PushFenced rules t clock claims sends (worker' :: rest) := by
  refine ⟨h.bounded, h.leased, h.apart, fun other hmem claim hother => ?_,
    fun key => ?_, fun id => ?_, fun other hmem claim hother => ?_,
      fun other hmem => ?_, h.recorded, h.timely⟩
  · rcases List.mem_cons.mp hmem with rfl | hmem
    · exact h.held worker List.mem_cons_self claim (hclaim ▸ hother)
    · exact h.held other (List.mem_cons_of_mem _ hmem) claim hother
  · have hsingle := h.single key
    rw [List.countP_cons, PushWorker.holds] at hsingle ⊢
    rwa [hclaim]
  · have hsent := h.sent id
    rw [List.countP_cons, PushWorker.sends] at hsent ⊢
    rcases hunsent with hsame | hnone
    · rwa [hsame]
    · rw [hnone]
      simp only [Option.any_none, Bool.false_eq_true, if_false]
      omega
  · rcases List.mem_cons.mp hmem with rfl | hmem
    · rcases hunsent with hsame | hnone
      · exact h.current worker List.mem_cons_self claim (hsame ▸ hother)
      · cases hnone.symm.trans hother
    · exact h.current other (List.mem_cons_of_mem _ hmem) claim hother
  · rcases List.mem_cons.mp hmem with rfl | hmem
    · exact hidentified
    · exact h.identified other (List.mem_cons_of_mem _ hmem)

/-- A worker sends its claim. -/
theorem post (h : PushFenced rules t clock claims sends (worker :: rest)) {claim : PushDelivery}
    (hclaim : worker'.claim? = worker.claim?) (hunsent : worker.unsent? = some claim)
    (hsent : worker'.unsent? = none) (hidentified : worker'.Identified rules) {send : PushSend}
    (hsends : send.claim = claim) (hstored : send.stored = t.find? claim.deliveryId)
    (hsentAt : send.sentAt = clock)
    (hrecorded : claim.deliveryId = rules.identity send.userId send.itemId send.fingerprint
      (rules.tokenDigest send.token)) :
    PushFenced rules t clock claims (sends ++ [send]) (worker' :: rest) := by
  have hswapped := h.swap hclaim (.inr hsent) hidentified
  refine ⟨h.bounded, h.leased, h.apart, hswapped.held, hswapped.single, fun id => ?_,
    hswapped.current, hswapped.identified, fun other hmem => ?_, fun other hmem => ?_⟩
  · have hcount := h.sent id
    rw [List.countP_cons, PushWorker.sends, hunsent, Option.any_some] at hcount
    rw [List.countP_append, List.countP_singleton, List.countP_cons,
      PushWorker.sends, hsent, hsends, Option.any_none, if_neg Bool.false_ne_true]
    omega
  · rcases List.mem_append.mp hmem with hmem | hmem
    · exact h.recorded other hmem
    · rw [List.mem_singleton.mp hmem, hsends]
      exact hrecorded
  · rcases List.mem_append.mp hmem with hmem | hmem
    · exact h.timely other hmem
    · rw [List.mem_singleton.mp hmem, hsends, hstored, hsentAt]
      exact h.current worker List.mem_cons_self claim hunsent

/-- A claim is granted. -/
theorem grant (h : PushFenced rules t clock claims sends rest) {claim : PushDelivery}
    (hsending : claim.state = .sending) (hnext : claim.nextAttemptAt = clock + 120)
    (hrow : t.find? claim.deliveryId = none ∧ claim.sendAttempts = 1 ∨
      ∃ row, t.find? claim.deliveryId = some row ∧ row.state.sendable = true ∧
        row.nextAttemptAt ≤ clock ∧ row.sendAttempts < maxSends ∧
        claim.sendAttempts = row.sendAttempts + 1 ∧ claim.expiresAt = row.expiresAt)
    (hclaim : worker.claim? = some claim) (hunsent : worker.unsent? = some claim)
    (hidentified : worker.Identified rules) :
    PushFenced rules (t.put claim) clock (claims ++ [⟨claim, clock⟩]) sends (worker :: rest) := by
  have hfound : ∀ id, (t.put claim).find? id =
      if claim.deliveryId = id then some claim else t.find? id := fun id =>
        Table.find?_put t claim id
  have hself : (t.put claim).find? claim.deliveryId = some claim := by rw [hfound, if_pos rfl]
  have hattempts : claim.sendAttempts = t.attempts claim.deliveryId + 1 := by
    rcases hrow with ⟨hnone, hone⟩ | ⟨row, hsome, -, -, -, hmore, -⟩
    · rw [PushDeliveries.attempts, hnone, hone]
      rfl
    · rw [PushDeliveries.attempts, hsome, hmore]
      rfl
  -- What was stored under the identifier was claimed less often, and its lease is over.
  have hstored : ∀ row, t.find? claim.deliveryId = some row →
    row.sendAttempts < claim.sendAttempts ∧
      row.state.sendable = true ∧ row.nextAttemptAt ≤ clock ∧ claim.expiresAt = row.expiresAt := by
    intro row hsome
    rcases hrow with ⟨hnone, -⟩ | ⟨old, hold, hsendable, hover, -, hmore, hexpires⟩
    · cases hnone.symm.trans hsome
    · obtain rfl : old = row := Option.some.inj (hold.symm.trans hsome)
      exact ⟨by omega, hsendable, hover, hexpires⟩
  refine ⟨fun row hmem => ?_, fun other hmem => ?_, ?_,
    fun other hmem held hheld => ?_, fun key => ?_, fun id => ?_,
      fun other hmem held hheld => ?_, fun other hmem => ?_, h.recorded, h.timely⟩
  · rcases Table.mem_put.mp hmem with rfl | ⟨hmem, -⟩
    · rcases hrow with ⟨-, hone⟩ | ⟨row, -, -, -, hfew, hmore, -⟩
      · rw [hone]
        decide
      · omega
    · exact h.bounded row hmem
  · rcases List.mem_append.mp hmem with hmem | hmem
    · obtain ⟨hgranted, row, hsome, hle, hlease⟩ := h.leased other hmem
      refine ⟨hgranted, ?_⟩
      rw [hfound]
      split
      · next hsame =>
        obtain ⟨hless, -⟩ := hstored row (hsame ▸ hsome)
        exact ⟨claim, rfl, by omega, fun _ => by omega⟩
      · exact ⟨row, hsome, hle, hlease⟩
    · obtain rfl := List.mem_singleton.mp hmem
      exact ⟨le_rfl, claim, hself, le_rfl, fun _ => hnext.ge⟩
  · rw [List.pairwise_append]
    refine ⟨h.apart, List.pairwise_singleton _ _, fun other hmem new hnew hsame => ?_⟩
    obtain rfl := List.mem_singleton.mp hnew
    obtain ⟨-, row, hsome, -, hlease⟩ := h.leased other hmem
    obtain ⟨-, hsendable, hover, -⟩ := hstored row (hsame ▸ hsome)
    exact (hlease hsendable).trans hover
  · rcases List.mem_cons.mp hmem with rfl | hmem
    · obtain rfl : claim = held := Option.some.inj (hclaim.symm.trans hheld)
      exact ⟨by omega, claim, hself, le_rfl, rfl, fun _ _ => rfl⟩
    · obtain ⟨hpos, row, hsome, hle, hexpires, hlast⟩ := h.held other hmem held hheld
      refine ⟨hpos, ?_⟩
      rw [hfound]
      split
      · next hsame =>
        obtain ⟨hless, -, -, hkept⟩ := hstored row (hsame ▸ hsome)
        exact ⟨claim, rfl, by omega, hkept.trans hexpires, fun _ hequal => by omega⟩
      · exact ⟨row, hsome, hle, hexpires, hlast⟩
  · rw [List.countP_cons, PushWorker.holds, hclaim, Option.any_some]
    by_cases hkey : (claim.deliveryId, claim.sendAttempts) = key
    · -- No other worker holds a claim of this attempt.
      have hnone : rest.countP (·.holds key) = 0 := by
        rw [List.countP_eq_zero]
        intro other hmem hholds
        obtain ⟨held, hheld, hsame⟩ := (Option.any_eq_true _ _).mp hholds
        rw [decide_eq_true_eq, ← hkey, Prod.mk.injEq] at hsame
        obtain ⟨-, row, hsome, hle, -⟩ := h.held other hmem held hheld
        obtain ⟨hless, -⟩ := hstored row (hsame.1 ▸ hsome)
        omega
      rw [hnone]
      split <;> decide
    · rw [if_neg (by simpa using hkey)]
      exact h.single key
  · rw [List.countP_cons, PushWorker.sends, hunsent, Option.any_some]
    have hcount := h.sent id
    by_cases hid : claim.deliveryId = id
    · subst hid
      rw [if_pos (by simp), PushDeliveries.attempts, hself, Option.map_some, Option.getD_some]
      omega
    · rw [if_neg (by simpa using hid), PushDeliveries.attempts, hfound, if_neg hid]
      exact hcount
  · rcases List.mem_cons.mp hmem with rfl | hmem
    · obtain rfl : claim = held := Option.some.inj (hunsent.symm.trans hheld)
      exact .inl ⟨claim, hself, hsending, rfl⟩
    · rcases h.current other hmem held hheld with ⟨row, hsome, hstate, hsame⟩ | hlate
      · by_cases hid : claim.deliveryId = held.deliveryId
        · -- The lease of the claim before is over.
          have hholds := PushWorker.claim?_of_unsent? hheld
          obtain ⟨-, stored, hstored', -, -, hlast⟩ := h.held other hmem held hholds
          obtain rfl : row = stored :=
            Option.some.inj ((Option.mem_def.mp hsome).symm.trans hstored')
          obtain ⟨-, -, hover, -⟩ := hstored row (hid ▸ hsome)
          exact .inr (.inl (hlast hstate hsame ▸ hover))
        · refine .inl ⟨row, ?_, hstate, hsame⟩
          rw [hfound, if_neg hid]
          exact hsome
      · exact .inr hlate
  · rcases List.mem_cons.mp hmem with rfl | hmem
    · exact hidentified
    · exact h.identified other hmem

/-- No other worker holds the claim of a worker. -/
theorem others (h : PushFenced rules t clock claims sends (worker :: rest)) {claim : PushDelivery}
    (hclaim : worker.claim? = some claim) : ∀ other ∈ rest, ∀ key,
      some (claim.deliveryId, claim.sendAttempts) = some key → other.holds key = false := by
  intro other hmem key hkey
  cases hkey
  have hsingle := h.single (claim.deliveryId, claim.sendAttempts)
  rw [List.countP_cons, PushWorker.holds, hclaim, Option.any_some, decide_eq_true rfl, if_pos rfl]
    at hsingle
  have hnone : rest.countP (·.holds (claim.deliveryId, claim.sendAttempts)) = 0 := by omega
  exact eq_false_of_ne_true (List.countP_eq_zero.mp hnone other hmem)

/-- A worker finishes its claim. -/
theorem finish (h : PushFenced rules t clock claims sends (worker :: rest)) {claim : PushDelivery}
    (hclaim : worker.claim? = some claim)
    (hmoves : PushDeliveries.Moves clock (some (claim.deliveryId, claim.sendAttempts)) t t')
    (hnext : worker'.claim? = none) (hidentified : worker'.Identified rules) :
    PushFenced rules t' clock claims sends (worker' :: rest) :=
  (h.drop.moves hmoves (h.others hclaim)).idle hnext hidentified

end PushFenced

/-- A receipt moves its delivery, and leaves the clock, the claims and the sends. -/
theorem PushState.receipt_moves (rules : PushRules) (delivery : PushDelivery)
    (delivered invalidToken : Bool) (s : PushState) :
    let s' := s.receipt rules delivery delivered invalidToken
    PushDeliveries.Moves s.clock none s.deliveries s'.deliveries ∧ s'.clock = s.clock ∧
      s'.claims = s.claims ∧ s'.sends = s.sends := by
  dsimp only
  unfold PushState.receipt
  split
  · next hpending =>
    obtain ⟨stored, hstored, hstate⟩ := hpending
    have hmoves : PushDeliveries.Moves s.clock none s.deliveries
        (s.deliveries.update delivery.deliveryId fun row =>
          { row with
            state := if delivered = true then .delivered else .failed
            errorCode := if delivered = true then none else some "receipt_rejected"
            updatedAt := s.clock }) := by
      refine .update (by intro; rfl) fun row hrow => ?_
      obtain rfl : stored = row := Option.some.inj ((Option.mem_def.mp hstored).symm.trans hrow)
      refine .pending hstate rfl rfl ?_
      cases delivered <;> rfl
    dsimp only
    split
    · exact ⟨hmoves, rfl, rfl, rfl⟩
    · split
      · exact ⟨hmoves, rfl, rfl, rfl⟩
      · cases invalidToken <;> cases delivered <;> exact ⟨hmoves, rfl, rfl, rfl⟩
  · exact ⟨.refl _, rfl, rfl, rfl⟩

/-- The deliveries of a pool are fenced. -/
def Fenced (rules : PushRules) (s : PushState) (workers : List PushWorker) : Prop :=
  PushFenced rules s.deliveries s.clock s.claims s.sends workers

section Turns

variable {rules : PushRules} {s : PushState} {rest : List PushWorker}

/-- A dispatcher claims the send of its next job. -/
theorem Fenced.claim {userId token : String} {jobs : List PushJob} (input : PushInput)
    (h : Fenced rules s rest) :
    Fenced rules (PushWorker.claim rules input userId jobs token s).1
      ((PushWorker.claim rules input userId jobs token s).2.toList ++ rest) := by
  cases jobs with
  | nil => exact h
  | cons job jobs =>
    have hskipped : Fenced rules s (.dispatcher userId jobs (.ready token) :: rest) :=
      h.idle rfl trivial
    unfold PushWorker.claim
    dsimp only
    rcases s.deliveries.claimSend_cases rules s.clock userId job.itemId job.fingerprint token
      job.ownerTest with ⟨t', hsend, hmoves⟩ | ⟨claim, hsend, hid, hsending, hnext, hrow⟩
    · rw [hsend]
      have hmoved : Fenced rules { s with deliveries := t' }
          (.dispatcher userId jobs (.ready token) :: rest) :=
        PushFenced.idle (h.moves hmoves fun _ _ _ hkey => by cases hkey) rfl trivial
      split
      · exact hmoved
      · exact hskipped
      · split
        · exact hskipped
        · exact hmoved
    · rw [hsend]
      have hgranted : Fenced rules
          { s with deliveries := s.deliveries.put claim, claims := s.claims ++ [⟨claim, s.clock⟩] }
          (.dispatcher userId (job :: jobs) (.claimed token claim) :: rest) :=
        PushFenced.grant h hsending hnext hrow rfl rfl ⟨job, rfl, hid⟩
      split
      · exact hgranted
      · exact hskipped
      · split
        · exact hskipped
        · exact hgranted

/-- A dispatcher takes its turn. -/
theorem Fenced.dispatchTurn {userId : String} {jobs : List PushJob} {stage : PushStage}
    (input : PushInput) (h : Fenced rules s (.dispatcher userId jobs stage :: rest)) :
    Fenced rules (PushWorker.dispatchTurn rules input userId jobs stage s).1
      ((PushWorker.dispatchTurn rules input userId jobs stage s).2.toList ++ rest) := by
  have hidentified := PushFenced.identified h _ List.mem_cons_self
  have hheld := PushFenced.held h _ List.mem_cons_self
  cases stage with
  | listed =>
    unfold PushWorker.dispatchTurn
    dsimp only
    split
    · exact h.drop
    · exact PushFenced.idle h.drop rfl trivial
  | ready token => exact Fenced.claim input h.drop
  | claimed token claim =>
    unfold PushWorker.dispatchTurn
    dsimp only
    split
    · exact PushFenced.swap h rfl (.inl rfl) hidentified
    · exact PushFenced.swap h rfl (.inr rfl) trivial
  | checked token claim =>
    obtain ⟨job, hjob, hid⟩ := hidentified
    unfold PushWorker.dispatchTurn
    rw [Option.mem_def.mp hjob]
    change Fenced rules _ (.dispatcher userId jobs (.answered token claim input.answer) :: rest)
    refine PushFenced.post h ?_ rfl ?_ ?_ rfl rfl rfl hid
    · rfl
    · rfl
    · trivial
  | answered token claim answer =>
    cases answer with
    | accepted ticket =>
      unfold PushWorker.dispatchTurn
      dsimp only
      split
      · next deliveries haccepted =>
        exact PushFenced.finish h rfl (.accepted haccepted) rfl trivial
      · exact PushFenced.swap h rfl (.inl rfl) trivial
    | unregistered => exact PushFenced.swap h rfl (.inl rfl) trivial
    | failed retryable =>
      exact PushFenced.finish h rfl (.sendFailed (hheld claim rfl).1 retryable) rfl trivial
  | conflicted token claim =>
    exact PushFenced.finish h rfl (.sendFailed (hheld claim rfl).1 false) rfl trivial

/-- A worker takes its turn. -/
theorem Fenced.turn {worker : PushWorker} (input : PushInput)
    (h : Fenced rules s (worker :: rest)) :
    Fenced rules (worker.turn rules input s).1 ((worker.turn rules input s).2.toList ++ rest) := by
  cases worker with
  | dispatcher userId jobs stage => exact h.dispatchTurn input
  | poll deliveries =>
    cases deliveries with
    | nil => exact h.drop
    | cons delivery deliveries =>
      have hdropped : Fenced rules s rest := h.drop
      cases hreceipt : input.receipt with
      | none =>
        simp only [PushWorker.turn, PushWorker.pollTurn, hreceipt]
        exact PushFenced.idle hdropped rfl trivial
      | some receipt =>
        simp only [PushWorker.turn, PushWorker.pollTurn, hreceipt]
        obtain ⟨hmoves, hclock, hclaims, hsends⟩ :=
          s.receipt_moves rules delivery receipt.1 receipt.2
        have hmoved := PushFenced.moves hdropped hmoves fun _ _ _ hkey => by cases hkey
        rw [← hclock, ← hclaims, ← hsends] at hmoved
        exact PushFenced.idle hmoved rfl trivial

/-- A step keeps the deliveries fenced. -/
theorem Fenced.step {p : Pool PushState PushWorker} (h : Fenced rules p.shared p.workers)
    (op : PushStep) : Fenced rules (pushStep rules p op).shared (pushStep rules p op).workers := by
  have hspawn : ∀ {s : PushState} {workers : List PushWorker} {worker : PushWorker},
      Fenced rules s workers → worker.claim? = none → worker.Identified rules →
      Fenced rules s (workers ++ [worker]) := fun h hclaim hidentified =>
    PushFenced.perm (PushFenced.idle h hclaim hidentified) (List.perm_append_singleton _ _).symm
  cases op with
  | tick seconds => exact PushFenced.tick h seconds
  | register userId token =>
    rw [pushStep, PushState.register]
    split
    · exact h
    · exact h
  | revoke userId token => exact h
  | notify op => exact h
  | dispatch userId items localHour => exact hspawn h rfl trivial
  | ownerTest userId requestId localHour granted =>
    rw [pushStep]
    split
    · split
      · exact h
      · exact hspawn h rfl trivial
    · exact h
  | poll =>
    have hmoves : PushDeliveries.Moves p.shared.clock none p.shared.deliveries
        (p.shared.deliveries.claimReceipts p.shared.clock).2 := .claimReceipts _
    exact hspawn (PushFenced.moves h hmoves fun _ _ _ hkey => by cases hkey) rfl trivial
  | turn i input =>
    rcases p.turn_cases i (PushWorker.turn rules input) with
      hturn | ⟨before, worker, after, hworkers, -, hturn⟩
    · rw [pushStep, hturn]
      exact h
    · rw [hworkers] at h
      have hturned := Fenced.turn input (PushFenced.perm h List.perm_middle)
      rw [pushStep, hturn]
      refine PushFenced.perm hturned ?_
      rw [← List.append_assoc]
      exact List.perm_append_comm.append_right after
  | stop i =>
    rcases p.turn_cases i fun _ s => ((s, none) : PushState × Option PushWorker) with
      hturn | ⟨before, worker, after, hworkers, -, hturn⟩
    · rw [pushStep, hturn]
      exact h
    · rw [hworkers] at h
      rw [pushStep, hturn]
      rw [Option.toList_none, List.append_nil]
      exact PushFenced.drop (PushFenced.perm h List.perm_middle)

end Turns

namespace PushDeliveries

variable {t t' : PushDeliveries}

/-- No delivery that cannot be sent any more becomes one that can. -/
def Closes (t t' : PushDeliveries) : Prop :=
  ∀ id row, t.find? id = some row → row.state.sendable = false →
    ∃ row', t'.find? id = some row' ∧ row'.state.sendable = false

theorem Closes.refl (t : PushDeliveries) : Closes t t := fun _ row hrow hclosed =>
    ⟨row, hrow, hclosed⟩

theorem Closes.trans {t'' : PushDeliveries} (h : Closes t t') (h' : Closes t' t'') :
    Closes t t'' := by
  intro id row hrow hclosed
  obtain ⟨row', hrow', hclosed'⟩ := h id row hrow hclosed
  exact h' id row' hrow' hclosed'

theorem Moves.closes {now : ℕ} {acting : Option (String × ℕ)} (h : Moves now acting t t') :
    Closes t t' := by
  intro id row hrow hclosed
  obtain ⟨row', hrow', hmove⟩ := h.row hrow
  refine ⟨row', hrow', eq_false_of_ne_true fun hsendable => ?_⟩
  cases hclosed.symm.trans (hmove.sendable hsendable).1

/-- A failure is recorded of a delivery that is sending. -/
theorem Closes.sendFailed (now : ℕ) (claim : PushDelivery) (retryable : Bool) :
    Closes t (t.sendFailed now claim retryable) := by
  unfold PushDeliveries.sendFailed
  split
  · next hholds =>
    obtain ⟨stored, hstored, hsending, -⟩ := hholds
    intro id row hrow hclosed
    have hother : id ≠ claim.deliveryId := by
      rintro rfl
      obtain rfl : stored = row := Option.some.inj ((Option.mem_def.mp hstored).symm.trans hrow)
      rw [hsending] at hclosed
      cases hclosed
    exact ⟨row, (Table.find?_update_ne t hother).trans hrow, hclosed⟩
  · exact .refl t

/-- A claim is granted of a new delivery, or of one that can be sent. -/
theorem Closes.claimSend (rules : PushRules) (now : ℕ) (userId itemId fingerprint token : String)
    (ownerTest : Bool) :
    Closes t (t.claimSend rules now userId itemId fingerprint token ownerTest).2 := by
  rcases t.claimSend_cases rules now userId itemId fingerprint token ownerTest with
    ⟨t', hsend, hmoves⟩ | ⟨claim, hsend, -, -, -, hrow⟩
  · rw [hsend]
    exact hmoves.closes
  · rw [hsend]
    intro id row hsome hclosed
    have hother : claim.deliveryId ≠ id := by
      rintro rfl
      rcases hrow with ⟨hnone, -⟩ | ⟨stored, hstored, hsendable, -⟩
      · cases hnone.symm.trans hsome
      · obtain rfl : stored = row := Option.some.inj (hstored.symm.trans hsome)
        cases hclosed.symm.trans hsendable
    exact ⟨row, by rw [Table.find?_put, if_neg hother, hsome], hclosed⟩

end PushDeliveries

/-- A turn of a worker closes deliveries, and opens none. -/
theorem PushWorker.turn_closes (rules : PushRules) (input : PushInput) (worker : PushWorker)
    (s : PushState) : s.deliveries.Closes (worker.turn rules input s).1.deliveries := by
  cases worker with
  | poll deliveries =>
    cases deliveries with
    | nil => exact .refl _
    | cons delivery deliveries =>
      cases hreceipt : input.receipt with
      | none =>
        simp only [turn, pollTurn, hreceipt]
        exact .refl _
      | some receipt =>
        simp only [turn, pollTurn, hreceipt]
        exact (s.receipt_moves rules delivery receipt.1 receipt.2).1.closes
  | dispatcher userId jobs stage =>
    cases stage with
    | listed =>
      unfold turn dispatchTurn
      dsimp only
      split <;> exact .refl _
    | ready token =>
      cases jobs with
      | nil => exact .refl _
      | cons job jobs =>
        have hclaimed : s.deliveries.Closes (s.deliveries.claimSend rules s.clock userId job.itemId
            job.fingerprint token job.ownerTest).2 := .claimSend _ _ _ _ _ _ _
        unfold turn dispatchTurn claim
        dsimp only
        split
        · split <;> exact hclaimed
        · exact .refl _
        · split
          · exact .refl _
          · split <;> exact hclaimed
    | claimed token claim =>
      unfold turn dispatchTurn
      dsimp only
      split <;> exact .refl _
    | checked token claim => exact .refl _
    | answered token claim answer =>
      cases answer with
      | accepted ticket =>
        unfold turn dispatchTurn
        dsimp only
        split
        · next deliveries haccepted =>
          exact (PushDeliveries.Moves.accepted haccepted).closes
        · exact .refl _
      | unregistered => exact .refl _
      | failed retryable => exact .sendFailed _ _ _
    | conflicted token claim => exact .sendFailed _ _ _

/-- No step opens a delivery that cannot be sent any more. -/
theorem pushStep_closes (rules : PushRules) (p : Pool PushState PushWorker) (op : PushStep) :
    p.shared.deliveries.Closes (pushStep rules p op).shared.deliveries := by
  cases op with
  | tick seconds => exact .refl _
  | register userId token =>
    rw [pushStep, PushState.register]
    split <;> exact .refl _
  | revoke userId token => exact .refl _
  | notify op => exact .refl _
  | dispatch userId items localHour => exact .refl _
  | ownerTest userId requestId localHour granted =>
    rw [pushStep]
    split
    · split <;> exact .refl _
    · exact .refl _
  | poll =>
    have hmoves : PushDeliveries.Moves p.shared.clock none p.shared.deliveries
        (p.shared.deliveries.claimReceipts p.shared.clock).2 := .claimReceipts _
    exact hmoves.closes
  | turn i input =>
    cases hworker : p.workers[i]? with
    | none =>
      rw [pushStep, Pool.turn_none hworker]
      exact .refl _
    | some worker =>
      rw [pushStep, Pool.shared_turn hworker]
      exact worker.turn_closes rules input p.shared
  | stop i =>
    cases hworker : p.workers[i]? with
    | none =>
      rw [pushStep, Pool.turn_none hworker]
      exact .refl _
    | some worker =>
      rw [pushStep, Pool.shared_turn hworker]
      exact .refl _

/-- A row that a receipt changes is that of the item and the fingerprint that were sent, is open,
and the token it was sent to is registered. -/
theorem PushState.receipt_delivers {rules : PushRules} {delivery : PushDelivery}
    {delivered invalidToken : Bool} {s : PushState} {row : NotificationRow}
    (hrow : row ∈ (s.receipt rules delivery delivered invalidToken).notifications.board.rows.rows)
    (hnew : row ∉ s.notifications.board.rows.rows) :
    row.userId = delivery.userId ∧ row.itemId = delivery.itemId ∧
      row.fingerprint = delivery.fingerprint ∧ row.active = true ∧
      ∃ token, s.registered? delivery.userId = some token ∧
        rules.tokenDigest token = delivery.tokenSha256 := by
  unfold PushState.receipt at hrow
  split at hrow
  · dsimp only at hrow
    split at hrow
    · exact absurd hrow hnew
    · next token htoken =>
      split at hrow
      · exact absurd hrow hnew
      · next hsame =>
        have hkept : row ∈ (s.notifications.board.markReceipt delivery.userId delivery.itemId
            delivery.fingerprint).rows.rows := by
          cases invalidToken <;> cases delivered
          · exact absurd hrow hnew
          · exact hrow
          · exact absurd hrow hnew
          · exact hrow
        obtain ⟨old, hold, rfl⟩ := List.mem_map.mp hkept
        split at hnew
        · next hmarked =>
          rw [if_pos hmarked]
          simp only [Bool.and_eq_true, beq_iff_eq] at hmarked
          obtain ⟨⟨⟨huser, hitem⟩, hfingerprint⟩, hactive⟩ := hmarked
          exact ⟨huser, hitem, hfingerprint, hactive, token, htoken, not_not.mp hsame⟩
        · exact absurd hold hnew
  · exact absurd hrow hnew

/-- In every run at most three sends are made of an item, its fingerprint and a token; claims of one
delivery are two minutes apart; a delivery that is pending, delivered, failed or expired is never
claimed again, and a send that is made of it is made after the lease of its claim or the delivery
has run out; a claim after which another one was granted changes nothing when it is finished; and a
receipt delivers only what is open with the fingerprint that was sent, while the token is
registered. -/
theorem push_delivery_fenced (rules : PushRules) (steps : List PushStep) :
    let p := run (pushStep rules) ⟨.initial, []⟩ steps
    (∀ userId itemId fingerprint token, p.shared.sends.countP (fun send =>
        send.userId = userId ∧ send.itemId = itemId ∧ send.fingerprint = fingerprint ∧
          send.token = token) ≤ maxSends) ∧
      (p.shared.claims.Pairwise fun a b =>
        a.delivery.deliveryId = b.delivery.deliveryId → a.grantedAt + 120 ≤ b.grantedAt) ∧
      (∀ before after, steps = before ++ after →
        (run (pushStep rules) ⟨.initial, []⟩ before).shared.deliveries.Closes p.shared.deliveries) ∧
      (∀ send ∈ p.shared.sends,
        (∃ row ∈ send.stored, row.state = .sending ∧ row.sendAttempts = send.claim.sendAttempts) ∨
          send.claim.nextAttemptAt ≤ send.sentAt ∨ send.claim.expiresAt ≤ send.sentAt) ∧
      (∀ claim ∈ p.shared.claims, ∀ later ∈ p.shared.claims,
        later.delivery.deliveryId = claim.delivery.deliveryId →
        claim.delivery.sendAttempts < later.delivery.sendAttempts → ∀ now ticket retryable,
          p.shared.deliveries.accepted now claim.delivery ticket = .ok p.shared.deliveries ∧
            p.shared.deliveries.sendFailed now claim.delivery retryable = p.shared.deliveries) ∧
      ∀ i input delivery rest, p.workers[i]? = some (.poll (delivery :: rest)) →
        ∀ row ∈ (pushStep rules p (.turn i input)).shared.notifications.board.rows.rows,
          row ∉ p.shared.notifications.board.rows.rows →
            row.userId = delivery.userId ∧ row.itemId = delivery.itemId ∧
              row.fingerprint = delivery.fingerprint ∧ row.active = true ∧
              ∃ token, p.shared.registered? delivery.userId = some token ∧
                rules.tokenDigest token = delivery.tokenSha256 := by
  intro p
  have hfenced : Fenced rules p.shared p.workers :=
    run_invariant' (I := fun p : Pool PushState PushWorker => Fenced rules p.shared p.workers)
      (fun p op h => h.step op) steps
      ⟨fun _ h => (by cases h), fun _ h => (by cases h), .nil, fun _ h => (by cases h),
        fun _ => Nat.zero_le _, fun _ => Nat.zero_le _, fun _ h => (by cases h),
        fun _ h => (by cases h), fun _ h => (by cases h), fun _ h => (by cases h)⟩
  refine ⟨fun userId itemId fingerprint token => ?_, hfenced.apart, ?_, hfenced.timely, ?_, ?_⟩
  · let id := rules.identity userId itemId fingerprint (rules.tokenDigest token)
    have hsent : p.shared.sends.countP (·.claim.deliveryId == id) ≤
      p.shared.deliveries.attempts id :=
      (Nat.le_add_right _ _).trans (hfenced.sent id)
    have hbounded : p.shared.deliveries.attempts id ≤ maxSends := by
      unfold PushDeliveries.attempts
      cases hrow : p.shared.deliveries.find? id with
      | none => exact Nat.zero_le _
      | some row => exact hfenced.bounded row (Table.mem_of_find? hrow).1
    refine (List.countP_mono_left fun send hmem hsend => ?_).trans (hsent.trans hbounded)
    obtain ⟨rfl, rfl, rfl, rfl⟩ := of_decide_eq_true hsend
    exact beq_iff_eq.mpr (hfenced.recorded send hmem)
  · rintro before after rfl
    simp only [p, run_append]
    exact run_monotone
      (R := fun p q : Pool PushState PushWorker =>
        p.shared.deliveries.Closes q.shared.deliveries) (fun _ => .refl _)
      (fun _ _ _ h h' => h.trans h') (pushStep_closes rules) _ after
  · intro claim _ later hlater hsame hless now ticket retryable
    have hpassed : ¬p.shared.deliveries.Holds claim.delivery := by
      rintro ⟨row, hrow, -, hattempts⟩
      obtain ⟨-, stored, hstored, hle, -⟩ := hfenced.leased later hlater
      rw [hsame] at hstored
      obtain rfl : stored = row := Option.some.inj (hstored.symm.trans hrow)
      omega
    exact ⟨if_neg hpassed, if_neg hpassed⟩
  · intro i input delivery rest hworker row hrow hnew
    rw [pushStep, Pool.shared_turn hworker] at hrow
    cases hreceipt : input.receipt with
    | none =>
      simp only [PushWorker.turn, PushWorker.pollTurn, hreceipt] at hrow
      exact absurd hrow hnew
    | some receipt =>
      simp only [PushWorker.turn, PushWorker.pollTurn, hreceipt] at hrow
      exact PushState.receipt_delivers hrow hnew

namespace PushSample

/-- Rules that keep strings. -/
def rules : PushRules where
  toNotificationRules := NotificationSample.rules
  strip := id
  tokenDigest := id
  identity userId itemId fingerprint token :=
    userId ++ "/" ++ itemId ++ "/" ++ fingerprint ++ "/" ++ token

/-- A turn of a worker that is answered with a ticket. -/
def turn (worker : ℕ) : PushStep := .turn worker ⟨true, 0, .accepted "ticket", none⟩

/-- A question is dispatched. -/
def dispatch : PushStep := .dispatch "captain" [NotificationSample.question "1"] none

/-- A dispatcher claims a send and checks its token; two minutes later another one claims it, sends
and records its ticket; and then the first one sends. -/
def slow : Pool PushState PushWorker :=
  run (pushStep rules) ⟨.initial, []⟩
    [.register "captain" "ExponentPushToken[phone]", dispatch, turn 0, turn 0, turn 0, .tick 120,
      dispatch, turn 1, turn 1, turn 1, turn 1, turn 1, turn 0]

end PushSample

open PushSample

/-- The second send follows a ticket: the delivery is pending when it is made. -/
theorem push_sent_while_pending :
    slow.shared.sends.map (fun send => (send.userId, send.itemId, send.fingerprint, send.token)) =
        [("captain", "question", "1", "ExponentPushToken[phone]"),
          ("captain", "question", "1", "ExponentPushToken[phone]")] ∧
      slow.shared.sends.map (fun send => send.stored.map (·.state)) =
      [some .sending, some .pending] := by
  constructor <;> decide

end Magistrate
