import Magistrate.Frontend.Activity.Store

/-!
# Merging versions of one history

Where all rows are versions of the records of one history, two rows of one id and
one revision agree, and no two records share a sequence. Of the checks of the
merges there remain those of identities and of revisions.
-/

namespace Magistrate.Frontend

open CanonicalActivityRecord

namespace CanonicalActivityRecord

variable {previous activity : CanonicalActivityRecord}

/-- The members that `stableIdentityMatches` compares. -/
def identity (r : CanonicalActivityRecord) :
    ℤ × String × Option String × Option String × Option String × String × Option String :=
  (r.sequence, kindFamily r.kind, r.taskId, r.decisionKey, r.objectiveId, r.sourceInstanceId,
    r.sourceEventId)

theorem stableIdentityMatches_iff :
    previous.stableIdentityMatches activity = true ↔ previous.identity = activity.identity := by
  simp only [stableIdentityMatches, identity, Bool.and_eq_true, decide_eq_true_eq, Prod.mk.injEq,
    and_assoc]

theorem stableIdentityMatches_eq_false :
    previous.stableIdentityMatches activity = false ↔ previous.identity ≠ activity.identity := by
  rw [← Bool.not_eq_true, stableIdentityMatches_iff]

@[simp] theorem id_withDelivery (r : CanonicalActivityRecord) (n : ℤ) :
    (r.withDelivery n).id = r.id := rfl

@[simp] theorem revision_withDelivery (r : CanonicalActivityRecord) (n : ℤ) :
    (r.withDelivery n).revision = r.revision := rfl

@[simp] theorem identity_withDelivery (r : CanonicalActivityRecord) (n : ℤ) :
    (r.withDelivery n).identity = r.identity := rfl

@[simp] theorem withDelivery_withDelivery (r : CanonicalActivityRecord) (m n : ℤ) :
    (r.withDelivery m).withDelivery n = r.withDelivery n := rfl

/-- Two records that differ in their delivery numbers at most. -/
def Alike (r s : CanonicalActivityRecord) : Prop := r.withDelivery 0 = s.withDelivery 0

theorem sameRevisionContent_iff :
    previous.sameRevisionContent activity = true ↔ Alike previous activity := by
  rw [sameRevisionContent, decide_eq_true_eq, Alike]

namespace Alike

variable {r s t : CanonicalActivityRecord}

theorem symm (h : Alike r s) : Alike s r := Eq.symm h

theorem trans (h : Alike r s) (h' : Alike s t) : Alike r t := Eq.trans h h'

theorem withDelivery (r : CanonicalActivityRecord) (n : ℤ) : Alike (r.withDelivery n) r := rfl

theorem id (h : Alike r s) : r.id = s.id := by
  simpa using congrArg CanonicalActivityRecord.id (show r.withDelivery 0 = s.withDelivery 0 from h)

theorem revision (h : Alike r s) : r.revision = s.revision := by
  simpa using
    congrArg CanonicalActivityRecord.revision (show r.withDelivery 0 = s.withDelivery 0 from h)

theorem identity (h : Alike r s) : r.identity = s.identity := by
  simpa using
    congrArg CanonicalActivityRecord.identity (show r.withDelivery 0 = s.withDelivery 0 from h)

end Alike

end CanonicalActivityRecord

/-- Records that are versions of one history, under any delivery numbers. -/
structure Authentic (V : CanonicalActivityRecord → Prop) : Prop where
  one : ∀ r s, V r → V s → r.id = s.id → r.revision = s.revision → Alike r s
  placed : ∀ r s, V r → V s → r.sequence = s.sequence → r.id = s.id
  delivered : ∀ r n, V r → V (r.withDelivery n)

/-- All rows meet a condition. -/
def Held (V : CanonicalActivityRecord → Prop) (t : Table CanonicalActivityRecord.id) : Prop :=
  ∀ r ∈ t.rows, V r

section Writes

/-- A held row yields to a later revision, under its own delivery number. -/
def raiseHeld (t : Table CanonicalActivityRecord.id) (activity : CanonicalActivityRecord) :
    Table CanonicalActivityRecord.id :=
  match t.find? activity.id with
  | none => t
  | some previous =>
    if previous.revision < activity.revision then
      t.put (activity.withDelivery previous.deliverySequence)
    else t

/-- A row takes the place of the held one, unless that is later. -/
def putLatest (t : Table CanonicalActivityRecord.id) (activity : CanonicalActivityRecord) :
    Table CanonicalActivityRecord.id :=
  match t.find? activity.id with
  | none => t.put activity
  | some previous =>
    if activity.revision < previous.revision then t
    else if activity.revision = previous.revision then
      t.put (previous.withDelivery (max previous.deliverySequence activity.deliverySequence))
    else t.put activity

variable {V : CanonicalActivityRecord → Prop} {t t' : Table CanonicalActivityRecord.id}
  {a : CanonicalActivityRecord} {baseline : Bool} {snapshotCursor : ℤ}

theorem find?_raiseHeld (t : Table CanonicalActivityRecord.id) (a : CanonicalActivityRecord)
    (k : String) : (raiseHeld t a).find? k =
      if a.id = k then (t.find? k).map fun p =>
        if p.revision < a.revision then a.withDelivery p.deliverySequence else p
      else t.find? k := by
  cases hp : t.find? a.id with
  | none =>
    simp only [raiseHeld, hp]
    by_cases hk : a.id = k
    · rw [if_pos hk, ← hk, hp, Option.map_none]
    · rw [if_neg hk]
  | some p =>
    by_cases hlt : p.revision < a.revision
    · simp only [raiseHeld, hp, if_pos hlt, Table.find?_put, id_withDelivery]
      by_cases hk : a.id = k
      · simp [← hk, hp, hlt]
      · simp [hk]
    · simp only [raiseHeld, hp, if_neg hlt]
      by_cases hk : a.id = k
      · simp [← hk, hp, hlt]
      · simp [hk]

theorem find?_putLatest (t : Table CanonicalActivityRecord.id) (a : CanonicalActivityRecord)
    (k : String) : (putLatest t a).find? k =
      if a.id = k then some (((t.find? k).map fun p =>
        if a.revision < p.revision then p
        else if a.revision = p.revision then
          p.withDelivery (max p.deliverySequence a.deliverySequence)
        else a).getD a)
      else t.find? k := by
  cases hp : t.find? a.id with
  | none =>
    simp only [putLatest, hp, Table.find?_put]
    by_cases hk : a.id = k
    · simp [← hk, hp]
    · simp [hk]
  | some p =>
    have hpid : p.id = a.id := (Table.mem_of_find? hp).2
    by_cases hlt : a.revision < p.revision
    · simp only [putLatest, hp, if_pos hlt]
      by_cases hk : a.id = k
      · simp only [← hk, hp, if_true, Option.map_some, Option.getD_some, if_pos hlt]
      · simp [hk]
    · by_cases heq : a.revision = p.revision
      · simp only [putLatest, hp, if_neg hlt, if_pos heq, Table.find?_put, id_withDelivery, hpid]
        by_cases hk : a.id = k
        · simp only [← hk, hp, if_true, Option.map_some, Option.getD_some, if_neg hlt, if_pos heq]
        · simp [hk]
      · simp only [putLatest, hp, if_neg hlt, if_neg heq, Table.find?_put]
        by_cases hk : a.id = k
        · simp only [← hk, hp, if_true, Option.map_some, Option.getD_some, if_neg hlt, if_neg heq]
        · simp [hk]

/-- A row that is put is authentic with the others. -/
theorem Held.put (ht : Held V t) (ha : V a) : Held V (t.put a) := by
  intro r hr
  rcases Table.mem_put.mp hr with rfl | ⟨hr, -⟩
  · exact ha
  · exact ht r hr

theorem Held.find? (ht : Held V t) {k : String} {p : CanonicalActivityRecord}
    (h : t.find? k = some p) : V p := ht p (Table.mem_of_find? h).1

theorem Held.raiseHeld (hV : Authentic V) (ht : Held V t) (ha : V a) :
    Held V (raiseHeld t a) := by
  unfold Frontend.raiseHeld
  cases t.find? a.id with
  | none => exact ht
  | some p =>
    dsimp only
    split
    · exact ht.put (hV.delivered a _ ha)
    · exact ht

theorem Held.putLatest (hV : Authentic V) (ht : Held V t) (ha : V a) :
    Held V (putLatest t a) := by
  unfold Frontend.putLatest
  cases hp : t.find? a.id with
  | none => exact ht.put ha
  | some p =>
    dsimp only
    split
    · exact ht
    · split
      · exact ht.put (hV.delivered p _ (ht.find? hp))
      · exact ht.put ha

end Writes

section Checks

variable {V : CanonicalActivityRecord → Prop} {t t' : Table CanonicalActivityRecord.id}
  {a b p : CanonicalActivityRecord} {baseline : Bool} {snapshotCursor : ℤ}
  {seen unseen delivered : List CanonicalActivityRecord}

/-- The row that is held under the id of a record has its identity. -/
def IdentityKept (t : Table CanonicalActivityRecord.id) (a : CanonicalActivityRecord) : Prop :=
  ∀ p, t.find? a.id = some p → p.identity = a.identity

/-- No later revision of a record is held. -/
def NotOlder (t : Table CanonicalActivityRecord.id) (a : CanonicalActivityRecord) : Prop :=
  ∀ p, t.find? a.id = some p → p.revision ≤ a.revision

/-- A record is held, or need not be. -/
def KnownOr (baseline : Bool) (t : Table CanonicalActivityRecord.id)
    (a : CanonicalActivityRecord) : Prop :=
  t.find? a.id = none → baseline = true

/-- Rows of one id differ in their delivery numbers at most. -/
def Coherent (rows : List CanonicalActivityRecord) : Prop :=
  ∀ a ∈ rows, ∀ b ∈ rows, a.id = b.id → Alike a b

theorem mergeSeen_eq_some (hV : Authentic V) (ht : Held V t) (ha : V a) :
    mergeSeen baseline t a = some t' ↔
      (KnownOr baseline t a ∧ IdentityKept t a) ∧ raiseHeld t a = t' := by
  unfold mergeSeen raiseHeld KnownOr IdentityKept
  cases hp : t.find? a.id with
  | none => cases baseline <;> simp
  | some p =>
    by_cases hidentity : p.identity = a.identity
    · have hmatch := stableIdentityMatches_iff.mpr hidentity
      by_cases heq : a.revision = p.revision
      · have hsame := sameRevisionContent_iff.mpr
          (hV.one p a (ht.find? hp) ha (Table.mem_of_find? hp).2 heq.symm)
        simp [hmatch, heq, hsame, hidentity]
      · by_cases hlt : p.revision < a.revision <;> simp [hmatch, heq, hlt, hidentity]
    · have hmatch := stableIdentityMatches_eq_false.mpr hidentity
      simp [hmatch, hidentity]

theorem mergeUnseen_eq_some (hV : Authentic V) (ht : Held V t) (ha : V a) :
    mergeUnseen t a = some t' ↔ (IdentityKept t a ∧ NotOlder t a) ∧ t.put a = t' := by
  unfold mergeUnseen IdentityKept NotOlder
  cases hp : t.find? a.id with
  | none => simp
  | some p =>
    by_cases hidentity : p.identity = a.identity
    · have hmatch := stableIdentityMatches_iff.mpr hidentity
      by_cases hlt : a.revision < p.revision
      · simp [hlt, not_le.mpr hlt]
      · by_cases heq : a.revision = p.revision
        · have hsame := sameRevisionContent_iff.mpr
            (hV.one p a (ht.find? hp) ha (Table.mem_of_find? hp).2 heq.symm)
          simp [hmatch, heq, hsame, hidentity]
        · simp [hmatch, hlt, heq, hidentity, not_lt.mp hlt]
    · have hmatch := stableIdentityMatches_eq_false.mpr hidentity
      simp [hmatch, hidentity]

theorem mergeSnapshot_eq_some (hV : Authentic V) (ht : Held V t) (ha : V a) :
    mergeSnapshot snapshotCursor t a = some t' ↔
      (a.deliverySequence ≤ snapshotCursor ∧ IdentityKept t a) ∧ putLatest t a = t' := by
  unfold mergeSnapshot putLatest IdentityKept
  by_cases hcursor : snapshotCursor < a.deliverySequence
  · simp [hcursor, not_le.mpr hcursor]
  · rw [if_neg hcursor]
    cases hp : t.find? a.id with
    | none => simp [not_lt.mp hcursor]
    | some p =>
      by_cases hidentity : p.identity = a.identity
      · have hmatch := stableIdentityMatches_iff.mpr hidentity
        by_cases hlt : a.revision < p.revision
        · simp [hmatch, hlt, hidentity, not_lt.mp hcursor]
        · by_cases heq : a.revision = p.revision
          · have hsame := sameRevisionContent_iff.mpr
              (hV.one p a (ht.find? hp) ha (Table.mem_of_find? hp).2 heq.symm)
            simp [hmatch, heq, hsame, hidentity, not_lt.mp hcursor]
          · simp [hmatch, hlt, heq, hidentity, not_lt.mp hcursor]
      · have hmatch := stableIdentityMatches_eq_false.mpr hidentity
        simp [hmatch, hidentity]

/-- Raising a row whose identity is kept changes no check of another row. -/
theorem seen_checks_raiseHeld (hkept : IdentityKept t a) :
    KnownOr baseline (raiseHeld t a) b ∧ IdentityKept (raiseHeld t a) b ↔
      KnownOr baseline t b ∧ IdentityKept t b := by
  unfold KnownOr IdentityKept at *
  rw [find?_raiseHeld]
  split
  · next hid =>
    rw [hid] at hkept
    cases hp : t.find? b.id with
    | none => simp
    | some p =>
      have hidentity := hkept p hp
      by_cases hlt : p.revision < a.revision <;> simp [hlt, hidentity]
  · rfl

/-- Putting a row that is checked changes no check of a coherent one. -/
theorem unseen_checks_put (halike : a.id = b.id → Alike a b)
    (hok : IdentityKept t a ∧ NotOlder t a) :
    IdentityKept (t.put a) b ∧ NotOlder (t.put a) b ↔ IdentityKept t b ∧ NotOlder t b := by
  unfold IdentityKept NotOlder at *
  rw [Table.find?_put]
  split
  · next hid =>
    have hsame := halike hid
    rw [hid, hsame.identity, hsame.revision] at hok
    refine iff_of_true ⟨?_, ?_⟩ hok
    · rintro p ⟨⟩
      exact hsame.identity
    · rintro p ⟨⟩
      exact hsame.revision.le
  · rfl

/-- Putting the latest row keeps the checks of coherent ones. -/
theorem snapshot_checks_putLatest (halike : a.id = b.id → Alike a b) (hkept : IdentityKept t a) :
    b.deliverySequence ≤ snapshotCursor ∧ IdentityKept (putLatest t a) b ↔
      b.deliverySequence ≤ snapshotCursor ∧ IdentityKept t b := by
  refine and_congr_right' ?_
  unfold IdentityKept at *
  rw [find?_putLatest]
  split
  · next hid =>
    have hsame := (halike hid).identity
    rw [hid] at hkept
    cases hp : t.find? b.id with
    | none => simp [hsame]
    | some p =>
      have hidentity := (hkept p hp).trans hsame
      simp only [Option.map_some, Option.getD_some, Option.some.injEq, forall_eq']
      refine iff_of_true ?_ hidentity
      split
      · exact hidentity
      · split
        · exact hidentity
        · exact hsame
  · rfl

theorem foldlM_mergeSeen (hV : Authentic V) (ht : Held V t) (hseen : ∀ a ∈ seen, V a) :
    seen.foldlM (mergeSeen baseline) t = some t' ↔
      (∀ a ∈ seen, KnownOr baseline t a ∧ IdentityKept t a) ∧ seen.foldl raiseHeld t = t' :=
  foldlM_checked (I := Held V)
    (fun _ hs a ha _ => mergeSeen_eq_some hV hs (hseen a ha))
    (fun _ hs a ha _ => hs.raiseHeld hV (hseen a ha))
    (fun _ _ _ _ hok _ _ => seen_checks_raiseHeld hok.2) ht t'

theorem foldlM_mergeUnseen (hV : Authentic V) (ht : Held V t) (hunseen : ∀ a ∈ unseen, V a)
    (hcoherent : Coherent unseen) :
    unseen.foldlM mergeUnseen t = some t' ↔
      (∀ a ∈ unseen, IdentityKept t a ∧ NotOlder t a) ∧ unseen.foldl Table.put t = t' :=
  foldlM_checked (I := Held V)
    (fun _ hs a ha _ => mergeUnseen_eq_some hV hs (hunseen a ha))
    (fun _ hs a ha _ => hs.put (hunseen a ha))
    (fun _ _ a ha hok b hb => unseen_checks_put (hcoherent a ha b hb) hok) ht t'

theorem foldlM_mergeSnapshot (hV : Authentic V) (ht : Held V t)
    (hdelivered : ∀ a ∈ delivered, V a) (hcoherent : Coherent delivered) :
    delivered.foldlM (mergeSnapshot snapshotCursor) t = some t' ↔
      (∀ a ∈ delivered, a.deliverySequence ≤ snapshotCursor ∧ IdentityKept t a) ∧
        delivered.foldl putLatest t = t' :=
  foldlM_checked (I := Held V)
    (fun _ hs a ha _ => mergeSnapshot_eq_some hV hs (hdelivered a ha))
    (fun _ hs a ha _ => hs.putLatest hV (hdelivered a ha))
    (fun _ _ a ha hok b hb => snapshot_checks_putLatest (hcoherent a ha b hb) hok.2) ht t'

/-- A row after rows were raised: the one that was there, or one of the given rows. -/
theorem find?_foldl_raiseHeld (seen : List CanonicalActivityRecord)
    (t : Table CanonicalActivityRecord.id) (k : String) :
    (t.find? k = none → (seen.foldl raiseHeld t).find? k = none) ∧
    ∀ p, t.find? k = some p → ∃ q, (seen.foldl raiseHeld t).find? k = some q ∧
      p.revision ≤ q.revision ∧ (q = p ∨ ∃ b ∈ seen, b.id = k ∧ Alike q b) := by
  refine List.foldlRecOn (motive := fun u : Table CanonicalActivityRecord.id =>
    (t.find? k = none → u.find? k = none) ∧ ∀ p, t.find? k = some p → ∃ q, u.find? k = some q ∧
      p.revision ≤ q.revision ∧ (q = p ∨ ∃ b ∈ seen, b.id = k ∧ Alike q b)) seen raiseHeld
    ⟨id, fun p hp => ⟨p, hp, le_rfl, .inl rfl⟩⟩ fun u hu a ha => ?_
  rw [find?_raiseHeld]
  split
  · next hid =>
    refine ⟨fun hnone => by rw [hu.1 hnone, Option.map_none], fun p hp => ?_⟩
    obtain ⟨q, hq, hle, hfrom⟩ := hu.2 p hp
    rw [hq, Option.map_some]
    by_cases hlt : q.revision < a.revision
    · exact ⟨_, congrArg some (if_pos hlt), hle.trans hlt.le,
        .inr ⟨a, ha, hid, Alike.withDelivery a _⟩⟩
    · exact ⟨_, congrArg some (if_neg hlt), hle, hfrom⟩
  · exact hu

/-- The rows of a page, merged without a check. -/
def mergedPage (cursor : ℤ) (delivered : List CanonicalActivityRecord)
    (t : Table CanonicalActivityRecord.id) : Table CanonicalActivityRecord.id :=
  (delivered.filter (cursor < ·.deliverySequence)).foldl Table.put
    ((delivered.filter (·.deliverySequence ≤ cursor)).foldl raiseHeld t)

theorem Held.mergedPage (hV : Authentic V) (ht : Held V t) (hdelivered : ∀ a ∈ delivered, V a)
    (cursor : ℤ) : Held V (mergedPage cursor delivered t) :=
  List.foldlRecOn (motive := Held V) _ Table.put
    (List.foldlRecOn (motive := Held V) _ Frontend.raiseHeld ht
      fun _ hu a ha => hu.raiseHeld hV (hdelivered a (List.mem_of_mem_filter ha)))
    fun _ hu a ha => hu.put (hdelivered a (List.mem_of_mem_filter ha))

/-- After the rows that were seen, the checks of the others are as before. -/
theorem unseen_checks_seen (hcoherent : Coherent delivered) {cursor : ℤ}
    (hseen : ∀ a ∈ delivered.filter (·.deliverySequence ≤ cursor), IdentityKept t a)
    (ha : a ∈ delivered) :
    IdentityKept ((delivered.filter (·.deliverySequence ≤ cursor)).foldl raiseHeld t) a ∧
      NotOlder ((delivered.filter (·.deliverySequence ≤ cursor)).foldl raiseHeld t) a ↔
    IdentityKept t a ∧ NotOlder t a := by
  obtain ⟨hnone, hsome⟩ := find?_foldl_raiseHeld
    (delivered.filter (·.deliverySequence ≤ cursor)) t a.id
  unfold IdentityKept NotOlder at *
  cases hp : t.find? a.id with
  | none => simp [hnone hp]
  | some p =>
    obtain ⟨q, hq, hle, rfl | ⟨b, hb, hid, halike⟩⟩ := hsome p hp
    · simp [hq]
    · have hsame := hcoherent b (List.mem_of_mem_filter hb) a ha hid
      have hidentity : p.identity = a.identity :=
        (hseen b hb p (hid ▸ hp)).trans hsame.identity
      have hqa := halike.trans hsame
      simp only [hq, Option.some.injEq, forall_eq', hidentity, hqa.identity, hqa.revision,
        le_refl, and_self, true_and, true_iff]
      exact hle.trans hqa.revision.le

/-- A page is merged when its rows keep the identities that are held, those that were seen are held
or need not be, and no later revision of the others is held. -/
theorem mergePage_eq_some (hV : Authentic V) (ht : Held V t) (hdelivered : ∀ a ∈ delivered, V a)
    (hcoherent : Coherent delivered) {cursor : ℤ} :
    ((delivered.filter (·.deliverySequence ≤ cursor)).foldlM (mergeSeen baseline) t).bind
        ((delivered.filter (cursor < ·.deliverySequence)).foldlM mergeUnseen) = some t' ↔
      ((∀ a ∈ delivered, IdentityKept t a) ∧
        (∀ a ∈ delivered, a.deliverySequence ≤ cursor → KnownOr baseline t a) ∧
        ∀ a ∈ delivered, cursor < a.deliverySequence → NotOlder t a) ∧
      mergedPage cursor delivered t = t' := by
  have hseenV : ∀ a ∈ delivered.filter (·.deliverySequence ≤ cursor), V a := fun a ha =>
    hdelivered a (List.mem_of_mem_filter ha)
  have hunseenV : ∀ a ∈ delivered.filter (cursor < ·.deliverySequence), V a := fun a ha =>
    hdelivered a (List.mem_of_mem_filter ha)
  have hraised : Held V ((delivered.filter (·.deliverySequence ≤ cursor)).foldl raiseHeld t) :=
    List.foldlRecOn (motive := Held V) _ raiseHeld ht fun _ hu a ha => hu.raiseHeld hV (hseenV a ha)
  simp only [Option.bind_eq_some_iff, foldlM_mergeSeen hV ht hseenV]
  constructor
  · rintro ⟨mid, ⟨hseen, rfl⟩, hunseen⟩
    rw [foldlM_mergeUnseen hV hraised hunseenV
      fun a ha b hb => hcoherent a (List.mem_of_mem_filter ha) b (List.mem_of_mem_filter hb)]
      at hunseen
    have hchecks : ∀ a ∈ delivered, cursor < a.deliverySequence →
        IdentityKept t a ∧ NotOlder t a := fun a ha hlt =>
      (unseen_checks_seen hcoherent (fun b hb => (hseen b hb).2) ha).mp
        (hunseen.1 a (List.mem_filter.mpr ⟨ha, decide_eq_true hlt⟩))
    refine ⟨⟨fun a ha => ?_, fun a ha hle => ?_, fun a ha hlt => (hchecks a ha hlt).2⟩, hunseen.2⟩
    · rcases le_or_gt a.deliverySequence cursor with hle | hlt
      · exact (hseen a (List.mem_filter.mpr ⟨ha, decide_eq_true hle⟩)).2
      · exact (hchecks a ha hlt).1
    · exact (hseen a (List.mem_filter.mpr ⟨ha, decide_eq_true hle⟩)).1
  · rintro ⟨⟨hidentity, hknown, holder⟩, rfl⟩
    refine ⟨_, ⟨fun a ha => ?_, rfl⟩, ?_⟩
    · obtain ⟨hmem, hle⟩ := List.mem_filter.mp ha
      exact ⟨hknown a hmem (of_decide_eq_true hle), hidentity a hmem⟩
    · rw [foldlM_mergeUnseen hV hraised hunseenV
        fun a ha b hb => hcoherent a (List.mem_of_mem_filter ha) b (List.mem_of_mem_filter hb)]
      refine ⟨fun a ha => ?_, rfl⟩
      obtain ⟨hmem, hlt⟩ := List.mem_filter.mp ha
      exact (unseen_checks_seen hcoherent (fun b hb => hidentity b (List.mem_of_mem_filter hb))
        hmem).mpr ⟨hidentity a hmem, holder a hmem (of_decide_eq_true hlt)⟩

/-- The sequences of authentic rows are distinct. -/
theorem Held.nodup_sequences (hV : Authentic V) (ht : Held V t) :
    (t.rows.map (·.sequence)).Nodup := by
  refine (List.nodup_map_iff_inj_on t.unique.of_map).mpr fun r hr s hs hsequence => ?_
  exact Table.eq_of_mem hr hs (hV.placed r s (ht r hr) (ht s hs) hsequence)

end Checks

end Magistrate.Frontend
