import Mathlib.Logic.Relation
import Magistrate.Core.Rewrite
import Magistrate.Gateway.Pi.Dispatches

/-!
# Stages of dispatches

An accepted envelope takes its dispatch from one stage to the next until the stage that
it reports, and changes nothing where the dispatch is there already. So over a run a
dispatch ends once, its turn is answered once, and an entry of the source has one owner.
-/

namespace Magistrate

open Relation

/-- The stages that follow one another. -/
inductive PiState.Follows : PiState → PiState → Prop
  | bind : Follows .prepared .bound
  | finalize : Follows .bound .finalized
  | reject : Follows .prepared .failed
  | fail : Follows .bound .failed

/-- A stage that none follows. -/
def PiState.closed (state : PiState) : Bool := decide (state = .finalized ∨ state = .failed)

/-- A dispatch at a stage has reached what an envelope reports. -/
def PiEventType.reachedBy : PiEventType → PiState → Bool
  | .prepared, _ => true
  | .bound, state => decide (state ≠ .prepared)
  | .finalized, state | .failed, state => state.closed

/-- What one stage makes of a dispatch. -/
inductive SemanticDispatch.Moves (d : SemanticDispatch) : SemanticDispatch → Prop
  | bind (e : PiOwnershipEnvelope) (sequenceHash envelopeHash : PyText) (now : ℤ)
      (h : d.state = .prepared) : Moves d (d.bind e sequenceHash envelopeHash now)
  | finalize (e : PiOwnershipEnvelope) (sequenceHash envelopeHash : PyText) (bytes : ℕ) (now : ℤ)
      (h : d.state = .bound) : Moves d (d.finalize e sequenceHash envelopeHash bytes now)
  | fail (code : Option PyText) (envelopeHash : PyText) (now : ℤ)
      (h : d.state = .prepared ∨ d.state = .bound) : Moves d (d.fail code envelopeHash now)

section Stages

variable {state state' : PiState} {d d' other : SemanticDispatch}

theorem PiState.Follows.reachedBy (h : state.Follows state') {event : PiEventType}
    (hreached : event.reachedBy state = true) : event.reachedBy state' = true := by
  cases event with
  | prepared => rfl
  | bound => cases h <;> rfl
  | finalized => cases h <;> cases hreached
  | failed => cases h <;> cases hreached

/-- What was reached stays reached. -/
theorem reachedBy_of_stages (h : ReflTransGen PiState.Follows state state') {event : PiEventType}
    (hreached : event.reachedBy state = true) : event.reachedBy state' = true := by
  induction h with
  | refl => exact hreached
  | tail _ hlast ih => exact hlast.reachedBy ih

/-- What is closed stays as it is. -/
theorem closed_of_stages (h : ReflTransGen PiState.Follows state state')
    (hclosed : state.closed = true) : state' = state := by
  induction h with
  | refl => rfl
  | tail _ hlast ih =>
    subst ih
    cases hlast <;> cases hclosed

theorem reachedBy_of_closed (h : state.closed = true) (event : PiEventType) :
    event.reachedBy state = true := by
  cases event with
  | prepared => rfl
  | bound => cases state <;> first | rfl | cases h
  | finalized | failed => exact h

theorem SemanticDispatch.Moves.follows (h : d.Moves d') : d.state.Follows d'.state := by
  cases h with
  | bind _ _ _ _ h => exact h ▸ .bind
  | finalize _ _ _ _ _ h => exact h ▸ .finalize
  | fail _ _ _ h =>
    rcases h with h | h
    · exact h ▸ .reject
    · exact h ▸ .fail

theorem SemanticDispatch.Moves.same (h : d.Moves d') :
    d'.dispatchIncarnation = d.dispatchIncarnation ∧ d'.turnId = d.turnId := by
  cases h <;> exact ⟨rfl, rfl⟩

theorem SemanticDispatch.collides_comm : d.collides other = other.collides d := by
  have hkey (a b : Option (PyText × PyText)) :
      (a.isSome && decide (a = b)) = (b.isSome && decide (b = a)) := by
    cases a <;> cases b <;> simp [eq_comm]
  simp only [collides, hkey d.entryKeys.1, hkey d.entryKeys.2, ne_comm (a := d.dispatchIncarnation)]

theorem SemanticDispatch.collides_of_eq (h : d.dispatchIncarnation = other.dispatchIncarnation) :
    d.collides other = false := by
  simp [collides, h]

end Stages

namespace PiStore

variable {s s' m : PiStore} {d d' d₁ : SemanticDispatch}

/-- The messages of a turn. -/
def textsOf (turn : PyText) (s : PiStore) : List CaptainMessage :=
  s.messages.rows.filter fun message => message.turnId = turn

/-- No two dispatches share a turn or an entry of the source, and each began prepared. -/
structure Sound (s : PiStore) : Prop where
  turns : ∀ d ∈ s.dispatches.rows, ∀ other ∈ s.dispatches.rows, d.turnId = other.turnId → d = other
  entries : ∀ d ∈ s.dispatches.rows, ∀ other ∈ s.dispatches.rows, d.collides other = false
  started : ∀ d ∈ s.dispatches.rows, ReflTransGen PiState.Follows .prepared d.state

/-- One dispatch is replaced by one that is as far or further. -/
structure Replaces (s s' : PiStore) (d d' : SemanticDispatch) : Prop where
  found : s.dispatches.find? d.dispatchIncarnation = some d
  rows : s'.dispatches.rows = s.dispatches.rows.map fun r =>
    if r.dispatchIncarnation = d.dispatchIncarnation then d' else r
  incarnation : d'.dispatchIncarnation = d.dispatchIncarnation
  turn : d'.turnId = d.turnId
  free : ∀ other ∈ s.dispatches.rows, d'.collides other = false
  stages : ReflTransGen PiState.Follows d.state d'.state

namespace Replaces

theorem of_update (hfound : s.dispatches.find? d.dispatchIncarnation = some d)
    {f : SemanticDispatch → SemanticDispatch}
    (hf : ∀ d, (f d).dispatchIncarnation = d.dispatchIncarnation)
    (hs : s'.dispatches = s.dispatches.update d.dispatchIncarnation f hf)
    (hturn : (f d).turnId = d.turnId)
    (hfree : ∀ other ∈ s.dispatches.rows, (f d).collides other = false)
    (hstages : ReflTransGen PiState.Follows d.state (f d).state) : s.Replaces s' d (f d) where
  found := hfound
  rows := by
    rw [hs, Table.rows_update]
    refine List.map_congr_left fun r hr => ?_
    split
    · next hkey => rw [Table.eq_of_mem hr (Table.mem_of_find? hfound).1 hkey]
    · rfl
  incarnation := hf d
  turn := hturn
  free := hfree
  stages := hstages

/-- A row after the replacement is the new one or another row from before. -/
theorem mem (h : s.Replaces s' d d') {r : SemanticDispatch} (hr : r ∈ s'.dispatches.rows) :
    r = d' ∨ r ∈ s.dispatches.rows ∧ r.dispatchIncarnation ≠ d.dispatchIncarnation := by
  rw [h.rows] at hr
  obtain ⟨q, hq, rfl⟩ := List.mem_map.mp hr
  split
  · exact .inl rfl
  · next hkey => exact .inr ⟨hq, hkey⟩

theorem find?_self (h : s.Replaces s' d d') :
    s'.dispatches.find? d.dispatchIncarnation = some d' := by
  rw [← h.incarnation]
  refine Table.find?_of_mem ?_
  rw [h.rows]
  refine List.mem_map.mpr ⟨d, (Table.mem_of_find? h.found).1, if_pos rfl⟩

theorem find?_ne (h : s.Replaces s' d d') {k : PyText} {r : SemanticDispatch}
    (hk : k ≠ d.dispatchIncarnation) (hr : s.dispatches.find? k = some r) :
    s'.dispatches.find? k = some r := by
  obtain ⟨hmem, rfl⟩ := Table.mem_of_find? hr
  refine Table.find?_of_mem ?_
  rw [h.rows]
  exact List.mem_map.mpr ⟨r, hmem, if_neg hk⟩

theorem trans (h : s.Replaces m d d₁) (h' : m.Replaces s' d₁ d') : s.Replaces s' d d' where
  found := h.found
  rows := by
    rw [h'.rows, h.rows, List.map_map]
    refine List.map_congr_left fun r _ => ?_
    simp only [Function.comp_apply, h.incarnation]
    split
    · exact if_pos h.incarnation
    · rfl
  incarnation := h'.incarnation.trans h.incarnation
  turn := h'.turn.trans h.turn
  free := fun other hother => by
    by_cases hkey : other.dispatchIncarnation = d.dispatchIncarnation
    · refine SemanticDispatch.collides_of_eq ?_
      rw [h'.incarnation, h.incarnation, hkey]
    · refine h'.free other ?_
      rw [h.rows]
      exact List.mem_map.mpr ⟨other, hother, if_neg hkey⟩
  stages := h.stages.trans h'.stages

theorem sound (h : s.Replaces s' d d') (hs : s.Sound) : s'.Sound := by
  have hd := (Table.mem_of_find? h.found).1
  have hother : ∀ r ∈ s.dispatches.rows, r.dispatchIncarnation ≠ d.dispatchIncarnation →
      r.turnId ≠ d'.turnId := by
    intro r hr hkey hturn
    exact hkey (congrArg _ (hs.turns r hr d hd (hturn.trans h.turn)))
  refine ⟨fun a ha b hb hturn => ?_, fun a ha b hb => ?_, fun a ha => ?_⟩
  · rcases h.mem ha with rfl | ⟨ha, hakey⟩ <;> rcases h.mem hb with rfl | ⟨hb, hbkey⟩
    · rfl
    · exact absurd hturn.symm (hother b hb hbkey)
    · exact absurd hturn (hother a ha hakey)
    · exact hs.turns a ha b hb hturn
  · rcases h.mem ha with rfl | ⟨ha, hakey⟩ <;> rcases h.mem hb with rfl | ⟨hb, hbkey⟩
    · exact SemanticDispatch.collides_of_eq rfl
    · exact h.free b hb
    · rw [SemanticDispatch.collides_comm]
      exact h.free a ha
    · exact hs.entries a ha b hb
  · rcases h.mem ha with rfl | ⟨ha, -⟩
    · exact (hs.started d hd).trans h.stages
    · exact hs.started a ha

end Replaces

/-- A dispatch is taken further, and only a final text of its turn is written. -/
structure Takes (s s' : PiStore) (d d' : SemanticDispatch) : Prop where
  replaces : s.Replaces s' d d'
  moves : ReflTransGen SemanticDispatch.Moves d d'
  texts : ∀ turn, s'.textsOf turn ≠ s.textsOf turn → turn = d.turnId ∧ d'.state = .finalized

namespace Takes

theorem of_update (hfound : s.dispatches.find? d.dispatchIncarnation = some d)
    {f : SemanticDispatch → SemanticDispatch}
    (hf : ∀ d, (f d).dispatchIncarnation = d.dispatchIncarnation)
    (hs : s'.dispatches = s.dispatches.update d.dispatchIncarnation f hf)
    (hmoves : d.Moves (f d))
    (hfree : ∀ other ∈ s.dispatches.rows, (f d).collides other = false)
    (htexts : ∀ turn, s'.textsOf turn ≠ s.textsOf turn →
      turn = d.turnId ∧ (f d).state = .finalized) : s.Takes s' d (f d) :=
  ⟨.of_update hfound hf hs hmoves.same.2 hfree (.single hmoves.follows), .single hmoves, htexts⟩

theorem trans (h : s.Takes m d d₁) (h' : m.Takes s' d₁ d')
    (hsame : ∀ turn, m.textsOf turn = s.textsOf turn) : s.Takes s' d d' := by
  refine ⟨h.replaces.trans h'.replaces, h.moves.trans h'.moves, fun turn hturn => ?_⟩
  rw [← hsame turn] at hturn
  exact h.replaces.turn ▸ h'.texts turn hturn

end Takes

section Effects

variable {digest : PiDigest} {now : ℤ} {user target capability : PyText} {row : OwnedDispatch}
  {e : PiOwnershipEnvelope} {sequenceHash envelopeHash : PyText}

theorem moveDispatch_eq_ok (hfound : s.dispatches.find? d.dispatchIncarnation = some d)
    {state : PiState} {f : SemanticDispatch → SemanticDispatch} {concurrent : String}
    {hf : ∀ d, (f d).dispatchIncarnation = d.dispatchIncarnation} :
    s.moveDispatch d state f concurrent hf = .ok s' ↔ d.state = state ∧
      s' = { s with dispatches := s.dispatches.update d.dispatchIncarnation f hf } := by
  simp only [moveDispatch, hfound, Option.all_some, bind_eq_ok, raiseIf_eq_ok, pure_eq_ok,
    decide_eq_true_eq, not_not, exists_and_left, exists_const, eq_comm (a := s')]

theorem checkEntries_eq_ok {failure : PiFailure} {u : Unit} :
    (s.checkEntries d).mapError (fun _ => failure) = .ok u ↔
      ∀ other ∈ s.dispatches.rows, d.collides other = false := by
  rw [mapError_eq_ok, checkEntries, raiseIf_eq_ok]
  simp

theorem recordMessageChange_eq_ok {id : PyText} (h : s.recordMessageChange id = .ok s') :
    ∃ changes, s' = { s with changes := changes } := by
  simp only [recordMessageChange, bind_eq_ok, raiseIf_eq_ok, pure_eq_ok] at h
  obtain ⟨-, -, -, -, rfl⟩ := h
  exact ⟨_, rfl⟩

/-- The final message belongs to the turn of the dispatch. -/
theorem upsertFinalMessage_eq_ok {text : PyText} {result : ℕ × Bool}
    (h : s.upsertFinalMessage now row text = .ok (result, s')) :
    s'.dispatches = s.dispatches ∧
      ∀ turn, turn ≠ row.dispatch.turnId → s'.textsOf turn = s.textsOf turn := by
  unfold upsertFinalMessage at h
  cases hfound : s.messages.find? row.dispatch.assistantMessageId with
  | none =>
    simp only [hfound, bind_eq_ok, raiseIf_eq_ok, pure_eq_ok, Prod.mk.injEq] at h
    obtain ⟨-, -, s₁, hchange, -, rfl⟩ := h
    obtain ⟨changes, rfl⟩ := recordMessageChange_eq_ok hchange
    refine ⟨rfl, fun turn hturn => ?_⟩
    have hrow : ¬row.dispatch.turnId = turn := fun h => hturn h.symm
    dsimp only [textsOf]
    rw [Table.rows_insertOrIgnore hfound, List.filter_append, List.filter_singleton]
    simp [hrow]
  | some existing =>
    simp only [hfound, bind_eq_ok, raiseIf_eq_ok] at h
    obtain ⟨-, hplace, -, -, h⟩ := h
    rw [not_or, not_not] at hplace
    split at h
    · simp only [bind_eq_ok, pure_eq_ok, Prod.mk.injEq] at h
      obtain ⟨s₁, hchange, -, rfl⟩ := h
      obtain ⟨changes, rfl⟩ := recordMessageChange_eq_ok hchange
      refine ⟨rfl, fun turn hturn => ?_⟩
      have hrow : decide (existing.turnId = turn) = false := by
        rw [hplace.1]
        exact decide_eq_false fun h => hturn h.symm
      exact Table.filter_update (f := .revise text (row.turnSequence * 1000 + 999) now)
        (by intro; rfl) (p := fun message => message.turnId = turn) hfound hrow hrow
    · obtain ⟨-, rfl⟩ := Prod.mk.inj (pure_eq_ok.mp h)
      exact ⟨rfl, fun _ _ => rfl⟩

/-- An answer of a bound dispatch closes it. -/
theorem settleFinal_eq_ok (hs : s.Sound)
    (hfound : s.dispatches.find? row.dispatch.dispatchIncarnation = some row.dispatch)
    {answer : PyText × ℕ} {reply : PiReply}
    (h : s.settleFinal now row e answer sequenceHash envelopeHash = .ok (reply, s')) :
    ∃ d', s.Takes s' row.dispatch d' ∧ d'.state.closed = true := by
  have hmem := (Table.mem_of_find? hfound).1
  unfold settleFinal at h
  dsimp only at h
  split at h
  · simp only [bind_eq_ok, pure_eq_ok, Prod.mk.injEq] at h
    obtain ⟨s₁, hmove, -, rfl⟩ := h
    obtain ⟨hstate, rfl⟩ := (moveDispatch_eq_ok hfound).mp hmove
    refine ⟨_, .of_update hfound (by intro; rfl) rfl (.fail _ _ _ (.inr hstate))
      (fun other hother => (hs.entries row.dispatch hmem other hother :)) ?_, rfl⟩
    exact fun turn hturn => absurd rfl hturn
  · simp only [bind_eq_ok, pure_eq_ok, Prod.mk.injEq, Prod.exists] at h
    obtain ⟨revision, changed, s₁, hupsert, _, hentries, s₂, hmove, -, rfl⟩ := h
    obtain ⟨hdispatches, htexts⟩ := upsertFinalMessage_eq_ok hupsert
    rw [← hdispatches] at hfound
    obtain ⟨hstate, rfl⟩ := (moveDispatch_eq_ok (by exact hfound)).mp hmove
    have hfree := checkEntries_eq_ok.mp hentries
    rw [hdispatches] at hfound
    refine ⟨_, .of_update hfound (by intro; rfl) ?_
      (.finalize e sequenceHash envelopeHash answer.2 now hstate) (hdispatches ▸ hfree)
      fun turn hturn => ⟨?_, rfl⟩, rfl⟩
    · exact congrArg (fun t : Table SemanticDispatch.dispatchIncarnation => t.update _ _)
        hdispatches
    · by_contra hother
      exact hturn (htexts turn hother)

/-- A binding is taken by a prepared dispatch only. -/
theorem applyBinding_eq_ok (hfound : s.dispatches.find? d.dispatchIncarnation = some d)
    {status : PiStatus}
    (h : s.applyBinding now d e sequenceHash envelopeHash = .ok (status, s')) :
    d.state = .bound ∧ s' = s ∨
      d.state = .prepared ∧ s.Takes s' d (d.bind e sequenceHash envelopeHash now) ∧
        ∀ turn, s'.textsOf turn = s.textsOf turn := by
  unfold applyBinding at h
  simp only [bind_eq_ok, orRaise_eq_ok, raiseIf_eq_ok] at h
  obtain ⟨boundAt, -, -, -, -, -, -, -, h⟩ := h
  cases hstate : d.state with
  | finalized =>
    simp only [hstate] at h
    cases h
  | failed =>
    simp only [hstate] at h
    cases h
  | bound =>
    simp only [hstate, bind_eq_ok, pure_eq_ok, Prod.mk.injEq] at h
    obtain ⟨-, -, -, rfl⟩ := h
    exact .inl ⟨rfl, rfl⟩
  | prepared =>
    simp only [hstate, bind_eq_ok, pure_eq_ok, Prod.mk.injEq] at h
    obtain ⟨-, -, _, hentries, s₁, hmove, -, rfl⟩ := h
    obtain ⟨-, rfl⟩ := (moveDispatch_eq_ok hfound).mp hmove
    refine .inr ⟨rfl, .of_update hfound (by intro; rfl) rfl (.bind _ _ _ _ hstate)
      (checkEntries_eq_ok.mp hentries) ?_, fun _ => rfl⟩
    exact fun turn hturn => absurd rfl hturn

/-- A failure closes a dispatch that is not closed. -/
theorem applyFailure_eq_ok (hs : s.Sound)
    (hfound : s.dispatches.find? row.dispatch.dispatchIncarnation = some row.dispatch)
    {reply : PiReply} (h : s.applyFailure now row e envelopeHash = .ok (reply, s')) :
    row.dispatch.state = .failed ∧ s' = s ∨
      row.dispatch.state.closed = false ∧
        ∃ d', s.Takes s' row.dispatch d' ∧ d'.state.closed = true := by
  have hmem := (Table.mem_of_find? hfound).1
  have htakes (hopen : row.dispatch.state = .prepared ∨ row.dispatch.state = .bound)
      (turns : Table CaptainTurn.id) : s.Takes
        { s with
          dispatches := s.dispatches.update row.dispatch.dispatchIncarnation
            (SemanticDispatch.fail e.errorCode envelopeHash now)
          turns := turns }
        row.dispatch (row.dispatch.fail e.errorCode envelopeHash now) :=
    .of_update hfound (by intro; rfl) rfl (.fail _ _ _ hopen)
      (fun other hother => (hs.entries row.dispatch hmem other hother :))
      fun turn hturn => absurd rfl hturn
  unfold applyFailure at h
  cases hstate : row.dispatch.state with
  | finalized =>
    simp only [hstate] at h
    cases h
  | failed =>
    simp only [hstate, bind_eq_ok, pure_eq_ok, Prod.mk.injEq] at h
    obtain ⟨-, -, -, rfl⟩ := h
    exact .inl ⟨rfl, rfl⟩
  | prepared | bound =>
    simp only [hstate, pure_eq_ok, Prod.mk.injEq] at h
    obtain ⟨-, rfl⟩ := h
    refine .inr ⟨rfl, row.dispatch.fail e.errorCode envelopeHash now, ?_, rfl⟩
    split
    · exact htakes (by simp [hstate]) s.turns
    · exact htakes (by simp [hstate]) _

/-- An answer closes a dispatch that is not closed, and binds it before where it is not bound. -/
theorem applyFinal_eq_ok (hs : s.Sound)
    (hfound : s.dispatches.find? row.dispatch.dispatchIncarnation = some row.dispatch)
    (hkey : e.dispatchIncarnation = row.dispatch.dispatchIncarnation)
    {answer : PyText × ℕ} {reply : PiReply}
    (h : s.applyFinal digest now user target row e answer sequenceHash envelopeHash =
      .ok (reply, s')) :
    row.dispatch.state.closed = true ∧ s' = s ∨
      row.dispatch.state.closed = false ∧
        ∃ d', s.Takes s' row.dispatch d' ∧ d'.state.closed = true := by
  unfold applyFinal at h
  simp only [bind_eq_ok, orRaise_eq_ok, raiseIf_eq_ok] at h
  obtain ⟨boundAt, -, finalizedAt, -, -, -, -, -, h⟩ := h
  cases hstate : row.dispatch.state with
  | finalized | failed =>
    simp only [hstate, bind_eq_ok, pure_eq_ok, Prod.mk.injEq] at h
    obtain ⟨-, -, -, rfl⟩ := h
    exact .inl ⟨rfl, rfl⟩
  | prepared =>
    simp only [hstate, bind_eq_ok, orRaise_eq_ok, if_true, Prod.exists] at h
    obtain ⟨position, -, status, s₁, hbinding, other, hother, hsettle⟩ := h
    rcases applyBinding_eq_ok hfound hbinding with ⟨hbound, -⟩ | ⟨-, htakes, hsame⟩
    · rw [hstate] at hbound
      cases hbound
    · have hread := (ownedRow_eq_ok.mp hother).1
      rw [hkey, htakes.replaces.find?_self] at hread
      have hbound : s₁.dispatches.find? other.dispatch.dispatchIncarnation =
          some other.dispatch := by
        rw [← Option.some.inj hread]
        exact htakes.replaces.find?_self
      obtain ⟨d', htakes', hclosed⟩ := settleFinal_eq_ok (htakes.replaces.sound hs) hbound hsettle
      rw [← Option.some.inj hread] at htakes'
      exact .inr ⟨rfl, d', htakes.trans htakes' hsame, hclosed⟩
  | bound =>
    simp only [hstate, bind_eq_ok, orRaise_eq_ok, raiseIf_eq_ok, reduceCtorEq, if_false] at h
    obtain ⟨position, -, -, -, -, -, hsettle⟩ := h
    exact .inr ⟨rfl, settleFinal_eq_ok hs hfound hsettle⟩

/-- An accepted envelope changes nothing where its dispatch has reached what it reports, and takes
the dispatch there otherwise. -/
theorem deliver_eq_ok (hs : s.Sound) {delivery : PiDelivery} {reply : PiReply}
    (h : s.deliver digest delivery = .ok (reply, s')) :
    ∃ d, s.dispatches.find? delivery.envelope.dispatchIncarnation = some d ∧
      (delivery.envelope.eventType.reachedBy d.state = true ∧ s' = s ∨
        delivery.envelope.eventType.reachedBy d.state = false ∧
          ∃ d', s.Takes s' d d' ∧ delivery.envelope.eventType.reachedBy d'.state = true) := by
  simp only [deliver, applyPiOwnershipEnvelope, bind_eq_ok, Prod.exists] at h
  obtain ⟨-, -, sequenceHash, text, bytes, -, row, hrow, -, -, h⟩ := h
  have hread := (ownedRow_eq_ok.mp hrow).1
  have hkey := (Table.mem_of_find? hread).2
  have hfound := hread
  rw [← hkey] at hfound
  refine ⟨row.dispatch, hread, ?_⟩
  cases hevent : delivery.envelope.eventType with
  | prepared =>
    simp only [hevent, pure_eq_ok, Prod.mk.injEq] at h
    exact .inl ⟨rfl, h.2.symm⟩
  | failed =>
    simp only [hevent] at h
    rcases applyFailure_eq_ok hs hfound h with ⟨hstate, hsame⟩ | htaken
    · exact .inl ⟨by rw [hstate]; rfl, hsame⟩
    · exact .inr htaken
  | bound =>
    simp only [hevent, bind_eq_ok, pure_eq_ok, Prod.mk.injEq, Prod.exists] at h
    obtain ⟨status, s₁, hbinding, -, rfl⟩ := h
    rcases applyBinding_eq_ok hfound hbinding with ⟨hstate, hsame⟩ | ⟨hstate, htakes, -⟩
    · exact .inl ⟨by rw [hstate]; rfl, hsame⟩
    · exact .inr ⟨by rw [hstate]; rfl, _, htakes, rfl⟩
  | finalized =>
    simp only [hevent] at h
    exact applyFinal_eq_ok hs hfound hkey.symm h

end Effects

section Runs

variable {digest : PiDigest}

/-- Every dispatch is found again, of the same turn, and is as far or further. -/
def Onward (s s' : PiStore) : Prop :=
  ∀ k d, s.dispatches.find? k = some d → ∃ d', s'.dispatches.find? k = some d' ∧
    d'.turnId = d.turnId ∧ ReflTransGen PiState.Follows d.state d'.state

theorem Onward.of_eq (h : s'.dispatches = s.dispatches) : s.Onward s' := by
  intro k d hd
  exact ⟨d, h ▸ hd, rfl, .refl⟩

theorem Onward.trans (h : s.Onward m) (h' : m.Onward s') : s.Onward s' := by
  intro k d hd
  obtain ⟨d₁, hd₁, hturn, hstages⟩ := h k d hd
  obtain ⟨d', hd', hturn', hstages'⟩ := h' k d₁ hd₁
  exact ⟨d', hd', hturn'.trans hturn, hstages.trans hstages'⟩

/-- What a step makes of the dispatches. -/
inductive Effect (s s' : PiStore) : Prop
  | same (h : s'.dispatches = s.dispatches)
  | replaces {d d' : SemanticDispatch} (h : s.Replaces s' d d')
  | prepares {d : SemanticDispatch} (hstate : d.state = .prepared)
      (hkeys : d.entryKeys = (none, none)) (hfree : ∀ r ∈ s.dispatches.rows, d.clashes r = false)
      (h : s'.dispatches = s.dispatches.insertOrIgnore d)

namespace Effect

theorem onward (h : s.Effect s') : s.Onward s' := by
  cases h with
  | same h => exact .of_eq h
  | @replaces d d' h =>
    intro k r hr
    by_cases hk : k = d.dispatchIncarnation
    · obtain rfl : d = r := Option.some.inj (h.found.symm.trans (hk ▸ hr))
      exact ⟨d', hk ▸ h.find?_self, h.turn, h.stages⟩
    · exact ⟨r, h.find?_ne hk hr, rfl, .refl⟩
  | prepares _ _ _ h =>
    intro k r hr
    refine ⟨r, ?_, rfl, .refl⟩
    obtain ⟨hmem, rfl⟩ := Table.mem_of_find? hr
    rw [h]
    exact Table.find?_of_mem (Table.mem_insertOrIgnore_of_mem hmem)

theorem sound (h : s.Effect s') (hs : s.Sound) : s'.Sound := by
  cases h with
  | same h => exact ⟨h ▸ hs.turns, h ▸ hs.entries, h ▸ hs.started⟩
  | replaces h => exact h.sound hs
  | @prepares d hstate hkeys hfree h =>
    have hturn : ∀ r ∈ s.dispatches.rows, d.turnId ≠ r.turnId := by
      intro r hr heq
      simpa [SemanticDispatch.clashes, heq] using hfree r hr
    have hentries : ∀ r, d.collides r = false := by
      intro r
      simp [SemanticDispatch.collides, hkeys]
    refine ⟨fun a ha b hb heq => ?_, fun a ha b hb => ?_, fun a ha => ?_⟩
    · rw [h] at ha hb
      rcases Table.mem_insertOrIgnore ha with hold | ⟨-, rfl⟩ <;>
        rcases Table.mem_insertOrIgnore hb with hold' | ⟨-, rfl⟩
      · exact hs.turns a hold b hold' heq
      · exact absurd heq.symm (hturn a hold)
      · exact absurd heq (hturn b hold')
      · rfl
    · rw [h] at ha hb
      rcases Table.mem_insertOrIgnore ha with ha | ⟨-, rfl⟩
      · rcases Table.mem_insertOrIgnore hb with hb | ⟨-, rfl⟩
        · exact hs.entries a ha b hb
        · rw [SemanticDispatch.collides_comm]
          exact hentries a
      · exact hentries b
    · rw [h] at ha
      rcases Table.mem_insertOrIgnore ha with ha | ⟨-, rfl⟩
      · exact hs.started a ha
      · exact hstate ▸ .refl

end Effect

/-- A dispatch that is prepared was there, or is free of the others. -/
theorem prepareDispatch_effect {now : ℤ} {structured : Bool} {draws : List (PyText × PyText)}
    {p : PiPrompt} (h : s.prepareDispatch digest now structured draws p = .ok (d, s')) :
    s.Effect s' := by
  unfold prepareDispatch at h
  obtain ⟨-, -, h⟩ := bind_eq_ok.mp h
  cases hfound : s.dispatches.rows.find? fun d => d.turnId = p.turnId with
  | some existing =>
    simp only [hfound, bind_eq_ok, pure_eq_ok, Prod.mk.injEq] at h
    obtain ⟨-, -, -, -, -, rfl⟩ := h
    exact .same rfl
  | none =>
    simp only [hfound, bind_eq_ok, orRaise_eq_ok, pure_eq_ok, Prod.mk.injEq] at h
    obtain ⟨-, -, -, -, d, hdraw, rfl, rfl⟩ := h
    obtain ⟨draw, -, rfl⟩ := List.mem_map.mp (List.mem_of_find?_eq_some hdraw)
    have hfree := List.find?_some hdraw
    rw [Bool.not_eq_true', List.any_eq_false] at hfree
    exact .prepares rfl rfl (fun r hr => Bool.eq_false_iff.mpr (hfree r hr)) rfl

/-- Columns that neither name the turn nor an entry of the source may change. -/
theorem effect_update (hs : s.Sound) (k : PyText) {f : SemanticDispatch → SemanticDispatch}
    (hf : ∀ d, (f d).dispatchIncarnation = d.dispatchIncarnation)
    (hturn : ∀ d, (f d).turnId = d.turnId) (hkeys : ∀ d, (f d).entryKeys = d.entryKeys)
    (hstate : ∀ d, (f d).state = d.state) :
    s.Effect { s with dispatches := s.dispatches.update k f hf } := by
  cases hfound : s.dispatches.find? k with
  | none =>
    have hsame : s.dispatches.update k f hf = s.dispatches := Table.update_eq_self fun r hr => by
      rw [hfound] at hr
      cases hr
    exact .same hsame
  | some d =>
    obtain ⟨hmem, rfl⟩ := Table.mem_of_find? hfound
    refine .replaces (.of_update hfound hf rfl (hturn d) (fun other hother => ?_) ?_)
    · have hcollides := hs.entries d hmem other hother
      rwa [SemanticDispatch.collides, ← hf d, ← hkeys d] at hcollides
    · rw [hstate]

/-- A step replaces one dispatch at most, or prepares one. -/
theorem next_effect (hs : s.Sound) (digest : PiDigest) (step : PiStep) :
    s.Effect (s.next digest step) := by
  cases step with
  | prepare now structured draws prompt =>
    cases hprepared : s.prepareDispatch digest now structured draws prompt with
    | error failure =>
      rw [next, hprepared]
      exact .same rfl
    | ok result =>
      rw [next, hprepared]
      exact prepareDispatch_effect hprepared
  | deliver delivery =>
    cases hdelivered : s.deliver digest delivery with
    | error failure =>
      rw [next, hdelivered]
      exact .same rfl
    | ok result =>
      rw [next, hdelivered]
      obtain ⟨d, -, ⟨-, hsame⟩ | ⟨-, d', htakes, -⟩⟩ := deliver_eq_ok hs hdelivered
      · exact .same (congrArg PiStore.dispatches hsame)
      · exact .replaces htakes.replaces
  | acknowledge now user target incarnation acceptedSha256 =>
    cases hacknowledged : s.markAdapterAcknowledged now user target incarnation acceptedSha256 with
    | error failure =>
      rw [next, hacknowledged]
      exact .same rfl
    | ok s' =>
      rw [next, hacknowledged]
      simp only [markAdapterAcknowledged, bind_eq_ok, pure_eq_ok] at hacknowledged
      obtain ⟨-, -, row, -, -, -, rfl⟩ := hacknowledged
      rw [commit_ok]
      split
      · exact effect_update hs incarnation (by intro; rfl) (fun _ => rfl) (fun _ => rfl)
          fun _ => rfl
      · exact .same rfl
  | attempt now incarnation =>
    exact effect_update hs incarnation (by intro; rfl) (fun _ => rfl) (fun _ => rfl) fun _ => rfl
  | others conversations turns messages changes => exact .same rfl

theorem Sound.run (hs : s.Sound) (steps : List PiStep) : (run (next digest) s steps).Sound :=
  run_invariant' (I := Sound) (fun _ step h => (next_effect h digest step).sound h) steps hs

theorem Sound.empty : PiStore.empty.Sound := by
  constructor <;> simp [PiStore.empty]

/-- Over a run every dispatch goes on. -/
theorem Sound.onward (hs : s.Sound) (digest : PiDigest) (steps : List PiStep) :
    s.Onward (Magistrate.run (next digest) s steps) := by
  induction steps generalizing s with
  | nil => exact .of_eq rfl
  | cons step steps ih =>
    have heffect := next_effect hs digest step
    exact heffect.onward.trans (ih (heffect.sound hs))

end Runs

/-- What is promised of the envelopes that a database is given. -/
structure Lawful (digest : PiDigest) (s : PiStore) : Prop where
  stages : ∀ d ∈ s.dispatches.rows, ReflTransGen PiState.Follows .prepared d.state ∧
    ∀ later, ∃ d' ∈ (run (next digest) s later).dispatches.rows,
      d'.dispatchIncarnation = d.dispatchIncarnation ∧
      ReflTransGen PiState.Follows d.state d'.state ∧ (d.state.closed = true → d'.state = d.state)
  transaction : ∀ delivery reply s', s.deliver digest delivery = .ok (reply, s') →
    s.next digest (.deliver delivery) = s' ∧ ∃ d d',
      s.dispatches.find? delivery.envelope.dispatchIncarnation = some d ∧
      s'.dispatches.find? delivery.envelope.dispatchIncarnation = some d' ∧
      ReflTransGen SemanticDispatch.Moves d d'
  owners : ∀ d ∈ s.dispatches.rows, ∀ other ∈ s.dispatches.rows,
    d.entryKeys.1 ≠ none ∧ d.entryKeys.1 = other.entryKeys.1 ∨
      d.entryKeys.2 ≠ none ∧ d.entryKeys.2 = other.entryKeys.2 → d.turnId = other.turnId
  texts : ∀ delivery turn,
    (s.next digest (.deliver delivery)).textsOf turn ≠ s.textsOf turn → ∀ later again,
      let t := run (next digest) (s.next digest (.deliver delivery)) later
      (t.next digest (.deliver again)).textsOf turn = t.textsOf turn
  duplicates : ∀ delivery reply s', s.deliver digest delivery = .ok (reply, s') →
    ∀ later again, again.envelope = delivery.envelope →
      (run (next digest) s' later).next digest (.deliver again) = run (next digest) s' later
  rejected : ∀ delivery failure, s.deliver digest delivery = .error failure →
    s.next digest (.deliver delivery) = s

/-- A text of a turn is written by an envelope that finalizes its dispatch. -/
theorem Sound.written (hs : s.Sound) {digest : PiDigest} {delivery : PiDelivery} {turn : PyText}
    (h : (s.next digest (.deliver delivery)).textsOf turn ≠ s.textsOf turn) :
    ∃ d d', s.Takes (s.next digest (.deliver delivery)) d d' ∧ turn = d.turnId ∧
      d.state.closed = false ∧ d'.state = .finalized := by
  cases hdelivered : s.deliver digest delivery with
  | error failure =>
    rw [next, hdelivered] at h
    exact absurd rfl h
  | ok result =>
    have hnext : s.next digest (.deliver delivery) = result.2 := by
      rw [next, hdelivered]
      rfl
    rw [hnext] at h ⊢
    obtain ⟨d, -, ⟨-, hsame⟩ | ⟨hopen, d', htakes, hreached⟩⟩ := deliver_eq_ok hs hdelivered
    · rw [hsame] at h
      exact absurd rfl h
    · obtain ⟨hturn, hstate⟩ := htakes.texts turn h
      refine ⟨d, d', htakes, hturn, ?_, hstate⟩
      refine Bool.eq_false_iff.mpr fun hclosed => ?_
      rw [reachedBy_of_closed hclosed] at hopen
      exact Bool.false_ne_true hopen.symm

/-- What is accepted is what the next database is. -/
theorem next_of_ok {digest : PiDigest} {delivery : PiDelivery} {reply : PiReply}
    (h : s.deliver digest delivery = .ok (reply, s')) : s.next digest (.deliver delivery) = s' := by
  rw [next, h]
  rfl

/-- A turn whose dispatch is finalized is not written any more. -/
theorem Sound.written_once (hs : s.Sound) {digest : PiDigest} {delivery : PiDelivery}
    {turn : PyText} (h : (s.next digest (.deliver delivery)).textsOf turn ≠ s.textsOf turn)
    (later : List PiStep)
    (again : PiDelivery) :
    let t := Magistrate.run (next digest) (s.next digest (.deliver delivery)) later
    (t.next digest (.deliver again)).textsOf turn = t.textsOf turn := by
  intro t
  obtain ⟨d, d', htakes, hturn, -, hfinal⟩ := hs.written h
  have hsound := htakes.replaces.sound hs
  have ht : t.Sound := hsound.run later
  obtain ⟨d₂, hd₂, hturn₂, hstages⟩ := hsound.onward digest later _ _ htakes.replaces.find?_self
  have hclosed : d₂.state = .finalized :=
    (closed_of_stages hstages (by rw [hfinal]; rfl)).trans hfinal
  by_contra hwritten
  obtain ⟨d₃, _, htakes₃, hturn₃, hopen, -⟩ := ht.written hwritten
  have hsame : d₂ = d₃ := by
    refine ht.turns d₂ (Table.mem_of_find? hd₂).1 d₃
      (Table.mem_of_find? htakes₃.replaces.found).1 ?_
    rw [hturn₂, htakes.replaces.turn, ← hturn, hturn₃]
  rw [← hsame, hclosed] at hopen
  cases hopen

/-- An envelope that was accepted changes nothing any more. -/
theorem Sound.delivered_once (hs : s.Sound) {digest : PiDigest} {delivery again : PiDelivery}
    {reply : PiReply} (h : s.deliver digest delivery = .ok (reply, s'))
    (henvelope : again.envelope = delivery.envelope) (later : List PiStep) :
    (Magistrate.run (next digest) s' later).next digest (.deliver again) =
      Magistrate.run (next digest) s' later := by
  have hsound : s'.Sound := next_of_ok h ▸ (next_effect hs digest _).sound hs
  obtain ⟨d', hd', hreached⟩ : ∃ d',
      s'.dispatches.find? delivery.envelope.dispatchIncarnation = some d' ∧
      delivery.envelope.eventType.reachedBy d'.state = true := by
    obtain ⟨d, hd, ⟨hreached, rfl⟩ | ⟨-, d', htakes, hreached⟩⟩ := deliver_eq_ok hs h
    · exact ⟨d, hd, hreached⟩
    · refine ⟨d', ?_, hreached⟩
      rw [← (Table.mem_of_find? hd).2]
      exact htakes.replaces.find?_self
  obtain ⟨d₂, hd₂, -, hstages⟩ := hsound.onward digest later _ _ hd'
  have ht : (Magistrate.run (next digest) s' later).Sound := hsound.run later
  generalize Magistrate.run (next digest) s' later = t at hd₂ ht
  cases hagain : t.deliver digest again with
  | error failure =>
    rw [next, hagain]
    rfl
  | ok result =>
    obtain ⟨d₃, hd₃, ⟨-, hsame⟩ | ⟨hopen, -⟩⟩ := deliver_eq_ok ht hagain
    · exact (next_of_ok hagain).trans hsame
    · rw [henvelope] at hd₃ hopen
      rw [← Option.some.inj (hd₂.symm.trans hd₃), reachedBy_of_stages hstages hreached] at hopen
      cases hopen

/-- Every run keeps what is promised. -/
theorem Sound.lawful (hs : s.Sound) (digest : PiDigest) : s.Lawful digest where
  stages := fun d hd => by
    refine ⟨hs.started d hd, fun later => ?_⟩
    obtain ⟨d', hd', -, hstages⟩ := hs.onward digest later _ _ (Table.find?_of_mem hd)
    obtain ⟨hmem, hkey⟩ := Table.mem_of_find? hd'
    exact ⟨d', hmem, hkey, hstages, closed_of_stages hstages⟩
  transaction := fun delivery reply s' h => by
    refine ⟨next_of_ok h, ?_⟩
    obtain ⟨d, hd, ⟨-, rfl⟩ | ⟨-, d', htakes, -⟩⟩ := deliver_eq_ok hs h
    · exact ⟨d, d, hd, hd, .refl⟩
    · refine ⟨d, d', hd, ?_, htakes.moves⟩
      rw [← (Table.mem_of_find? hd).2]
      exact htakes.replaces.find?_self
  owners := fun d hd other hother hshared => by
    have hfree := hs.entries d hd other hother
    by_contra hturn
    have hne : d.dispatchIncarnation ≠ other.dispatchIncarnation := fun hkey =>
      hturn (congrArg _ (Table.eq_of_mem hd hother hkey))
    rcases hshared with ⟨hsome, heq⟩ | ⟨hsome, heq⟩
    · simp [SemanticDispatch.collides, hne, ← heq, Option.isSome_iff_ne_none.mpr hsome] at hfree
    · simp [SemanticDispatch.collides, hne, ← heq, Option.isSome_iff_ne_none.mpr hsome] at hfree
  texts := fun _ _ h later again => hs.written_once h later again
  duplicates := fun _ _ _ h later _ henvelope => hs.delivered_once h henvelope later
  rejected := fun delivery failure h => by
    rw [next, h]
    rfl

end PiStore

/-- Over every sequence of steps a dispatch goes from prepared to bound to finalized, or fails
before it is finalized; an entry of the source is owned by one turn, a turn is answered once, and
an envelope that was accepted or is rejected changes nothing. -/
theorem pi_ownership_lawful (digest : PiDigest) (steps : List PiStep) :
    (run (PiStore.next digest) .empty steps).Lawful digest :=
  (PiStore.Sound.empty.run steps).lawful digest

end Magistrate
