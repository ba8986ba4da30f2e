import Magistrate.Gateway.Decisions.Store

/-!
# Decision snapshots

What a snapshot makes of a decision depends on the events of that decision only,
so a batch is a fold for each of its decisions. Merging one event twice is merging
it once, and from this a batch with one event for each decision is idempotent and
moves every revision by at most one.
-/

namespace Magistrate

open FirstmateDecisionStore

/-- An event is its payload, observed at a time. -/
theorem DecisionRequiredEvent.eq_of_payload {e f : DecisionRequiredEvent}
    (hpayload : e.payload = f.payload) (hobserved : e.observedAt = f.observedAt) : e = f := by
  cases e
  cases f
  simp only [payload, DecisionPayload.required.injEq] at hpayload
  simp_all

/-- The id of the decision that an event opens. -/
def DecisionRules.eventDecisionId (rules : DecisionRules) (owner source : String)
    (event : DecisionRequiredEvent) : String :=
  rules.decisionId owner source event.taskId event.lifecycleIdentity

namespace Decision

/-- An answer to the decision is being delivered or has been. -/
def inFlight (d : Decision) : Bool := d.state = .answering ∨ d.state = .answered

/-- A stored decision after an event of it. -/
def merged (rules : DecisionRules) (observedAt : ℕ) (now : ℤ) (event : DecisionRequiredEvent)
    (d : Decision) : Decision :=
  let sha256 := rules.payloadSha256 event.payload
  if d.state = .resolved ∨ d.state = .pending ∧ d.sourcePayloadSha256 ≠ sha256 then
    { d with request := event.request }.reopened event sha256 observedAt now
  else if d.state = .pending then { d with request := event.request }.observed observedAt now
  else d.observed observedAt now

variable {rules : DecisionRules} {observedAt : ℕ} {now : ℤ} {event : DecisionRequiredEvent}
  {d : Decision}

/-- A decision that was just observed stays as it is. -/
theorem observed_self (hobserved : d.sourceObservedAt = observedAt) (hupdated : d.updatedAt = now) :
    d.observed observedAt now = d := by
  subst hobserved hupdated
  rfl

/-- An event reopens a decision, or observes a pending one with its payload or one in flight. -/
theorem merged_cases (rules : DecisionRules) (observedAt : ℕ) (now : ℤ)
    (event : DecisionRequiredEvent) (d : Decision) :
    (d.state = .resolved ∨ d.state = .pending ∧
        d.sourcePayloadSha256 ≠ rules.payloadSha256 event.payload) ∧
      d.merged rules observedAt now event = { d with request := event.request }.reopened event
        (rules.payloadSha256 event.payload) observedAt now ∨
    (d.state = .pending ∧ d.sourcePayloadSha256 = rules.payloadSha256 event.payload) ∧
      d.merged rules observedAt now event =
        { d with request := event.request }.observed observedAt now ∨
    d.inFlight = true ∧ d.merged rules observedAt now event = d.observed observedAt now := by
  by_cases hsha : d.sourcePayloadSha256 = rules.payloadSha256 event.payload <;>
    cases hstate : d.state <;> simp [merged, hstate, hsha, inFlight]

theorem merged_inFlight (h : d.inFlight = true) :
    d.merged rules observedAt now event = d.observed observedAt now := by
  have hstate : d.state = .answering ∨ d.state = .answered := of_decide_eq_true h
  rcases hstate with hstate | hstate <;> simp [merged, hstate]

/-- A decision that is not in flight is pending with the payload of the event. -/
theorem merged_payload (rules : DecisionRules) (observedAt : ℕ) (now : ℤ)
    (event : DecisionRequiredEvent) {d : Decision} (h : d.inFlight = false) :
    (d.merged rules observedAt now event).state = .pending ∧
      (d.merged rules observedAt now event).sourcePayloadSha256 =
        rules.payloadSha256 event.payload ∧
      (d.merged rules observedAt now event).request = event.request := by
  rcases merged_cases rules observedAt now event d
    with ⟨-, heq⟩ | ⟨⟨hstate, hsha⟩, heq⟩ | ⟨hflight, -⟩
  · rw [heq]
    exact ⟨rfl, rfl, rfl⟩
  · rw [heq]
    exact ⟨hstate, hsha, rfl⟩
  · simp [h] at hflight

/-- A pending decision with the payload of an event is observed. -/
theorem merged_same (hstate : d.state = .pending)
    (hsha : d.sourcePayloadSha256 = rules.payloadSha256 event.payload)
    (hrequest : d.request = event.request) :
    d.merged rules observedAt now event = d.observed observedAt now := by
  simp [merged, hstate, hsha, ← hrequest]

/-- An event keeps what a decision is found by. -/
theorem merged_key : (d.merged rules observedAt now event).decisionId = d.decisionId ∧
    (d.merged rules observedAt now event).ownerUserId = d.ownerUserId ∧
    (d.merged rules observedAt now event).sourceInstanceId = d.sourceInstanceId ∧
    (d.merged rules observedAt now event).taskId = d.taskId ∧
    (d.merged rules observedAt now event).lifecycleIdentity = d.lifecycleIdentity := by
  rcases merged_cases rules observedAt now event d with ⟨-, heq⟩ | ⟨-, heq⟩ | ⟨-, heq⟩ <;>
    rw [heq] <;> exact ⟨rfl, rfl, rfl, rfl, rfl⟩

theorem merged_observedAt (rules : DecisionRules) (observedAt : ℕ) (now : ℤ)
    (event : DecisionRequiredEvent) (d : Decision) :
    (d.merged rules observedAt now event).sourceObservedAt = observedAt ∧
    (d.merged rules observedAt now event).updatedAt = now := by
  rcases merged_cases rules observedAt now event d with ⟨-, heq⟩ | ⟨-, heq⟩ | ⟨-, heq⟩ <;>
    rw [heq] <;> exact ⟨rfl, rfl⟩

theorem merged_inFlight_eq (rules : DecisionRules) (observedAt : ℕ) (now : ℤ)
    (event : DecisionRequiredEvent) (d : Decision) :
    (d.merged rules observedAt now event).inFlight = d.inFlight := by
  cases h : d.inFlight with
  | true => rw [merged_inFlight h]; exact h
  | false => simp [inFlight, (merged_payload rules observedAt now event h).1]

/-- A pending decision's revision does not fall, and rises when the payload is another. -/
theorem merged_revision (rules : DecisionRules) (observedAt : ℕ) (now : ℤ)
    (event : DecisionRequiredEvent) (hstate : d.state = .pending) :
    (d.merged rules observedAt now event).revision = d.revision ∧
        d.sourcePayloadSha256 = rules.payloadSha256 event.payload ∨
      (d.merged rules observedAt now event).revision = d.revision + 1 ∧
        d.sourcePayloadSha256 ≠ rules.payloadSha256 event.payload := by
  by_cases h : d.sourcePayloadSha256 = rules.payloadSha256 event.payload
  · exact .inl ⟨by simp [merged, hstate, h], h⟩
  · exact .inr ⟨by simp [merged, hstate, h], h⟩

/-- Merging an event again, or any event into a decision in flight, changes no more. -/
theorem merged_merged {event' : DecisionRequiredEvent}
    (h : d.inFlight = true ∨ event'.payload = event.payload) :
    (d.merged rules observedAt now event).merged rules observedAt now event' =
      d.merged rules observedAt now event := by
  cases hflight : d.inFlight with
  | true =>
    have hstays := merged_inFlight_eq rules observedAt now event d
    rw [merged_inFlight (hstays.trans hflight), merged_inFlight hflight]
  | false =>
    have hpayload : event'.payload = event.payload := by simpa [hflight] using h
    have hrequest : event'.request = event.request := by
      simp only [DecisionRequiredEvent.payload, DecisionPayload.required.injEq] at hpayload
      exact hpayload.2.2.2.2.2.2.2
    obtain ⟨hpending, hsha, hmerged⟩ := merged_payload rules observedAt now event hflight
    rw [merged_same hpending (by rw [hsha, hpayload]) (by rw [hmerged, hrequest])]
    obtain ⟨hobserved, hupdated⟩ := merged_observedAt rules observedAt now event d
    exact observed_self hobserved hupdated

end Decision

namespace FirstmateDecisionStore

/-- The stored event of a source identity. -/
def eventOf (owner source sourceEventId : String) (db : Decisions) : Option DecisionEvent :=
  db.events.rows.find? fun e => e.ownerUserId = owner ∧ e.sourceInstanceId = source ∧
    e.sourceEventId = sourceEventId

/-- The stored decision of an event. -/
def decisionOf (owner source : String) (event : DecisionRequiredEvent) (db : Decisions) :
    Option Decision :=
  db.decisions.rows.find? fun d => d.ownerUserId = owner ∧ d.sourceInstanceId = source ∧
    d.taskId = event.taskId ∧ d.lifecycleIdentity = event.lifecycleIdentity

theorem decisionOf_eq_some {owner source : String} {event : DecisionRequiredEvent} {db : Decisions}
    {d : Decision} (h : decisionOf owner source event db = some d) :
    db.decisions.find? d.decisionId = some d ∧ d.ownerUserId = owner ∧
      d.sourceInstanceId = source := by
  unfold decisionOf at h
  have hmatch := List.find?_some h
  obtain ⟨howner, hsource, -⟩ := of_decide_eq_true hmatch
  exact ⟨Table.find?_of_mem (List.mem_of_find?_eq_some h), howner, hsource⟩

/-- The row of a decision after an event of it. -/
def mergedRow (rules : DecisionRules) (owner source : String) (observedAt : ℕ) (now : ℤ)
    (row : Option Decision) (event : DecisionRequiredEvent) : Option Decision :=
  some (row.elim
    (newDecision owner (rules.eventDecisionId owner source event)
      (rules.payloadSha256 event.payload) event observedAt now)
    (Decision.merged rules observedAt now event))

/-- What is found by identities stays found under its key. -/
structure Grows (db db' : Decisions) : Prop where
  events : ∀ owner source eventId x, eventOf owner source eventId db = some x →
    eventOf owner source eventId db' = some x
  decisions : ∀ owner source event d, decisionOf owner source event db = some d →
    ∃ d', decisionOf owner source event db' = some d' ∧ d'.decisionId = d.decisionId

namespace Grows

variable {db db' db'' : Decisions}

theorem refl (db : Decisions) : Grows db db :=
  ⟨fun _ _ _ _ h => h, fun _ _ _ d h => ⟨d, h, rfl⟩⟩

theorem trans (h : Grows db db') (h' : Grows db' db'') : Grows db db'' := by
  refine ⟨fun owner source id x hx => h'.events _ _ _ _ (h.events _ _ _ _ hx), ?_⟩
  intro owner source event d hd
  obtain ⟨d', hd', hid⟩ := h.decisions _ _ _ _ hd
  obtain ⟨d'', hd'', hid'⟩ := h'.decisions _ _ _ _ hd'
  exact ⟨d'', hd'', hid'.trans hid⟩

/-- An inserted decision hides no other. -/
theorem insert (d : Decision) :
    Grows db { db with decisions := db.decisions.insertOrIgnore d } := by
  refine ⟨fun _ _ _ _ h => h, fun owner source event x hx => ⟨x, ?_, rfl⟩⟩
  by_cases hfree : db.decisions.find? d.decisionId = none
  · simp only [decisionOf] at hx ⊢
    rw [Table.rows_insertOrIgnore hfree, List.find?_append, hx, Option.some_or]
  · rwa [Table.insertOrIgnore_of_ne_none hfree]

/-- An update that keeps what decisions are found by keeps them found. -/
theorem update {id : String} {f : Decision → Decision}
    (hf : ∀ d, (f d).decisionId = d.decisionId)
    (hkey : ∀ d, (f d).ownerUserId = d.ownerUserId ∧ (f d).sourceInstanceId = d.sourceInstanceId ∧
      (f d).taskId = d.taskId ∧ (f d).lifecycleIdentity = d.lifecycleIdentity) :
    Grows db { db with decisions := db.decisions.update id f hf } := by
  refine ⟨fun _ _ _ _ h => h, fun owner source event x hx => ?_⟩
  simp only [decisionOf, Table.rows_update, List.find?_map] at hx ⊢
  have hsame : ∀ d : Decision, (if d.decisionId = id then f d else d).ownerUserId = d.ownerUserId ∧
      (if d.decisionId = id then f d else d).sourceInstanceId = d.sourceInstanceId ∧
      (if d.decisionId = id then f d else d).taskId = d.taskId ∧
      (if d.decisionId = id then f d else d).lifecycleIdentity = d.lifecycleIdentity := by
    intro d
    split
    · exact hkey d
    · exact ⟨rfl, rfl, rfl, rfl⟩
  simp only [Function.comp_def, hsame, hx, Option.map_some]
  refine ⟨_, rfl, ?_⟩
  split
  · exact hf x
  · rfl

end Grows

/-- An event and its decision are stored. -/
structure Recorded (rules : DecisionRules) (owner source : String) (event : DecisionRequiredEvent)
    (db : Decisions) : Prop where
  stored : ∃ x, eventOf owner source event.sourceEventId db = some x ∧ x.payload = event.payload ∧
    x.decisionId = rules.eventDecisionId owner source event
  decided : ∃ d, decisionOf owner source event db = some d ∧
    d.decisionId = rules.eventDecisionId owner source event

theorem Recorded.grows {rules : DecisionRules} {owner source : String}
    {event : DecisionRequiredEvent} {db db' : Decisions} (h : Recorded rules owner source event db)
    (hgrows : Grows db db') : Recorded rules owner source event db' := by
  obtain ⟨⟨x, hx, hsame⟩, d, hd, hid⟩ := h
  obtain ⟨d', hd', hid'⟩ := hgrows.decisions _ _ _ _ hd
  exact ⟨⟨x, hgrows.events _ _ _ _ hx, hsame⟩, d', hd', hid'.trans hid⟩

variable {rules : DecisionRules} {context : DecisionContext} {owner source : String}
  {observedAt : ℕ} {db db' : Decisions}

/-- A stored event is found, and what was stored before too. -/
theorem insertEvent_eq_ok {sourceEventId decisionId : String} {payload : DecisionPayload} {now : ℤ}
    (h : insertEvent rules owner source sourceEventId decisionId payload observedAt
      now db = .ok db') :
    db'.decisions = db.decisions ∧ db'.sources = db.sources ∧ Grows db db' ∧
      ∃ x, eventOf owner source sourceEventId db' = some x ∧ x.payload = payload ∧
        x.decisionId = decisionId := by
  unfold insertEvent at h
  split at h
  · next x hx =>
    simp only [bind_eq_ok, raiseIf_eq_ok, pure_eq_ok, exists_const, not_or, not_not] at h
    obtain ⟨hsame, rfl⟩ := h
    exact ⟨rfl, rfl, .refl db, x, hx, hsame⟩
  · next hnone =>
    simp only [bind_eq_ok, raiseIf_eq_ok, pure_eq_ok, exists_const, not_not] at h
    obtain ⟨hfree, rfl⟩ := h
    refine ⟨rfl, rfl, ⟨?_, fun _ _ _ d hd => ⟨d, hd, rfl⟩⟩, ?_⟩
    · intro owner' source' id x hx
      simp only [eventOf] at hx ⊢
      rw [Table.rows_insertOrIgnore hfree, List.find?_append, hx, Option.some_or]
    · refine ⟨{ id := rules.eventRowId owner source sourceEventId, ownerUserId := owner
                sourceInstanceId := source, sourceEventId, decisionId, payload, observedAt
                ingestedAt := now }, ?_, rfl, rfl⟩
      simp only [eventOf]
      rw [Table.rows_insertOrIgnore hfree, List.find?_append, hnone]
      simp

/-- A stored event is not stored again. -/
theorem insertEvent_recorded {sourceEventId decisionId : String} {payload : DecisionPayload}
    {now : ℤ} (h : ∃ x, eventOf owner source sourceEventId db = some x ∧ x.payload = payload ∧
      x.decisionId = decisionId) :
    insertEvent rules owner source sourceEventId decisionId payload observedAt now db = .ok db := by
  obtain ⟨x, hx, hpayload, hid⟩ := h
  simp only [eventOf] at hx
  simp only [insertEvent, hx]
  rw [raiseIf_ok (by simp [hpayload, hid])]
  rfl

/-- What an event of a snapshot does. -/
structure EventApplied (rules : DecisionRules) (context : DecisionContext) (owner source : String)
    (observedAt : ℕ) (db db' : Decisions) (event : DecisionRequiredEvent) : Prop where
  ofSource : event.sourceInstanceId = source
  ofSnapshot : event.observedAt = observedAt
  inScope : (event.request.all fun r => context.requestScope owner event.taskId r false) = true
  sources : db'.sources = db.sources
  grows : Grows db db'
  recorded : Recorded rules owner source event db'
  bound : ∀ d, db.decisions.find? (rules.eventDecisionId owner source event) = some d →
    d.inFlight = true → d.request = none ∨ event.request = d.request
  found : ∀ id, db'.decisions.find? id =
    if id = rules.eventDecisionId owner source event then
      mergedRow rules owner source observedAt context.now (db.decisions.find? id) event
    else db.decisions.find? id

/-- The update of a stored decision by an event of it. -/
theorem merged_update (rules : DecisionRules) (context : DecisionContext) (observedAt : ℕ)
    (event : DecisionRequiredEvent) {t : Table Decision.decisionId} {id : String}
    {existing : Decision} (hfound : t.find? id = some existing) :
    (let decisions := if existing.state = .pending ∨ existing.state = .resolved then
        t.update id fun d => { d with request := event.request }
      else t
    if existing.state = .resolved ∨ existing.state = .pending ∧
        existing.sourcePayloadSha256 ≠ rules.payloadSha256 event.payload then
      decisions.update id
        (.reopened event (rules.payloadSha256 event.payload) observedAt context.now)
    else decisions.update id (.observed observedAt context.now)) =
      t.update id (Decision.merged rules observedAt context.now event)
        (fun _ => Decision.merged_key.1) := by
  have hrow : ∀ r, t.find? id = some r → r = existing := fun r hr =>
    Option.some.inj (hr.symm.trans hfound)
  dsimp only
  split
  · next hreopen =>
    have hopen : existing.state = .pending ∨ existing.state = .resolved := by tauto
    rw [if_pos hopen, Table.update_update]
    refine Table.update_congr fun r hr => ?_
    rw [hrow r hr]
    exact (if_pos hreopen).symm
  · next hreopen =>
    split
    · next hopen =>
      have hpending : existing.state = .pending := by tauto
      rw [Table.update_update]
      refine Table.update_congr fun r hr => ?_
      rw [hrow r hr]
      exact ((if_neg hreopen).trans (if_pos hpending)).symm
    · next hopen =>
      have hpending : existing.state ≠ .pending := by tauto
      refine Table.update_congr fun r hr => ?_
      rw [hrow r hr]
      exact ((if_neg hreopen).trans (if_neg hpending)).symm

/-- What an event of a snapshot does. -/
theorem applyEvent_eq_ok {event : DecisionRequiredEvent}
    (h : applyEvent rules context owner source observedAt db event = .ok db') :
    EventApplied rules context owner source observedAt db db' event := by
  simp only [applyEvent, bind_eq_ok, raiseIf_eq_ok, exists_const, not_or, not_not,
    Bool.not_eq_false] at h
  obtain ⟨⟨hsource, hobserved⟩, hscoped, mid, hevent, h⟩ := h
  obtain ⟨hdecisions, hsources, hgrows, hstored⟩ := insertEvent_eq_ok hevent
  split at h
  · next hnone =>
    simp only [bind_eq_ok, raiseIf_eq_ok, pure_eq_ok, exists_const, not_not] at h
    obtain ⟨hfree, rfl⟩ := h
    refine ⟨hsource, hobserved, hscoped, hsources, hgrows.trans (.insert _), ⟨?_, ?_⟩, ?_, ?_⟩
    · exact hstored
    · refine ⟨newDecision owner (rules.eventDecisionId owner source event)
        (rules.payloadSha256 event.payload) event observedAt context.now, ?_, rfl⟩
      simp only [decisionOf]
      rw [Table.rows_insertOrIgnore hfree, List.find?_append, hnone]
      simp [newDecision, hsource, DecisionRules.eventDecisionId]
    · intro d hd
      rw [← hdecisions] at hd
      exact absurd (hfree.symm.trans hd) (by simp)
    · intro id
      rw [Table.find?_insertOrIgnore, hdecisions]
      by_cases hid : id = rules.eventDecisionId owner source event
      · subst hid
        rw [if_pos rfl, ← hdecisions, DecisionRules.eventDecisionId, hfree]
        simp [newDecision, mergedRow, DecisionRules.eventDecisionId]
      · have hother : (newDecision owner (rules.decisionId owner source event.taskId
            event.lifecycleIdentity) (rules.payloadSha256 event.payload) event observedAt
            context.now).decisionId ≠ id := fun he => hid he.symm
        rw [if_neg hid, if_neg hother, Option.or_none]
  · next existing hexisting =>
    simp only [bind_eq_ok, raiseIf_eq_ok, pure_eq_ok, exists_const, not_not] at h
    obtain ⟨hbound, hid, h⟩ := h
    have hfound : mid.decisions.find? (rules.eventDecisionId owner source event) =
      some existing := by
      rw [DecisionRules.eventDecisionId, ← hid]
      exact Table.find?_of_mem (List.mem_of_find?_eq_some hexisting)
    have hmerged : db' = { mid with
        decisions := mid.decisions.update (rules.eventDecisionId owner source event)
          (Decision.merged rules observedAt context.now event)
          (fun _ => Decision.merged_key.1) } := by
      rw [← h]
      exact congrArg (fun t => { mid with decisions := t })
        (merged_update rules context observedAt event hfound)
    subst hmerged
    have hgrowsMerged : Grows mid { mid with
        decisions := mid.decisions.update (rules.eventDecisionId owner source event)
          (Decision.merged rules observedAt context.now event) (fun _ => Decision.merged_key.1) } :=
      .update _ fun _ => Decision.merged_key.2
    refine ⟨hsource, hobserved, hscoped, hsources, hgrows.trans hgrowsMerged, ⟨hstored, ?_⟩, ?_, ?_⟩
    · obtain ⟨d, hd, hkept⟩ := hgrowsMerged.decisions _ _ event _ hexisting
      exact ⟨d, hd, hkept.trans hid⟩
    · intro d hd hflight
      obtain rfl : existing = d := by
        rw [← hdecisions, hfound] at hd
        exact Option.some.inj hd
      by_contra hfree
      obtain ⟨hprior, hother⟩ := not_or.mp hfree
      refine hbound ⟨hprior, hother, ?_⟩
      have hstate : existing.state = .answering ∨ existing.state = .answered :=
        of_decide_eq_true hflight
      obtain ⟨prior, heq⟩ := Option.ne_none_iff_exists'.mp hprior
      cases hrequest : event.request with
      | none => rfl
      | some r => simp [heq, hstate]
    · intro id
      rw [Table.find?_update, ← hdecisions]
      split
      · next hsame =>
        rw [hsame, hfound]
        simp [mergedRow]
      · exact Option.map_id'

/-- The events of a batch that are about one decision. -/
def eventsOf (rules : DecisionRules) (owner source id : String)
    (events : List DecisionRequiredEvent) : List DecisionRequiredEvent :=
  events.filter fun e => rules.eventDecisionId owner source e = id

/-- What a batch of events does. -/
structure EventsApplied (rules : DecisionRules) (context : DecisionContext) (owner source : String)
    (observedAt : ℕ) (db db' : Decisions) (events : List DecisionRequiredEvent) : Prop where
  ofSource : ∀ e ∈ events, e.sourceInstanceId = source ∧ e.observedAt = observedAt
  inScope : ∀ e ∈ events,
    (e.request.all fun r => context.requestScope owner e.taskId r false) = true
  sources : db'.sources = db.sources
  grows : Grows db db'
  recorded : ∀ e ∈ events, Recorded rules owner source e db'
  bound : ∀ e ∈ events, ∀ d,
    db.decisions.find? (rules.eventDecisionId owner source e) = some d → d.inFlight = true →
      d.request = none ∨ e.request = d.request
  found : ∀ id, db'.decisions.find? id = (eventsOf rules owner source id events).foldl
    (mergedRow rules owner source observedAt context.now) (db.decisions.find? id)

/-- A decision in flight is observed by the events about it. -/
theorem mergedRow_inFlight {now : ℤ} {d : Decision} {event : DecisionRequiredEvent}
    (h : d.inFlight = true) :
    mergedRow rules owner source observedAt now (some d) event =
      some (d.observed observedAt now) := by
  simp [mergedRow, Decision.merged_inFlight h]

/-- A decision is open after an event about it. -/
theorem mergedRow_state {now : ℤ} {row : Option Decision} {d : Decision}
    {event : DecisionRequiredEvent}
    (h : mergedRow rules owner source observedAt now row event = some d) : d.state ≠ .resolved := by
  cases row with
  | none =>
    obtain rfl := Option.some.inj h
    simp [newDecision]
  | some before =>
    obtain rfl := Option.some.inj h
    cases hflight : before.inFlight with
    | true =>
      have hstate : before.state = .answering ∨ before.state = .answered :=
        of_decide_eq_true hflight
      simp only [Option.elim_some, Decision.merged_inFlight hflight]
      rcases hstate with hstate | hstate <;> simp [hstate]
    | false => simp [Decision.merged_payload rules observedAt now event hflight]

/-- A decision is merged with each of the events about it, in their order. -/
theorem foldlM_applyEvent_eq_ok (events : List DecisionRequiredEvent)
    (h : events.foldlM (applyEvent rules context owner source observedAt) db = .ok db') :
    EventsApplied rules context owner source observedAt db db' events := by
  induction events generalizing db with
  | nil =>
    obtain rfl : db = db' := by simpa [pure, Except.pure] using h
    exact ⟨by simp, by simp, rfl, .refl db, by simp, by simp, fun _ => rfl⟩
  | cons event events ih =>
    simp only [List.foldlM_cons, bind_eq_ok] at h
    obtain ⟨mid, hfirst, hrest⟩ := h
    have hfirst := applyEvent_eq_ok hfirst
    have hrest := ih hrest
    refine ⟨?_, ?_, hrest.sources.trans hfirst.sources, hfirst.grows.trans hrest.grows, ?_, ?_, ?_⟩
    · rw [List.forall_mem_cons]
      exact ⟨⟨hfirst.ofSource, hfirst.ofSnapshot⟩, hrest.ofSource⟩
    · rw [List.forall_mem_cons]
      exact ⟨hfirst.inScope, hrest.inScope⟩
    · rw [List.forall_mem_cons]
      exact ⟨hfirst.recorded.grows hrest.grows, hrest.recorded⟩
    · rw [List.forall_mem_cons]
      refine ⟨hfirst.bound, fun e he d hd hflight => ?_⟩
      by_cases hid : rules.eventDecisionId owner source e = rules.eventDecisionId owner source event
      · have hmid := hfirst.found (rules.eventDecisionId owner source e)
        rw [if_pos hid, hd, mergedRow_inFlight hflight] at hmid
        exact hrest.bound e he (d.observed observedAt context.now) hmid hflight
      · have hmid := hfirst.found (rules.eventDecisionId owner source e)
        rw [if_neg hid, hd] at hmid
        exact hrest.bound e he d hmid hflight
    · intro id
      rw [hrest.found id, hfirst.found id]
      by_cases hid : rules.eventDecisionId owner source event = id
      · simp [eventsOf, hid]
      · simp [eventsOf, hid, Ne.symm hid]

/-- An unresolved decision of a source. -/
def isOpen (owner source : String) (d : Decision) : Bool :=
  d.ownerUserId = owner ∧ d.sourceInstanceId = source ∧ d.state ≠ .resolved

/-- A decision that a snapshot of its source leaves out. -/
def resolvedRow (rules : DecisionRules) (source snapshotSha256 : String) (observedAt : ℕ) (now : ℤ)
    (d : Decision) : Decision :=
  let payload := DecisionPayload.resolved source d.decisionId snapshotSha256 observedAt
  d.resolvedBy (rules.resolutionEventId payload) (rules.payloadSha256 payload) observedAt now

variable {snapshotSha256 : String}

/-- What the resolution of a decision does. -/
theorem resolveDecision_eq_ok {d : Decision}
    (h : resolveDecision rules context owner source snapshotSha256 observedAt db d = .ok db') :
    db'.sources = db.sources ∧ Grows db db' ∧ ∀ id, db'.decisions.find? id =
      (db.decisions.find? id).map fun r => if id = d.decisionId then
        resolvedRow rules source snapshotSha256 observedAt context.now r else r := by
  simp only [resolveDecision, bind_eq_ok, pure_eq_ok] at h
  obtain ⟨mid, hevent, rfl⟩ := h
  obtain ⟨hdecisions, hsources, hgrows, -⟩ := insertEvent_eq_ok hevent
  refine ⟨hsources, hgrows.trans (.update _ fun _ => ⟨rfl, rfl, rfl, rfl⟩), fun id => ?_⟩
  rw [Table.find?_update, hdecisions]
  cases hd : db.decisions.find? id with
  | none => rfl
  | some r =>
    obtain ⟨-, hr⟩ := Table.mem_of_find? hd
    by_cases hid : id = d.decisionId <;> simp [hid, resolvedRow, hr]

/-- Every decision of a list without repetition is resolved once. -/
theorem foldlM_resolveDecision_eq_ok (l : List Decision) (nodup : (l.map (·.decisionId)).Nodup)
    (h : l.foldlM (resolveDecision rules context owner source snapshotSha256 observedAt) db =
      .ok db') :
    db'.sources = db.sources ∧ Grows db db' ∧ ∀ id, db'.decisions.find? id =
      (db.decisions.find? id).map fun r => if id ∈ l.map (·.decisionId) then
        resolvedRow rules source snapshotSha256 observedAt context.now r else r := by
  induction l generalizing db with
  | nil =>
    obtain rfl : db = db' := by simpa [pure, Except.pure] using h
    exact ⟨rfl, .refl db, fun id => by simp⟩
  | cons d l ih =>
    simp only [List.foldlM_cons, bind_eq_ok] at h
    obtain ⟨mid, hfirst, hrest⟩ := h
    obtain ⟨hnew, nodup⟩ := List.nodup_cons.mp nodup
    obtain ⟨hsources, hgrows, hfound⟩ := resolveDecision_eq_ok hfirst
    obtain ⟨hsources', hgrows', hfound'⟩ := ih nodup hrest
    refine ⟨hsources'.trans hsources, hgrows.trans hgrows', fun id => ?_⟩
    rw [hfound', hfound, Option.map_map]
    congr 1
    funext r
    by_cases hid : id = d.decisionId
    · subst hid
      simp [hnew]
    · simp [hid]

/-- The unresolved decisions of a source that a batch leaves out. -/
theorem mem_previous (owner source : String) (db : Decisions) (ids : List String) (id : String) :
    id ∈ (db.decisions.rows.filter fun d => d.ownerUserId = owner ∧ d.sourceInstanceId = source ∧
        d.state ≠ .resolved ∧ d.decisionId ∉ ids).map (·.decisionId) ↔
      id ∉ ids ∧ (db.decisions.find? id).any (isOpen owner source) = true := by
  simp only [List.mem_map, List.mem_filter, decide_eq_true_eq, Option.any_eq_true]
  constructor
  · rintro ⟨d, ⟨hd, howner, hsource, hstate, hid⟩, rfl⟩
    exact ⟨hid, d, Table.find?_of_mem hd, by simp [isOpen, howner, hsource, hstate]⟩
  · rintro ⟨hid, d, hd, hopen⟩
    obtain ⟨hmem, rfl⟩ := Table.mem_of_find? hd
    obtain ⟨howner, hsource, hstate⟩ := of_decide_eq_true hopen
    exact ⟨d, ⟨hmem, howner, hsource, hstate, hid⟩, rfl⟩

/-- The ids of the decisions of a batch. -/
def decisionIds (rules : DecisionRules) (owner source : String)
    (events : List DecisionRequiredEvent) : List String :=
  events.map (rules.eventDecisionId owner source)

/-- No event of a batch is about another decision. -/
theorem eventsOf_eq_nil {events : List DecisionRequiredEvent} {id : String}
    (h : id ∉ decisionIds rules owner source events) :
    eventsOf rules owner source id events = [] := by
  refine List.filter_eq_nil_iff.mpr fun e he hid => h ?_
  exact List.mem_map.mpr ⟨e, he, of_decide_eq_true hid⟩

/-- A snapshot is older than the last one of its source. -/
def Stale (owner source : String) (observedAt : ℕ) (db : Decisions) : Prop :=
  ((db.sources.find? (owner, source)).bind (·.lastObservedAt)).any (observedAt < ·) = true

/-- What a snapshot does that is not stale. -/
structure SnapshotApplied (rules : DecisionRules) (context : DecisionContext)
    (owner source : String) (observedAt : ℕ) (snapshotSha256 : String)
    (events : List DecisionRequiredEvent) (db db' : Decisions) : Prop where
  accepted : rules.validOwner owner = true ∧ rules.safeSourceId source = true ∧
    events.length ≤ maxOpenDecisions ∧ rules.snapshotDigest snapshotSha256 = true
  projected : context.projected = true
  limited : (openDecisions owner db').length ≤ maxOpenDecisions
  ofSource : ∀ e ∈ events, e.sourceInstanceId = source ∧ e.observedAt = observedAt
  inScope : ∀ e ∈ events,
    (e.request.all fun r => context.requestScope owner e.taskId r false) = true
  bound : ∀ e ∈ events, ∀ d,
    db.decisions.find? (rules.eventDecisionId owner source e) = some d → d.inFlight = true →
      d.request = none ∨ e.request = d.request
  recorded : ∀ e ∈ events, Recorded rules owner source e db'
  marked : ∃ s, db'.sources.find? (owner, source) = some s ∧
    s.lastObservedAt = some observedAt ∧ s.snapshotSha256 = snapshotSha256
  found : ∀ id, db'.decisions.find? id =
    if id ∈ decisionIds rules owner source events then
      (eventsOf rules owner source id events).foldl
        (mergedRow rules owner source observedAt context.now) (db.decisions.find? id)
    else (db.decisions.find? id).map fun d => if isOpen owner source d then
      resolvedRow rules source snapshotSha256 observedAt context.now d else d

/-- A source carries the mark of its last snapshot. -/
theorem marked_sources (t : Table DecisionSource.key) {row : DecisionSource}
    {f : DecisionSource → DecisionSource} (hf : ∀ s, (f s).key = s.key)
    (hrow : row.key = (owner, source))
    (hmark : ∀ s, (f s).lastObservedAt = some observedAt ∧ (f s).snapshotSha256 = snapshotSha256) :
    ∃ s, ((t.insertOrIgnore row).update (owner, source) f hf).find? (owner, source) = some s ∧
      s.lastObservedAt = some observedAt ∧ s.snapshotSha256 = snapshotSha256 := by
  rw [Table.find?_update_self, Table.find?_insertOrIgnore, if_pos hrow]
  cases t.find? (owner, source) with
  | none => exact ⟨_, rfl, hmark row⟩
  | some s => exact ⟨_, rfl, hmark s⟩

/-- Marking a marked source again changes the time of its update only. -/
theorem untimed_sources {t : Table DecisionSource.key} {row s : DecisionSource}
    {f g : DecisionSource → DecisionSource} (hf : ∀ s, (f s).key = s.key)
    {hg : ∀ s, (g s).key = s.key} (hrow : row.key = (owner, source))
    (hs : t.find? (owner, source) = some s) (h : g (f s) = g s) :
    ((t.insertOrIgnore row).update (owner, source) f hf).updateWhere (fun _ => true) g hg =
      t.updateWhere (fun _ => true) g hg := by
  have hstored : t.insertOrIgnore row = t :=
    Table.insertOrIgnore_of_ne_none (by rw [hrow, hs]; simp)
  rw [hstored, Table.updateWhere_update]
  intro r hr
  obtain rfl : s = r := Option.some.inj (hs.symm.trans hr)
  exact h

/-- A stale snapshot changes nothing. -/
theorem applySnapshot_stale {events : List DecisionRequiredEvent} {opened : List Decision}
    (hstale : Stale owner source observedAt db)
    (h : applySnapshot rules context owner source observedAt snapshotSha256 events db =
      .ok (opened, db')) : db' = db := by
  simp only [applySnapshot, bind_eq_ok, raiseIf_eq_ok, exists_const] at h
  obtain ⟨-, -, -, h⟩ := h
  unfold Stale at hstale
  rw [if_pos hstale] at h
  simp only [bind_eq_ok, raiseIf_eq_ok, pure_eq_ok, exists_const, Prod.mk.injEq] at h
  exact h.2.2.symm

/-- What a snapshot does that is not stale. -/
theorem applySnapshot_fresh {events : List DecisionRequiredEvent} {opened : List Decision}
    (hfresh : ¬Stale owner source observedAt db)
    (h : applySnapshot rules context owner source observedAt snapshotSha256 events db =
      .ok (opened, db')) :
    SnapshotApplied rules context owner source observedAt snapshotSha256 events db db' := by
  simp only [applySnapshot, bind_eq_ok, raiseIf_eq_ok, exists_const] at h
  obtain ⟨howner, hsource, hbatch, h⟩ := h
  unfold Stale at hfresh
  rw [if_neg hfresh] at h
  simp only [bind_eq_ok, raiseIf_eq_ok, pure_eq_ok, exists_const, Prod.mk.injEq] at h
  obtain ⟨-, mid, hevents, last, hresolved, hprojected, hlimit, -, rfl⟩ := h
  have hevents := foldlM_applyEvent_eq_ok events hevents
  obtain ⟨hsources, hgrows, hfound⟩ := foldlM_resolveDecision_eq_ok _
    (List.Nodup.sublist (List.filter_sublist.map _) mid.decisions.unique) hresolved
  refine
    { accepted := by
        simp only [Bool.not_eq_false, not_or, not_lt] at howner hsource hbatch
        exact ⟨howner, hsource, hbatch⟩
      projected := by simpa using hprojected
      limited := not_lt.mp hlimit
      ofSource := hevents.ofSource
      inScope := hevents.inScope
      bound := hevents.bound
      recorded := fun e he => ?_
      marked := ?_
      found := fun id => ?_ }
  · have hrecorded := (hevents.recorded e he).grows hgrows
    exact ⟨hrecorded.stored, hrecorded.decided⟩
  · refine marked_sources _ ?_ rfl ?_
    · exact fun _ => rfl
    · exact fun _ => ⟨rfl, rfl⟩
  · have hprevious := mem_previous owner source mid
      (events.map fun e => rules.decisionId owner source e.taskId e.lifecycleIdentity) id
    change last.decisions.find? id = _
    rw [hfound]
    by_cases hid : id ∈ decisionIds rules owner source events
    · have hnot := fun hmem => (hprevious.mp hmem).1 hid
      rw [if_pos hid, ← hevents.found]
      simp only [if_neg hnot]
      exact Option.map_id'
    · have hmid : mid.decisions.find? id = db.decisions.find? id := by
        rw [hevents.found, eventsOf_eq_nil hid, List.foldl_nil]
      rw [if_neg hid, hmid]
      cases hd : db.decisions.find? id with
      | none => rfl
      | some d =>
        rw [hmid, hd, Option.any_some] at hprevious
        by_cases hopen : isOpen owner source d = true
        · have hmem := hprevious.mpr ⟨hid, hopen⟩
          simp only [Option.map_some, if_pos hopen, if_pos hmem]
        · have hnot := fun hmem => hopen (hprevious.mp hmem).2
          simp only [Option.map_some, if_neg hopen, if_neg hnot]

/-- The events of each decision of a batch have one payload, unless an answer is in flight. -/
def OnePayload (rules : DecisionRules) (owner source : String)
    (events : List DecisionRequiredEvent) (db : Decisions) : Prop :=
  ∀ e ∈ events, ∀ f ∈ events,
    rules.eventDecisionId owner source e = rules.eventDecisionId owner source f →
      e.payload = f.payload ∨
        (db.decisions.find? (rules.eventDecisionId owner source e)).any Decision.inFlight = true

/-- Further events of a decision with one payload change no more. -/
theorem foldl_mergedRow {now : ℤ} {row : Option Decision} {event : DecisionRequiredEvent}
    (l : List DecisionRequiredEvent)
    (h : ∀ e ∈ l, row.any Decision.inFlight = true ∨ e.payload = event.payload) :
    l.foldl (mergedRow rules owner source observedAt now)
        (mergedRow rules owner source observedAt now row event) =
      mergedRow rules owner source observedAt now row event := by
  induction l with
  | nil => rfl
  | cons e l ih =>
    obtain ⟨hfirst, hrest⟩ := List.forall_mem_cons.mp h
    have hsame : mergedRow rules owner source observedAt now
        (mergedRow rules owner source observedAt now row event) e =
          mergedRow rules owner source observedAt now row event := by
      cases row with
      | some d => simp [mergedRow, Decision.merged_merged (by simpa using hfirst)]
      | none =>
        have hpayload : e.payload = event.payload := by simpa using hfirst
        have hrequest : event.request = e.request := by
          simp only [DecisionRequiredEvent.payload, DecisionPayload.required.injEq] at hpayload
          exact hpayload.2.2.2.2.2.2.2.symm
        simp only [mergedRow, Option.elim_none, Option.elim_some]
        rw [Decision.merged_same rfl (by rw [hpayload]; rfl) hrequest]
        rfl
    rw [List.foldl_cons, hsame, ih hrest]

variable {events : List DecisionRequiredEvent}

/-- A decision of a batch is merged with its one payload. -/
theorem SnapshotApplied.merged
    (h : SnapshotApplied rules context owner source observedAt snapshotSha256 events db db')
    (hone : OnePayload rules owner source events db) {event : DecisionRequiredEvent}
    (hevent : event ∈ events) :
    db'.decisions.find? (rules.eventDecisionId owner source event) =
      mergedRow rules owner source observedAt context.now
        (db.decisions.find? (rules.eventDecisionId owner source event)) event := by
  have hid : rules.eventDecisionId owner source event ∈ decisionIds rules owner source events :=
    List.mem_map_of_mem hevent
  have hmem : event ∈ eventsOf rules owner source
    (rules.eventDecisionId owner source event) events :=
    List.mem_filter.mpr ⟨hevent, by simp⟩
  have hof : ∀ e ∈ eventsOf rules owner source (rules.eventDecisionId owner source event) events,
      e ∈ events ∧ rules.eventDecisionId owner source e =
        rules.eventDecisionId owner source event :=
    fun e he => ⟨(List.mem_filter.mp he).1, of_decide_eq_true (List.mem_filter.mp he).2⟩
  rw [h.found, if_pos hid]
  cases heq : eventsOf rules owner source (rules.eventDecisionId owner source event) events with
  | nil => simp [heq] at hmem
  | cons first rest =>
    rw [heq] at hof
    obtain ⟨hfirst, hfirstId⟩ := hof first List.mem_cons_self
    rw [List.foldl_cons, foldl_mergedRow rest]
    · rcases hone first hfirst event hevent hfirstId with hpayload | hflight
      · obtain rfl : first = event := by
          refine DecisionRequiredEvent.eq_of_payload hpayload ?_
          rw [(h.ofSource first hfirst).2, (h.ofSource event hevent).2]
        rfl
      · obtain ⟨d, hd, hflight⟩ := (Option.any_eq_true _ _).mp (hfirstId ▸ hflight)
        rw [hd, mergedRow_inFlight hflight, mergedRow_inFlight hflight]
    · intro e he
      obtain ⟨he, heId⟩ := hof e (List.mem_cons_of_mem first he)
      rcases hone e he first hfirst (heId.trans hfirstId.symm) with hpayload | hflight
      · exact .inr hpayload
      · exact .inl (heId ▸ hflight)

/-- A decision's payload changed while it was pending, or it was resolved or reopened. -/
def Moved (d d' : Decision) : Prop :=
  d.state = .pending ∧ d'.state = .pending ∧ d'.sourcePayloadSha256 ≠ d.sourcePayloadSha256 ∨
    d.state ≠ .resolved ∧ d'.state = .resolved ∨ d.state = .resolved ∧ d'.state ≠ .resolved

instance (d d' : Decision) : Decidable (Moved d d') := by
  unfold Moved
  infer_instance

end FirstmateDecisionStore

/-- The tables without the times of their updates. -/
def Decisions.untimed (db : Decisions) : Decisions :=
  { db with
    decisions := db.decisions.updateWhere (fun _ => true) fun d => { d with updatedAt := 0 }
    sources := db.sources.updateWhere (fun _ => true) fun s => { s with updatedAt := 0 } }

namespace FirstmateDecisionStore

variable {rules : DecisionRules} {context : DecisionContext} {owner source snapshotSha256 : String}
  {observedAt : ℕ} {events : List DecisionRequiredEvent} {db db' : Decisions}

/-- What a batch that is applied does to the decisions of its source. -/
structure SnapshotMerged (rules : DecisionRules) (context : DecisionContext)
    (owner source : String) (observedAt : ℕ) (snapshotSha256 : String)
    (events : List DecisionRequiredEvent) (db db' : Decisions) : Prop where
  /-- The unresolved decisions of the source are those of the batch. -/
  opened : ∀ id, (∃ d, db'.decisions.find? id = some d ∧ d.ownerUserId = owner ∧
    d.sourceInstanceId = source ∧ (d.state = .pending ∨ d.state = .answering ∨ d.state = .answered))
      ↔ id ∈ decisionIds rules owner source events
  /-- A revision rises by one when its decision moved, and stays otherwise. -/
  revised : ∀ id d, db.decisions.find? id = some d → ∃ d', db'.decisions.find? id = some d' ∧
    d'.revision = d.revision + if Moved d d' then 1 else 0
  /-- A new decision has the first revision. -/
  created : ∀ id d, db.decisions.find? id = none → db'.decisions.find? id = some d → d.revision = 1
  /-- A pending decision has the payload of its event. -/
  payload : ∀ e ∈ events, ∀ d,
    db'.decisions.find? (rules.eventDecisionId owner source e) = some d → d.state = .pending →
      d.sourcePayloadSha256 = rules.payloadSha256 e.payload
  /-- The same batch is accepted again, and changes the times of updates only. -/
  again : ∀ now, ∃ opened db'', applySnapshot rules { context with now } owner source observedAt
    snapshotSha256 events db' = .ok (opened, db'') ∧ db''.untimed = db'.untimed

/-- The unresolved decisions of a source are those of the batch. -/
theorem SnapshotApplied.opened
    (h : SnapshotApplied rules context owner source observedAt snapshotSha256 events db db')
    (hone : OnePayload rules owner source events db) (id : String) :
    (∃ d, db'.decisions.find? id = some d ∧ isOpen owner source d = true) ↔
      id ∈ decisionIds rules owner source events := by
  constructor
  · rintro ⟨d, hd, hopen⟩
    by_contra hid
    rw [h.found, if_neg hid, Option.map_eq_some_iff] at hd
    obtain ⟨before, -, rfl⟩ := hd
    split at hopen
    · simp [isOpen, resolvedRow] at hopen
    · next hclosed => exact hclosed hopen
  · intro hid
    obtain ⟨e, he, rfl⟩ := List.mem_map.mp hid
    obtain ⟨d, hd, hdid⟩ := (h.recorded e he).decided
    obtain ⟨hfound, howner, hsource⟩ := decisionOf_eq_some hd
    rw [hdid] at hfound
    refine ⟨d, hfound, ?_⟩
    have hstate : d.state ≠ .resolved := by
      rw [h.merged hone he] at hfound
      exact mergedRow_state hfound
    simp [isOpen, howner, hsource, hstate]

/-- A revision rises by one when its decision moved, and stays otherwise. -/
theorem SnapshotApplied.revised
    (h : SnapshotApplied rules context owner source observedAt snapshotSha256 events db db')
    (hone : OnePayload rules owner source events db) {id : String} {d : Decision}
    (hd : db.decisions.find? id = some d) : ∃ d', db'.decisions.find? id = some d' ∧
      d'.revision = d.revision + if Moved d d' then 1 else 0 := by
  by_cases hid : id ∈ decisionIds rules owner source events
  · obtain ⟨e, he, rfl⟩ := List.mem_map.mp hid
    refine ⟨_, (h.merged hone he).trans (by rw [hd]; rfl), ?_⟩
    rw [Option.elim_some]
    rcases Decision.merged_cases rules observedAt context.now e d with
      ⟨hcase, heq⟩ | ⟨⟨hstate, hsha⟩, heq⟩ | ⟨hflight, heq⟩ <;> rw [heq]
    · rw [if_pos]
      rcases hcase with hstate | ⟨hstate, hsha⟩
      · exact .inr (.inr ⟨hstate, by simp⟩)
      · exact .inl ⟨hstate, rfl, hsha.symm⟩
    · simp [Moved, hstate]
    · have hstate : d.state = .answering ∨ d.state = .answered := of_decide_eq_true hflight
      rcases hstate with hstate | hstate <;> simp [Moved, hstate]
  · have hfound := h.found id
    rw [if_neg hid, hd, Option.map_some] at hfound
    refine ⟨_, hfound, ?_⟩
    split
    · next hopen =>
      obtain ⟨-, -, hstate⟩ := of_decide_eq_true hopen
      rw [if_pos (.inr (.inl ⟨hstate, rfl⟩))]
      rfl
    · have hkept : ¬Moved d d := by
        unfold Moved
        tauto
      rw [if_neg hkept]
      rfl

/-- A new decision has the first revision. -/
theorem SnapshotApplied.created
    (h : SnapshotApplied rules context owner source observedAt snapshotSha256 events db db')
    (hone : OnePayload rules owner source events db) {id : String} {d : Decision}
    (hnone : db.decisions.find? id = none) (hd : db'.decisions.find? id = some d) :
    d.revision = 1 := by
  by_cases hid : id ∈ decisionIds rules owner source events
  · obtain ⟨e, he, rfl⟩ := List.mem_map.mp hid
    rw [h.merged hone he, hnone] at hd
    obtain rfl := Option.some.inj hd
    rfl
  · rw [h.found, if_neg hid, hnone] at hd
    simp at hd

/-- A pending decision has the payload of its event. -/
theorem SnapshotApplied.payload
    (h : SnapshotApplied rules context owner source observedAt snapshotSha256 events db db')
    (hone : OnePayload rules owner source events db) {event : DecisionRequiredEvent} {d : Decision}
    (hevent : event ∈ events)
    (hd : db'.decisions.find? (rules.eventDecisionId owner source event) = some d)
    (hpending : d.state = .pending) :
    d.sourcePayloadSha256 = rules.payloadSha256 event.payload := by
  rw [h.merged hone hevent] at hd
  cases hrow : db.decisions.find? (rules.eventDecisionId owner source event) with
  | none =>
    rw [hrow] at hd
    obtain rfl := Option.some.inj hd
    rfl
  | some before =>
    rw [hrow] at hd
    cases hflight : before.inFlight with
    | true =>
      rw [mergedRow_inFlight hflight] at hd
      obtain rfl := Option.some.inj hd
      have hstate : before.state = .pending := hpending
      simp [Decision.inFlight, hstate] at hflight
    | false =>
      obtain rfl := Option.some.inj hd
      exact (Decision.merged_payload rules observedAt context.now event hflight).2.1

/-- An event that changes nothing but the times of updates. -/
structure Settled (rules : DecisionRules) (owner source : String) (observedAt : ℕ) (db : Decisions)
    (event : DecisionRequiredEvent) : Prop where
  recorded : Recorded rules owner source event db
  row : ∃ d, db.decisions.find? (rules.eventDecisionId owner source event) = some d ∧
    d.sourceObservedAt = observedAt ∧
    (d.inFlight = true ∧ (d.request = none ∨ event.request = d.request) ∨
      d.state = .pending ∧ d.sourcePayloadSha256 = rules.payloadSha256 event.payload ∧
        d.request = event.request)

/-- The events of an applied batch are settled. -/
theorem SnapshotApplied.settled
    (h : SnapshotApplied rules context owner source observedAt snapshotSha256 events db db')
    (hone : OnePayload rules owner source events db) {event : DecisionRequiredEvent}
    (hevent : event ∈ events) : Settled rules owner source observedAt db' event := by
  refine ⟨h.recorded event hevent, _, h.merged hone hevent, ?_, ?_⟩
  · cases hrow : db.decisions.find? (rules.eventDecisionId owner source event) with
    | none => rfl
    | some d => exact (Decision.merged_observedAt rules observedAt context.now event d).1
  · cases hrow : db.decisions.find? (rules.eventDecisionId owner source event) with
    | none => exact .inr ⟨rfl, rfl, rfl⟩
    | some d =>
      rw [Option.elim_some]
      cases hflight : d.inFlight with
      | true =>
        rw [Decision.merged_inFlight hflight]
        exact .inl ⟨hflight, h.bound event hevent d hrow hflight⟩
      | false => exact .inr (Decision.merged_payload rules observedAt context.now event hflight)

/-- A settled event is accepted again, and changes the times of updates only. -/
theorem applyEvent_settled {event : DecisionRequiredEvent}
    (h : Settled rules owner source observedAt db event)
    (hof : event.sourceInstanceId = source ∧ event.observedAt = observedAt)
    (hscope : (event.request.all fun r => context.requestScope owner event.taskId r false) = true) :
    ∃ db', applyEvent rules context owner source observedAt db event = .ok db' ∧
      db'.untimed = db.untimed ∧ db'.sources = db.sources ∧ ∀ e,
        Settled rules owner source observedAt db e →
          Settled rules owner source observedAt db' e := by
  obtain ⟨⟨hstored, existing, hexisting, hid⟩, d, hd, hobserved, hrow⟩ := h
  obtain ⟨hfound, -, -⟩ := decisionOf_eq_some hexisting
  obtain rfl : existing = d := by
    rw [hid, hd] at hfound
    exact (Option.some.inj hfound).symm
  have hmerged : existing.merged rules observedAt context.now event =
      existing.observed observedAt context.now := by
    rcases hrow with ⟨hflight, -⟩ | ⟨hstate, hsha, hrequest⟩
    · exact Decision.merged_inFlight hflight
    · exact Decision.merged_same hstate hsha hrequest
  refine ⟨{ db with
    decisions := db.decisions.update (rules.eventDecisionId owner source event)
      (Decision.merged rules observedAt context.now event) (fun _ => Decision.merged_key.1) },
    ?_, ?_, rfl, fun e he => ⟨he.recorded.grows (.update _ fun _ => Decision.merged_key.2), ?_⟩⟩
  · simp only [decisionOf] at hexisting
    have hbound : ¬(existing.request ≠ none ∧ event.request ≠ existing.request ∧
        (event.request.all fun r => existing.request.any fun prior =>
          prior.requestId = r.requestId ∨ existing.state = .answering ∨
            existing.state = .answered)) := by
      rintro ⟨hsome, hother, -⟩
      rcases hrow with ⟨-, hnone | hsame⟩ | ⟨-, -, hsame⟩
      · exact hsome hnone
      · exact hother hsame
      · exact hother hsame.symm
    have hunscoped : ¬(event.request.all fun r =>
        context.requestScope owner event.taskId r false) = false := by simp [hscope]
    have hstored : insertEvent rules owner source event.sourceEventId
        (rules.decisionId owner source event.taskId event.lifecycleIdentity)
          event.payload observedAt
        context.now db = .ok db := insertEvent_recorded hstored
    have hid' : ¬existing.decisionId ≠
        rules.decisionId owner source event.taskId event.lifecycleIdentity := not_not.mpr hid
    simp only [applyEvent, raiseIf_ok (not_or.mpr ⟨not_not.mpr hof.1, not_not.mpr hof.2⟩), ok_bind,
      raiseIf_ok hunscoped, hstored, hexisting, raiseIf_ok hbound, raiseIf_ok hid']
    exact congrArg (fun t => (Except.ok { db with decisions := t } : Except
      DecisionFailure Decisions))
      (merged_update rules context observedAt event hd)
  · simp only [Decisions.untimed]
    rw [Table.updateWhere_update]
    intro d hrow
    obtain rfl : existing = d := Option.some.inj (hd.symm.trans hrow)
    rw [hmerged, Decision.observed, ← hobserved]
  · obtain ⟨d, hde, hdobserved, hdrow⟩ := he.row
    by_cases heid : rules.eventDecisionId owner source e = rules.eventDecisionId owner source event
    · obtain rfl : existing = d := by
        rw [heid, hd] at hde
        exact Option.some.inj hde
      refine ⟨existing.observed observedAt context.now, ?_, rfl, hdrow⟩
      rw [heid, Table.find?_update_self, hd, Option.map_some, hmerged]
    · refine ⟨d, ?_, hdobserved, hdrow⟩
      rw [Table.find?_update_ne _ heid, hde]

/-- Settled events are accepted again, and change the times of updates only. -/
theorem foldlM_applyEvent_settled (context : DecisionContext) (l : List DecisionRequiredEvent)
    (h : ∀ e ∈ l, Settled rules owner source observedAt db e)
    (hof : ∀ e ∈ l, e.sourceInstanceId = source ∧ e.observedAt = observedAt)
    (hscope : ∀ e ∈ l,
      (e.request.all fun r => context.requestScope owner e.taskId r false) = true) :
    ∃ db', l.foldlM (applyEvent rules context owner source observedAt) db = .ok db' ∧
      db'.untimed = db.untimed ∧ db'.sources = db.sources := by
  induction l generalizing db with
  | nil => exact ⟨db, rfl, rfl, rfl⟩
  | cons e l ih =>
    rw [List.forall_mem_cons] at h hof hscope
    obtain ⟨mid, hfirst, huntimed, hsources, hkept⟩ := applyEvent_settled h.1 hof.1 hscope.1
    obtain ⟨last, hrest, huntimed', hsources'⟩ :=
      ih (fun f hf => hkept f (h.2 f hf)) hof.2 hscope.2
    refine ⟨last, ?_, huntimed'.trans huntimed, hsources'.trans hsources⟩
    rw [List.foldlM_cons, hfirst]
    exact hrest

/-- Tables that differ in the times of updates have the same decisions open. -/
theorem any_isOpen_of_untimed (h : db'.untimed = db.untimed) (id : String) :
    (db'.decisions.find? id).any (isOpen owner source) =
      (db.decisions.find? id).any (isOpen owner source) := by
  have hfound :=
    congrArg (fun db : Decisions => (db.decisions.find? id).any (isOpen owner source)) h
  simp only [Decisions.untimed, Table.find?_updateWhere, Option.any_map] at hfound
  exact hfound

theorem length_openDecisions_of_untimed (h : db'.untimed = db.untimed) :
    (openDecisions owner db').length = (openDecisions owner db).length := by
  have hlength := congrArg (fun db : Decisions => (openDecisions owner db).length) h
  simpa [Decisions.untimed, openDecisions, Table.rows_updateWhere, List.filter_map,
    Function.comp_def] using hlength

/-- An applied batch is accepted again, and changes the times of updates only. -/
theorem SnapshotApplied.again
    (h : SnapshotApplied rules context owner source observedAt snapshotSha256 events db db')
    (hone : OnePayload rules owner source events db) (now : ℤ) :
    ∃ opened db'', applySnapshot rules { context with now } owner source observedAt snapshotSha256
      events db' = .ok (opened, db'') ∧ db''.untimed = db'.untimed := by
  obtain ⟨mid, hmid, huntimed, hsources⟩ :=
    foldlM_applyEvent_settled { context with now } events
      (fun e he => h.settled hone he) h.ofSource h.inScope
  obtain ⟨s, hs, hlast, hdigest⟩ := h.marked
  have hprevious : (mid.decisions.rows.filter fun d => d.ownerUserId = owner ∧
      d.sourceInstanceId = source ∧ d.state ≠ .resolved ∧ d.decisionId ∉ events.map fun e =>
        rules.decisionId owner source e.taskId e.lifecycleIdentity) = [] := by
    refine (List.map_eq_nil_iff (f := Decision.decisionId)).mp
      (List.eq_nil_iff_forall_not_mem.mpr fun id hid => ?_)
    obtain ⟨hnot, hany⟩ := (mem_previous owner source mid _ id).mp hid
    rw [any_isOpen_of_untimed huntimed, Option.any_eq_true] at hany
    exact hnot ((h.opened hone id).mp hany)
  have hmarked : mid.sources.find? (owner, source) = some s := by rw [hsources, hs]
  obtain ⟨howner, hsource, hlength, hsha⟩ := h.accepted
  have hfresh : ¬((db'.sources.find? (owner, source)).bind (·.lastObservedAt)).any
    (observedAt < ·) := by
    simp [hs, hlast]
  have hagrees : ¬((db'.sources.find? (owner, source)).any fun s =>
      s.lastObservedAt = some observedAt ∧ s.snapshotSha256 ≠ snapshotSha256) := by
    simp [hs, hdigest]
  have hbatch : ¬(maxOpenDecisions < events.length ∨
    rules.snapshotDigest snapshotSha256 = false) := by
    simp [hsha, hlength]
  have hlimit : ¬maxOpenDecisions < (openDecisions owner mid).length := by
    rw [length_openDecisions_of_untimed huntimed]
    exact not_lt.mpr h.limited
  have howner : ¬rules.validOwner owner = false := by simp [howner]
  have hsource : ¬rules.safeSourceId source = false := by simp [hsource]
  have hprojected : ¬context.projected = false := by simp [h.projected]
  simp only [applySnapshot, raiseIf_ok howner, raiseIf_ok hsource, raiseIf_ok hbatch, ok_bind,
    if_neg hfresh, raiseIf_ok hagrees, hmid, hprevious, List.foldlM_nil, pure_bind,
    raiseIf_ok hprojected]
  refine ⟨_, _, bind_eq_ok.mpr ⟨(), raiseIf_ok hlimit _, rfl⟩, ?_⟩
  rw [← huntimed]
  simp only [Decisions.untimed]
  congr 1
  refine untimed_sources ?_ ?_ hmarked ?_
  · rfl
  · rw [← hlast, ← hdigest]

/-- A pending decision stays pending under the events about it, and its revision stays only when
they all have its payload. -/
theorem foldl_mergedRow_pending (rules : DecisionRules) (owner source : String) (observedAt : ℕ)
    (now : ℤ) (l : List DecisionRequiredEvent) {d : Decision}
    (hd : d.state = .pending) : ∃ d',
      l.foldl (mergedRow rules owner source observedAt now) (some d) = some d' ∧
        d'.state = .pending ∧ d.revision ≤ d'.revision ∧
        (d'.revision = d.revision →
          ∀ e ∈ l, rules.payloadSha256 e.payload = d.sourcePayloadSha256) := by
  induction l generalizing d with
  | nil => exact ⟨d, rfl, hd, le_rfl, fun _ => by simp⟩
  | cons e l ih =>
    have hflight : d.inFlight = false := by simp [Decision.inFlight, hd]
    obtain ⟨hpending, -, -⟩ := Decision.merged_payload rules observedAt now e hflight
    obtain ⟨d', hfold, hstate, hle, hsame⟩ := ih hpending
    refine ⟨d', hfold, hstate, ?_, fun hrevision => ?_⟩
    · rcases Decision.merged_revision rules observedAt now e hd with ⟨heq, -⟩ | ⟨heq, -⟩ <;> omega
    · rcases Decision.merged_revision rules observedAt now e hd with ⟨heq, hsha⟩ | ⟨heq, -⟩
      · rw [List.forall_mem_cons]
        refine ⟨hsha.symm, fun f hf => ?_⟩
        rw [hsame (by omega) f hf,
          (Decision.merged_payload rules observedAt now e hflight).2.1, hsha]
      · omega

/-- A decision that is not in flight is pending after the events about it. -/
theorem foldl_mergedRow_notInFlight (rules : DecisionRules) (owner source : String)
    (observedAt : ℕ) (now : ℤ) {l : List DecisionRequiredEvent}
    {row : Option Decision} (hl : l ≠ []) (hrow : row.any Decision.inFlight = false) :
    ∃ d, l.foldl (mergedRow rules owner source observedAt now) row = some d ∧
      d.state = .pending := by
  obtain ⟨e, l, rfl⟩ := List.exists_cons_of_ne_nil hl
  have hfirst : ∃ d, mergedRow rules owner source observedAt now row e = some d ∧
      d.state = .pending := by
    cases row with
    | none => exact ⟨_, rfl, rfl⟩
    | some d => exact ⟨_, rfl, (Decision.merged_payload rules observedAt now e hrow).1⟩
  obtain ⟨d, hd, hpending⟩ := hfirst
  obtain ⟨d', hd', hpending', -⟩ := foldl_mergedRow_pending rules owner source observedAt now l
    hpending
  exact ⟨d', by rw [List.foldl_cons, hd, hd'], hpending'⟩

/-- The mark of an applied batch is not newer. -/
theorem SnapshotApplied.fresh
    (h : SnapshotApplied rules context owner source observedAt snapshotSha256 events db db') :
    ¬Stale owner source observedAt db' := by
  obtain ⟨s, hs, hlast, -⟩ := h.marked
  simp [Stale, hs, hlast]

/-- A batch that is accepted again without a change has one payload for each decision. -/
theorem SnapshotMerged.onePayload
    (collisionFree : ∀ e ∈ events, ∀ f ∈ events,
      rules.payloadSha256 e.payload = rules.payloadSha256 f.payload → e.payload = f.payload)
    (h : SnapshotApplied rules context owner source observedAt snapshotSha256 events db db')
    (hmerged : SnapshotMerged rules context owner source observedAt snapshotSha256 events db db') :
    OnePayload rules owner source events db := by
  intro e he f hf hid
  by_contra hother
  obtain ⟨hpayload, hflight⟩ := not_or.mp hother
  obtain ⟨opened, db'', happlied, huntimed⟩ := hmerged.again context.now
  have hagain := applySnapshot_fresh h.fresh happlied
  have hmem : rules.eventDecisionId owner source e ∈ decisionIds rules owner source events :=
    List.mem_map_of_mem he
  have heOf : e ∈ eventsOf rules owner source (rules.eventDecisionId owner source e) events :=
    List.mem_filter.mpr ⟨he, by simp⟩
  have hfOf : f ∈ eventsOf rules owner source (rules.eventDecisionId owner source e) events :=
    List.mem_filter.mpr ⟨hf, by simp [hid]⟩
  obtain ⟨d, hd, hpending⟩ := foldl_mergedRow_notInFlight rules owner source observedAt context.now
    (List.ne_nil_of_mem heOf) (by simpa using hflight)
  obtain ⟨d', hd', -, -, hsame⟩ := foldl_mergedRow_pending rules owner source observedAt context.now
    (eventsOf rules owner source (rules.eventDecisionId owner source e) events) hpending
  have hfound := h.found (rules.eventDecisionId owner source e)
  have hfound' := hagain.found (rules.eventDecisionId owner source e)
  rw [if_pos hmem, hd] at hfound
  rw [if_pos hmem, hfound, hd'] at hfound'
  have hrevision : d'.revision = d.revision := by
    have heq := congrArg (fun db : Decisions =>
      (db.decisions.find? (rules.eventDecisionId owner source e)).map Decision.revision) huntimed
    simpa [Decisions.untimed, Table.find?_updateWhere, hfound, hfound'] using heq
  have hshas := hsame hrevision
  exact hpayload (collisionFree e he f hf ((hshas e heOf).trans (hshas f hfOf).symm))

end FirstmateDecisionStore

/-- A snapshot that raises changes nothing, nor does a stale one. Any other one is merged as it
should be exactly when the events of each decision have one payload, unless an answer to the
decision is in flight: the unresolved decisions of the source are those of the batch, a revision
rises by one when its decision is resolved or reopened or has another payload while it is pending,
and the same batch is accepted again and changes the times of updates only. -/
theorem decision_snapshot_merged (rules : DecisionRules) (context : DecisionContext)
    (owner source : String) (observedAt : ℕ) (snapshotSha256 : String)
    (events : List DecisionRequiredEvent) (db : Decisions)
    (collisionFree : ∀ e ∈ events, ∀ f ∈ events,
      rules.payloadSha256 e.payload = rules.payloadSha256 f.payload → e.payload = f.payload) :
    let result := applySnapshot rules context owner source observedAt snapshotSha256 events db
    let after := decisionStep rules db
      (.snapshot context owner source observedAt snapshotSha256 events)
    (∀ failure, result = .error failure → after = db) ∧
    ∀ opened db', result = .ok (opened, db') → after = db' ∧
      (Stale owner source observedAt db → db' = db) ∧
      (¬Stale owner source observedAt db →
        (SnapshotMerged rules context owner source observedAt snapshotSha256 events db db' ↔
          OnePayload rules owner source events db)) := by
  intro result after
  refine ⟨fun failure hfailure => ?_, fun opened db' hok => ⟨?_, ?_, fun hfresh => ⟨?_, ?_⟩⟩⟩
  · simp only [after, decisionStep]
    rw [show applySnapshot rules context owner source observedAt snapshotSha256 events db =
      .error failure from hfailure, stateOf_error, commit_error]
  · simp only [after, decisionStep]
    rw [show applySnapshot rules context owner source observedAt snapshotSha256 events db =
      .ok (opened, db') from hok, stateOf_ok, commit_ok]
  · exact fun hstale => applySnapshot_stale hstale hok
  · exact SnapshotMerged.onePayload collisionFree (applySnapshot_fresh hfresh hok)
  · intro hone
    have h := applySnapshot_fresh hfresh hok
    refine ⟨fun id => ?_, fun id d => h.revised hone, fun id d => h.created hone,
      fun e he d => h.payload hone he, h.again hone⟩
    rw [← h.opened hone id]
    refine exists_congr fun d => and_congr_right fun _ => ?_
    cases hstate : d.state <;> simp [isOpen, hstate]

/-- Rules that tell payloads by their questions and decisions by their tasks. -/
def sampleDecisionRules : DecisionRules where
  validOwner _ := true
  safeSourceId _ := true
  snapshotDigest _ := true
  payloadSha256
    | .required _ _ _ _ _ question _ _ => question
    | .resolved _ decisionId _ _ => decisionId
  decisionId _ _ taskId _ := taskId
  eventRowId _ _ sourceEventId := sourceEventId
  resolutionEventId
    | .required _ _ _ _ _ question _ _ => question
    | .resolved _ decisionId _ _ => decisionId
  validatedAnswer answer := .ok (answer, answer.length)
  idempotencyKey _ messageId := messageId
  answerId _ key := key
  tokenHash token := token
  risky _ := false

/-- A context in which every request is in scope. -/
def sampleDecisionContext : DecisionContext where
  now := 5
  personal := false
  requestScope _ _ _ _ := true
  projected := true

/-- An open hold of a task, which asks a question. -/
def sampleHold (sourceEventId question : String) : DecisionRequiredEvent where
  sourceInstanceId := "firstmate"
  sourceEventId := sourceEventId
  taskId := "release"
  lifecycleIdentity := "2026-09-01#1"
  title := "Release"
  question := question
  project := none
  observedAt := 1
  request := none

/-- A hold that was asked once is asked in other words, beside a hold of another task: both are
merged, and the revision of the first one rises. -/
theorem decision_snapshot_merged_hold :
    let db := decisionStep sampleDecisionRules .initial
      (.snapshot sampleDecisionContext "owner" "firstmate" 1 "first"
        [sampleHold "fmde_0" "Ship it?"])
    let events := [{ sampleHold "fmde_1" "Ship it today?" with observedAt := 2 },
      { sampleHold "fmde_2" "Publish them?" with taskId := "docs", observedAt := 2 }]
    ∃ opened db', applySnapshot sampleDecisionRules sampleDecisionContext "owner" "firstmate" 2
        "second" events db = .ok (opened, db') ∧
      (db.decisions.rows.map fun d => (d.decisionId, d.revision)) = [("release", 1)] ∧
      (db'.decisions.rows.map fun d => (d.decisionId, d.revision)) = [("release", 2), ("docs", 1)] ∧
      SnapshotMerged sampleDecisionRules sampleDecisionContext "owner" "firstmate" 2 "second" events
        db db' := by
  intro db events
  obtain ⟨⟨opened, db'⟩, hok, hrevised⟩ := exists_ok_of_any
    (p := fun result : List Decision × Decisions =>
      (result.2.decisions.rows.map fun d => (d.decisionId, d.revision)) =
        [("release", 2), ("docs", 1)])
    (show (applySnapshot sampleDecisionRules sampleDecisionContext "owner" "firstmate" 2
      "second" events db).toOption.any _ = true by decide)
  refine ⟨opened, db', hok, by decide, of_decide_eq_true hrevised, ?_⟩
  refine (((decision_snapshot_merged sampleDecisionRules sampleDecisionContext "owner" "firstmate" 2
    "second" events db (by decide)).2 opened db' hok).2.2 ?_).mpr ?_
  · unfold Stale
    decide
  · unfold OnePayload
    decide

/-- Two questions of one hold in a batch move its revision whenever the batch is applied: the same
batch, applied again, asks both of them again. -/
theorem two_payloads_not_merged :
    let events := [sampleHold "fmde_0" "Ship it?", sampleHold "fmde_1" "Ship it today?"]
    let apply := applySnapshot sampleDecisionRules sampleDecisionContext "owner" "firstmate" 1
      "digest" events
    ∃ opened db' opened' db'', apply .initial = .ok (opened, db') ∧
      apply db' = .ok (opened', db'') ∧
      (db'.decisions.find? "release").map (·.revision) = some 2 ∧
      (db''.decisions.find? "release").map (·.revision) = some 4 ∧
      ¬Stale "owner" "firstmate" 1 .initial ∧
      ¬SnapshotMerged sampleDecisionRules sampleDecisionContext "owner" "firstmate"
        1 "digest" events
        .initial db' := by
  intro events apply
  refine ⟨_, _, _, _, rfl, rfl, rfl, rfl, nofun, fun h => ?_⟩
  obtain ⟨opened, last, hagain, huntimed⟩ := h.again 5
  have hrevision : (last.decisions.find? "release").map (·.revision) = some 4 :=
    (congrArg (fun r : List Decision × Decisions =>
      (r.2.decisions.find? "release").map (·.revision))
      (Except.ok.inj hagain)).symm
  have hkept := congrArg (fun db : Decisions =>
    (db.decisions.find? "release").map (·.revision)) huntimed
  simp only [Decisions.untimed, Table.find?_updateWhere, Option.map_map] at hkept
  exact absurd (hrevision.symm.trans hkept) (by decide)

end Magistrate
