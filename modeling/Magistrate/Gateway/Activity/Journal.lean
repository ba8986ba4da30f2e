import Magistrate.Gateway.Activity.Sources

/-!
# No journal event is skipped

From its initialization on, the cursor of a source moves over events that are
stored, unless the source is started over: a row in fault that has no cursor, no
prefix, no tail and no accepted events is taken for one that was never
initialized, and so is that of a source that started on an empty journal.
-/

namespace Magistrate

/-- An event of a source is stored. -/
def ActivitySources.Stored (rules : SourceRules) (db : ActivitySources) (key : SourceKey)
    (event : SourceEvent) : Prop :=
  ∃ row ∈ db.events.rows, row.source = key ∧
    rules.boundedText event.sourceEventId 200 = some row.sourceEventId ∧
    row.sourceCursor = event.sourceCursor ∧ row.payloadSha256 = event.payloadSha256

/-- A source is followed from a cursor: its cursor moves over stored events of its journal. -/
def Followed (rules : SourceRules) (key : SourceKey) (start : ℕ) (db : ActivitySources) : Prop :=
  ∃ s, db.sources.find? key = some s ∧ start ≤ s.cursor ∧
    ∀ i, start ≤ i → i < s.cursor → ∃ event, (db.journal key)[i]? = some event ∧
      event.sourceCursor = i + 1 ∧ db.Stored rules key event

/-- The cursor at which a step would start a source. -/
def SourceStep.startsAt (db : ActivitySources) (key : SourceKey) : SourceStep → Option ℕ
  | .initializeSource key' _ cursor _ _ _ => if key' = key then some cursor else none
  | .reconcile key' policy read _ =>
    if key' = key then (policy.cursor ((db.journal key).take read).length).toOption else none
  | _ => none

/-- A step, even one that raises, does not start a source at a positive cursor when its row has an
uninitialized fault. -/
def KeepsStart (key : SourceKey) (db : ActivitySources) (op : SourceStep) : Prop :=
  (db.sources.find? key).all (·.uninitializedFault) = true →
    ∀ cursor ∈ op.startsAt db key, cursor = 0

instance (key : SourceKey) (db : ActivitySources) (op : SourceStep) :
    Decidable (KeepsStart key db op) :=
  inferInstanceAs (Decidable ((db.sources.find? key).all (·.uninitializedFault) = true →
    ∀ cursor ∈ op.startsAt db key, cursor = 0))

section Transactions

variable {rules : SourceRules} {key key' : SourceKey} {db db' : ActivitySources}
  {policy : BootstrapPolicy} {cursor sourceTail : ℕ} {prefixSha256 : String} {now : ℤ}

/-- What a transaction on a source keeps of the others, the journals and the stored events. -/
structure SourceFrame (key : SourceKey) (db db' : ActivitySources) : Prop where
  others : ∀ key', key' ≠ key → db'.sources.find? key' = db.sources.find? key'
  journals : db'.journals = db.journals
  events : ∀ row ∈ db.events.rows, row ∈ db'.events.rows

namespace SourceFrame

theorem refl (key : SourceKey) (db : ActivitySources) : SourceFrame key db db :=
  ⟨fun _ _ => rfl, rfl, fun _ h => h⟩

theorem trans {db'' : ActivitySources} (h : SourceFrame key db db')
    (h' : SourceFrame key db' db'') : SourceFrame key db db'' where
  others key' hne := (h'.others key' hne).trans (h.others key' hne)
  journals := h'.journals.trans h.journals
  events row hrow := h'.events row (h.events row hrow)

/-- An insertion of a row of the source. -/
theorem insert {row : ActivitySource} (hrow : row.source = key) :
    SourceFrame key db { db with sources := db.sources.insertOrIgnore row } where
  others key' hne := by
    rw [Table.find?_insertOrIgnore, hrow, if_neg (Ne.symm hne), Option.or_none]
  journals := rfl
  events _ h := h

/-- An update of the row of the source, perhaps with more events. -/
theorem update (key : SourceKey) (f : ActivitySource → ActivitySource)
    (hf : ∀ s, (f s).source = s.source) {events : Table CanonicalSourceEvent.id}
    (hevents : ∀ row ∈ db.events.rows, row ∈ events.rows) :
    SourceFrame key db { db with sources := db.sources.update key f hf, events } where
  others _ hne := by rw [Table.find?_update_ne _ hne]
  journals := rfl
  events := hevents

/-- What was stored is stored. -/
theorem stored (h : SourceFrame key db db') {event : SourceEvent}
    (hstored : db.Stored rules key' event) : db'.Stored rules key' event := by
  obtain ⟨row, hrow, hevent⟩ := hstored
  exact ⟨row, h.events row hrow, hevent⟩

/-- The journal of a source is what it was. -/
theorem journal (h : SourceFrame key db db') (key' : SourceKey) :
    db'.journal key' = db.journal key' := by
  rw [ActivitySources.journal, h.journals]
  rfl

/-- Other sources are followed as they were. -/
theorem followed (h : SourceFrame key db db') {start : ℕ} (hne : key' ≠ key)
    (hfollowed : Followed rules key' start db) : Followed rules key' start db' := by
  obtain ⟨s, hs, hle, hmoved⟩ := hfollowed
  refine ⟨s, (h.others key' hne).trans hs, hle, fun i hi hlt => ?_⟩
  obtain ⟨event, hevent, hcursor, hstored⟩ := hmoved i hi hlt
  exact ⟨event, h.journal key' ▸ hevent, hcursor, h.stored hstored⟩

/-- A source whose cursor stays is followed as it was. -/
theorem followed_of_cursor (h : SourceFrame key db db') {start : ℕ} {s' : ActivitySource}
    (hs' : db'.sources.find? key = some s')
    (hcursor : ∀ s, db.sources.find? key = some s → s'.cursor = s.cursor)
    (hfollowed : Followed rules key start db) : Followed rules key start db' := by
  obtain ⟨s, hs, hle, hmoved⟩ := hfollowed
  have hsame := hcursor s hs
  refine ⟨s', hs', hsame ▸ hle, fun i hi hlt => ?_⟩
  obtain ⟨event, hevent, hcursor, hstored⟩ := hmoved i hi (hsame ▸ hlt)
  exact ⟨event, h.journal key ▸ hevent, hcursor, h.stored hstored⟩

end SourceFrame

/-- An initialization inserts a source, starts one over, or leaves it. -/
theorem initializeSource_eq_ok {s' : ActivitySource}
    (h : initializeSource rules key policy cursor prefixSha256 sourceTail now db = .ok (s', db')) :
    SourceFrame key db db' ∧ db'.sources.find? key = some s' ∧
      (db.sources.find? key = none ∧ s'.cursor = cursor ∨
        ∃ s, db.sources.find? key = some s ∧
          (s.uninitializedFault = true ∧ s'.cursor = cursor ∨ s' = s)) := by
  simp only [initializeSource, bind_eq_ok, raiseIf_eq_ok, exists_const] at h
  obtain ⟨-, -, -, -, h⟩ := h
  split at h
  · next hnone =>
    simp only [pure_eq_ok, Prod.mk.injEq] at h
    obtain ⟨rfl, rfl⟩ := h
    exact ⟨.insert rfl, Table.find?_eq_some_iff.mpr ⟨Table.mem_insertOrIgnore_self hnone, rfl⟩,
      .inl ⟨hnone, rfl⟩⟩
  · next s hs =>
    split at h
    · next hfault =>
      simp only [pure_eq_ok, Prod.mk.injEq] at h
      obtain ⟨rfl, rfl⟩ := h
      refine ⟨.update key _ _ fun _ h => h, ?_, .inr ⟨s, hs, .inl ⟨hfault, rfl⟩⟩⟩
      simp only [Table.find?_update_self, hs, Option.map_some]
    · simp only [pure_eq_ok, Prod.mk.injEq] at h
      obtain ⟨rfl, rfl⟩ := h
      exact ⟨.refl key db, hs, .inr ⟨s, hs, .inr rfl⟩⟩

/-- A fault keeps the cursor of its source. -/
theorem markSourceFault_eq_ok {code detail : String} {conflict : Bool}
    (h : markSourceFault rules key code detail policy conflict now db = .ok db') :
    SourceFrame key db db' ∧ ∃ s', db'.sources.find? key = some s' ∧
      ∀ s, db.sources.find? key = some s → s'.cursor = s.cursor := by
  simp only [markSourceFault, bind_eq_ok, raiseIf_eq_ok, exists_const] at h
  obtain ⟨-, h⟩ := h
  split at h
  · split at h
    · next hnone =>
      obtain rfl := Except.ok.inj h
      refine ⟨.insert rfl, _,
        Table.find?_eq_some_iff.mpr ⟨Table.mem_insertOrIgnore_self hnone, rfl⟩, fun s hs => ?_⟩
      rw [hnone] at hs
      simp at hs
    · next s hs =>
      obtain rfl := Except.ok.inj h
      refine ⟨.update key _ _ fun _ h => h, ?_⟩
      simp only [Table.find?_update_self, hs, Option.map_some]
      refine ⟨_, rfl, fun t ht => ?_⟩
      rw [Option.some.inj ht]
  · simp at h

/-- A stored event is at the next cursor, and its row is there. -/
theorem storeEvent_eq_ok {next : ℕ} {event : SourceEvent} {stored : Bool}
    {events events' : Table CanonicalSourceEvent.id}
    (h : storeEvent rules key sourceTail now next event events = .ok (stored, events')) :
    (∀ row ∈ events.rows, row ∈ events'.rows) ∧ event.sourceCursor = next ∧
      ∃ row ∈ events'.rows, row.source = key ∧
        rules.boundedText event.sourceEventId 200 = some row.sourceEventId ∧
        row.sourceCursor = event.sourceCursor ∧ row.payloadSha256 = event.payloadSha256 := by
  unfold storeEvent at h
  split at h
  · simp at h
  · next sourceEventId hid =>
    simp only [bind_eq_ok, raiseIf_eq_ok, exists_const, not_or, not_not] at h
    obtain ⟨-, ⟨hnext, -⟩, -, -, -, h⟩ := h
    split at h
    · next duplicate hduplicate =>
      simp only [bind_eq_ok, raiseIf_eq_ok, exists_const, pure_eq_ok, not_or, not_not,
        Prod.mk.injEq] at h
      obtain ⟨⟨hcursor, hsha⟩, -, rfl⟩ := h
      have hfound := List.find?_some hduplicate
      obtain ⟨hkey, hsame⟩ := of_decide_eq_true hfound
      exact ⟨fun _ h => h, hnext, duplicate, List.mem_of_find?_eq_some hduplicate, hkey,
        hsame ▸ hid, hcursor, hsha⟩
    · simp only [bind_eq_ok, raiseIf_eq_ok, exists_const, pure_eq_ok, not_not, Prod.mk.injEq] at h
      obtain ⟨-, hfree, -, -, rfl⟩ := h
      exact ⟨fun _ h => Table.mem_insertOrIgnore_of_mem h, hnext, _,
        Table.mem_insertOrIgnore_self hfree, rfl, hid, rfl, rfl⟩

/-- The events of a batch are at consecutive cursors, and their rows are there. -/
theorem storeEvents_eq_ok {batch : List SourceEvent} :
    ∀ {next : ℕ} {events events' : Table CanonicalSourceEvent.id} {accepted duplicates : ℕ},
    storeEvents rules key sourceTail now next batch events =
      .ok (accepted, duplicates, events') →
    (∀ row ∈ events.rows, row ∈ events'.rows) ∧
      ∀ i event, batch[i]? = some event → event.sourceCursor = next + i ∧
        ∃ row ∈ events'.rows, row.source = key ∧
          rules.boundedText event.sourceEventId 200 = some row.sourceEventId ∧
          row.sourceCursor = event.sourceCursor ∧ row.payloadSha256 = event.payloadSha256 := by
  induction batch with
  | nil =>
    intro next events events' accepted duplicates h
    simp only [storeEvents, Except.ok.injEq, Prod.mk.injEq] at h
    obtain ⟨-, -, rfl⟩ := h
    exact ⟨fun _ h => h, fun i event hi => by simp at hi⟩
  | cons first batch ih =>
    intro next events events' accepted duplicates h
    simp only [storeEvents, bind_eq_ok, pure_eq_ok, Prod.exists] at h
    obtain ⟨stored, mid, hfirst, accepted', duplicates', last, hrest, heq⟩ := h
    obtain rfl : last = events' := by
      split at heq <;> exact (Prod.mk.inj (Prod.mk.inj heq).2).2
    obtain ⟨hkept, hnext, hrow⟩ := storeEvent_eq_ok hfirst
    obtain ⟨hkept', hrows⟩ := ih hrest
    refine ⟨fun row hr => hkept' row (hkept row hr), fun i event hi => ?_⟩
    cases i with
    | zero =>
      obtain rfl : first = event := Option.some.inj (by simpa using hi)
      obtain ⟨row, hr, hevent⟩ := hrow
      exact ⟨hnext, row, hkept' row hr, hevent⟩
    | succ i =>
      obtain ⟨hcursor, hevent⟩ := hrows i event (by simpa using hi)
      exact ⟨by omega, hevent⟩

/-- A batch moves the cursor of its source over stored events. -/
theorem applySourceEventBatch_eq_ok {expectedCursor newCursor : ℕ} {batch : List SourceEvent}
    {newPrefixSha256 : String}
    (h : applySourceEventBatch rules key expectedCursor batch newCursor
      newPrefixSha256 sourceTail now
      db = .ok db') :
    SourceFrame key db db' ∧ expectedCursor ≤ newCursor ∧
      batch.length = newCursor - expectedCursor ∧
      ∃ s s', db.sources.find? key = some s ∧ s.cursor = expectedCursor ∧
        db'.sources.find? key = some s' ∧ s'.cursor = newCursor ∧
        ∀ i event, batch[i]? = some event →
          event.sourceCursor = expectedCursor + 1 + i ∧ db'.Stored rules key event := by
  simp only [applySourceEventBatch, bind_eq_ok, raiseIf_eq_ok, exists_const, not_or, not_lt,
    not_not] at h
  obtain ⟨-, ⟨hle, -, -, hlength⟩, -, h⟩ := h
  split at h
  · simp at h
  · next s hs =>
    simp only [bind_eq_ok, raiseIf_eq_ok, exists_const, pure_eq_ok, not_not, Prod.exists] at h
    obtain ⟨hcursor, accepted, duplicates, events, hevents, rfl⟩ := h
    obtain ⟨hkept, hstored⟩ := storeEvents_eq_ok hevents
    refine ⟨.update key _ _ hkept, hle, hlength, s, ?_⟩
    simp only [Table.find?_update_self, hs, Option.map_some]
    exact ⟨_, trivial, hcursor, rfl, rfl, hstored⟩

end Transactions

namespace Followed

variable {rules : SourceRules} {key key' : SourceKey} {db db' : ActivitySources} {start : ℕ}
  {policy : BootstrapPolicy} {now : ℤ}

/-- An initialization that does not start a source over at a cursor keeps it followed. -/
theorem started {cursor sourceTail : ℕ} {prefixSha256 : String} {s' : ActivitySource}
    (hfollowed : Followed rules key start db)
    (hkeeps : (db.sources.find? key).all (·.uninitializedFault) = true → cursor = 0)
    (h : initializeSource rules key policy cursor prefixSha256 sourceTail now db = .ok (s', db')) :
    Followed rules key start db' := by
  obtain ⟨hframe, hs', hcases⟩ := initializeSource_eq_ok h
  refine hframe.followed_of_cursor hs' (fun s hs => ?_) hfollowed
  rcases hcases with ⟨hnone, -⟩ | ⟨t, ht, ⟨hfault, hcursor⟩ | rfl⟩
  · rw [hnone] at hs
    simp at hs
  · obtain rfl : t = s := Option.some.inj (ht.symm.trans hs)
    obtain ⟨-, hzero, -⟩ := of_decide_eq_true hfault
    rw [hcursor, hzero]
    exact hkeeps (by rw [ht, Option.all_some, hfault])
  · exact congrArg ActivitySource.cursor (Option.some.inj (ht.symm.trans hs))

/-- A batch of the journal keeps the source followed. -/
theorem applied {expectedCursor newCursor sourceTail : ℕ} {batch : List SourceEvent}
    {newPrefixSha256 : String} (hfollowed : Followed rules key start db)
    (hbatch : ∀ i event, batch[i]? = some event →
      (db.journal key)[expectedCursor + i]? = some event)
    (h : applySourceEventBatch rules key expectedCursor batch newCursor
      newPrefixSha256 sourceTail now
      db = .ok db') : Followed rules key start db' := by
  obtain ⟨hframe, hle, hlength, t, s', ht, hexpected, hs', hnew, hstored⟩ :=
    applySourceEventBatch_eq_ok h
  obtain ⟨s, hs, hstart, hmoved⟩ := hfollowed
  obtain rfl : t = s := Option.some.inj (ht.symm.trans hs)
  refine ⟨s', hs', by omega, fun i hi hlt => ?_⟩
  rw [hframe.journal]
  by_cases hold : i < t.cursor
  · obtain ⟨event, hevent, hcursor, hold⟩ := hmoved i hi hold
    exact ⟨event, hevent, hcursor, hframe.stored hold⟩
  · -- The cursor has moved over this event.
    obtain ⟨k, rfl⟩ := Nat.exists_eq_add_of_le (not_lt.mp hold)
    have hk : k < batch.length := by omega
    obtain ⟨hcursor, hrow⟩ := hstored k batch[k] (List.getElem?_eq_getElem hk)
    have hjournal := hbatch k batch[k] (List.getElem?_eq_getElem hk)
    exact ⟨batch[k], hexpected ▸ hjournal, by omega, hrow⟩

/-- A slice of the read rows is a slice of the journal. -/
theorem slice {rows : List SourceEvent} {read first count i : ℕ} {event : SourceEvent}
    (h : (((rows.take read).drop first).take count)[i]? = some event) :
    rows[first + i]? = some event := by
  rw [List.getElem?_take] at h
  split at h
  · rw [List.getElem?_drop, List.getElem?_take] at h
    split at h
    · exact h
    · simp at h
  · simp at h

/-- Rows applied after the cursor keep the source followed. -/
theorem rowsApplied {read : ℕ} (hfollowed : Followed rules key start db)
    (h : applyRows rules key ((db.journal key).take read) now db = .ok db') :
    Followed rules key start db' := by
  unfold applyRows at h
  split at h
  · simp at h
  · next s hs =>
    simp only [bind_eq_ok, raiseIf_eq_ok, exists_const] at h
    obtain ⟨-, -, h⟩ := h
    exact hfollowed.applied (fun i event hi => slice hi) h

/-- A fault keeps the source followed. -/
theorem fault {code detail : String} {conflict : Bool} (hfollowed : Followed rules key start db)
    (h : markSourceFault rules key code detail policy conflict now db = .ok db') :
    Followed rules key start db' := by
  obtain ⟨hframe, s', hs', hcursor⟩ := markSourceFault_eq_ok h
  exact hframe.followed_of_cursor hs' hcursor hfollowed

end Followed

section Runs

variable {rules : SourceRules} {key : SourceKey} {db : ActivitySources} {start : ℕ}

/-- A pass over a journal writes to its own source only. -/
theorem reconcileJournal_frame (key : SourceKey) (policy : BootstrapPolicy) (read : ℕ) (now : ℤ)
    (db : ActivitySources) :
    SourceFrame key db (reconcileJournal rules key policy read now db) := by
  have hboot : ∀ db', bootstrap rules key policy ((db.journal key).take read) now db = .ok db' →
      SourceFrame key db db' := by
    intro db' h
    unfold bootstrap at h
    split at h
    · simp only [bind_eq_ok, pure_eq_ok, Prod.exists] at h
      obtain ⟨cursor, -, s', mid, hstart, rfl⟩ := h
      exact (initializeSource_eq_ok hstart).1
    · obtain rfl := Except.ok.inj h
      exact .refl key db
  have hrows : ∀ mid db', applyRows rules key ((db.journal key).take read) now mid = .ok db' →
      SourceFrame key mid db' := by
    intro mid db' h
    unfold applyRows at h
    split at h
    · simp at h
    · simp only [bind_eq_ok, raiseIf_eq_ok, exists_const] at h
      exact (applySourceEventBatch_eq_ok h.2.2).1
  have hfault : ∀ code detail conflict db', SourceFrame key db db' →
      SourceFrame key db
        (commit (markSourceFault rules key code detail policy conflict now db') db') :=
    fun code detail conflict db' hframe => commit_of hframe fun _ h =>
      hframe.trans (markSourceFault_eq_ok h).1
  unfold reconcileJournal reconcileRows
  cases hstarted : bootstrap rules key policy ((db.journal key).take read) now db with
  | error failure => exact hfault _ _ _ db (.refl key db)
  | ok mid =>
    have hmid := hboot mid hstarted
    simp only
    cases happlied : applyRows rules key ((db.journal key).take read) now mid with
    | error failure => exact hfault _ _ _ mid hmid
    | ok db' => exact hmid.trans (hrows mid db' happlied)

/-- A pass over the journal of a source keeps it followed. -/
theorem Followed.reconcile {policy : BootstrapPolicy} {read : ℕ} {now : ℤ}
    (hfollowed : Followed rules key start db)
    (hkeeps : KeepsStart key db (.reconcile key policy read now)) :
    Followed rules key start (reconcileJournal rules key policy read now db) := by
  have hfault : ∀ code detail conflict db', Followed rules key start db' →
      Followed rules key start
        (commit (markSourceFault rules key code detail policy conflict now db') db') :=
    fun code detail conflict db' h => commit_of h fun _ hok => h.fault hok
  unfold reconcileJournal reconcileRows
  cases hstarted : bootstrap rules key policy ((db.journal key).take read) now db with
  | error failure => exact hfault _ _ _ db hfollowed
  | ok mid =>
    have hmid : Followed rules key start mid ∧ mid.journal key = db.journal key := by
      unfold bootstrap at hstarted
      split at hstarted
      · next hfresh =>
        simp only [bind_eq_ok, pure_eq_ok, Prod.exists] at hstarted
        obtain ⟨cursor, hcursor, s', last, hinit, rfl⟩ := hstarted
        have hzero : cursor = 0 := by
          refine hkeeps hfresh cursor ?_
          rw [SourceStep.startsAt, if_pos rfl, hcursor]
          rfl
        exact ⟨hfollowed.started (fun _ => hzero) hinit,
          (initializeSource_eq_ok hinit).1.journal key⟩
      · obtain rfl := Except.ok.inj hstarted
        exact ⟨hfollowed, rfl⟩
    simp only
    cases happlied : applyRows rules key ((db.journal key).take read) now mid with
    | error failure => exact hfault _ _ _ mid hmid.1
    | ok db' => exact hmid.1.rowsApplied (hmid.2 ▸ happlied)

/-- An append keeps the sources followed. -/
theorem Followed.append {stream : String × String} {event : SourceEvent}
    (hfollowed : Followed rules key start db) :
    Followed rules key start (sourceStep rules db (.append stream event)) := by
  obtain ⟨s, hs, hstart, hmoved⟩ := hfollowed
  refine ⟨s, hs, hstart, fun i hi hlt => ?_⟩
  obtain ⟨event', hevent', hcursor, hstored⟩ := hmoved i hi hlt
  refine ⟨event', ?_, hcursor, hstored⟩
  unfold ActivitySources.journal at hevent'
  by_cases hstream : (key.sourceInstanceId, key.streamName) = stream
  · have hjournal : (sourceStep rules db (.append stream event)).journal key =
        db.journals stream ++ [event] := by
      rw [ActivitySources.journal, hstream]
      exact Function.update_self ..
    rw [hjournal]
    rw [hstream] at hevent'
    exact List.getElem?_append_left (List.getElem?_eq_some_iff.mp hevent').1 ▸ hevent'
  · have hjournal : (sourceStep rules db (.append stream event)).journal key = db.journal key :=
      Function.update_of_ne hstream ..
    rw [hjournal]
    exact hevent'

/-- A step that does not start a source over at a cursor keeps it followed. -/
theorem Followed.step {op : SourceStep} (hfollowed : Followed rules key start db)
    (hkeeps : KeepsStart key db op) : Followed rules key start (sourceStep rules db op) := by
  cases op with
  | initializeSource key' policy cursor prefixSha256 sourceTail now =>
    refine commit_of hfollowed fun db' hok => ?_
    obtain ⟨s', hinit⟩ := stateOf_eq_ok.mp hok
    by_cases hkey : key = key'
    · subst hkey
      exact hfollowed.started (fun hfresh => hkeeps hfresh cursor (if_pos rfl)) hinit
    · exact (initializeSource_eq_ok hinit).1.followed hkey hfollowed
  | apply key' read expectedCursor newCursor newPrefixSha256 sourceTail now =>
    refine commit_of hfollowed fun db' hok => ?_
    by_cases hkey : key = key'
    · subst hkey
      exact hfollowed.applied (fun i event hi => Followed.slice hi) hok
    · exact (applySourceEventBatch_eq_ok hok).1.followed hkey hfollowed
  | fault key' code detail policy conflict now =>
    refine commit_of hfollowed fun db' hok => ?_
    by_cases hkey : key = key'
    · subst hkey
      exact hfollowed.fault hok
    · exact (markSourceFault_eq_ok hok).1.followed hkey hfollowed
  | reconcile key' policy read now =>
    by_cases hkey : key = key'
    · subst hkey
      exact hfollowed.reconcile hkeeps
    · exact (reconcileJournal_frame key' policy read now db).followed hkey hfollowed
  | append stream event => exact hfollowed.append

end Runs

/-- No journal event is skipped: from an initialization of a source at a cursor on, in every run in
which no step starts the source over at a positive cursor while its row has an uninitialized fault,
every journal event between that cursor and the stored one is stored. -/
theorem journal_events_stored (rules : SourceRules) (key : SourceKey) (policy : BootstrapPolicy)
    (cursor : ℕ) (prefixSha256 : String) (sourceTail : ℕ) (now : ℤ) (before after : List SourceStep)
    (s : ActivitySource) (db : ActivitySources)
    (hstart : initializeSource rules key policy cursor prefixSha256 sourceTail now
      (run (sourceStep rules) .initial before) = .ok (s, db))
    (hkeeps : RunMeets (sourceStep rules) (KeepsStart key) db after) :
    ∃ s', (run (sourceStep rules) db after).sources.find? key = some s' ∧ s.cursor ≤ s'.cursor ∧
      ∀ i, s.cursor ≤ i → i < s'.cursor →
        ∃ event, ((run (sourceStep rules) db after).journal key)[i]? = some event ∧
          event.sourceCursor = i + 1 ∧
          (run (sourceStep rules) db after).Stored rules key event := by
  have hfollowed : Followed rules key s.cursor db := by
    refine ⟨s, (initializeSource_eq_ok hstart).2.1, le_rfl, fun i hi hlt => ?_⟩
    omega
  exact run_invariant (fun db op h hop => h.step hop) hkeeps hfollowed

section Sample

/-- Rules under which every text is bounded and every text but the empty one is a digest. -/
def sampleSourceRules : SourceRules where
  validIdentity _ := true
  boundedText text _ := some text
  safeHash hash := hash ≠ ""
  prefixSha256 rows := String.join (rows.map (·.payloadSha256))
  sourceRowId _ sourceEventId := sourceEventId
  publishable _ := true

/-- The branch stream of an instance. -/
def branchStream : SourceKey where
  userId := "user"
  sourceInstanceId := "instance"
  streamName := "branch-outcomes"

/-- The first outcome of a branch. -/
def branchOutcome : SourceEvent where
  sourceEventId := "branch-outcome:1"
  sourceCursor := 1
  payloadSha256 := "outcome"
  audience := "captain"
  eventKind := "supervision.outcome"
  occurredAt := some 0
  payload := "\x7b\x7d"

/-- A source that starts at the tail of an empty journal. -/
def emptySource : Except SourceFailure (ActivitySource × ActivitySources) :=
  initializeSource sampleSourceRules branchStream .tail 0 "" 0 0 .initial

/-- An outcome, and a pass that reads it. -/
def outcomeRun : List SourceStep :=
  [.append ("instance", "branch-outcomes") branchOutcome, .reconcile branchStream .tail 1 2]

/-- The outcome is stored when a source has started on an empty journal. -/
theorem journal_events_stored_outcome :
    ∃ s db, emptySource = .ok (s, db) ∧
      (run (sourceStep sampleSourceRules) db outcomeRun).Stored sampleSourceRules branchStream
        branchOutcome := by
  refine ⟨_, _, rfl, ?_⟩
  obtain ⟨s', hs', -, hstored⟩ :=
    journal_events_stored sampleSourceRules branchStream .tail 0 "" 0 0
    [] outcomeRun _ _ rfl ⟨by decide, by decide, trivial⟩
  have hcursor : s'.cursor = 1 := congrArg ActivitySource.cursor (Option.some.inj hs').symm
  obtain ⟨event, hevent, -, hevent'⟩ := hstored 0 le_rfl (by omega)
  obtain rfl : branchOutcome = event := Option.some.inj hevent
  exact hevent'

/-- The outcome is skipped when a fault comes before it: the pass starts the source over at the tail
of a journal with one event, none of which is stored. -/
theorem journal_event_skipped :
    ∃ s db, emptySource = .ok (s, db) ∧ s.cursor = 0 ∧
      let db' := run (sourceStep sampleSourceRules) db
        (.fault branchStream "journal-unavailable" "torn" .tail false 1 :: outcomeRun)
      (db'.sources.find? branchStream).map (·.cursor) = some 1 ∧
        db'.journal branchStream = [branchOutcome] ∧
        ¬db'.Stored sampleSourceRules branchStream branchOutcome := by
  refine ⟨_, _, rfl, rfl, rfl, rfl, ?_⟩
  rintro ⟨row, hrow, -⟩
  exact absurd hrow List.not_mem_nil

end Sample

end Magistrate
