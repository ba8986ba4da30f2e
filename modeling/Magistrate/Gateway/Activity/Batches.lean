import Magistrate.Gateway.Activity.Store

/-!
# Journal batches

The event cursors of a source are stored without a gap from where it started to
its cursor, each once, and they are counted. A batch that moves the cursor fences
off every other batch from the same one.
-/

namespace Magistrate

/-- The cursors of the stored events of a source, in the order of their storage. -/
def storedCursors (events : Table CanonicalSourceEvent.id) (key : SourceKey) : List ℕ :=
  (events.rows.filter (·.source = key)).map (·.sourceCursor)

/-- The database, and the cursor at which each source was started: that of the last initialization
that inserted its row or started it over. A row that a fault or a snapshot inserts starts at
zero. -/
structure JournalRun where
  db : ActivityDatabase
  bootstrap : SourceKey → ℕ

/-- A new database. -/
def JournalRun.initial : JournalRun := ⟨.initial, fun _ => 0⟩

/-- The source that a step starts, and where. -/
def startedBy (rules : ActivityStoreRules) (db : ActivityDatabase) :
    ActivityStep → Option (SourceKey × ℕ)
  | .initializeSource key policy cursor prefixSha256 sourceTail now =>
    if (db.sources.sources.find? key).all (·.uninitializedFault) ∧
        (initializeSource rules.sources key policy cursor prefixSha256 sourceTail now
          db.sources).isOk then some (key, cursor)
    else none
  | _ => none

/-- A step of the database, with the starts of its sources. -/
def journalStep (rules : ActivityStoreRules) (s : JournalRun) (op : ActivityStep) : JournalRun where
  db := activityStep rules s.db op
  bootstrap := match startedBy rules s.db op with
    | some (key, cursor) => Function.update s.bootstrap key cursor
    | none => s.bootstrap

/-- The events of a source are stored from its start to its cursor, each once, and counted. -/
structure Exact (key : SourceKey) (bootstrap : ℕ) (db : ActivitySources) : Prop where
  absent : db.sources.find? key = none → bootstrap = 0 ∧ storedCursors db.events key = []
  present : ∀ s, db.sources.find? key = some s → bootstrap + s.acceptedCount = s.cursor ∧
    storedCursors db.events key = List.range' (bootstrap + 1) s.acceptedCount

section Events

variable {rules : SourceRules} {key key' : SourceKey} {sourceTail : ℕ} {now : ℤ}

/-- An event after all the stored ones is stored last: no stored event can be the same. -/
theorem storeEvent_exact {next : ℕ} {event : SourceEvent} {stored : Bool}
    {events events' : Table CanonicalSourceEvent.id}
    (hbelow : ∀ cursor ∈ storedCursors events key, cursor < next)
    (h : storeEvent rules key sourceTail now next event events = .ok (stored, events')) :
    stored = true ∧ storedCursors events' key = storedCursors events key ++ [next] ∧
      ∀ key', key' ≠ key → storedCursors events' key' = storedCursors events key' := by
  unfold storeEvent at h
  split at h
  · exact nomatch h
  · next sourceEventId hid =>
    simp only [bind_eq_ok, raiseIf_eq_ok, exists_const, not_or, not_not] at h
    obtain ⟨-, ⟨hnext, -⟩, -, -, -, h⟩ := h
    split at h
    · next duplicate hduplicate =>
      simp only [bind_eq_ok, raiseIf_eq_ok, exists_const, pure_eq_ok, not_or, not_not,
        Prod.mk.injEq] at h
      obtain ⟨⟨hcursor, -⟩, -⟩ := h
      have hfound := List.find?_some hduplicate
      have hmem : duplicate.sourceCursor ∈ storedCursors events key :=
        List.mem_map_of_mem (List.mem_filter.mpr
          ⟨List.mem_of_find?_eq_some hduplicate, decide_eq_true (of_decide_eq_true hfound).1⟩)
      have hlt := hbelow _ hmem
      omega
    · simp only [bind_eq_ok, raiseIf_eq_ok, exists_const, pure_eq_ok, not_not, Prod.mk.injEq] at h
      obtain ⟨-, hfree, -, rfl, rfl⟩ := h
      refine ⟨rfl, ?_, fun key' hne => ?_⟩
      · rw [storedCursors, Table.rows_insertOrIgnore hfree, List.filter_append, List.map_append]
        simp [storedCursors, hnext]
      · rw [storedCursors, Table.rows_insertOrIgnore hfree, List.filter_append, List.map_append]
        simp [storedCursors, Ne.symm hne]

/-- The events of a batch after all the stored ones are stored in order. -/
theorem storeEvents_exact {batch : List SourceEvent} :
    ∀ {next accepted duplicates : ℕ} {events events' : Table CanonicalSourceEvent.id},
    (∀ cursor ∈ storedCursors events key, cursor < next) →
    storeEvents rules key sourceTail now next batch events = .ok (accepted, duplicates, events') →
    accepted = batch.length ∧
      storedCursors events' key = storedCursors events key ++ List.range' next batch.length ∧
      ∀ key', key' ≠ key → storedCursors events' key' = storedCursors events key' := by
  induction batch with
  | nil =>
    intro next accepted duplicates events events' _ h
    simp only [storeEvents, Except.ok.injEq, Prod.mk.injEq] at h
    obtain ⟨rfl, -, rfl⟩ := h
    exact ⟨rfl, by simp, fun _ _ => rfl⟩
  | cons event batch ih =>
    intro next accepted duplicates events events' hbelow h
    simp only [storeEvents, bind_eq_ok, pure_eq_ok, Prod.exists] at h
    obtain ⟨stored, mid, hevent, accepted', duplicates', last, hrest, heq⟩ := h
    obtain ⟨rfl, hcursors, hothers⟩ := storeEvent_exact hbelow hevent
    simp only [if_true, Prod.mk.injEq] at heq
    obtain ⟨rfl, -, rfl⟩ := heq
    have hbelow' : ∀ cursor ∈ storedCursors mid key, cursor < next + 1 := by
      intro cursor hcursor
      rw [hcursors, List.mem_append, List.mem_singleton] at hcursor
      rcases hcursor with hold | rfl
      · exact Nat.lt_succ_of_lt (hbelow cursor hold)
      · exact Nat.lt_succ_self cursor
    obtain ⟨rfl, hrest, hothers'⟩ := ih hbelow' hrest
    refine ⟨rfl, ?_, fun key' hne => (hothers' key' hne).trans (hothers key' hne)⟩
    rw [hrest, hcursors, List.append_assoc, List.length_cons, List.range'_succ]
    rfl

end Events

namespace Exact

variable {rules : SourceRules} {key key' : SourceKey} {bootstrap : ℕ} {db db' : ActivitySources}
  {now : ℤ}

/-- A source whose row and events are kept. -/
theorem of_eq (h : Exact key bootstrap db)
    (hrow : db'.sources.find? key = db.sources.find? key)
    (hevents : storedCursors db'.events key = storedCursors db.events key) :
    Exact key bootstrap db' where
  absent hnone := by
    rw [hrow] at hnone
    rw [hevents]
    exact h.absent hnone
  present s hs := by
    rw [hrow] at hs
    rw [hevents]
    exact h.present s hs

/-- A source that starts at a cursor, and that has stored no event. -/
theorem start {cursor : ℕ} {s : ActivitySource} (hrow : db'.sources.find? key = some s)
    (hcursor : s.cursor = cursor) (haccepted : s.acceptedCount = 0)
    (hevents : storedCursors db'.events key = []) : Exact key cursor db' where
  absent hnone := by
    rw [hrow] at hnone
    exact nomatch hnone
  present t ht := by
    obtain rfl : s = t := Option.some.inj (hrow.symm.trans ht)
    rw [hcursor, haccepted, hevents]
    exact ⟨rfl, rfl⟩

/-- A source without a row. -/
theorem of_absent (hnone : db.sources.find? key = none)
    (hevents : storedCursors db.events key = []) : Exact key 0 db where
  absent _ := ⟨rfl, hevents⟩
  present s hs := by
    rw [hnone] at hs
    exact nomatch hs

/-- A source whose row keeps its cursor and its count. -/
theorem of_row (h : Exact key bootstrap db) {s : ActivitySource}
    (hrow : db'.sources.find? key = some s)
    (hsome : ∀ t, db.sources.find? key = some t →
      s.cursor = t.cursor ∧ s.acceptedCount = t.acceptedCount)
    (hnone : db.sources.find? key = none → s.cursor = 0 ∧ s.acceptedCount = 0)
    (hevents : db'.events = db.events) : Exact key bootstrap db' := by
  cases hfound : db.sources.find? key with
  | none =>
    obtain ⟨rfl, hempty⟩ := h.absent hfound
    obtain ⟨hcursor, haccepted⟩ := hnone hfound
    exact .start hrow hcursor haccepted (hevents ▸ hempty)
  | some t =>
    obtain ⟨hcursor, haccepted⟩ := hsome t hfound
    obtain ⟨hcount, hcursors⟩ := h.present t hfound
    refine ⟨fun hgone => ?_, fun u hu => ?_⟩
    · rw [hrow] at hgone
      exact nomatch hgone
    · obtain rfl : s = u := Option.some.inj (hrow.symm.trans hu)
      rw [hcursor, haccepted, hevents]
      exact ⟨hcount, hcursors⟩

/-- The events of a source are below its cursor. -/
theorem below (h : Exact key bootstrap db) {s : ActivitySource}
    (hs : db.sources.find? key = some s) :
    ∀ cursor ∈ storedCursors db.events key, cursor < s.cursor + 1 := by
  obtain ⟨hcount, hcursors⟩ := h.present s hs
  intro cursor hcursor
  rw [hcursors, List.mem_range'_1] at hcursor
  omega

/-- A batch keeps the events of its source exact, and those of the others. -/
theorem applied {expectedCursor newCursor sourceTail : ℕ} {batch : List SourceEvent}
    {newPrefixSha256 : String} (h : Exact key bootstrap db)
    (hok : applySourceEventBatch rules key expectedCursor batch newCursor newPrefixSha256 sourceTail
      now db = .ok db') :
    Exact key bootstrap db' ∧
      ∀ key', key' ≠ key → storedCursors db'.events key' = storedCursors db.events key' := by
  simp only [applySourceEventBatch, bind_eq_ok, raiseIf_eq_ok, exists_const, not_or, not_lt,
    not_not] at hok
  obtain ⟨-, ⟨hle, -, -, hlength⟩, -, hok⟩ := hok
  split at hok
  · cases hok
  · next s hs =>
    simp only [bind_eq_ok, raiseIf_eq_ok, exists_const, pure_eq_ok, not_not, Prod.exists] at hok
    obtain ⟨rfl, accepted, duplicates, events, hevents, rfl⟩ := hok
    obtain ⟨hcount, hcursors⟩ := h.present s hs
    obtain ⟨rfl, hstored, hothers⟩ := storeEvents_exact (h.below hs) hevents
    refine ⟨⟨fun hnone => ?_, fun t ht => ?_⟩, hothers⟩
    · rw [Table.find?_update_self, hs] at hnone
      cases hnone
    · rw [Table.find?_update_self, hs] at ht
      obtain rfl := Option.some.inj ht
      refine ⟨by simp only; omega, ?_⟩
      simp only [hstored, hcursors]
      rw [← hcount, show bootstrap + s.acceptedCount + 1 = bootstrap + 1 + s.acceptedCount by omega,
        ← List.range'_append_1]

/-- An initialization starts its source if it has no row, or only an uninitialized fault. -/
theorem initialized {policy : BootstrapPolicy} {cursor sourceTail : ℕ} {prefixSha256 : String}
    {s : ActivitySource} (h : Exact key bootstrap db)
    (hok : initializeSource rules key policy cursor prefixSha256 sourceTail now db = .ok (s, db')) :
    Exact key (if (db.sources.find? key).all (·.uninitializedFault) then cursor
      else bootstrap) db' ∧
      db'.events = db.events := by
  simp only [initializeSource, bind_eq_ok, raiseIf_eq_ok, exists_const] at hok
  obtain ⟨-, -, -, -, hok⟩ := hok
  split at hok
  · next hnone =>
    simp only [pure_eq_ok, Prod.mk.injEq] at hok
    obtain ⟨rfl, rfl⟩ := hok
    rw [hnone, Option.all_none, if_pos rfl]
    exact ⟨.start (Table.find?_eq_some_iff.mpr ⟨Table.mem_insertOrIgnore_self hnone, rfl⟩) rfl rfl
      (h.absent hnone).2, rfl⟩
  · next t ht =>
    rw [ht, Option.all_some]
    split at hok
    · next hfault =>
      simp only [pure_eq_ok, Prod.mk.injEq] at hok
      obtain ⟨rfl, rfl⟩ := hok
      obtain ⟨-, -, -, -, haccepted⟩ := of_decide_eq_true hfault
      obtain ⟨-, hcursors⟩ := h.present t ht
      rw [haccepted] at hcursors
      rw [if_pos hfault]
      exact ⟨.start (Table.find?_update_of_some ht) rfl haccepted hcursors, rfl⟩
    · next hnot =>
      simp only [pure_eq_ok, Prod.mk.injEq] at hok
      obtain ⟨rfl, rfl⟩ := hok
      rw [if_neg hnot]
      exact ⟨h, rfl⟩

/-- A fault keeps the cursor, the count and the events of its source. -/
theorem faulted {code detail : String} {policy : BootstrapPolicy} {conflict : Bool}
    (h : Exact key bootstrap db)
    (hok : markSourceFault rules key code detail policy conflict now db = .ok db') :
    Exact key bootstrap db' ∧ db'.events = db.events := by
  simp only [markSourceFault, bind_eq_ok, raiseIf_eq_ok, exists_const] at hok
  obtain ⟨-, hok⟩ := hok
  split at hok
  · split at hok
    · next hnone =>
      obtain rfl := Except.ok.inj hok
      obtain ⟨rfl, hempty⟩ := h.absent hnone
      exact ⟨.start (Table.find?_eq_some_iff.mpr ⟨Table.mem_insertOrIgnore_self hnone, rfl⟩) rfl rfl
        hempty, rfl⟩
    · next s hs =>
      obtain rfl := Except.ok.inj hok
      refine ⟨h.of_row (Table.find?_update_of_some hs) (fun t ht => ?_) (fun hnone => ?_) rfl, rfl⟩
      · obtain rfl : s = t := Option.some.inj (hs.symm.trans ht)
        exact ⟨rfl, rfl⟩
      · rw [hs] at hnone
        cases hnone
  · cases hok

end Exact

section Runs

variable {rules : ActivityStoreRules} {s : JournalRun}

/-- A step keeps the events of every source exact. -/
theorem journalStep_exact (op : ActivityStep)
    (h : ∀ key, Exact key (s.bootstrap key) s.db.sources) (key : SourceKey) :
    Exact key ((journalStep rules s op).bootstrap key) (journalStep rules s op).db.sources := by
  have hothers : ∀ {key' : SourceKey} {db' : ActivitySources}, SourceFrame key' s.db.sources db' →
      key ≠ key' → storedCursors db'.events key = storedCursors s.db.sources.events key →
      Exact key (s.bootstrap key) db' :=
    fun hframe hne hevents => (h key).of_eq (hframe.others key hne) hevents
  cases op with
  | initializeSource key' policy cursor prefixSha256 sourceTail now =>
    simp only [journalStep, startedBy, activityStep]
    cases hok : initializeSource rules.sources key' policy cursor prefixSha256 sourceTail now
        s.db.sources with
    | error failure =>
      simp only [Except.isOk, Except.toBool, Bool.false_eq_true, and_false, if_false]
      exact h key
    | ok result =>
      obtain ⟨row, db'⟩ := result
      simp only [Except.isOk, Except.toBool, and_true, stateOf_ok, commit_ok]
      obtain ⟨hexact, hevents⟩ := (h key').initialized hok
      by_cases hkey : key = key'
      · subst hkey
        by_cases hfresh : (s.db.sources.sources.find? key).all (·.uninitializedFault) = true
        · simpa only [if_pos hfresh, Function.update_self] using hexact
        · simpa only [if_neg hfresh] using hexact
      · have hkept := hothers (initializeSource_eq_ok hok).1 hkey (by rw [hevents])
        by_cases hfresh : (s.db.sources.sources.find? key').all (·.uninitializedFault) = true
        · simpa only [if_pos hfresh, Function.update_of_ne hkey] using hkept
        · simpa only [if_neg hfresh] using hkept
  | applyBatch key' batch =>
    refine commit_of (P := fun db' : ActivityDatabase => Exact key (s.bootstrap key) db'.sources)
      (h key) fun db' hok => ?_
    obtain ⟨changed, hbatch⟩ := stateOf_eq_ok.mp hok
    obtain ⟨⟨events, hsources⟩, -⟩ := applyBatch_eq_ok hbatch
    obtain ⟨hexact, hcursors⟩ := (h key').applied hsources
    by_cases hkey : key = key'
    · exact hkey ▸ hexact
    · exact hothers (applySourceEventBatch_eq_ok hsources).1 hkey (hcursors key hkey)
  | reconcileSnapshot user source snapshot now =>
    refine commit_of (P := fun db' : ActivityDatabase => Exact key (s.bootstrap key) db'.sources)
      (h key) fun db' hok => ?_
    obtain ⟨changed, hsnapshot⟩ := stateOf_eq_ok.mp hok
    obtain ⟨-, -, rfl⟩ | ⟨published, resolved, mid, -, hreconciled⟩ :=
      reconcileSnapshot_eq_ok hsnapshot
    · exact h key
    · by_cases hkey : key = snapshotSource user source
      · subst hkey
        obtain ⟨row, hrow, hsome, hnone⟩ := hreconciled.row
        exact (h _).of_row hrow hsome hnone hreconciled.events
      · exact hothers hreconciled.frame hkey (by rw [hreconciled.events])
  | fault key' code detail policy conflict now =>
    refine commit_of (P := fun db' : ActivitySources => Exact key (s.bootstrap key) db') (h key)
      fun db' hok => ?_
    obtain ⟨hexact, hevents⟩ := (h key').faulted hok
    by_cases hkey : key = key'
    · exact hkey ▸ hexact
    · exact hothers (markSourceFault_eq_ok hok).1 hkey (by rw [hevents])
  | execution op => exact h key

/-- The events of every source are exact in every reachable state. -/
theorem exact_run (rules : ActivityStoreRules) (steps : List ActivityStep) (key : SourceKey) :
    Exact key ((run (journalStep rules) .initial steps).bootstrap key)
      (run (journalStep rules) .initial steps).db.sources :=
  run_invariant' (I := fun s : JournalRun => ∀ key, Exact key (s.bootstrap key) s.db.sources)
    (fun _ op h => journalStep_exact op h) steps
    (fun _ => .of_absent rfl rfl) key

/-- A batch with items moves its source over the cursor that it expects. -/
theorem applyBatch_advances {key : SourceKey} {batch : SourceBatch} {db : ActivityDatabase}
    {result : List PublicActivity × ActivityDatabase}
    (h : applyBatch rules key batch db = .ok result)
    (hitems : batch.items ≠ []) : batch.expectedCursor < batch.newCursor := by
  simp only [applyBatch, bind_eq_ok, raiseIf_eq_ok, exists_const, not_or, not_lt, not_not] at h
  obtain ⟨-, ⟨-, -, -, hlength⟩, -⟩ := h
  have hpos := List.length_pos_iff.mpr hitems
  omega

/-- A source has moved over a cursor. -/
def MovedOver (key : SourceKey) (cursor : ℕ) (db : ActivitySources) : Prop :=
  ∃ s, db.sources.find? key = some s ∧ cursor < s.cursor

/-- A source that has moved over a cursor is not started over, and its cursor does not move back. -/
theorem activityStep_movedOver {db : ActivityDatabase} (op : ActivityStep) {key : SourceKey}
    {cursor : ℕ} (h : MovedOver key cursor db.sources) :
    MovedOver key cursor (activityStep rules db op).sources := by
  obtain ⟨s, hs, hlt⟩ := h
  have hothers : ∀ {key' : SourceKey} {db' : ActivitySources}, SourceFrame key' db.sources db' →
      key ≠ key' → MovedOver key cursor db' :=
    fun hframe hne => ⟨s, (hframe.others key hne).trans hs, hlt⟩
  cases op with
  | initializeSource key' policy start prefixSha256 sourceTail now =>
    refine commit_of (P := MovedOver key cursor) ⟨s, hs, hlt⟩ fun db' hok => ?_
    obtain ⟨row, hinitialized⟩ := stateOf_eq_ok.mp hok
    obtain ⟨hframe, hrow, hcases⟩ := initializeSource_eq_ok hinitialized
    by_cases hkey : key = key'
    · subst hkey
      obtain ⟨hnone, -⟩ | ⟨t, ht, ⟨hfault, -⟩ | rfl⟩ := hcases
      · rw [hs] at hnone
        exact nomatch hnone
      · obtain rfl : s = t := Option.some.inj (hs.symm.trans ht)
        have hzero := (of_decide_eq_true hfault).2.1
        omega
      · obtain rfl : s = row := Option.some.inj (hs.symm.trans ht)
        exact ⟨s, hrow, hlt⟩
    · exact hothers hframe hkey
  | applyBatch key' batch =>
    refine commit_of (P := fun db' : ActivityDatabase => MovedOver key cursor db'.sources)
      ⟨s, hs, hlt⟩ fun db' hok => ?_
    obtain ⟨changed, hbatch⟩ := stateOf_eq_ok.mp hok
    obtain ⟨⟨events, hsources⟩, -⟩ := applyBatch_eq_ok hbatch
    obtain ⟨hframe, hle, -, t, t', ht, hexpected, ht', hnew, -⟩ :=
      applySourceEventBatch_eq_ok hsources
    by_cases hkey : key = key'
    · subst hkey
      obtain rfl : s = t := Option.some.inj (hs.symm.trans ht)
      exact ⟨t', ht', by omega⟩
    · exact hothers hframe hkey
  | reconcileSnapshot user source snapshot now =>
    refine commit_of (P := fun db' : ActivityDatabase => MovedOver key cursor db'.sources)
      ⟨s, hs, hlt⟩ fun db' hok => ?_
    obtain ⟨changed, hsnapshot⟩ := stateOf_eq_ok.mp hok
    obtain ⟨-, -, rfl⟩ | ⟨published, resolved, mid, -, hreconciled⟩ :=
      reconcileSnapshot_eq_ok hsnapshot
    · exact ⟨s, hs, hlt⟩
    · by_cases hkey : key = snapshotSource user source
      · subst hkey
        obtain ⟨row, hrow, hsome, -⟩ := hreconciled.row
        exact ⟨row, hrow, (hsome s hs).1 ▸ hlt⟩
      · exact hothers hreconciled.frame hkey
  | fault key' code detail policy conflict now =>
    refine commit_of (P := MovedOver key cursor) ⟨s, hs, hlt⟩ fun db' hok => ?_
    obtain ⟨hframe, s', hs', hcursor⟩ := markSourceFault_eq_ok hok
    by_cases hkey : key = key'
    · subst hkey
      exact ⟨s', hs', hcursor s hs ▸ hlt⟩
    · exact hothers hframe hkey
  | execution op => exact ⟨s, hs, hlt⟩

/-- After a batch with items, a batch from the same cursor raises. -/
theorem applyBatch_fenced {key : SourceKey} {first second : SourceBatch} {db db' : ActivityDatabase}
    {changed : List PublicActivity} (h : applyBatch rules key first db = .ok (changed, db'))
    (hitems : first.items ≠ []) (hsame : first.expectedCursor = second.expectedCursor)
    (mid : List ActivityStep) :
    (applyBatch rules key second (run (activityStep rules) db' mid)).isOk = false := by
  obtain ⟨⟨events, hsources⟩, -⟩ := applyBatch_eq_ok h
  obtain ⟨-, -, -, -, t, -, -, ht, hnew, -⟩ := applySourceEventBatch_eq_ok hsources
  obtain ⟨u, hu, hlt⟩ : MovedOver key first.expectedCursor
      (run (activityStep rules) db' mid).sources :=
    run_invariant' (I := fun db : ActivityDatabase => MovedOver key first.expectedCursor db.sources)
      (fun _ op h => activityStep_movedOver op h) mid
      ⟨t, ht, hnew ▸ applyBatch_advances h hitems⟩
  cases hsecond : applyBatch rules key second (run (activityStep rules) db' mid) with
  | error failure => rfl
  | ok result =>
    obtain ⟨⟨events', hsources'⟩, -⟩ := applyBatch_eq_ok hsecond
    obtain ⟨-, -, -, v, -, hv, hcursor, -⟩ := applySourceEventBatch_eq_ok hsources'
    obtain rfl : u = v := Option.some.inj (hu.symm.trans hv)
    omega

/-- The database of a run with the starts of its sources is that of the run. -/
theorem db_run (steps : List ActivityStep) :
    (run (journalStep rules) s steps).db = run (activityStep rules) s.db steps := by
  induction steps generalizing s with
  | nil => rfl
  | cons op steps ih => exact ih

end Runs

/-- Journal batches are exact and fenced: in every reachable state the event cursors stored for a
source are those from where it was started to its cursor, each once, and it has counted them; a
batch that raises changes nothing; and once a batch with events has succeeded, no batch from the
same cursor does. -/
theorem journal_batches_fenced (rules : ActivityStoreRules) (steps : List ActivityStep)
    (key : SourceKey) :
    let s := run (journalStep rules) .initial steps
    (match s.db.sources.sources.find? key with
      | none => storedCursors s.db.sources.events key = []
      | some row => s.bootstrap key ≤ row.cursor ∧
        storedCursors s.db.sources.events key =
          List.range' (s.bootstrap key + 1) (row.cursor - s.bootstrap key) ∧
        row.acceptedCount = row.cursor - s.bootstrap key) ∧
    (∀ batch failure, applyBatch rules key batch s.db = .error failure →
      activityStep rules s.db (.applyBatch key batch) = s.db) ∧
    (∀ before first mid second, steps = before ++ .applyBatch key first :: mid →
      first.expectedCursor = second.expectedCursor → first.items ≠ [] →
      (applyBatch rules key first (run (activityStep rules) .initial before)).isOk →
      (applyBatch rules key second s.db).isOk = false) := by
  have hexact := exact_run rules steps key
  refine ⟨?_, fun batch failure herror => ?_, ?_⟩
  · split
    · next hnone => exact (hexact.absent hnone).2
    · next row hrow =>
      obtain ⟨hcount, hcursors⟩ := hexact.present row hrow
      have haccepted : row.acceptedCount =
          row.cursor - (run (journalStep rules) .initial steps).bootstrap key := by omega
      exact ⟨by omega, haccepted ▸ hcursors, haccepted⟩
  · rw [activityStep, herror]
    rfl
  · rintro before first mid second rfl hsame hitems hok
    cases hfirst : applyBatch rules key first (run (activityStep rules) .initial before) with
    | error failure =>
      rw [hfirst] at hok
      exact nomatch hok
    | ok result =>
      obtain ⟨changed, db'⟩ := result
      have hstep : activityStep rules (run (activityStep rules) .initial before)
          (.applyBatch key first) = db' := by
        rw [activityStep, hfirst]
        rfl
      have hrun : (run (journalStep rules) .initial (before ++ .applyBatch key first :: mid)).db =
          run (activityStep rules) db' mid := by
        rw [db_run, run_append, run_cons, ← hstep]
        rfl
      rw [hrun]
      exact applyBatch_fenced hfirst hitems hsame mid

section Sample

/-- A source that starts at the beginning of its journal. -/
def journalStart : List ActivityStep :=
  [.initializeSource branchStream .fromStart 0 "" 0 0]

/-- A batch without items. -/
def emptyBatch : SourceBatch where
  expectedCursor := 0
  items := []
  newCursor := 0
  newPrefixSha256 := ""
  sourceTail := 0
  now := 0

/-- Batches without items do not fence: two of them from one cursor succeed. -/
theorem empty_batches_succeed :
    let db := run (activityStep sampleStoreRules) .initial journalStart
    (applyBatch sampleStoreRules branchStream emptyBatch db).isOk = true ∧
      (applyBatch sampleStoreRules branchStream emptyBatch
        (activityStep sampleStoreRules db (.applyBatch branchStream emptyBatch))).isOk = true :=
  ⟨rfl, rfl⟩

end Sample

end Magistrate
