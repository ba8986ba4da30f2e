import Magistrate.Gateway.Activity.Fleet
import Magistrate.Gateway.Activity.Replay

/-!
# Reconciliation of fleet snapshots

A delayed snapshot is ignored. After any other one the open decisions of its
source are open in it, and to reconcile it again writes nothing.
-/

namespace Magistrate

section Publication

variable {rules : ActivityStoreRules} {user source : String} {log log' : ActivityLog}
  {r : ActivityRecord} {candidate : ActivityCandidate} {observedAt now : ℕ}

/-- The log is the ledger of some history. -/
def ActivityLog.Sound (log : ActivityLog) : Prop := ∃ history, Ledger log history

/-- What is checked of fields keeps their kind and their state. -/
theorem normalized_kind {publish : PublishRules} {fields stored : ActivityFields}
    (h : publish.normalized source fields = .ok stored) :
    stored.kind = fields.kind ∧ stored.state = fields.state := by
  simp only [PublishRules.normalized, bind_eq_ok, raiseIf_eq_ok, exists_const, pure_eq_ok] at h
  obtain ⟨-, -, -, -, -, -, -, -, -, -, -, -, -, -, -, -, -, -, -, -, -, -, -, rfl⟩ := h
  exact ⟨rfl, rfl⟩

/-- A canonical text is stored as it is. -/
theorem optionalText_canonical {publish : PublishRules} {text : String} {maximum : ℕ}
    {stored : Option String} (hcanonical : Canonical publish text)
    (h : publish.optionalText (some text) maximum = .ok stored) : stored = some text := by
  simp only [PublishRules.optionalText, PublishRules.boundedText, bind_eq_ok, raiseIf_eq_ok,
    exists_const, pure_eq_ok] at h
  obtain ⟨_, ⟨-, rfl⟩, rfl⟩ := h
  rw [hcanonical.1, if_neg hcanonical.2]

/-- Canonical names of a decision are stored as they are. -/
theorem normalized_decision {publish : PublishRules} {fields stored : ActivityFields}
    {taskId key : String} (h : publish.normalized source fields = .ok stored)
    (htask : fields.taskId = some taskId) (hkey : fields.decisionKey = some key)
    (hcanonical : Canonical publish taskId) (hcanonical' : Canonical publish key) :
    stored.taskId = some taskId ∧ stored.decisionKey = some key := by
  simp only [PublishRules.normalized, bind_eq_ok, raiseIf_eq_ok, exists_const, pure_eq_ok, htask,
    hkey] at h
  obtain ⟨-, -, -, -, -, task, htask, decision, hdecision, -, -, -, -, -, -, -, -, -, -, -, -, -, -,
    rfl⟩ := h
  exact ⟨optionalText_canonical hcanonical htask, optionalText_canonical hcanonical' hdecision⟩

/-- A publication keeps the log a ledger. -/
theorem publishFrom_sound {observedAt : Option ℕ} (hsound : log.Sound)
    (h : publishFrom rules user source candidate observedAt now log = .ok (r, log')) :
    log'.Sound := by
  obtain ⟨history, hledger⟩ := hsound
  obtain ⟨versions, hwritten⟩ := publishFrom_written h
  exact ⟨history ++ versions, hledger.written hwritten⟩

/-- After a publication its record is the one under its key; those under other keys stay. -/
theorem recordOf_publishFrom {observedAt : Option ℕ} (hsound : log.Sound)
    (h : publishFrom rules user source candidate observedAt now log = .ok (r, log'))
    (recordKey : String) : log'.recordOf user source recordKey =
      if candidate.recordKey = recordKey then some r else log.recordOf user source recordKey := by
  obtain ⟨history, hledger⟩ := hsound
  obtain ⟨rfl, rfl, hkey, -, ⟨rfl, hrecord⟩ | happended⟩ := publishFrom_cases h
  · split
    · next hsame => exact hsame ▸ hrecord
    · rfl
  · rw [hledger.recordOf_appended happended, hkey]

/-- What was published is there: to publish it again finds it. -/
theorem publishFrom_again {now' : ℕ} {log'' : ActivityLog}
    (h : publishFrom rules user source candidate (some observedAt) now log = .ok (r, log'))
    (hrecord : log''.recordOf user source candidate.recordKey = some r) :
    publishFrom rules user source candidate (some observedAt) now' log'' = .ok (r, log'') := by
  have hfields := (publishFrom_cases h).2.2.2.1
  simp only [publishFrom, mapError_eq_ok, ActivityLog.publish, bind_eq_ok, raiseIf_eq_ok,
    exists_const, Option.getD_some] at h ⊢
  obtain ⟨huser, hsource, hkey, -, -, hobserved, -⟩ := h
  refine ⟨huser, hsource, hkey, r.fields, hfields, hobserved, ?_⟩
  rw [ActivityLog.write, hrecord]
  simp only [if_true]
  rfl

end Publication

section Records

variable {rules : ActivityStoreRules} {user source : String} {observedAt now : ℕ}

/-- The candidate has been published with a record. -/
def Published (rules : ActivityStoreRules) (user source : String) (observedAt : ℕ)
    (candidate : ActivityCandidate) (r : ActivityRecord) : Prop :=
  ∃ now log log', publishFrom rules user source candidate (some observedAt) now log = .ok (r, log')

/-- Records with distinct keys that are published are all there afterwards, and the records under
other keys are as they were. -/
theorem publishRecords_eq_ok {records : List ActivityCandidate} :
    ∀ {log log' : ActivityLog} {changed : List ActivityRecord}, log.Sound →
    (records.map (·.recordKey)).Nodup →
    publishRecords rules user source observedAt now records log = .ok (changed, log') →
    log'.Sound ∧
    (∀ recordKey, recordKey ∉ records.map (·.recordKey) →
      log'.recordOf user source recordKey = log.recordOf user source recordKey) ∧
    ∀ c ∈ records, ∃ r, log'.recordOf user source c.recordKey = some r ∧
      Published rules user source observedAt c r := by
  induction records with
  | nil =>
    intro log log' changed hsound _ h
    obtain ⟨-, rfl⟩ := Prod.mk.inj (Except.ok.inj h)
    exact ⟨hsound, fun _ _ => rfl, fun c hc => absurd hc List.not_mem_nil⟩
  | cons candidate records ih =>
    intro log log' changed hsound hnodup h
    simp only [publishRecords, bind_eq_ok, pure_eq_ok, Prod.exists, Prod.mk.injEq] at h
    obtain ⟨r, mid, hpublished, rest, last, hrest, -, rfl⟩ := h
    rw [List.map_cons, List.nodup_cons] at hnodup
    obtain ⟨hlast, hothers, hrecords⟩ := ih (publishFrom_sound hsound hpublished) hnodup.2 hrest
    have hmid := recordOf_publishFrom hsound hpublished
    refine ⟨hlast, fun recordKey hkey => ?_, fun c hc => ?_⟩
    · rw [List.map_cons, List.mem_cons, not_or] at hkey
      rw [hothers recordKey hkey.2, hmid, if_neg (Ne.symm hkey.1)]
    · rcases List.mem_cons.mp hc with rfl | hc
      · refine ⟨r, ?_, now, log, mid, hpublished⟩
        rw [hothers _ hnodup.1, hmid, if_pos rfl]
      · exact hrecords c hc

/-- Records that are there are published without a change. -/
theorem publishRecords_again {now' : ℕ} {log : ActivityLog} {records : List ActivityCandidate}
    (h : ∀ c ∈ records, ∃ r, log.recordOf user source c.recordKey = some r ∧
      Published rules user source observedAt c r) :
    publishRecords rules user source observedAt now' records log = .ok ([], log) := by
  induction records with
  | nil => rfl
  | cons candidate records ih =>
    obtain ⟨r, hrecord, now, log₀, log₁, hpublished⟩ := h candidate List.mem_cons_self
    simp only [publishRecords, publishFrom_again hpublished hrecord, ok_bind, hrecord,
      ih fun c hc => h c (List.mem_cons_of_mem _ hc), Option.map_some, if_true]
    rfl

/-- The rows of decisions that are not open in a snapshot are resolved, and the records under other
keys are as they were. -/
theorem closeDecisions_eq_ok {snapshot : ActivitySnapshot} {rows : List ActivityRecord} :
    ∀ {log log' : ActivityLog} {changed : List ActivityRecord}, log.Sound →
    closeDecisions rules user source snapshot now rows log = .ok (changed, log') →
    log'.Sound ∧ ∀ recordKey,
      (∃ row ∈ rows, row.decision ∉ snapshot.openDecisionKeys ∧ row.recordKey = recordKey) ∧
        (∃ r, log'.recordOf user source recordKey = some r ∧ r.decisionOpen = false) ∨
      (¬∃ row ∈ rows, row.decision ∉ snapshot.openDecisionKeys ∧ row.recordKey = recordKey) ∧
        log'.recordOf user source recordKey = log.recordOf user source recordKey := by
  induction rows with
  | nil =>
    intro log log' changed hsound h
    obtain ⟨-, rfl⟩ := Prod.mk.inj (Except.ok.inj h)
    exact ⟨hsound, fun recordKey => .inr ⟨by simp, rfl⟩⟩
  | cons row rows ih =>
    intro log log' changed hsound h
    unfold closeDecisions at h
    split at h
    · next hopen =>
      obtain ⟨hlast, hkeys⟩ := ih hsound h
      refine ⟨hlast, fun recordKey => ?_⟩
      simpa [hopen] using hkeys recordKey
    · next hclosed =>
      simp only [bind_eq_ok, pure_eq_ok, Prod.exists, Prod.mk.injEq] at h
      obtain ⟨r, mid, hpublished, rest, last, hrest, -, rfl⟩ := h
      obtain ⟨hlast, hkeys⟩ := ih (publishFrom_sound hsound hpublished) hrest
      have hmid := recordOf_publishFrom hsound hpublished
      have hresolved : r.decisionOpen = false := by
        have hkind := (normalized_kind (publishFrom_cases hpublished).2.2.2.1).1
        simp [ActivityRecord.decisionOpen, hkind, resolution]
      refine ⟨hlast, fun recordKey => ?_⟩
      rcases hkeys recordKey with ⟨⟨row', hrow', hrow'closed⟩, hresult⟩ | ⟨hnone, hkept⟩
      · exact .inl ⟨⟨row', List.mem_cons_of_mem _ hrow', hrow'closed⟩, hresult⟩
      · by_cases hkey : row.recordKey = recordKey
        · refine .inl ⟨⟨row, List.mem_cons_self, hclosed, hkey⟩, r, ?_, hresolved⟩
          rw [hkept, hmid, resolution, if_pos hkey]
        · refine .inr ⟨?_, ?_⟩
          · rintro ⟨row', hrow', hrow'closed, hsame⟩
            rcases List.mem_cons.mp hrow' with rfl | hrow'
            · exact hkey hsame
            · exact hnone ⟨row', hrow', hrow'closed, hsame⟩
          · rw [hkept, hmid, resolution, if_neg hkey]

/-- Decisions that are open in a snapshot are not closed. -/
theorem closeDecisions_open {snapshot : ActivitySnapshot} {rows : List ActivityRecord}
    {log : ActivityLog} (h : ∀ row ∈ rows, row.decision ∈ snapshot.openDecisionKeys) :
    closeDecisions rules user source snapshot now rows log = .ok ([], log) := by
  induction rows with
  | nil => rfl
  | cons row rows ih =>
    rw [closeDecisions, if_pos (h row List.mem_cons_self)]
    exact ih fun row hrow => h row (List.mem_cons_of_mem _ hrow)

end Records

section Snapshots

variable {rules : ActivityStoreRules} {user source : String} {snapshot : ActivitySnapshot} {now : ℕ}
  {db db' : ActivityDatabase}

/-- After a snapshot is reconciled, the open decisions of its source are open in it. -/
theorem open_after_snapshot {published resolved : List ActivityRecord} {mid : ActivityLog}
    (hsound : db.log.Sound)
    (h : Reconciled rules user source snapshot now db db' published resolved mid) :
    db'.log.Sound ∧ ∀ r ∈ openDecisionRows user source db'.log,
      r.decision ∈ snapshot.openDecisionKeys := by
  obtain ⟨hmid, -, -⟩ := publishRecords_eq_ok hsound h.distinct h.published
  obtain ⟨hlast, hkeys⟩ := closeDecisions_eq_ok hmid h.resolved
  obtain ⟨history, hledger⟩ := hlast
  obtain ⟨history', hledger'⟩ := hmid
  refine ⟨⟨history, hledger⟩, fun r hr => ?_⟩
  obtain ⟨hrow, hopen⟩ := List.mem_filter.mp hr
  obtain ⟨huser, hsource, hopen⟩ := of_decide_eq_true hopen
  have hrecord := hledger.recordOf_iff.mpr ⟨hrow, huser, hsource, rfl⟩
  rcases hkeys r.recordKey with ⟨-, s, hs, hresolved⟩ | ⟨hnone, hkept⟩
  · obtain rfl : r = s := Option.some.inj (hrecord.symm.trans hs)
    rw [hopen] at hresolved
    exact nomatch hresolved
  · by_contra hclosed
    obtain ⟨hmem, -⟩ := hledger'.recordOf_iff.mp (hkept.symm.trans hrecord)
    exact hnone ⟨r,
      List.mem_filter.mpr ⟨hmem, decide_eq_true ⟨huser, hsource, hopen⟩⟩, hclosed, rfl⟩

/-- After a snapshot with listed decisions is reconciled, its records are published as they are. -/
theorem published_after_snapshot {published resolved : List ActivityRecord} {mid : ActivityLog}
    (hsound : db.log.Sound)
    (hlisted : DecisionsListed rules.publish snapshot.records snapshot.openDecisionKeys)
    (h : Reconciled rules user source snapshot now db db' published resolved mid) :
    ∀ c ∈ snapshot.records, ∃ r, db'.log.recordOf user source c.recordKey = some r ∧
      Published rules user source snapshot.observedAt c r := by
  obtain ⟨hmid, -, hrecords⟩ := publishRecords_eq_ok hsound h.distinct h.published
  obtain ⟨-, hkeys⟩ := closeDecisions_eq_ok hmid h.resolved
  intro c hc
  obtain ⟨r, hrecord, hpublished⟩ := hrecords c hc
  refine ⟨r, ?_, hpublished⟩
  rcases hkeys c.recordKey with ⟨⟨row, hrow, hclosed, hkey⟩, -⟩ | ⟨-, hkept⟩
  · -- The row that would be closed is the record, whose decision is listed.
    obtain ⟨history, hledger⟩ := hmid
    obtain ⟨hmem, hrow⟩ := List.mem_filter.mp hrow
    obtain ⟨huser, hsource, hopen⟩ := of_decide_eq_true hrow
    obtain rfl : row = r := Option.some.inj
      ((hledger.recordOf_iff.mpr ⟨hmem, huser, hsource, hkey⟩).symm.trans hrecord)
    obtain ⟨now', log, log', hpublish⟩ := hpublished
    have hnormalized := (publishFrom_cases hpublish).2.2.2.1
    have hkind : c.fields.kind = "decision.requested" := by
      rw [← (normalized_kind hnormalized).1]
      exact (of_decide_eq_true hopen).1
    obtain ⟨taskId, key, htask, hdecision, hcanonical, hcanonical', hlisted⟩ := hlisted c hc hkind
    obtain ⟨htask', hdecision'⟩ :=
      normalized_decision hnormalized htask hdecision hcanonical hcanonical'
    rw [ActivityRecord.decision, htask', hdecision'] at hclosed
    exact absurd hlisted hclosed
  · rw [hkept, hrecord]

/-- To reconcile a snapshot again writes nothing to the log. -/
theorem reconcileSnapshot_again {changed : List PublicActivity} {now' : ℕ} (hsound : db.log.Sound)
    (hlisted : DecisionsListed rules.publish snapshot.records snapshot.openDecisionKeys)
    (h : reconcileSnapshot rules user source snapshot now db = .ok (changed, db')) :
    ∃ db'', reconcileSnapshot rules user source snapshot now' db' = .ok ([], db'') ∧
      db''.log = db'.log := by
  rcases reconcileSnapshot_eq_ok h with ⟨hdelayed, rfl, rfl⟩ |
    ⟨published, resolved, mid, rfl, hreconciled⟩
  · refine ⟨db', ?_, rfl⟩
    simp only [reconcileSnapshot, bind_eq_ok, raiseIf_eq_ok, exists_const] at h ⊢
    obtain ⟨huser, hsource, hobserved, hdigest, hbound, hrecords, hopen, -⟩ := h
    refine ⟨huser, hsource, hobserved, hdigest, hbound, hrecords, hopen, ?_⟩
    rw [if_pos hdelayed]
    rfl
  · have hopen := (open_after_snapshot hsound hreconciled).2
    have hpublished := published_after_snapshot hsound hlisted hreconciled
    have hfresh : ¬(db'.marks.find? (snapshotSource user source)).any
        (snapshot.observedAt < ·.lastSnapshotAt) = true := by
      rw [hreconciled.mark]
      simp
    have hagrees : ¬((db'.marks.find? (snapshotSource user source)).any fun mark =>
        snapshot.observedAt = mark.lastSnapshotAt ∧ mark.snapshotSha256 ≠ "" ∧
          mark.snapshotSha256 ≠ snapshot.snapshotSha256) = true := by
      rw [hreconciled.mark]
      simp
    simp only [reconcileSnapshot, bind_eq_ok, raiseIf_eq_ok, exists_const] at h
    obtain ⟨huser, hsource, hobserved, hdigest, hbound, hrecords, hkeys, -⟩ := h
    simp only [reconcileSnapshot, raiseIf_ok huser, raiseIf_ok hsource, raiseIf_ok hobserved,
      raiseIf_ok hdigest, raiseIf_ok hbound, raiseIf_ok hrecords, raiseIf_ok hkeys, if_neg hfresh,
      raiseIf_ok hagrees, publishRecords_again hpublished, closeDecisions_open hopen, ok_bind]
    exact ⟨_, rfl, rfl⟩

/-- The digests of snapshots are kept as they were validated. -/
theorem marks_digest (rules : ActivityStoreRules) (steps : List ActivityStep) :
    ∀ key mark, (run (activityStep rules) .initial steps).marks.find? key = some mark →
      mark.snapshotSha256 ≠ "" := by
  refine run_invariant' (I := fun db : ActivityDatabase => ∀ key mark,
    db.marks.find? key = some mark → mark.snapshotSha256 ≠ "") (fun db op h => ?_) steps
    (fun key mark hmark => absurd hmark (by simp [ActivityDatabase.initial]))
  cases op with
  | initializeSource => exact h
  | fault => exact h
  | execution op => exact h
  | applyBatch key batch =>
    refine commit_of (P := fun db' : ActivityDatabase => ∀ key mark,
      db'.marks.find? key = some mark → mark.snapshotSha256 ≠ "") h fun db' hok => ?_
    obtain ⟨changed, hbatch⟩ := stateOf_eq_ok.mp hok
    rw [(applyBatch_eq_ok hbatch).2.1]
    exact h
  | reconcileSnapshot user source snapshot now =>
    refine commit_of (P := fun db' : ActivityDatabase => ∀ key mark,
      db'.marks.find? key = some mark → mark.snapshotSha256 ≠ "") h fun db' hok => ?_
    obtain ⟨changed, hsnapshot⟩ := stateOf_eq_ok.mp hok
    obtain ⟨-, -, rfl⟩ | ⟨published, resolved, mid, -, hreconciled⟩ :=
      reconcileSnapshot_eq_ok hsnapshot
    · exact h
    · intro key mark hmark
      by_cases hkey : key = snapshotSource user source
      · subst hkey
        obtain rfl := Option.some.inj (hreconciled.mark.symm.trans hmark)
        rintro hempty
        have hdigest := hreconciled.digest
        rw [show snapshot.snapshotSha256 = "" from hempty] at hdigest
        exact absurd hdigest (by decide)
      · exact h key mark (hreconciled.others key hkey ▸ hmark)

end Snapshots

/-- Fleet snapshots are reconciled in order: in every reachable state, a normalized snapshot older
than the stored observation changes nothing, one of the same time with another digest raises and
changes nothing, after a call that succeeds with a snapshot that is not older the open decisions of
the source are open in it, and after a call that succeeds the same snapshot again writes nothing to
the log. -/
theorem fleet_snapshots_reconciled (rules : FleetRules) (steps : List ActivityStep)
    (user source : String) (raw : Json) (snapshot : ActivitySnapshot) (now : ℕ)
    (hnormalized : normalizeSnapshot rules raw = .ok snapshot) :
    let db := run (activityStep rules.store) .initial steps
    (∀ mark, db.marks.find? (snapshotSource user source) = some mark →
      snapshot.observedAt < mark.lastSnapshotAt →
      activityStep rules.store db (.reconcileSnapshot user source snapshot now) = db) ∧
    (∀ mark, db.marks.find? (snapshotSource user source) = some mark →
      snapshot.observedAt = mark.lastSnapshotAt → snapshot.snapshotSha256 ≠ mark.snapshotSha256 →
      (reconcileSnapshot rules.store user source snapshot now db).isOk = false ∧
        activityStep rules.store db (.reconcileSnapshot user source snapshot now) = db) ∧
    (∀ changed db', reconcileSnapshot rules.store user source snapshot now db = .ok (changed, db') →
      ((∀ mark, db.marks.find? (snapshotSource user source) = some mark →
          mark.lastSnapshotAt ≤ snapshot.observedAt) →
        ∀ r ∈ db'.log.records.rows, r.userId = user → r.sourceInstanceId = source →
          r.decisionOpen = true → r.decision ∈ snapshot.openDecisionKeys) ∧
      ∀ now', ∃ db'',
        reconcileSnapshot rules.store user source snapshot now' db' = .ok ([], db'') ∧
          db''.log = db'.log) := by
  have hsound : (run (activityStep rules.store) .initial steps).log.Sound :=
    ledger_run rules.store steps
  refine ⟨fun mark hmark hold => ?_, fun mark hmark hsame hother => ?_, fun changed db' hok =>
    ⟨fun hfresh r hr huser hsource hopen => ?_, fun now' => ?_⟩⟩
  · refine commit_of (P := (· = _)) rfl fun db' hok => ?_
    obtain ⟨changed, hsnapshot⟩ := stateOf_eq_ok.mp hok
    rcases reconcileSnapshot_eq_ok hsnapshot with ⟨-, -, rfl⟩ | ⟨_, _, _, -, hreconciled⟩
    · rfl
    · exact absurd (by rw [hmark, Option.any_some, decide_eq_true hold]) hreconciled.current
  · have hraises : ∀ changed db', reconcileSnapshot rules.store user source snapshot now
        (run (activityStep rules.store) .initial steps) ≠ .ok (changed, db') := by
      intro changed db' hok
      rcases reconcileSnapshot_eq_ok hok with ⟨hdelayed, -⟩ | ⟨_, _, _, -, hreconciled⟩
      · rw [hmark, Option.any_some, decide_eq_true_iff] at hdelayed
        omega
      · refine hreconciled.agrees ?_
        rw [hmark, Option.any_some]
        exact decide_eq_true ⟨hsame, marks_digest rules.store steps _ _ hmark, hother.symm⟩
    cases hresult : reconcileSnapshot rules.store user source snapshot now
        (run (activityStep rules.store) .initial steps) with
    | ok result => exact absurd hresult (hraises result.1 result.2)
    | error failure =>
      refine ⟨rfl, ?_⟩
      rw [activityStep, hresult]
      rfl
  · rcases reconcileSnapshot_eq_ok hok with ⟨hdelayed, -⟩ | ⟨_, _, _, -, hreconciled⟩
    · rw [Option.any_eq_true] at hdelayed
      obtain ⟨mark, hmark, hlt⟩ := hdelayed
      have hle := hfresh mark hmark
      have hlt := of_decide_eq_true hlt
      omega
    · exact (open_after_snapshot hsound hreconciled).2 r
        (List.mem_filter.mpr ⟨hr, decide_eq_true ⟨huser, hsource, hopen⟩⟩)
  · exact reconcileSnapshot_again hsound (normalizeSnapshot_listed hnormalized) hok

section Sample

/-- Rules under which every text is plain and times are given as they are. -/
def sampleFleetRules : FleetRules where
  store := sampleStoreRules
  sameHome _ := true
  timestamp value := value.int?.map (·.toNat)
  causalId name parts := name ++ "_" ++ String.join parts
  identitySha256 identity := identity
  payloadSha256 fields := sampleHash fields.title.length
  snapshotSha256 _ candidates openDecisions := sampleHash (candidates.length + openDecisions.length)

/-- A fleet snapshot of one task with open decisions. -/
def taskSnapshot (generated : ℤ) (decisions : List String) : Json :=
  .obj [("schema", .str "fm-fleet-snapshot.v1"), ("generated", .int generated),
    ("backlog", .obj [("records", .arr [])]),
    ("tasks", .arr [.obj [("id", .str "task"), ("hints", .obj [("open_decisions",
      .arr (decisions.map fun key => .obj [("verb", .str "needs-decision"), ("key", .str key),
        ("summary", .str "choose")]))])]])]

/-- A snapshot of one task at time two, with an open decision, as it is normalized. -/
def askingSnapshot : ActivitySnapshot :=
  (normalizeSnapshot sampleFleetRules (taskSnapshot 2 ["colour"])).toOption.getD ⟨0, "", [], []⟩

/-- A snapshot of the task at time one, without a decision. -/
def quietSnapshot : ActivitySnapshot :=
  (normalizeSnapshot sampleFleetRules (taskSnapshot 1 [])).toOption.getD ⟨0, "", [], []⟩

/-- A block that returns returns its value. -/
theorem ok_getD {ε α : Type} {result : Except ε α} {a : α} (h : result.isOk = true) :
    result = .ok (result.toOption.getD a) := by
  cases result with
  | error failure => exact nomatch h
  | ok b => rfl

/-- After the snapshot with the decision its decision is open, and it is open in the snapshot. -/
theorem fleet_snapshots_reconciled_asking :
    ∃ result, reconcileSnapshot sampleStoreRules "user" "firstmate:main" askingSnapshot 3 .initial =
        .ok result ∧
      (∃ r ∈ result.2.log.records.rows, r.decisionOpen = true) ∧
      ∀ r ∈ result.2.log.records.rows, r.userId = "user" → r.sourceInstanceId = "firstmate:main" →
        r.decisionOpen = true → r.decision ∈ askingSnapshot.openDecisionKeys := by
  obtain ⟨result, hok, hopen⟩ := exists_ok_of_any
    (p := fun result => result.2.log.records.rows.any (·.decisionOpen))
    (show (reconcileSnapshot sampleStoreRules "user" "firstmate:main" askingSnapshot 3
      .initial).toOption.any _ = true by decide +kernel)
  obtain ⟨-, -, hclosed⟩ := fleet_snapshots_reconciled sampleFleetRules [] "user" "firstmate:main"
    (taskSnapshot 2 ["colour"]) askingSnapshot 3 (ok_getD (by decide +kernel))
  exact ⟨result, hok, by simpa using hopen, (hclosed _ _ hok).1 fun mark hmark => nomatch hmark⟩

/-- A delayed snapshot succeeds and closes nothing: the decision of the newer one stays open, and it
is not open in the delayed one. -/
theorem delayed_snapshot_closes_nothing :
    normalizeSnapshot sampleFleetRules (taskSnapshot 2 ["colour"]) = .ok askingSnapshot ∧
    normalizeSnapshot sampleFleetRules (taskSnapshot 1 []) = .ok quietSnapshot ∧
    ∃ result, reconcileSnapshot sampleStoreRules "user" "firstmate:main" quietSnapshot 4
        (run (activityStep sampleStoreRules) .initial
          [.reconcileSnapshot "user" "firstmate:main" askingSnapshot 3]) = .ok result ∧
      ∃ r ∈ result.2.log.records.rows, r.userId = "user" ∧
        r.sourceInstanceId = "firstmate:main" ∧ r.decisionOpen = true ∧
        r.decision ∉ quietSnapshot.openDecisionKeys := by
  refine ⟨ok_getD (by decide +kernel), ok_getD (by decide +kernel), ?_⟩
  obtain ⟨result, hok, hopen⟩ := exists_ok_of_any
    (p := fun result => result.2.log.records.rows.any fun r => r.userId = "user" ∧
      r.sourceInstanceId = "firstmate:main" ∧ r.decisionOpen = true ∧
      r.decision ∉ quietSnapshot.openDecisionKeys)
    (show (reconcileSnapshot sampleStoreRules "user" "firstmate:main" quietSnapshot 4
      (run (activityStep sampleStoreRules) .initial
        [.reconcileSnapshot "user" "firstmate:main" askingSnapshot 3])).toOption.any _ = true by
      decide +kernel)
  exact ⟨result, hok, by simpa using hopen⟩

end Sample

end Magistrate
