import Magistrate.Gateway.Memory.Search
import Magistrate.Gateway.Memory.Writes

/-!
# Revisions, index and audit of the memory

In every memory that is reached, the revisions of an entry are its versions, the index has the
terms of the live entries and nothing else, and the audit of each scope is one chain with a
record for each revision. A report shows the last records of that chain.
-/

namespace Magistrate

section Report

/-- `MAX_AUDIT_RESULTS` -/
def maxAuditResults : ℤ := 200

/-- What `audit` returns. -/
structure MemoryReport where
  schemaVersion : String := "magi.project-memory.v1"
  /-- All of the scope but its tenant. -/
  scope : String × String × String × String
  /-- The events with their hashes, newest first. -/
  events : List (MemoryEvent × String)
  retrievals : List MemoryRetrieval
  chainValid : Bool
  deriving DecidableEq

/-- Each record carries the hash of the one before it, and its own. -/
def chainValid (rules : MemoryRules) : String → List MemoryAudit → Bool
  | _, [] => true
  | previous, r :: rest =>
    decide (r.event.previousEventSha256 = previous) &&
      decide (rules.eventHash { r.event with previousEventSha256 := previous } = r.eventSha256) &&
      chainValid rules r.eventSha256 rest

/-- A chain goes on with a record that carries the hash of the last one. -/
theorem chainValid_concat {rules : MemoryRules} {previous : String} {records : List MemoryAudit}
    {r : MemoryAudit} : chainValid rules previous (records ++ [r]) = true ↔
      chainValid rules previous records = true ∧
        r.event.previousEventSha256 = records.getLast?.elim previous (·.eventSha256) ∧
        rules.eventHash r.event = r.eventSha256 := by
  induction records generalizing previous with
  | nil =>
    simp only [List.nil_append, chainValid, Bool.and_true, Bool.and_eq_true, decide_eq_true_eq,
      List.getLast?_nil, Option.elim_none, true_and]
    refine and_congr_right fun hprevious => ?_
    rw [← hprevious]
  | cons first records ih =>
    have hlast : (first :: records).getLast?.elim previous (·.eventSha256) =
        records.getLast?.elim first.eventSha256 (·.eventSha256) := by
      rw [List.getLast?_cons]
      cases records.getLast? <;> rfl
    rw [hlast, List.cons_append]
    simp only [chainValid, Bool.and_eq_true, ih, and_assoc]

/-- Two valid chains of one length that end with one hash have the same events, unless they have
different events of one hash at some place. -/
theorem chainValid_determined {rules : MemoryRules} {previous previous' : String}
    {records records' : List MemoryAudit} (h : chainValid rules previous records = true)
    (h' : chainValid rules previous' records' = true) (hlength : records.length = records'.length)
    (hlast : records.getLast?.map (·.eventSha256) = records'.getLast?.map (·.eventSha256)) :
    records.map (fun r => (r.event, r.eventSha256)) =
        records'.map (fun r => (r.event, r.eventSha256)) ∨
      ∃ (i : ℕ) (r r' : MemoryAudit), records[i]? = some r ∧ records'[i]? = some r' ∧
        r.event ≠ r'.event ∧ rules.eventHash r.event = rules.eventHash r'.event := by
  induction records using List.reverseRecOn generalizing records' with
  | nil => exact .inl (by rw [List.eq_nil_of_length_eq_zero hlength.symm])
  | append_singleton records r ih =>
    rcases List.eq_nil_or_concat records' with rfl | ⟨records', r', rfl⟩
    · simp at hlength
    rw [List.concat_eq_append] at h' hlength hlast ⊢
    obtain ⟨hrest, hprevious, hhash⟩ := chainValid_concat.mp h
    obtain ⟨hrest', hprevious', hhash'⟩ := chainValid_concat.mp h'
    have hsha : r.eventSha256 = r'.eventSha256 := by simpa using hlast
    have hlengths : records.length = records'.length := by simpa using hlength
    by_cases hevent : r.event = r'.event
    · -- Equal events carry the hashes of equal records before them.
      have hbefore : records.getLast?.map (·.eventSha256) =
          records'.getLast?.map (·.eventSha256) := by
        rw [hevent, hprevious'] at hprevious
        cases records.eq_nil_or_concat with
        | inl hnil =>
          subst hnil
          rw [List.eq_nil_of_length_eq_zero hlengths.symm]
        | inr hconcat =>
          obtain ⟨front, last, rfl⟩ := hconcat
          rcases List.eq_nil_or_concat records' with rfl | ⟨front', last', rfl⟩
          · simp at hlengths
          · simpa [eq_comm] using hprevious
      rcases ih hrest hrest' hlengths hbefore with heq | ⟨i, q, q', hq, hq', hcollides⟩
      · left
        rw [List.map_append, List.map_append, heq, List.map_singleton, List.map_singleton, hevent,
          hsha]
      · have hlt : i < records.length := (List.getElem?_eq_some_iff.mp hq).1
        refine .inr ⟨i, q, q', ?_, ?_, hcollides⟩
        · rw [List.getElem?_append_left hlt, hq]
        · rw [List.getElem?_append_left (hlengths ▸ hlt), hq']
    · refine .inr ⟨records.length, r, r', List.getElem?_concat_length, ?_, hevent, ?_⟩
      · rw [hlengths]
        exact List.getElem?_concat_length
      · rw [hhash, hhash', hsha]

/-- The plan is written, and revised. -/
def planEvents : MemoryEvent × MemoryEvent :=
  let created : MemoryEvent := ⟨1, planId, 1, "created", "system", "first", 0, ""⟩
  (created, ⟨2, planId, 2, "updated", "system", "second", 1, asciiMemoryRules.eventHash created⟩)

/-- The records of both events for an owner. -/
def planRecords (owner : String) : List MemoryAudit :=
  [planEvents.1, planEvents.2].map fun event =>
    ⟨owner, rolloutScope, event, asciiMemoryRules.eventHash event⟩

theorem planRecords_determined :
    planRecords "user_1" ≠ planRecords "user_2" ∧
    asciiMemoryRules.eventHash planEvents.1 ≠ asciiMemoryRules.eventHash planEvents.2 ∧
    ((planRecords "user_1").map (fun r => (r.event, r.eventSha256)) =
        (planRecords "user_2").map (fun r => (r.event, r.eventSha256)) ∨
      ∃ (i : ℕ) (r r' : MemoryAudit), (planRecords "user_1")[i]? = some r ∧
        (planRecords "user_2")[i]? = some r' ∧ r.event ≠ r'.event ∧
          asciiMemoryRules.eventHash r.event = asciiMemoryRules.eventHash r'.event) := by
  have hvalid : ∀ owner, chainValid asciiMemoryRules "" (planRecords owner) = true := by
    intro owner
    simp [planRecords, chainValid, planEvents]
  exact ⟨by decide, by decide,
    chainValid_determined (hvalid "user_1") (hvalid "user_2") rfl rfl⟩

namespace ProjectMemory

variable (rules : MemoryRules) (owner : String) (scope : MemoryScope) (limit : ℤ)

/-- The checks of `audit`. -/
def checkReport : Except MemoryError Unit := do
  rules.validate owner scope
  raiseIf (¬(1 ≤ limit ∧ limit ≤ maxAuditResults)) (.value "Memory audit limit is invalid.")

/-- The last retrievals of a scope. -/
def lastRetrievals (s : ProjectMemory) : List MemoryRetrieval :=
  topRows (fun r => (toLex (r.createdAt, r.retrievalId) : ℤ ×ₗ String)) limit.toNat
    (s.retrievals.rows.filter fun r => r.ownerUserId = owner ∧ r.scope = scope)

/-- `audit` -/
def report (s : ProjectMemory) : Except MemoryError MemoryReport := do
  checkReport rules owner scope limit
  let rows := topRows (fun r => r.event.sequence) limit.toNat (s.auditOf owner scope)
  let events := rows.reverse
  pure {
    scope := (scope.organizationId, scope.workspaceId, scope.projectId, scope.repositoryId)
    events := rows.map fun r => (r.event, r.eventSha256)
    retrievals := s.lastRetrievals owner scope limit
    chainValid := chainValid rules (events.head?.elim "" (·.event.previousEventSha256)) events }

end ProjectMemory

end Report

section Recorded

/-- What the audit calls a revision. -/
def MemoryRevision.operation (r : MemoryRevision) : String :=
  if r.snapshot = .deleted then "deleted" else if r.revision = 1 then "created" else "updated"

/-- What the audit has of a revision. -/
def MemoryRevision.recorded (r : MemoryRevision) : String × ℕ × String × String × String × ℤ :=
  (r.entryId, r.revision, r.operation, r.actorSessionId, r.contentSha256, r.createdAt)

/-- The revision that an event of the audit is of. -/
def MemoryEvent.recorded (e : MemoryEvent) : String × ℕ × String × String × String × ℤ :=
  (e.entryId, e.revision, e.operation, e.actorSessionId, e.contentSha256, e.occurredAt)

namespace ProjectMemory

/-- A record goes on with the records of its scope. -/
def Follows (rules : MemoryRules) (before : List MemoryAudit) (r : MemoryAudit) : Prop :=
  r.event.previousEventSha256 = (current MemoryAudit.place before r.place).elim "" (·.eventSha256) ∧
    r.eventSha256 = rules.eventHash r.event

/-- The tables tell one history. -/
structure Recorded (rules : MemoryRules) (s : ProjectMemory) : Prop where
  numbered : Revised MemoryRevision.entryId MemoryRevision.revision s.revisions.rows
  latest : ∀ k, (current MemoryRevision.entryId s.revisions.rows k).map
    (fun r => (r.revision, r.snapshot)) =
      (s.entries.find? k).map fun e => (e.revision, e.snapshot)
  bounded : ∀ k, ∀ e ∈ s.entries.find? k, e.revision ≤ maxMemoryRevisionsPerEntry ∧
    (e.deletedAt = none → e.revision < maxMemoryRevisionsPerEntry)
  indexed : ∀ t, t ∈ s.terms.rows ↔ ∃ e ∈ s.entries.find? t.entryId, t.term ∈ e.terms rules
  sequenced : Revised MemoryAudit.place (fun r => r.event.sequence) s.audit.rows
  chained : Justified (Follows rules) s.audit.rows
  audited : s.audit.rows.map (fun r => (some r.place, r.event.recorded)) =
    s.revisions.rows.map fun r => ((s.entries.find? r.entryId).map MemoryEntry.place, r.recorded)

variable {rules : MemoryRules} {s s' : ProjectMemory} {before : Option MemoryEntry}
  {e : MemoryEntry} {row : MemoryRevision}

theorem auditOf_eq (s : ProjectMemory) (owner : String) (scope : MemoryScope) :
    s.auditOf owner scope = s.audit.rows.filter fun r => r.place = (owner, scope) := by
  refine List.filter_congr fun r _ => ?_
  simp [MemoryAudit.place]

theorem recorded_initial (rules : MemoryRules) : Recorded rules initial where
  numbered := .nil
  latest _ := rfl
  bounded _ _ h := by cases h
  indexed t := by simp [initial]
  sequenced := .nil
  chained := .nil
  audited := rfl

namespace Recorded

/-- The revision of an entry is the number of its revisions. -/
theorem countP_revisions (h : Recorded rules s) (k : String) :
    s.revisions.rows.countP (fun r => r.entryId = k) =
      (s.entries.find? k).elim 0 MemoryEntry.revision := by
  have hlatest := h.latest k
  cases hcurrent : current MemoryRevision.entryId s.revisions.rows k with
  | none =>
    rw [hcurrent, Option.map_none, eq_comm, Option.map_eq_none_iff] at hlatest
    rw [hlatest, Option.elim_none, List.countP_eq_zero]
    simpa using current_eq_none.mp hcurrent
  | some r =>
    rw [hcurrent, Option.map_some, eq_comm, Option.map_eq_some_iff] at hlatest
    obtain ⟨e, he, hsame⟩ := hlatest
    rw [he, Option.elim_some, ← h.numbered.revision_current hcurrent]
    exact (congrArg Prod.fst hsame).symm

/-- The highest sequence of a scope is the number of its records. -/
theorem lastSequence_eq (h : Recorded rules s) (place : String × MemoryScope) :
    s.lastSequence place.1 place.2 = s.audit.rows.countP fun r => r.place = place := by
  rw [lastSequence, auditOf_eq, h.sequenced.revisions, foldr_max_range']

/-- The record that the next one goes on with is the last of its scope. -/
theorem find?_last (h : Recorded rules s) (place : String × MemoryScope) :
    s.audit.find? (place.1, place.2, s.lastSequence place.1 place.2) =
      current MemoryAudit.place s.audit.rows place := by
  rw [h.lastSequence_eq]
  cases hcurrent : current MemoryAudit.place s.audit.rows place with
  | none =>
    refine Table.find?_eq_none_iff.mpr fun r hr hkey => current_eq_none.mp hcurrent r hr ?_
    simp only [MemoryAudit.key, Prod.mk.injEq] at hkey
    exact Prod.ext hkey.1 hkey.2.1
  | some r =>
    obtain ⟨hmem, hplace⟩ := mem_of_current hcurrent
    refine Table.find?_eq_some_iff.mpr ⟨hmem, ?_⟩
    rw [← h.sequenced.revision_current hcurrent, ← hplace]
    rfl

/-- The number of the next revision of an entry is free. -/
theorem find?_revision (h : Recorded rules s) {entryId : String}
    (hfound : s.entries.find? entryId = some e) :
    s.revisions.find? (entryId, e.revision + 1) = none := by
  refine Table.find?_eq_none_iff.mpr fun r hr hkey => ?_
  obtain ⟨hid, hrevision⟩ := Prod.mk.inj hkey
  have hle := h.numbered.revision_le hr
  rw [hid, h.countP_revisions, hfound, Option.elim_some] at hle
  omega

/-- The next sequence of a scope is free. -/
theorem find?_next (h : Recorded rules s) (place : String × MemoryScope) :
    s.audit.find? (place.1, place.2, s.lastSequence place.1 place.2 + 1) = none := by
  refine Table.find?_eq_none_iff.mpr fun r hr hkey => ?_
  simp only [MemoryAudit.key, Prod.mk.injEq] at hkey
  obtain ⟨howner, hscope, hsequence⟩ := hkey
  have hplace : r.place = place := Prod.ext howner hscope
  have hle := h.sequenced.revision_le hr
  rw [hplace, ← h.lastSequence_eq] at hle
  omega

/-- What a write is called is what its revision is called. -/
theorem operationOf_eq (h : Recorded rules s) (hw : Writes rules before e row s s') :
    operationOf before e = row.operation := by
  obtain ⟨-, hrevision, hsnapshot⟩ := hw.recorded
  rw [operationOf, MemoryRevision.operation, hsnapshot, hrevision, hw.next, MemoryEntry.snapshot]
  by_cases hlive : e.deletedAt = none
  · cases before with
    | none => simp [hlive]
    | some b =>
      have hcount := h.countP_revisions e.entryId
      rw [hw.found, Option.elim_some] at hcount
      have hsome : (s.entries.find? e.entryId).map (fun e => (e.revision, e.snapshot)) ≠ none := by
        simp [hw.found]
      rw [← h.latest, ne_eq, Option.map_eq_none_iff, current_eq_none] at hsome
      have hpos : 0 < b.revision := by
        rw [← hcount, List.countP_pos_iff]
        push Not at hsome
        simpa using hsome
      simp [hlive, hpos.ne']
  · simp [hlive]

theorem numbered_writes (h : Recorded rules s) (hw : Writes rules before e row s s') :
    Revised MemoryRevision.entryId MemoryRevision.revision s'.revisions.rows := by
  rw [hw.revisions]
  refine h.numbered.concat ?_
  rw [hw.recorded.2.1, hw.recorded.1, h.countP_revisions, hw.found, hw.next]

theorem latest_writes (h : Recorded rules s) (hw : Writes rules before e row s s') (k : String) :
    (current MemoryRevision.entryId s'.revisions.rows k).map (fun r => (r.revision, r.snapshot)) =
      (s'.entries.find? k).map fun e => (e.revision, e.snapshot) := by
  obtain ⟨hid, hrevision, hsnapshot⟩ := hw.recorded
  rw [hw.revisions, current_concat, hw.entries, hid]
  split
  · simp [hrevision, hsnapshot]
  · exact h.latest k

theorem bounded_writes (h : Recorded rules s) (hw : Writes rules before e row s s') (k : String) :
    ∀ f ∈ s'.entries.find? k, f.revision ≤ maxMemoryRevisionsPerEntry ∧
      (f.deletedAt = none → f.revision < maxMemoryRevisionsPerEntry) := by
  intro f hf
  rw [hw.entries] at hf
  split at hf
  · obtain rfl := Option.some.inj hf
    refine ⟨?_, hw.kept⟩
    rw [hw.next]
    cases before with
    | none => exact (by decide : 1 ≤ 100)
    | some b => exact (h.bounded _ b hw.found).2 (hw.live b rfl).1
  · exact h.bounded k f hf

theorem indexed_writes (h : Recorded rules s) (hw : Writes rules before e row s s')
    (t : MemoryTerm) :
    t ∈ s'.terms.rows ↔ ∃ f ∈ s'.entries.find? t.entryId, t.term ∈ f.terms rules := by
  rw [hw.terms, hw.entries]
  by_cases hid : t.entryId = e.entryId
  · simp [hid]
  · rw [if_neg hid, if_neg (Ne.symm hid), h.indexed]

theorem audited_writes (h : Recorded rules s) (hw : Writes rules before e row s s') :
    s'.audit.rows.map (fun r => (some r.place, r.event.recorded)) = s'.revisions.rows.map fun r =>
      ((s'.entries.find? r.entryId).map MemoryEntry.place, r.recorded) := by
  rw [hw.audit, hw.revisions, List.map_append, List.map_append, h.audited, h.operationOf_eq hw]
  congr 1
  · refine List.map_congr_left fun r hr => ?_
    rw [hw.entries]
    split
    next hid =>
      -- A revision of the entry is there, so an entry in the same scope is.
      have hcount := h.countP_revisions e.entryId
      have hpos : 0 < s.revisions.rows.countP fun r => r.entryId = e.entryId :=
        List.countP_pos_iff.mpr ⟨r, hr, by simp [hid]⟩
      cases before with
      | none => simp [hw.found, hpos.ne'] at hcount
      | some b => rw [← hid, hw.found, Option.map_some, Option.map_some, (hw.live b rfl).2]
    next => rfl
  · rw [List.map_singleton, List.map_singleton, hw.entries, if_pos hw.recorded.1.symm]
    rfl

theorem follows_nextAudit (h : Recorded rules s) (place : String × MemoryScope)
    (operation : String) (row : MemoryRevision) :
    Follows rules s.audit.rows (s.nextAudit rules place operation row) := by
  refine ⟨?_, rfl⟩
  rw [← h.find?_last]
  rfl

/-- A write keeps the tables telling one history. -/
theorem writes (h : Recorded rules s) (hw : Writes rules before e row s s') :
    Recorded rules s' where
  numbered := h.numbered_writes hw
  latest := h.latest_writes hw
  bounded := h.bounded_writes hw
  indexed := h.indexed_writes hw
  sequenced := by
    rw [hw.audit]
    exact h.sequenced.concat (congrArg (· + 1) (h.lastSequence_eq e.place))
  chained := by
    rw [hw.audit]
    exact h.chained.concat (h.follows_nextAudit ..)
  audited := h.audited_writes hw

/-- The records of a scope, latest first, are in the order of a report. -/
theorem rankRows_auditOf (h : Recorded rules s) (owner : String) (scope : MemoryScope) :
    rankRows (fun r => r.event.sequence) (s.auditOf owner scope) =
      (s.auditOf owner scope).reverse := by
  have hsequences := h.sequenced.revisions (owner, scope)
  rw [← auditOf_eq] at hsequences
  have hsorted : ((s.auditOf owner scope).map fun r => r.event.sequence).Pairwise (· < ·) :=
    hsequences ▸ List.pairwise_lt_range'
  refine rankRows_eq (fun a ha b hb hab => ?_) (List.reverse_perm _) ?_
  · have hnodup : ((s.auditOf owner scope).map fun r => r.event.sequence).Nodup :=
      hsorted.imp fun hlt => hlt.ne
    exact List.inj_on_of_nodup_map hnodup ha hb hab
  · rw [List.pairwise_reverse]
    exact (List.pairwise_map.mp hsorted).imp fun hlt => hlt.le

/-- A record of a scope goes on with the record of the scope before it. -/
theorem follows_of_auditOf (h : Recorded rules s) {owner : String} {scope : MemoryScope}
    {front rest : List MemoryAudit} {r : MemoryAudit}
    (hsplit : s.auditOf owner scope = front ++ r :: rest) :
    r.event.previousEventSha256 = front.getLast?.elim "" (·.eventSha256) ∧
      r.eventSha256 = rules.eventHash r.event := by
  rw [auditOf_eq, List.filter_eq_append_iff] at hsplit
  obtain ⟨before, later, hrows, hfront, hlater⟩ := hsplit
  obtain ⟨skipped, after, rfl, hskipped, hr, -⟩ := List.filter_eq_cons_iff.mp hlater
  have hplace : r.place = (owner, scope) := of_decide_eq_true hr
  obtain ⟨hprevious, hhash⟩ := h.chained (before ++ skipped) r after (by rw [hrows]; simp)
  refine ⟨?_, hhash⟩
  have hnone : skipped.filter (fun v => decide (v.place = (owner, scope))) = [] :=
    List.filter_eq_nil_iff.mpr fun v hv => hskipped v hv
  rw [hprevious, current, hplace, List.filter_append, hnone, List.append_nil, hfront]

/-- Records of a scope that follow each other are a valid chain. -/
theorem chainValid_auditOf (h : Recorded rules s) {owner : String} {scope : MemoryScope}
    {front records rest : List MemoryAudit}
    (hsplit : s.auditOf owner scope = front ++ records ++ rest) :
    chainValid rules (records.head?.elim "" (·.event.previousEventSha256)) records = true := by
  induction records using List.reverseRecOn generalizing rest with
  | nil => rfl
  | append_singleton records r ih =>
    have hcut : s.auditOf owner scope = front ++ records ++ r :: rest := by simp [hsplit]
    obtain ⟨hprevious, hhash⟩ := h.follows_of_auditOf hcut
    cases records with
    | nil => simp [chainValid, hhash]
    | cons first records =>
      refine chainValid_concat.mpr ⟨ih hcut, ?_, hhash.symm⟩
      rw [hprevious, List.getLast?_append]
      simp [List.getLast?_cons]

end Recorded

theorem recorded_step (op : MemoryStep) (h : Recorded rules s) :
    Recorded rules (s.step rules op) := by
  rcases step_cases rules s op with ⟨retrievals, heq⟩ | ⟨before, e, row, -, hw⟩
  · rw [heq]
    exact { h with }
  · exact h.writes hw

/-- The tables of every memory that is reached tell one history. -/
theorem recorded_run (rules : MemoryRules) (steps : List MemoryStep) :
    Recorded rules (run (step rules) initial steps) :=
  run_invariant' (fun _ op => recorded_step op) steps (recorded_initial rules)

section Reached

variable (rules) (steps : List MemoryStep)

/-- The revisions of an entry are its versions from the first on, and the last one has what the
entry has. There are at most a hundred, and one less of an entry that can still be deleted. -/
theorem revisions_of_run (entryId : String) :
    let s := run (step rules) initial steps
    (s.revisions.rows.filter fun r => r.entryId = entryId).map MemoryRevision.revision =
        List.range' 1 ((s.entries.find? entryId).elim 0 MemoryEntry.revision) ∧
      (current MemoryRevision.entryId s.revisions.rows entryId).map MemoryRevision.snapshot =
        (s.entries.find? entryId).map MemoryEntry.snapshot ∧
      ∀ e ∈ s.entries.find? entryId, e.revision ≤ maxMemoryRevisionsPerEntry ∧
        (e.deletedAt = none → e.revision < maxMemoryRevisionsPerEntry) := by
  intro s
  have h := recorded_run rules steps
  refine ⟨?_, ?_, h.bounded entryId⟩
  · rw [h.numbered.revisions, h.countP_revisions]
  · have hlatest := congrArg (Option.map Prod.snd) (h.latest entryId)
    simpa only [Option.map_map, Function.comp_def] using hlatest

/-- No scope has more live entries than it may have. -/
theorem liveIn_of_run (owner : String) (scope : MemoryScope) :
    (run (step rules) initial steps).liveIn owner scope ≤ maxMemoryEntriesPerScope := by
  refine run_invariant'
    (I := fun s : ProjectMemory => s.liveIn owner scope ≤ maxMemoryEntriesPerScope)
    (fun s op h => ?_) steps (Nat.zero_le _)
  rcases step_cases rules s op with ⟨retrievals, heq⟩ | ⟨before, e, row, -, hw⟩
  · rw [heq]
    exact h
  · exact (hw.few owner scope).trans (max_le le_rfl h)

/-- The terms of a query that the index has for a live entry are those that the entry contains. -/
theorem matchedTerms_of_run (request : MemorySearch) :
    let s := run (step rules) initial steps
    ∀ e ∈ s.entries.rows, s.matchedTerms rules request e =
      (rules.tokens request.query).countP fun term => term ∈ e.terms rules := by
  intro s e he
  refine List.countP_congr fun term _ => ?_
  rw [decide_eq_true_eq, decide_eq_true_eq, (recorded_run rules steps).indexed,
    Table.find?_of_mem he]
  simp

/-- A search matches the live entries of its scope by what they contain now. -/
theorem matching_of_run (owner : String) (scope : MemoryScope) (request : MemorySearch) :
    let s := run (step rules) initial steps
    s.matching rules owner scope request = s.entries.rows.filter fun e =>
      e.ownerUserId = owner ∧ e.scope.tenantId = scope.tenantId ∧
        e.scope.organizationId = scope.organizationId ∧ e.scope.workspaceId = scope.workspaceId ∧
        e.scope.projectId = scope.projectId ∧
        (e.scope.repositoryId = "" ∨ e.scope.repositoryId = scope.repositoryId) ∧
        e.deletedAt = none ∧ e.kind ∈ request.selectedKinds ∧
        ∃ term ∈ rules.tokens request.query,
          term ∈ rules.tokens (e.title ++ "\n" ++ e.content) := by
  intro s
  refine List.filter_congr fun e he => ?_
  rw [decide_eq_decide, matchedTerms_of_run rules steps request e he, List.countP_pos_iff]
  simp only [and_congr_right_iff]
  intro _ _ _ _ _ _ hlive _
  simp [MemoryEntry.terms, hlive]

/-- The audit of a scope has a record for each revision of its entries, in their order, and
numbers them from one on. -/
theorem auditOf_run (owner : String) (scope : MemoryScope) :
    let s := run (step rules) initial steps
    (s.auditOf owner scope).map (fun r => r.event.recorded) =
        (s.revisions.rows.filter fun r =>
          (s.entries.find? r.entryId).map MemoryEntry.place = some (owner, scope)).map
            (·.recorded) ∧
      (s.auditOf owner scope).map (fun r => r.event.sequence) =
        List.range' 1 (s.auditOf owner scope).length := by
  intro s
  have h := recorded_run rules steps
  rw [auditOf_eq]
  constructor
  · have hplace := congrArg (fun l => (l.filter fun x => x.1 = some (owner, scope)).map Prod.snd)
      h.audited
    simpa only [List.filter_map, List.map_map, Function.comp_def, Option.some.injEq] using hplace
  · rw [h.sequenced.revisions, List.countP_eq_length_filter]

/-- A report shows the last records of its scope, newest first, in a valid chain. -/
theorem report_of_run (owner : String) (scope : MemoryScope) (limit : ℤ) :
    let s := run (step rules) initial steps
    s.report rules owner scope limit = (checkReport rules owner scope limit).map fun _ => {
      scope := (scope.organizationId, scope.workspaceId, scope.projectId, scope.repositoryId)
      events := ((s.auditOf owner scope).reverse.take limit.toNat).map fun r =>
        (r.event, r.eventSha256)
      retrievals := s.lastRetrievals owner scope limit
      chainValid := true } := by
  intro s
  have h := recorded_run rules steps
  have hrows : topRows (fun r => r.event.sequence) limit.toNat (s.auditOf owner scope) =
      (s.auditOf owner scope).reverse.take limit.toNat := by rw [topRows, h.rankRows_auditOf]
  have hsplit : s.auditOf owner scope =
      (s.auditOf owner scope).take ((s.auditOf owner scope).length - limit.toNat) ++
        (s.auditOf owner scope).drop ((s.auditOf owner scope).length - limit.toNat) ++ [] := by simp
  have hvalid := h.chainValid_auditOf hsplit
  rw [report, hrows]
  cases checkReport rules owner scope limit with
  | error e => rfl
  | ok u =>
    simp only [ok_bind, List.take_reverse, List.reverse_reverse, s, hvalid]
    rfl

/-- Of the live entries, a deletion accepts those of its scope that it can name, whatever their
revision: only a record with the hash of the next one stands against it. -/
theorem delete_returns_iff (owner : String) (scope : MemoryScope) (entryId actor : String)
    (now : ℤ) :
    let s := run (step rules) initial steps
    (∃ s', s.delete rules owner scope entryId actor now = .ok s') ↔
      rules.validate owner scope = .ok () ∧ isSafeEntry entryId ∧ isSafeActor actor ∧
        ∃ e ∈ s.entries.find? entryId, e.place = (owner, scope) ∧ e.deletedAt = none ∧
          ∀ r ∈ s.audit.rows, r.eventSha256 ≠
            (s.nextAudit rules (owner, scope) "deleted" ⟨entryId, e.revision + 1, .deleted,
              rules.tombstoneHash entryId (e.revision + 1) e.contentSha256, actor,
              now⟩).eventSha256 := by
  intro s
  have h : Recorded rules s := recorded_run rules steps
  simp only [delete, insertRevision, appendAudit, bind_eq_ok, raiseIf_eq_ok, orRaise_eq_ok,
    pure_eq_ok, exists_const, not_not, Bool.not_eq_false]
  constructor
  · rintro ⟨_, _, hvalid, hentry, hactor, e, he, _, ⟨-, rfl⟩, -, hhash, -⟩
    obtain ⟨hfound, hlive⟩ := Option.filter_eq_some_iff.mp he
    obtain ⟨howner, hscope, hlive⟩ := of_decide_eq_true hlive
    refine ⟨hvalid, hentry, hactor, e, hfound, Prod.ext howner hscope, hlive, fun r hr heq => ?_⟩
    exact hhash ⟨r, hr, heq⟩
  · rintro ⟨hvalid, hentry, hactor, e, hfound, hplace, hlive, hhash⟩
    obtain ⟨howner, hscope⟩ := Prod.mk.inj hplace
    refine ⟨_, (), hvalid, hentry, hactor, e, Option.filter_eq_some_iff.mpr
      ⟨hfound, decide_eq_true ⟨howner, hscope, hlive⟩⟩, _, ⟨?_, rfl⟩, ?_, ?_, rfl⟩
    · exact h.find?_revision hfound
    · exact h.find?_next (owner, scope)
    · rintro ⟨r, hr, heq⟩
      exact hhash r hr heq

end Reached

section Tombstones

variable {steps : List MemoryStep} {entryId : String}

/-- A deleted entry stays as it is, and it is not revised: its identity is not used again. -/
theorem deleted_kept (h : s.entries.find? entryId = some e) (hdeleted : e.deletedAt ≠ none) :
    let s' := run (step rules) s steps
    s'.entries.find? entryId = some e ∧
      s'.revisions.rows.filter (·.entryId = entryId) =
        s.revisions.rows.filter (·.entryId = entryId) := by
  refine run_invariant' (I := fun s' : ProjectMemory => s'.entries.find? entryId = some e ∧
    s'.revisions.rows.filter (·.entryId = entryId) = s.revisions.rows.filter (·.entryId = entryId))
    (fun t op ⟨hfound, hrevisions⟩ => ?_) steps ⟨h, rfl⟩
  rcases step_cases rules t op with ⟨retrievals, heq⟩ | ⟨before, f, row, -, hw⟩
  · rw [heq]
    exact ⟨hfound, hrevisions⟩
  · have hne : f.entryId ≠ entryId := by
      rintro rfl
      exact hdeleted (hw.live e (hw.found.symm.trans hfound)).1
    refine ⟨by rw [hw.entries, if_neg hne, hfound], ?_⟩
    rw [hw.revisions, List.filter_append, hrevisions]
    simp [hw.recorded.1, hne]

/-- A plan for the rollout. -/
def planPut : MemoryPut :=
  { memoryKey := "plan", kind := "conversation-fact", title := "Rollout", content := "Schedule" }

def planEntryId : String := asciiMemoryRules.entryId "user_1" rolloutScope "plan"

/-- A plan that was put and deleted. -/
def deletedPlan : ProjectMemory := run (step asciiMemoryRules) initial
  [.put "user_1" rolloutScope planPut 1, .delete "user_1" rolloutScope planEntryId "system" 2]

/-- The scope of another owner. -/
def otherScope : MemoryScope := { rolloutScope with tenantId := asciiMemoryRules.tenantOf "user_2" }

theorem deletedPlan_kept :
    let s' := run (step asciiMemoryRules) deletedPlan
      [.put "user_1" rolloutScope planPut 3, .put "user_2" otherScope planPut 4]
    s'.entries.rows.map (·.ownerUserId) = ["user_1", "user_2"] ∧
      s'.entries.find? planEntryId =
        some (deletedEntry 2 (newEntry asciiMemoryRules "user_1" rolloutScope planPut 1)) ∧
      s'.revisions.rows.filter (·.entryId = planEntryId) =
        deletedPlan.revisions.rows.filter (·.entryId = planEntryId) :=
  ⟨by decide +kernel, deleted_kept (by decide +kernel) (Option.some_ne_none 2)⟩

end Tombstones

section Isolation

variable {steps : List MemoryStep} {place : String × MemoryScope}

/-- What an owner and a scope have in the memory. -/
structure SameIn (place : String × MemoryScope) (s s' : ProjectMemory) : Prop where
  entries : ∀ k, (s'.entries.find? k).filter (·.place = place) =
    (s.entries.find? k).filter (·.place = place)
  audit : s'.auditOf place.1 place.2 = s.auditOf place.1 place.2
  revisions : ∀ k, ∀ e ∈ s.entries.find? k, e.place = place →
    s'.revisions.rows.filter (·.entryId = k) = s.revisions.rows.filter (·.entryId = k) ∧
      ∀ term, ⟨k, term⟩ ∈ s'.terms.rows ↔ ⟨k, term⟩ ∈ s.terms.rows

variable {s₁ : ProjectMemory}

theorem SameIn.refl (place : String × MemoryScope) (s : ProjectMemory) : SameIn place s s :=
  ⟨fun _ => rfl, rfl, fun _ _ _ _ => ⟨rfl, fun _ => .rfl⟩⟩

/-- A write in another scope changes nothing of what this one has. -/
theorem SameIn.writes (h : SameIn place s s') (hw : Writes rules before e row s' s₁)
    (he : e.place ≠ place) : SameIn place s s₁ where
  entries k := by
    rw [hw.entries, ← h.entries]
    split
    next hk =>
      rw [← hk, hw.found, Option.filter_some, if_neg (by simpa using he)]
      cases before with
      | none => rfl
      | some b => rw [Option.filter_some, if_neg (by simpa [(hw.live b rfl).2] using he)]
    next => rfl
  audit := by
    rw [← h.audit, auditOf_eq, auditOf_eq, hw.audit, List.filter_append]
    simp [MemoryAudit.place, nextAudit, he]
  revisions k b hb hplace := by
    have hne : e.entryId ≠ k := by
      rintro rfl
      have hsame := h.entries e.entryId
      rw [hb, hw.found, Option.filter_some, if_pos (by simpa using hplace),
        Option.filter_eq_some_iff] at hsame
      exact he ((hw.live b hsame.1).2.symm.trans hplace)
    obtain ⟨hrevisions, hterms⟩ := h.revisions k b hb hplace
    rw [hw.revisions, List.filter_append, hrevisions]
    simp [hw.recorded.1, hne, hw.terms, Ne.symm hne, hterms]

/-- Steps of other owners and scopes change nothing of what an owner has in a scope. -/
theorem sameIn_run (h : ∀ op ∈ steps, op.place ≠ place) :
    SameIn place s (run (step rules) s steps) := by
  refine run_invariant (C := fun _ op => op.place ≠ place) (I := SameIn place s) ?_
    (runMeets_of_mem h s) (.refl place s)
  intro t op hsame hop
  rcases step_cases rules t op with ⟨retrievals, heq⟩ | ⟨before, e, row, he, hw⟩
  · rw [heq]
    exact ⟨hsame.entries, hsame.audit, hsame.revisions⟩
  · exact hsame.writes hw (he ▸ hop)

theorem plan_sameIn :
    let steps : List MemoryStep := [.put "user_2" otherScope planPut 1,
      .put "user_2" otherScope { planPut with memoryKey := "report" } 2, .delete "user_2" otherScope
        (asciiMemoryRules.entryId "user_2" otherScope "plan") "system" 3]
    let s' := run (step asciiMemoryRules) (rolloutMemory 1) steps
    (s'.entries.rows.map fun e => (e.ownerUserId, e.deletedAt)) =
        [("user_1", none), ("user_1", none), ("user_2", some 3), ("user_2", none)] ∧
      SameIn ("user_1", rolloutScope) (rolloutMemory 1) s' :=
  ⟨by decide +kernel, sameIn_run (by simp [MemoryStep.place])⟩

end Isolation

end ProjectMemory

end Recorded

end Magistrate
