import Magistrate.Gateway.Activity.Batches

/-!
# Replay of the change ledger

A reader pages the changes of a user from a cursor on while the store goes on
writing. Once a page is the last one, the highest revisions that the reader has
are the current rows of the records that have changed since.
-/

namespace Magistrate

/-- A transaction of the store, or a page that the reader reads. -/
inductive ReplayStep where
  | write (op : ActivityStep)
  | read (limit : ℤ)

/-- The database, and what a reader has of a user's changes. -/
structure ReplayRun where
  db : ActivityDatabase
  cursor : ℕ
  rows : List PublicActivity

/-- A write, or a page that is added to what the reader has. -/
def replayStep (rules : ActivityStoreRules) (user : String) (s : ReplayRun) :
    ReplayStep → ReplayRun
  | .write op => { s with db := activityStep rules s.db op }
  | .read limit =>
    match s.db.log.listActivity rules.publish user s.cursor limit with
    | .error _ => s
    | .ok page =>
      { s with
        cursor := page.nextCursor
        rows := s.rows ++ page.records.map (·.activity) }

/-- The log of a run is the ledger of a history. -/
theorem ledger_step (rules : ActivityStoreRules) {db : ActivityDatabase}
    {history : List ActivityRecord} (h : Ledger db.log history) (op : ActivityStep) :
    ∃ versions, Ledger (activityStep rules db op).log (history ++ versions) := by
  obtain ⟨versions, hwritten⟩ := activityStep_written rules db op
  exact ⟨versions, h.written hwritten⟩

/-- The log of every reachable state is a ledger. -/
theorem ledger_run (rules : ActivityStoreRules) (steps : List ActivityStep) :
    ∃ history, Ledger (run (activityStep rules) .initial steps).log history :=
  run_invariant' (I := fun db : ActivityDatabase => ∃ history, Ledger db.log history)
    (fun _ op ⟨history, h⟩ => by
      obtain ⟨versions, hstep⟩ := ledger_step _ h op
      exact ⟨history ++ versions, hstep⟩) steps ⟨[], .nil⟩

section Reader

variable {rules : ActivityStoreRules} {user : String} {log : ActivityLog}
  {history : List ActivityRecord}

namespace Ledger

/-- A page that is read is one that the cursor allows. -/
theorem listActivity_eq_ok (h : Ledger log history) {rules : PublishRules} {after : ℕ} {limit : ℤ}
    {page : ActivityPage} (hok : log.listActivity rules user after limit = .ok page) :
    after ≤ (publicVersions history user).length ∧
    page.records.map (fun d => some d.activity) =
      (((publicVersions history user).drop after).take (pageSize limit)).map (fun v =>
        current PublicActivity.id (publicVersions history user) v.id) ∧
    page.nextCursor = after + min (pageSize limit) ((publicVersions history user).length - after) ∧
    page.hasMore = decide (after + pageSize limit < (publicVersions history user).length) := by
  have hchecks : rules.bounded user 128 = true ∧ after ≤ maxSafeInteger ∧
      after ≤ log.latestChange user := by
    simp only [ActivityLog.listActivity, bind_eq_ok, raiseIf_eq_ok, exists_const, not_lt,
      Bool.not_eq_false] at hok
    exact ⟨hok.1, hok.2.1, hok.2.2.1⟩
  obtain ⟨hbounded, hsafe, hafter⟩ := hchecks
  obtain ⟨page', hpage, hrecords, -, hnext, hlatest, hmore, -⟩ :=
    h.listActivity_ok hbounded hafter hsafe limit
  obtain rfl : page' = page := Except.ok.inj (hpage.symm.trans hok)
  have hcount : log.latestChange user = (publicVersions history user).length := by
    rw [h.latestChange_eq, publicVersions, userVersions, List.length_map,
      List.countP_eq_length_filter]
  exact ⟨hcount ▸ hafter, hrecords, hnext, hmore⟩

/-- A record has a change after a cursor when it has a version after it. -/
theorem changed_iff (h : Ledger log history) (user id : String) (after : ℕ) :
    (∃ c ∈ log.changes.rows, c.userId = user ∧ c.recordId = id ∧ after < c.changeSequence) ↔
      ∃ i v, after ≤ i ∧ (publicVersions history user)[i]? = some v ∧ v.id = id := by
  have hids : (log.changes.rows.filter (·.userId = user)).map (·.recordId) =
      (publicVersions history user).map (·.id) := by
    have hentries := congrArg (List.map Prod.fst) (h.userEntries user)
    simp only [List.map_map, Function.comp_def] at hentries
    rw [hentries, publicVersions, List.map_map]
    rfl
  have hat : ∀ i : ℕ, ((log.changes.rows.filter (·.userId = user))[i]?).map (·.recordId) =
      ((publicVersions history user)[i]?).map (·.id) := by
    intro i
    rw [← List.getElem?_map, ← List.getElem?_map, hids]
  constructor
  · rintro ⟨c, hc, huser, hid, hlt⟩
    have hmem : c ∈ log.changes.rows.filter (·.userId = user) :=
      List.mem_filter.mpr ⟨hc, decide_eq_true huser⟩
    obtain ⟨i, hi, rfl⟩ := List.mem_iff_getElem.mp hmem
    rw [number_getElem (h.numbered user)] at hlt
    have hversion := hat i
    rw [List.getElem?_eq_getElem hi, Option.map_some, hid] at hversion
    obtain ⟨v, hv, hsame⟩ := Option.map_eq_some_iff.mp hversion.symm
    exact ⟨i, v, by omega, hv, hsame⟩
  · rintro ⟨i, v, hle, hv, rfl⟩
    have hchange := hat i
    rw [hv, Option.map_some] at hchange
    obtain ⟨c, hc, hid⟩ := Option.map_eq_some_iff.mp hchange
    obtain ⟨hi, rfl⟩ := List.getElem?_eq_some_iff.mp hc
    obtain ⟨hmem, huser⟩ := List.mem_filter.mp (List.getElem_mem hi)
    refine ⟨_, hmem, of_decide_eq_true huser, hid, ?_⟩
    rw [number_getElem (h.numbered user)]
    omega

/-- The current public version of a stored record is its row. -/
theorem current_row (h : Ledger log history) {r : ActivityRecord} (hr : r ∈ log.records.rows)
    (huser : r.userId = user) :
    current PublicActivity.id (publicVersions history user) r.id = some r.public := by
  have hversion : r ∈ userVersions history user :=
    List.mem_filter.mpr ⟨h.mem_history hr, decide_eq_true huser⟩
  rw [← h.find?_public hversion, Table.find?_of_mem hr, Option.map_some]

/-- The changes of a record are one for each of its revisions. -/
theorem record_changes (h : Ledger log history) {r : ActivityRecord} (hr : r ∈ log.records.rows) :
    (log.changes.rows.filter fun c => c.userId = r.userId ∧ c.recordId = r.id).map
      (·.recordRevision) = List.range' 1 r.revision := by
  have hentries := congrArg
    (fun l => (l.filter fun e : String × String × ℕ => e.1 = r.userId ∧ e.2.1 = r.id).map
      fun e => e.2.2) h.entries
  simp only [List.filter_map, List.map_map, Function.comp_def] at hentries
  have hsame : (history.filter fun v => decide (v.userId = r.userId ∧ v.id = r.id)) =
      history.filter fun v => v.id = r.id := by
    refine List.filter_congr fun v hv => ?_
    rw [decide_eq_decide, and_iff_right_iff_imp]
    exact fun hid => ((h.identity v hv r (h.mem_history hr)).mp hid).1
  rw [hentries, hsame, h.revised.revisions, ← h.revised.revision_current (h.mem_records.mp hr)]

end Ledger

/-- What a reader has of a log: versions of the user's records from its start to its cursor. -/
def Reads (user : String) (start : ℕ) (s : ReplayRun) : Prop :=
  ∃ history, Ledger s.db.log history ∧
    Collected PublicActivity.id PublicActivity.revision (publicVersions history user) start s.cursor
      s.rows

/-- A page adds to what the reader has. -/
theorem Reads.page {start : ℕ} {cursor : ℕ} {rows : List PublicActivity} {limit : ℤ}
    {page : ActivityPage} (h : Ledger log history)
    (hcollected : Collected PublicActivity.id PublicActivity.revision (publicVersions history user)
      start cursor rows)
    (hok : log.listActivity rules.publish user cursor limit = .ok page) :
    Collected PublicActivity.id PublicActivity.revision (publicVersions history user) start
      page.nextCursor (rows ++ page.records.map (·.activity)) := by
  obtain ⟨hle, hrecords, hnext, -⟩ := h.listActivity_eq_ok hok
  rw [hnext]
  refine hcollected.read (h.revised_publicVersions user) (by omega) ?_
  rw [List.map_map, Function.comp_def, hrecords, ← List.length_drop, ← List.take_eq_take_min]

/-- A step keeps what the reader has. -/
theorem Reads.step {start : ℕ} {s : ReplayRun} (h : Reads user start s) (op : ReplayStep) :
    Reads user start (replayStep rules user s op) := by
  obtain ⟨history, hledger, hcollected⟩ := h
  cases op with
  | write op =>
    obtain ⟨versions, hstep⟩ := ledger_step rules hledger op
    refine ⟨history ++ versions, hstep, ?_⟩
    rw [publicVersions, userVersions, List.filter_append, List.map_append]
    exact hcollected.append
  | read limit =>
    simp only [replayStep]
    cases hok : s.db.log.listActivity rules.publish user s.cursor limit with
    | error failure => exact ⟨history, hledger, hcollected⟩
    | ok page => exact ⟨history, hledger, Reads.page hledger hcollected hok⟩

end Reader

/-- The change ledger supports replay: in every reachable state the changes of each user are
numbered from one on, and each record has one change for each of its revisions; a page after any
cursor up to the last one is read without an error; and a reader that pages the changes of a user
from any cursor while the store goes on writing has, after a page that is the last one, the current
rows of the records changed since as the highest of their rows, and no rows of the others. -/
theorem activity_replay_lossless (rules : ActivityStoreRules) (before : List ActivityStep)
    (user : String) (hbounded : rules.publish.bounded user 128 = true) :
    let db := run (activityStep rules) .initial before
    (∀ owner, (db.log.changes.rows.filter (·.userId = owner)).map (·.changeSequence) =
      List.range' 1 (db.log.latestChange owner)) ∧
    (∀ r ∈ db.log.records.rows,
      (db.log.changes.rows.filter fun c => c.userId = r.userId ∧ c.recordId = r.id).map
        (·.recordRevision) = List.range' 1 r.revision) ∧
    (∀ after limit, after ≤ db.log.latestChange user → after ≤ maxSafeInteger →
      (db.log.listActivity rules.publish user after limit).isOk) ∧
    (∀ after steps limit page, after ≤ db.log.latestChange user →
      let s := run (replayStep rules user) ⟨db, after, []⟩ steps
      s.db.log.listActivity rules.publish user s.cursor limit = .ok page → page.hasMore = false →
      ∀ r ∈ s.db.log.records.rows, r.userId = user →
        highest PublicActivity.id PublicActivity.revision
          (s.rows ++ page.records.map (·.activity)) r.id =
        if ∃ c ∈ s.db.log.changes.rows, c.userId = user ∧ c.recordId = r.id ∧
          after < c.changeSequence then some r.public else none) := by
  obtain ⟨history, hledger⟩ := ledger_run rules before
  refine ⟨fun owner => ?_, fun r hr => hledger.record_changes hr,
    fun after limit hafter hsafe => ?_, fun after steps limit page hafter => ?_⟩
  · rw [hledger.latestChange_eq]
    exact hledger.numbered owner
  · obtain ⟨page, hpage, -⟩ := hledger.listActivity_ok hbounded hafter hsafe limit
    rw [hpage]
    rfl
  · intro s hpage hlast r hr huser
    have hstart : Reads user after ⟨run (activityStep rules) .initial before, after, []⟩ := by
      refine ⟨history, hledger, .nil ?_⟩
      rw [publicVersions, userVersions, List.length_map, ← List.countP_eq_length_filter,
        ← hledger.latestChange_eq]
      exact hafter
    obtain ⟨history', hledger', hcollected⟩ : Reads user after s :=
      run_invariant' (I := Reads user after) (fun _ op h => h.step op) steps hstart
    have hall := Reads.page hledger' hcollected hpage
    obtain ⟨hle, -, hnext, hmore⟩ := hledger'.listActivity_eq_ok hpage
    have hend : page.nextCursor = (publicVersions history' user).length := by
      rw [hlast, eq_comm, decide_eq_false_iff_not] at hmore
      omega
    split
    · next hchanged =>
      obtain ⟨i, v, hi, hv, hid⟩ := (hledger'.changed_iff user r.id after).mp hchanged
      rw [← hledger'.current_row hr huser, ← hid]
      exact hall.highest_eq (hledger'.revised_publicVersions user) hend hi hv
    · next hunchanged =>
      exact hall.highest_eq_none fun i v hi hv hid =>
        hunchanged ((hledger'.changed_iff user r.id after).mpr ⟨i, v, hi, hv, hid⟩)

section Sample

/-- The activity of an outcome, under a summary. -/
def outcomeFields (summary : String) : ActivityFields where
  sourceEventId := none
  kind := "supervision.outcome"
  state := "completed"
  importance := "routine"
  title := "task"
  summary
  summaryTruncated := false
  taskId := some "task"
  decisionKey := none
  objectiveId := some "objective"
  runId := none
  project := none
  occurredAt := none
  refs := []
  sourcePayloadSha256 := sampleHash summary.length

/-- The outcome of a branch that follows a cursor, published as the activity of the branch. -/
def outcomeBatch (cursor : ℕ) (summary : String) : SourceBatch where
  expectedCursor := cursor
  items :=
    [.event { branchOutcome with
        sourceEventId := "branch-outcome:" ++ (cursor + 1).repr
        sourceCursor := cursor + 1
        payloadSha256 := sampleHash cursor }
      (.ok (some ({ recordKey := "branch-outcome:1", fields := outcomeFields summary }, none)))]
  newCursor := cursor + 1
  newPrefixSha256 := sampleHash (cursor + 5)
  sourceTail := cursor + 1
  now := cursor + 1

/-- The outcome is stored from a journal. -/
def outcomeSteps : List ActivityStep :=
  journalStart ++ [.applyBatch branchStream (outcomeBatch 0 "done")]

/-- A reader takes a page before the outcome is revised. -/
def revisedSteps : List ReplayStep :=
  [.read 10, .write (.applyBatch branchStream (outcomeBatch 1 "done again"))]

def revisedReader : ReplayRun := run (replayStep sampleStoreRules "user")
  ⟨run (activityStep sampleStoreRules) .initial outcomeSteps, 0, []⟩ revisedSteps

/-- A reader that takes another page has both revisions, and the current row is the highest. -/
theorem activity_replay_lossless_outcome :
    ∃ r page, revisedReader.db.log.records.rows = [r] ∧
      revisedReader.db.log.listActivity sampleStoreRules.publish "user" revisedReader.cursor 10 =
        .ok page ∧
      revisedReader.rows.map (·.revision) = [1] ∧ page.records.map (·.activity.revision) = [2] ∧
      highest PublicActivity.id PublicActivity.revision
        (revisedReader.rows ++ page.records.map (·.activity)) r.id = some r.public := by
  obtain ⟨-, -, -, hreplay⟩ := activity_replay_lossless sampleStoreRules outcomeSteps "user" rfl
  obtain ⟨page, hpage, hrun⟩ := exists_ok_of_any
    (p := fun page : ActivityPage => page.hasMore = false ∧
      page.records.map (·.activity.revision) = [2] ∧ revisedReader.rows.map (·.revision) = [1] ∧
      revisedReader.db.log.records.rows.length = 1 ∧
      ∀ r ∈ revisedReader.db.log.records.rows, r.userId = "user" ∧
        ∃ c ∈ revisedReader.db.log.changes.rows,
          c.userId = "user" ∧ c.recordId = r.id ∧ 0 < c.changeSequence)
    (show (revisedReader.db.log.listActivity sampleStoreRules.publish "user"
      revisedReader.cursor 10).toOption.any _ = true by decide +kernel)
  obtain ⟨hmore, hafter, hbefore, hone, hrows⟩ := of_decide_eq_true hrun
  obtain ⟨r, hr⟩ := List.length_eq_one_iff.mp hone
  have hmem : r ∈ revisedReader.db.log.records.rows := hr ▸ List.mem_singleton_self r
  obtain ⟨huser, hchanged⟩ := hrows r hmem
  rw [revisedReader] at hmem hchanged
  exact ⟨r, page, hr, hpage, hbefore, hafter,
    (hreplay 0 revisedSteps 10 page (Nat.zero_le _) hpage hmore r hmem huser).trans
      (if_pos hchanged)⟩

end Sample

end Magistrate
