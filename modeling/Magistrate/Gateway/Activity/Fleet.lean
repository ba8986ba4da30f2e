import Magistrate.Core.Json
import Magistrate.Gateway.Activity.Store

/-!
# Fleet snapshots

A fleet snapshot lists tasks and backlog records. Its normalized form has one
activity for each task with a lifecycle and one for each open keyed decision, and
the identities of the open decisions.
-/

namespace Magistrate

/-- What the adapter computes from values and texts: times, digests, and whether a path is its home.
-/
structure FleetRules where
  store : ActivityStoreRules
  sameHome : String → Bool
  timestamp : Json → Option ℕ
  causalId : String → List String → String
  identitySha256 : String → String
  payloadSha256 : ActivityFields → String
  snapshotSha256 : Json → List ActivityCandidate → List String → String

/-- What the adapter publishes by. -/
def FleetRules.publish (rules : FleetRules) : PublishRules := rules.store.publish

/-- `MAX_SNAPSHOT_TASKS` -/
def maxSnapshotTasks : ℕ := 1000

/-- `MAX_SNAPSHOT_RECORDS` -/
def maxSnapshotRecords : ℕ := 2000

/-- `MAX_SNAPSHOT_DECISIONS` -/
def maxSnapshotDecisions : ℕ := 1000

/-- `MAX_ACTIVITY_FOCUS_RECORDS` -/
def maxActivityFocusRecords : ℕ := 5000

/-- `_SEMANTIC_STATE_PROVENANCE` -/
def semanticStateProvenance : List String :=
  ["firstmate", "structured", "status", "status-endpoint", "task", "journal"]

/-- The value is absent or an empty text. -/
def Json.blank : Json → Bool
  | .null => true
  | .str text => text = ""
  | _ => false

/-- The text of a value, where it has one. -/
def Json.text (value : Json) : String := value.str?.getD ""

section Values

variable (rules : FleetRules)

/-- `_unicode_scalar_text` -/
def unicodeScalarText (value : Json) (maximum : ℕ) (required : Bool) :
    Except SourceFailure (Option String) :=
  match value with
  | .str text => do
    raiseIf (maximum < text.length) (.conflict "A source text field exceeds its contract bound.")
    raiseIf (rules.publish.hasControls text = true)
      (.conflict "A source text field contains invalid or control Unicode.")
    raiseIf (required = true ∧ rules.publish.strip text = "")
      (.conflict "A source text field is empty.")
    raiseIf (maximum < (rules.publish.strip text).length)
      (.conflict "A source text field exceeds its contract bound.")
    return if rules.publish.strip text = "" then none else some (rules.publish.strip text)
  | _ => do
    raiseIf (required = true) (.conflict "A source text field is missing.")
    return none

/-- A required text that is what it is normalized to. -/
def canonicalText (value : Json) (maximum : ℕ) (message : String) :
    Except SourceFailure String := do
  let text ← unicodeScalarText rules value maximum true
  raiseIf (text = none ∨ text ≠ value.str?) (.conflict message)
  return text.getD ""

/-- The last part of a path whose slashes at the end are left out. -/
def lastPart (path : String) : String :=
  let kept := (path.toList.reverse.dropWhile (· = '/')).reverse
  String.ofList ((partsOf '/' kept).getLast?.getD [])

/-- `_project_name` -/
def projectName (value : Json) : Except SourceFailure (Option String) :=
  match value with
  | .str text => do
    if rules.publish.strip text = "" then return none
    raiseIf (1024 < text.length) (.conflict "A Firstmate project label exceeds its contract bound.")
    raiseIf (rules.publish.sensitive text = true)
      (.conflict "A Firstmate project label resembles credential material.")
    raiseIf (rules.publish.hasControls text = true)
      (.conflict "A Firstmate project label contains control characters.")
    let name := lastPart (rules.publish.strip text)
    raiseIf (160 < name.length) (.conflict "A Firstmate project label exceeds its contract bound.")
    raiseIf (rules.publish.sensitive name = true)
      (.conflict "A Firstmate project label resembles credential material.")
    return if name = "" then none else some name
  | _ => .ok none

/-- `_lifecycle_state` -/
def lifecycleState (task record : Json) (hasDecision : Bool) :
    Except SourceFailure (Option String) := do
  if hasDecision = true then return some "awaiting-user"
  if (record.get "state").str? = some "done" then return some "completed"
  let current := task.get "current_state"
  let provenance := (rules.publish.strip (current.get "source").text).toLower
  let state := (rules.publish.strip (current.get "state").text).toLower
  if provenance ∈ semanticStateProvenance then
    if state ∈ ["working", "running", "busy", "idle", "queued", "pending", "blocked"] then
      return some "active"
    if state ∈ ["done", "complete", "completed"] then return some "completed"
    if state ∈ ["failed", "error"] then return some "failed"
    if state ∈ ["cancelled", "canceled"] then return some "cancelled"
  raiseIf ((record.get "state").isScalar = false) (.valueError "unhashable type")
  return if (record.get "state").text ∈ ["queued", "in_flight"] then some "active" else none

/-- `_SAFE_REPORT_PATH`, for the report of a task. -/
def isReportPath (path taskId : String) : Bool :=
  path = "data/" ++ taskId ++ "/report.md" ∧ taskId.length ≤ 128 ∧
    taskId.toList.head?.any (·.isAlphanum) ∧
    taskId.toList.all fun c => c.isAlphanum ∨ c = '.' ∨ c = '_' ∨ c = '-'

/-- Rows by their canonical ids, none of which comes twice. -/
def rowsById (invalid noncanonical duplicate : String) :
    List Json → Except SourceFailure (List (String × Json))
  | [] => .ok []
  | row :: rows => do
    raiseIf (row.isObj = false) (.unavailable invalid)
    let id ← canonicalText rules (row.get "id") 200 noncanonical
    let rest ← rowsById invalid noncanonical duplicate rows
    raiseIf (id ∈ rest.map Prod.fst) (.conflict duplicate)
    return (id, row) :: rest

/-- The rows of a backlog, but those that are not structured. -/
def structuredRows (rows : List Json) : List Json :=
  rows.filter fun row => match row.get "structured" with
    | .bool false => false
    | _ => true

end Values

/-- A task of the fleet, with what its activities share. -/
structure FleetTask where
  taskId : String
  task : Json
  record : Json
  title : String
  project : Option String
  objectiveId : String
  runId : Option String

section Candidates

variable (rules : FleetRules)

/-- The activity of an open decision of a task. -/
def decisionCandidate (t : FleetTask) (key summary : String) : ActivityCandidate :=
  let fields : ActivityFields :=
    { sourceEventId := none
      kind := "decision.requested"
      state := "awaiting-user"
      importance := "attention"
      title := t.title
      summary
      summaryTruncated := false
      taskId := some t.taskId
      decisionKey := some key
      objectiveId := some t.objectiveId
      runId := t.runId
      project := t.project
      occurredAt := none
      refs := []
      sourcePayloadSha256 := "" }
  { recordKey := "decision:" ++ rules.identitySha256 (decisionIdentity (some t.taskId) (some key))
    fields := { fields with sourcePayloadSha256 := rules.payloadSha256 fields } }

/-- The open decisions of a task: their activities and their identities. -/
def decisionCandidates (t : FleetTask) (seen : List String) :
    List Json → Except SourceFailure (List (ActivityCandidate × String))
  | [] => .ok []
  | decision :: decisions => do
    raiseIf (decision.namesAre ["verb", "key", "summary"] = false ∨
        (decision.get "verb").text ∉ ["needs-decision", "blocked"])
      (.conflict "Firstmate returned unknown keyed-decision semantics.")
    let key ← canonicalText rules (decision.get "key") 128
      "Firstmate returned a non-canonical decision identity."
    let summary ← unicodeScalarText rules (decision.get "summary") 600 true
    raiseIf (key ∈ seen) (.conflict "Firstmate returned a duplicate open decision key.")
    raiseIf (rules.publish.sensitive (summary.getD "") = true)
      (.conflict "A Firstmate decision summary resembles credential material.")
    let rest ← decisionCandidates t (key :: seen) decisions
    return (decisionCandidate rules t key (summary.getD ""),
      decisionIdentity (some t.taskId) (some key)) :: rest

/-- The kind of an activity in a lifecycle state. -/
def lifecycleKind : String → String
  | "active" => "objective.started"
  | "awaiting-user" => "objective.progress"
  | "completed" => "objective.completed"
  | "failed" => "objective.failed"
  | _ => "objective.cancelled"

/-- The summary of an activity in a lifecycle state, with how it was completed. -/
def lifecycleSummary (state verb : String) : String :=
  match state with
  | "completed" =>
    if verb = "merged" then "Objective was recorded as merged by Firstmate."
    else if verb = "reported" then "Objective report was recorded as complete by Firstmate."
    else "Objective was recorded as completed by Firstmate."
  | "awaiting-user" => "Objective is waiting on an explicit keyed captain decision."
  | "failed" => "Objective is recorded as failed by Firstmate."
  | "cancelled" => "Objective is recorded as cancelled by Firstmate."
  | _ => "Objective is active in Firstmate."

/-- The time at which an objective was completed, or else since when it has been recorded. -/
def objectiveTime (record completion : Json) (state : String) :
    Except SourceFailure (Option ℕ) := do
  let date := if state = "completed" then completion.get "date" else .null
  let completed := rules.timestamp date
  raiseIf (date.blank = false ∧ completed = none)
    (.conflict "Firstmate returned an invalid completion timestamp.")
  if completed = none ∧ record.truthy = true then
    let since := rules.timestamp (record.get "since")
    raiseIf ((record.get "since").blank = false ∧ since = none)
      (.conflict "Firstmate returned an invalid objective timestamp.")
    return since
  return completed

/-- The references of a record: its pull request and the report of its task. -/
def objectiveRefs (record : Json) (taskId : String) : Except SourceFailure (List ActivityRef) := do
  let url := record.get "pr_url"
  raiseIf (url.blank = false ∧ url.str?.all (!safePullRequestUrl ·))
    (.conflict "Firstmate returned an unsafe pull-request reference.")
  let report := record.get "report_path"
  raiseIf (report.blank = false ∧ report.str?.all (!isReportPath · taskId))
    (.conflict "Firstmate returned an unsafe report reference.")
  return (if url.blank = true then [] else [.pullRequest url.text]) ++
    (if report.blank = true then [] else [.report taskId])

/-- The activity of a task in a lifecycle state. -/
def objectiveCandidate (t : FleetTask) (state : String) :
    Except SourceFailure ActivityCandidate := do
  let given := t.record.get "completion"
  raiseIf (given.blank = false ∧ given.isObj = false)
    (.conflict "Firstmate returned an invalid completion projection.")
  raiseIf (given.isObj = true ∧ given.truthy = true ∧
      (given.namesAre ["verb", "date"] = false ∨
        (given.get "verb").text ∉ ["done", "merged", "reported"] ∨ state ≠ "completed"))
    (.conflict "Firstmate returned unknown completion semantics.")
  let occurredAt ← objectiveTime rules t.record given state
  let refs ← objectiveRefs t.record t.taskId
  let fields : ActivityFields :=
    { sourceEventId := none
      kind := lifecycleKind state
      state
      importance := if state = "awaiting-user" then "attention" else "routine"
      title := t.title
      summary := lifecycleSummary state (given.get "verb").text
      summaryTruncated := false
      taskId := some t.taskId
      decisionKey := none
      objectiveId := some t.objectiveId
      runId := t.runId
      project := t.project
      occurredAt
      refs
      sourcePayloadSha256 := "" }
  return {
    recordKey := "objective:" ++ t.taskId
    fields := { fields with sourcePayloadSha256 := rules.payloadSha256 fields } }

/-- The activity of a task that has a lifecycle. -/
def lifecycleCandidate (t : FleetTask) :
    Option String → Except SourceFailure (List ActivityCandidate)
  | none => .ok []
  | some state => do
    let candidate ← objectiveCandidate rules t state
    return [candidate]

/-- A task of the fleet, from its rows. -/
def fleetTask (taskId : String) (task record : Json) : Except SourceFailure FleetTask := do
  let title ← unicodeScalarText rules (record.get "title") 240 false
  raiseIf (rules.publish.sensitive (title.getD taskId) = true)
    (.conflict "A Firstmate task title resembles credential material.")
  let label := if (record.get "repo").truthy = true then record.get "repo" else task.get "project"
  let project ← projectName rules label
  let spawned := task.get "spawn_gen"
  let incarnation ← unicodeScalarText rules spawned 128 false
  raiseIf (incarnation ≠ none ∧ incarnation ≠ spawned.str?)
    (.conflict "Firstmate returned a non-canonical run identity.")
  return {
    taskId
    task
    record
    title := title.getD taskId
    project
    objectiveId := rules.causalId "obj" [taskId]
    runId := incarnation.map fun incarnation => rules.causalId "run" [taskId, incarnation] }

/-- The rows of the open decisions of a task. -/
def decisionRows (task : Json) : Except SourceFailure (List Json) :=
  if task.truthy = false then .ok []
  else match task.get "hints" with
    | .obj fields =>
      match fields.lookup "open_decisions" with
      | none => .ok []
      | some (.arr rows) =>
        if rows.length ≤ 100 then .ok rows
        else .error (.unavailable "Firstmate returned an invalid keyed-decision projection.")
      | some _ =>
        .error (.unavailable "Firstmate returned an invalid keyed-decision projection.")
    | _ => .error (.unavailable "Firstmate returned an invalid keyed-decision projection.")

/-- The activities of tasks, and the identities of their open decisions. -/
def fleetCandidates (tasks records : List (String × Json)) :
    ℕ → List String → Except SourceFailure (List ActivityCandidate × List String)
  | _, [] => .ok ([], [])
  | decisionCount, taskId :: ids => do
    let task := (tasks.lookup taskId).getD .null
    let record := (records.lookup taskId).getD .null
    let t ← fleetTask rules taskId task record
    let rows ← decisionRows task
    raiseIf (maxSnapshotDecisions < decisionCount + rows.length)
      (.unavailable "Firstmate returned an oversized keyed-decision projection.")
    let decisions ← decisionCandidates rules t [] rows
    let state ← lifecycleState rules task record (!decisions.isEmpty)
    let objective ← lifecycleCandidate rules t state
    let (candidates, identities) ←
      fleetCandidates tasks records (decisionCount + rows.length) ids
    return (decisions.map Prod.fst ++ objective ++ candidates,
      decisions.map Prod.snd ++ identities)

/-- The candidate is for a record that a client must be able to recover. -/
def ActivityCandidate.recoverable (c : ActivityCandidate) : Bool :=
  c.fields.kind ∈ ["objective.started", "objective.progress"] ∧
      c.fields.state ∈ ["active", "awaiting-user"] ∨
    c.fields.kind = "decision.requested" ∧ c.fields.state = "awaiting-user"

/-- The items of an array. -/
def Json.items? : Json → Option (List Json)
  | .arr items => some items
  | _ => none

/-- The landed work of a snapshot. -/
def landedRows (snapshot : Json) : Option (List Json) :=
  match snapshot.get "secondmate_landed" with
  | .obj fields => ((fields.lookup "records").getD (.arr [])).items?
  | _ => some []

/-- The home that a snapshot names is the adapter's, if it names one. -/
def ownHome : Json → Bool
  | .null => true
  | .str home => rules.sameHome home
  | _ => false

/-- `_normalize_snapshot` -/
def normalizeSnapshot (snapshot : Json) : Except SourceFailure ActivitySnapshot := do
  raiseIf ((snapshot.get "schema").str? ≠ some "fm-fleet-snapshot.v1")
    (.unavailable "Firstmate returned an unknown fleet snapshot schema.")
  raiseIf ((snapshot.get "error").truthy = true)
    (.unavailable "Firstmate reported that the fleet snapshot is unavailable.")
  raiseIf (ownHome rules (snapshot.get "fm_home") = false)
    (.conflict "The fleet snapshot belongs to another Firstmate home.")
  match (snapshot.get "tasks").items?, ((snapshot.get "backlog").get "records").items?,
    landedRows snapshot, rules.timestamp (snapshot.get "generated") with
  | some tasks, some records, some landed, some generated => do
    raiseIf (maxSnapshotTasks < tasks.length ∨ maxSnapshotRecords < records.length)
      (.unavailable "Firstmate returned an oversized fleet snapshot.")
    raiseIf (maxSnapshotRecords < landed.length)
      (.unavailable "Firstmate returned an invalid landed-work projection.")
    let tasks ← rowsById rules "Firstmate returned an invalid task projection."
      "Firstmate returned a non-canonical task identity."
      "Firstmate returned a duplicate task identity." tasks
    let records ← rowsById rules "Firstmate returned an invalid backlog projection."
      "Firstmate returned a non-canonical backlog identity."
      "Firstmate returned a duplicate backlog identity." (structuredRows records)
    let landed ← rowsById rules "Firstmate returned an invalid backlog projection."
      "Firstmate returned a non-canonical backlog identity."
      "Firstmate returned a duplicate backlog identity." (structuredRows landed)
    let records := records ++ landed
    let ids := (records.map Prod.fst ++ tasks.map Prod.fst).eraseDups
    let (candidates, openDecisions) ← fleetCandidates rules tasks records 0 ids
    raiseIf (maxActivityFocusRecords < candidates.countP (·.recoverable))
      (.unavailable "Firstmate returned an oversized recoverable-focus projection.")
    return {
      observedAt := generated
      snapshotSha256 := rules.snapshotSha256 (snapshot.get "generated") candidates openDecisions
      records := candidates
      openDecisionKeys := openDecisions }
  | _, _, _, _ => .error (.unavailable "Firstmate returned an incomplete fleet snapshot.")

end Candidates

/-- A text that is what it is normalized to, and not empty. -/
def Canonical (rules : PublishRules) (text : String) : Prop :=
  rules.strip text = text ∧ text ≠ ""

/-- Every decision that candidates request is among identities, under its canonical names. -/
def DecisionsListed (rules : PublishRules) (candidates : List ActivityCandidate)
    (identities : List String) : Prop :=
  ∀ c ∈ candidates, c.fields.kind = "decision.requested" →
    ∃ taskId key, c.fields.taskId = some taskId ∧ c.fields.decisionKey = some key ∧
      Canonical rules taskId ∧ Canonical rules key ∧
      decisionIdentity (some taskId) (some key) ∈ identities

section Listed

variable {rules : FleetRules}

/-- A canonical text is the text of its value. -/
theorem canonicalText_eq_ok {value : Json} {maximum : ℕ} {message text : String}
    (h : canonicalText rules value maximum message = .ok text) : Canonical rules.publish text := by
  simp only [canonicalText, bind_eq_ok, raiseIf_eq_ok, exists_const, pure_eq_ok, not_or,
    not_not] at h
  obtain ⟨found, hfound, ⟨hsome, hvalue⟩, rfl⟩ := h
  cases value with
  | str raw =>
    simp only [unicodeScalarText, bind_eq_ok, raiseIf_eq_ok, exists_const, pure_eq_ok] at hfound
    obtain ⟨-, -, -, -, rfl⟩ := hfound
    split at hsome
    · exact absurd rfl hsome
    · next hne =>
      rw [if_neg hne] at hvalue ⊢
      have hraw : rules.publish.strip raw = raw := Option.some.inj hvalue
      rw [Option.getD_some, hraw]
      exact ⟨hraw, hraw ▸ hne⟩
  | _ =>
    simp only [unicodeScalarText, bind_eq_ok, raiseIf_eq_ok, exists_const] at hfound
    exact absurd trivial hfound.1

/-- Rows are found by canonical ids. -/
theorem rowsById_canonical {invalid noncanonical duplicate : String} {rows : List Json} :
    ∀ {found : List (String × Json)},
    rowsById rules invalid noncanonical duplicate rows = .ok found →
    ∀ id ∈ found.map Prod.fst, Canonical rules.publish id := by
  induction rows with
  | nil =>
    intro found h
    obtain rfl := Except.ok.inj h
    simp
  | cons row rows ih =>
    intro found h
    simp only [rowsById, bind_eq_ok, raiseIf_eq_ok, exists_const, pure_eq_ok] at h
    obtain ⟨-, id, hid, rest, hrest, -, rfl⟩ := h
    intro id' hmem
    rw [List.map_cons, List.mem_cons] at hmem
    rcases hmem with rfl | hmem
    · exact canonicalText_eq_ok hid
    · exact ih hrest id' hmem

/-- The activities of the open decisions of a task are listed under their identities. -/
theorem decisionCandidates_listed {t : FleetTask} {rows : List Json}
    (htask : Canonical rules.publish t.taskId) :
    ∀ {seen : List String} {found : List (ActivityCandidate × String)},
    decisionCandidates rules t seen rows = .ok found →
    DecisionsListed rules.publish (found.map Prod.fst) (found.map Prod.snd) := by
  induction rows with
  | nil =>
    intro seen found h
    obtain rfl := Except.ok.inj h
    intro c hc
    exact absurd hc List.not_mem_nil
  | cons row rows ih =>
    intro seen found h
    simp only [decisionCandidates, bind_eq_ok, raiseIf_eq_ok, exists_const, pure_eq_ok] at h
    obtain ⟨-, key, hkey, summary, -, -, -, rest, hrest, rfl⟩ := h
    intro c hc hkind
    rw [List.map_cons, List.mem_cons] at hc
    rcases hc with rfl | hc
    · exact ⟨t.taskId, key, rfl, rfl, htask, canonicalText_eq_ok hkey, List.mem_cons_self⟩
    · obtain ⟨taskId, key', htask', hkey', hcanonical, hcanonical', hmem⟩ := ih hrest c hc hkind
      exact ⟨taskId, key', htask', hkey', hcanonical, hcanonical', List.mem_cons_of_mem _ hmem⟩

/-- The activity of a task requests no decision. -/
theorem lifecycleCandidate_kind {t : FleetTask} {state : Option String}
    {found : List ActivityCandidate} (h : lifecycleCandidate rules t state = .ok found) :
    ∀ c ∈ found, c.fields.kind ≠ "decision.requested" := by
  cases state with
  | none =>
    obtain rfl := Except.ok.inj h
    simp
  | some state =>
    simp only [lifecycleCandidate, objectiveCandidate, bind_eq_ok, raiseIf_eq_ok, exists_const,
      pure_eq_ok] at h
    obtain ⟨candidate, ⟨-, -, occurredAt, -, refs, -, rfl⟩, rfl⟩ := h
    intro c hc
    rw [List.mem_singleton.mp hc]
    simp only [lifecycleKind]
    split <;> decide

/-- The decisions of the fleet are listed. -/
theorem fleetCandidates_listed {tasks records : List (String × Json)} {ids : List String} :
    ∀ {count : ℕ} {candidates : List ActivityCandidate} {identities : List String},
    (∀ id ∈ ids, Canonical rules.publish id) →
    fleetCandidates rules tasks records count ids = .ok (candidates, identities) →
    DecisionsListed rules.publish candidates identities := by
  induction ids with
  | nil =>
    intro count candidates identities _ h
    obtain ⟨rfl, rfl⟩ := Prod.mk.inj (Except.ok.inj h)
    intro c hc
    exact absurd hc List.not_mem_nil
  | cons taskId ids ih =>
    intro count candidates identities hids h
    simp only [fleetCandidates, bind_eq_ok, raiseIf_eq_ok, exists_const, pure_eq_ok,
      Prod.exists, Prod.mk.injEq] at h
    obtain ⟨t, ht, rows, -, -, decisions, hdecisions, state, -, objective, hobjective, rest, rest',
      hrest, rfl, rfl⟩ := h
    have htask : t.taskId = taskId := by
      simp only [fleetTask, bind_eq_ok, raiseIf_eq_ok, exists_const, pure_eq_ok] at ht
      obtain ⟨-, -, -, -, -, -, -, -, rfl⟩ := ht
      rfl
    have hcanonical : Canonical rules.publish t.taskId := htask ▸ hids taskId List.mem_cons_self
    intro c hc hkind
    rcases List.mem_append.mp hc with hc | hc
    · rcases List.mem_append.mp hc with hc | hc
      · obtain ⟨taskId', key, htask', hkey, hcanonical, hcanonical', hmem⟩ :=
          decisionCandidates_listed hcanonical hdecisions c hc hkind
        exact ⟨taskId', key, htask', hkey, hcanonical, hcanonical', List.mem_append_left _ hmem⟩
      · exact absurd hkind (lifecycleCandidate_kind hobjective c hc)
    · obtain ⟨taskId', key, htask', hkey, hcanonical, hcanonical', hmem⟩ :=
        ih (fun id hid => hids id (List.mem_cons_of_mem _ hid)) hrest c hc hkind
      exact ⟨taskId', key, htask', hkey, hcanonical, hcanonical', List.mem_append_right _ hmem⟩

/-- The decisions that a normalized snapshot requests are among its open keys. -/
theorem normalizeSnapshot_listed {raw : Json} {snapshot : ActivitySnapshot}
    (h : normalizeSnapshot rules raw = .ok snapshot) :
    DecisionsListed rules.publish snapshot.records snapshot.openDecisionKeys := by
  simp only [normalizeSnapshot, bind_eq_ok, raiseIf_eq_ok, exists_const] at h
  obtain ⟨-, -, -, h⟩ := h
  split at h
  · simp only [bind_eq_ok, raiseIf_eq_ok, exists_const, pure_eq_ok, Prod.exists] at h
    obtain ⟨-, -, tasks, htasks, records, hrecords, landed, hlanded, candidates, identities,
      hcandidates, -, rfl⟩ := h
    refine fleetCandidates_listed (fun id hid => ?_) hcandidates
    rw [List.mem_eraseDups, List.map_append, List.mem_append, List.mem_append] at hid
    rcases hid with (hid | hid) | hid
    · exact rowsById_canonical hrecords id hid
    · exact rowsById_canonical hlanded id hid
    · exact rowsById_canonical htasks id hid
  · cases h

end Listed

end Magistrate
