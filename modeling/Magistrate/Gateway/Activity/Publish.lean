import Mathlib.Data.List.Infix
import Magistrate.Gateway.Activity.Sources
import Magistrate.Gateway.Execution.Ingest

/-!
# Published activity

An activity is checked and then written to the log: as a new record, as a new
revision of its record, or not at all when the record has its fields already.
Every write of a record comes with one numbered change.
-/

namespace Magistrate

section References

/-- The parts of a text between separators. -/
def partsOf (separator : Char) : List Char → List (List Char)
  | [] => [[]]
  | c :: cs =>
    if c = separator then [] :: partsOf separator cs
    else match partsOf separator cs with
      | [] => [[c]]
      | first :: rest => (c :: first) :: rest

/-- A positive decimal number without leading zeros. -/
def isNumber : List Char → Bool
  | [] => false
  | c :: cs => c.isDigit ∧ c ≠ '0' ∧ cs.all (·.isDigit)

/-- The account of a repository. -/
def isOwner (owner : List Char) : Bool :=
  owner.length ≤ 39 ∧ owner.head?.any (·.isAlphanum) ∧ owner.getLast?.any (·.isAlphanum) ∧
    owner.all (fun c => c.isAlphanum ∨ c = '-') ∧ ¬['-', '-'] <:+: owner

/-- The name of a repository. -/
def isRepository (name : List Char) : Bool :=
  0 < name.length ∧ name.length ≤ 100 ∧
    name.all (fun c => c.isAlphanum ∨ c = '.' ∨ c = '_' ∨ c = '-') ∧
    name ≠ ['.'] ∧ name ≠ ['.', '.']

/-- The host of a forge that is not the public one. -/
def isForgeHost (host : List Char) : Bool :=
  host.length ≤ 253 ∧ host ≠ "github.com".toList ∧
    (partsOf '.' host).all fun label =>
      0 < label.length ∧ label.length ≤ 63 ∧ label.head? ≠ some '-' ∧ label.getLast? ≠ some '-' ∧
        label.all fun c => c.isLower ∨ c.isDigit ∨ c = '-'

/-- A part of the path of a project. -/
def isProjectSegment (segment : List Char) : Bool :=
  0 < segment.length ∧ segment.length ≤ 255 ∧
    segment.all (fun c => c.isAlphanum ∨ c = '.' ∨ c = '_' ∨ c = '-') ∧
    segment ≠ ['.'] ∧ segment ≠ ['.', '.'] ∧ segment.head? ≠ some '-' ∧
    ¬".git".toList <:+ segment ∧ ¬".atom".toList <:+ segment

/-- The path of a pull request on the public forge. -/
def isPullRequest : List (List Char) → Bool
  | [owner, repository, pull, number] =>
    isOwner owner ∧ isRepository repository ∧ pull = "pull".toList ∧ isNumber number
  | _ => false

/-- The path of a merge request on another forge, of whose project the path has a bounded length. -/
def isMergeRequest (path : List (List Char)) : Bool :=
  let project := path.dropLast.dropLast.dropLast
  2 ≤ project.length ∧ project.length ≤ 20 ∧ project.all isProjectSegment ∧
    (project.map (·.length)).sum + project.length ≤ 1025 ∧
    path.dropLast = project ++ [['-'], "merge_requests".toList] ∧ path.getLast?.any isNumber

/-- `safe_pull_request_url` -/
def safePullRequestUrl (url : String) : Bool :=
  url.length ≤ 2048 &&
    match partsOf '/' url.toList with
    | ['h', 't', 't', 'p', 's', ':'] :: [] :: host :: path =>
      if host = "github.com".toList then isPullRequest path
      else isForgeHost host && isMergeRequest path
    | _ => false

/-- The id of a report. -/
def safeReportId (id : String) : Bool :=
  match id.toList with
  | [] => false
  | c :: cs => c.isAlphanum ∧ cs.length ≤ 199 ∧
      cs.all fun c => c.isAlphanum ∨ c = '.' ∨ c = '_' ∨ c = ':' ∨ c = '-'

/-- The references of the public allowlist. -/
def ActivityRef.safe : ActivityRef → Bool
  | .pullRequest url => safePullRequestUrl url
  | .report id => safeReportId id

/-- `_decode_refs` -/
def decodeRefs (refs : List ActivityRef) : List ActivityRef := (refs.take 8).filter (·.safe)

end References

/-- `_SAFE_HASH` -/
def isSafeHash (hash : String) : Bool :=
  hash.toList.length = 64 ∧ hash.toList.all fun c => c.isDigit ∨ 'a' ≤ c ∧ c ≤ 'f'

/-- What the activity store computes from texts: control characters, surrounding blanks, what
resembles credentials, and ids of records. -/
structure PublishRules where
  hasControls : String → Bool
  strip : String → String
  sensitive : String → Bool
  recordId : String → String → String → String

/-- `_ACTIVITY_KIND_STATES` -/
def activityKindStates : List (String × List String) :=
  [("objective.started", ["active"]), ("objective.progress", ["active", "awaiting-user"]),
    ("objective.accepted", ["active"]), ("worker.started", ["active"]),
    ("implementation.started", ["active"]), ("tests.started", ["active"]),
    ("tests.passed", ["completed"]), ("tests.failed", ["failed"]), ("review.started", ["active"]),
    ("decision.requested", ["awaiting-user"]), ("decision.resolved", ["resolved"]),
    ("objective.completed", ["completed"]), ("objective.failed", ["failed"]),
    ("objective.cancelled", ["cancelled"]), ("supervision.outcome", ["completed"]),
    ("primary.message", ["completed"]), ("primary.final", ["completed"]),
    ("worker.message", ["completed"]), ("worker.final", ["completed"])]

/-- `ACTIVITY_IMPORTANCE` -/
def activityImportance : List String := ["routine", "attention"]

/-- `MAX_ACTIVITY_TITLE_CHARS` -/
def maxActivityTitleChars : ℕ := 240

/-- `MAX_ACTIVITY_SUMMARY_CHARS` -/
def maxActivitySummaryChars : ℕ := 600

/-- The kinds of the activity of the primary. -/
def primaryKinds : List String := ["primary.message", "primary.final"]

/-- The kinds of the activity of a decision. -/
def decisionKinds : List String := ["decision.requested", "decision.resolved"]

namespace PublishRules

variable (rules : PublishRules)

/-- An identity of a bounded number of characters, none of which is a control. -/
def bounded (text : String) (maximum : ℕ) : Bool :=
  text ≠ "" ∧ text.length ≤ maximum ∧ rules.hasControls text = false

/-- `_bounded_text` -/
def boundedText (text : String) (maximum : ℕ) : Except ExecutionFailure String := do
  raiseIf (rules.hasControls text = true ∨ maximum < text.length ∨
    maximum < (rules.strip text).length) (.valueError "A bounded text value is required.")
  return rules.strip text

/-- `_bounded_text` of a required text. -/
def requiredText (text : String) (maximum : ℕ) : Except ExecutionFailure String := do
  let text ← rules.boundedText text maximum
  raiseIf (text = "") (.valueError "A bounded text value is required.")
  return text

/-- `_bounded_text` of a text that may be absent or empty. -/
def optionalText (text : Option String) (maximum : ℕ) :
    Except ExecutionFailure (Option String) :=
  match text with
  | none => .ok none
  | some text => do
    let text ← rules.boundedText text maximum
    return if text = "" then none else some text

/-- A required text where one is given. -/
def givenText (text : Option String) (maximum : ℕ) : Except ExecutionFailure (Option String) :=
  match text with
  | none => .ok none
  | some text => do
    let text ← rules.requiredText text maximum
    return some text

/-- The checks of `_upsert_activity` on what is published: the fields as they are stored. -/
def normalized (source : String) (fields : ActivityFields) :
    Except ExecutionFailure ActivityFields := do
  raiseIf (fields.importance ∉ activityImportance ∨
      ¬(activityKindStates.lookup fields.kind).any (fields.state ∈ ·))
    (.valueError "Unknown activity kind, state, or importance.")
  let title ← rules.requiredText fields.title maxActivityTitleChars
  let summary ← rules.requiredText fields.summary maxActivitySummaryChars
  let taskId ← rules.optionalText fields.taskId 200
  let decisionKey ← rules.optionalText fields.decisionKey 128
  let objectiveId ← rules.optionalText fields.objectiveId 128
  let runId ← rules.optionalText fields.runId 128
  let project ← rules.optionalText fields.project 160
  raiseIf (objectiveId = none ∨
      fields.kind ∈ decisionKinds ∧ (taskId = none ∨ decisionKey = none) ∨
      fields.kind ∉ decisionKinds ∧ decisionKey ≠ none ∨
      fields.kind ∈ primaryKinds ∧ taskId ≠ none ∨ fields.kind ∉ primaryKinds ∧ taskId = none)
    (.valueError "Activity causal identity does not match its semantic kind.")
  let sourceEventId ← rules.givenText fields.sourceEventId 200
  raiseIf (∃ text ∈ [title, summary, taskId.getD "", decisionKey.getD "", objectiveId.getD "",
      runId.getD "", project.getD "", source, sourceEventId.getD ""], rules.sensitive text = true)
    (.valueError "Activity public fields resemble credential material.")
  raiseIf (fields.occurredAt.any (maxSafeInteger < ·))
    (.valueError "Activity occurred_at must be epoch milliseconds or null.")
  raiseIf (isSafeHash fields.sourcePayloadSha256 = false)
    (.valueError "A canonical SHA-256 payload hash is required.")
  raiseIf (8 < fields.refs.length ∨ decodeRefs fields.refs ≠ fields.refs)
    (.valueError "Activity references are not in the closed allowlist.")
  return { fields with
    title, summary, taskId, decisionKey, objectiveId, runId, project, sourceEventId }

end PublishRules

namespace ActivityLog

/-- The writes of `_upsert_activity`: a new record, a new revision of the record under a key, or
nothing when it has the fields. -/
def write (recordId : String → String → String → String) (user source recordKey : String)
    (fields : ActivityFields) (observedAt now : ℤ) (log : ActivityLog) :
    Except ExecutionFailure (ActivityRecord × ActivityLog) := do
  match log.recordOf user source recordKey with
  | some existing =>
    if existing.fields = fields then return (existing, log)
    let updated : ActivityRecord :=
      { existing with
        revision := existing.revision + 1
        fields
        observedAt
        updatedAt := now }
    let records := log.records.update existing.id fun r =>
      { r with
        revision := r.revision + 1
        fields
        observedAt
        updatedAt := now }
    let log ← ActivityLog.recordChange { log with records } updated now
    return (updated, log)
  | none =>
    let inserted : ActivityRecord :=
      { id := recordId user source recordKey
        userId := user
        sourceInstanceId := source
        recordKey
        sequenceIndex := log.nextSequence user
        revision := 1
        fields
        observedAt
        createdAt := now
        updatedAt := now }
    raiseIf (log.records.find? inserted.id ≠ none) .integrityError
    let log ← ActivityLog.recordChange
      { log with records := log.records.insertOrIgnore inserted } inserted now
    return (inserted, log)

/-- `_upsert_activity` -/
def publish (rules : PublishRules) (user source recordKey : String) (fields : ActivityFields)
    (observedAt : Option ℕ) (now : ℕ) (log : ActivityLog) :
    Except ExecutionFailure (ActivityRecord × ActivityLog) := do
  raiseIf (rules.bounded user 128 = false) (.valueError "A bounded tenant identity is required.")
  raiseIf (rules.bounded source 128 = false) (.valueError "A bounded source instance is required.")
  raiseIf (rules.bounded recordKey 300 = false)
    (.valueError "A bounded activity identity is required.")
  let fields ← rules.normalized source fields
  raiseIf (maxSafeInteger < observedAt.getD now)
    (.valueError "Activity observed_at must be epoch milliseconds.")
  log.write rules.recordId user source recordKey fields (observedAt.getD now) now

/-- An execution event is published by the same writes, with the time of its ingest. -/
theorem upsert_eq (rules : ActivityRules) (user source recordKey : String)
    (fields : ActivityFields) (now : ℤ) (log : ActivityLog) :
    log.upsert rules user source recordKey fields now = (do
      raiseIf (rules.publishable fields = false) (.valueError "activity")
      log.write rules.recordId user source recordKey fields now now) := rfl

end ActivityLog

end Magistrate
