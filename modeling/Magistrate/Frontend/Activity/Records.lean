import Magistrate.Frontend.Chat.Records
import Magistrate.Gateway.Activity.Sensitive

/-!
# Activity records in the client

A decoded value is an activity record or nothing. The client repeats the checks of
the store, with the regular expressions and the decoding of its own language.
-/

namespace Magistrate.Frontend

/-- `CanonicalActivityRecord` -/
structure CanonicalActivityRecord where
  id : String
  sequence : ℤ
  deliverySequence : ℤ
  revision : ℤ
  kind : String
  state : String
  importance : String
  title : String
  summary : String
  summaryTruncated : Bool
  taskId : Option String
  decisionKey : Option String
  objectiveId : Option String
  runId : Option String
  project : Option String
  occurredAt : Option ℤ
  observedAt : ℤ
  refs : List ActivityRef
  sourceInstanceId : String
  sourceEventId : Option String
  deriving DecidableEq, Repr

/-- `KIND_STATES` -/
def kindStates : List (String × List String) :=
  [("objective.started", ["active"]), ("objective.progress", ["active", "awaiting-user"]),
    ("objective.accepted", ["active"]), ("worker.started", ["active"]),
    ("implementation.started", ["active"]), ("tests.started", ["active"]),
    ("tests.passed", ["completed"]), ("tests.failed", ["failed"]), ("review.started", ["active"]),
    ("decision.requested", ["awaiting-user"]), ("decision.resolved", ["resolved"]),
    ("objective.completed", ["completed"]), ("objective.failed", ["failed"]),
    ("objective.cancelled", ["cancelled"]), ("supervision.outcome", ["completed"]),
    ("primary.message", ["completed"]), ("primary.final", ["completed"]),
    ("worker.message", ["completed"]), ("worker.final", ["completed"])]

/-- `KINDS` -/
def activityKinds : List String :=
  ["objective.started", "objective.progress", "objective.accepted", "worker.started",
    "implementation.started", "tests.started", "tests.passed", "tests.failed", "review.started",
    "decision.requested", "decision.resolved", "objective.completed", "objective.failed",
    "objective.cancelled", "supervision.outcome", "primary.message", "primary.final",
    "worker.message", "worker.final"]

/-- `STATES` -/
def activityStates : List String :=
  ["active", "awaiting-user", "resolved", "completed", "failed", "cancelled"]

/-- `RECORD_KEYS` -/
def recordKeys : List String :=
  ["id", "sequence", "delivery_sequence", "revision", "kind", "state", "importance", "title",
    "summary", "summary_truncated", "task_id", "decision_key", "objective_id", "run_id", "project",
    "occurred_at", "observed_at", "refs", "source"]

/-- The classes of the client's language, without its Unicode mode: the two cases of a letter of
ASCII, and no other letter for one of them. -/
def clientFlavor : RegexFlavor where
  isSpace c := isTrimmed c
  isWord := isAsciiWord
  variants := asciiCases

/-- `ENV_ASSIGNMENT` -/
def envAssignment : Regex := RegexFlavor.preceded wordItems assignment

/-- The header of a private key. -/
def keyHeader : Regex :=
  .all [.lit "-----BEGIN ", .some_ [.range 'A' 'Z', .char ' '] 0 none, .lit "PRIVATE KEY-----"]

/-- `SENSITIVE_TEXT` -/
def sensitiveText : Regex := sensitivePattern keyHeader

/-- One test of `containsSensitiveText`. -/
def testSensitive (text : List Char) : Bool :=
  clientFlavor.search envAssignment text || clientFlavor.search sensitiveText text

/-- What a text expands to: decoded, or else its escapes one by one. -/
def expandText (text : List Char) : List Char :=
  (decodeURIComponent text).getD (decodeLatin text)

/-- `containsSensitiveText` -/
def containsSensitiveText (value : String) : Bool :=
  searchExpanded testSensitive expandText 3 value.toList

/-- A control character or a separator of lines or paragraphs. -/
def isControl (c : Char) : Bool :=
  decide (c.toNat < 32) || decide (127 ≤ c.toNat ∧ c.toNat ≤ 159) || decide (c.toNat = 0x2028) ||
    decide (c.toNat = 0x2029)

/-- `bounded` -/
def bounded (value : String) (maximum : ℕ) : Bool :=
  decide (value ≠ "" ∧ value.length ≤ maximum) && !value.toList.any isControl

/-- `optionalBounded` -/
def optionalBounded (maximum : ℕ) : Json → Option (Option String)
  | .null => some none
  | .str value => if bounded value maximum then some (some value) else none
  | _ => none

/-- `safeInteger` with a minimum. -/
def safeIntegerFrom (minimum : ℤ) (value : Json) : Option ℤ :=
  (safeInteger? value).filter (minimum ≤ ·)

/-- A time, which may be null. -/
def optionalTime : Json → Option (Option ℤ)
  | .null => some none
  | value => (safeIntegerFrom 0 value).map some

/-- `safeHttpsUrl` -/
def safeHttpsUrl (value : String) : Bool :=
  bounded value 2048 &&
    match partsOf '/' value.toList with
    | ['h', 't', 't', 'p', 's', ':'] :: [] :: host :: path =>
      if host = "github.com".toList then isPullRequest path
      else isForgeHost host && isMergeRequest path
    | _ => false

/-- One of the references of a record. -/
def normalizeRef (reference : Json) : Option ActivityRef :=
  if (reference.get "kind").str? = some "pull-request" ∧ reference.namesAre ["kind", "url"] then
    ((reference.get "url").str?.filter safeHttpsUrl).map .pullRequest
  else if (reference.get "kind").str? = some "report" ∧ reference.namesAre ["kind", "id"] then
    ((reference.get "id").str?.filter fun id => bounded id 200 && safeReportId id).map .report
  else none

/-- The members of a record that name what it is about fit its kind. -/
def CanonicalActivityRecord.validIdentity (record : CanonicalActivityRecord) : Bool :=
  let decisionKind := decide (record.kind ∈ decisionKinds)
  record.objectiveId.isSome &&
    (!decisionKind || (record.taskId.isSome && record.decisionKey.isSome)) &&
    (decisionKind || record.decisionKey.isNone) &&
    (if "primary.".toList.isPrefixOf record.kind.toList then record.taskId.isNone
      else record.taskId.isSome)

/-- The texts that are searched for credentials. -/
def CanonicalActivityRecord.texts (record : CanonicalActivityRecord) : List String :=
  [record.title, record.summary] ++ record.taskId.toList ++ record.decisionKey.toList ++
    record.objectiveId.toList ++ record.runId.toList ++ record.project.toList ++
    [record.sourceInstanceId] ++ record.sourceEventId.toList

/-- `normalizeCanonicalActivityRecord` -/
def normalizeCanonicalActivityRecord (raw : Json) : Option CanonicalActivityRecord := do
  guard (raw.namesAre recordKeys)
  let id ← (raw.get "id").str?.filter (bounded · 128)
  let sequence ← safeIntegerFrom 1 (raw.get "sequence")
  let deliverySequence ← safeIntegerFrom 1 (raw.get "delivery_sequence")
  let revision ← safeIntegerFrom 1 (raw.get "revision")
  let kind ← (raw.get "kind").str?.filter (· ∈ activityKinds)
  let state ← (raw.get "state").str?.filter fun state =>
    state ∈ activityStates ∧ (kindStates.lookup kind).any (state ∈ ·)
  let importance ← (raw.get "importance").str?.filter (· ∈ ["routine", "attention"])
  let title ← (raw.get "title").str?.filter (bounded · 240)
  let summary ← (raw.get "summary").str?.filter (bounded · 600)
  let summaryTruncated ← (raw.get "summary_truncated").bool?
  let taskId ← optionalBounded 200 (raw.get "task_id")
  let decisionKey ← optionalBounded 128 (raw.get "decision_key")
  let objectiveId ← optionalBounded 128 (raw.get "objective_id")
  let runId ← optionalBounded 128 (raw.get "run_id")
  let project ← optionalBounded 160 (raw.get "project")
  let occurredAt ← optionalTime (raw.get "occurred_at")
  let observedAt ← safeIntegerFrom 0 (raw.get "observed_at")
  let source := raw.get "source"
  guard (source.namesAre ["instance_id", "event_id"])
  let sourceInstanceId ← (source.get "instance_id").str?.filter (bounded · 128)
  let sourceEventId ← optionalBounded 200 (source.get "event_id")
  let references ← (raw.get "refs").arr?.filter (·.length ≤ 8)
  let refs ← references.mapM normalizeRef
  let record : CanonicalActivityRecord :=
    { id, sequence, deliverySequence, revision, kind, state, importance, title, summary
      summaryTruncated, taskId, decisionKey, objectiveId, runId, project, occurredAt, observedAt
      refs, sourceInstanceId, sourceEventId }
  guard (record.validIdentity ∧ ∀ text ∈ record.texts, containsSensitiveText text = false)
  return record

end Magistrate.Frontend
