import Magistrate.Frontend.Activity.Records
import Magistrate.Frontend.Chat.MagiConversation
import Mathlib.Data.List.Sort

/-!
# The activity of a principal in the client

The client holds records by their ids, with the number of the last change that it
has taken in. A page of changes continues at that number and may repeat changes; a
snapshot brings the records as they are, with those in focus. What does not fit
the records that are held is refused as a whole.
-/

namespace Magistrate.Frontend

/-- `CanonicalActivitySummary` -/
structure CanonicalActivitySummary where
  activeObjectives : ℤ
  operationCount : ℤ
  pendingDecisions : ℤ
  deriving DecidableEq, Repr

/-- `EMPTY_SUMMARY` -/
def emptySummary : CanonicalActivitySummary := ⟨0, 0, 0⟩

/-- `ACTIVITY_SCHEMA` -/
def activitySchema : String := "activity.v1"

/-- `MAX_RECENT_ACTIVITY_RECORDS` -/
def maxRecentActivityRecords : ℕ := 400

/-- `MAX_FOCUS_RECORDS` -/
def maxFocusRecords : ℕ := 5000

/-- The most records of a page. -/
def maxPageRecords : ℕ := 200

/-- What the client holds for its principal. -/
structure CanonicalActivity where
  records : Table CanonicalActivityRecord.id
  deliveryCursor : ℤ
  summaryCursor : ℤ
  summary : CanonicalActivitySummary
  summaryAuthoritative : Bool
  snapshotBaseline : Bool

/-- `setCanonicalActivityPrincipal`: nothing is held for a new principal. -/
def CanonicalActivity.initial : CanonicalActivity where
  records := .empty
  deliveryCursor := 0
  summaryCursor := 0
  summary := emptySummary
  summaryAuthoritative := false
  snapshotBaseline := false

/-- `kindFamily` -/
def kindFamily (kind : String) : String :=
  if "objective.".toList.isPrefixOf kind.toList then "objective"
  else if "decision.".toList.isPrefixOf kind.toList then "decision"
  else kind

namespace CanonicalActivityRecord

/-- `stableIdentityMatches` -/
def stableIdentityMatches (previous activity : CanonicalActivityRecord) : Bool :=
  decide (previous.sequence = activity.sequence) &&
    decide (kindFamily previous.kind = kindFamily activity.kind) &&
    decide (previous.taskId = activity.taskId) &&
    decide (previous.decisionKey = activity.decisionKey) &&
    decide (previous.objectiveId = activity.objectiveId) &&
    decide (previous.sourceInstanceId = activity.sourceInstanceId) &&
    decide (previous.sourceEventId = activity.sourceEventId)

/-- The record under another delivery number. -/
def withDelivery (activity : CanonicalActivityRecord) (deliverySequence : ℤ) :
    CanonicalActivityRecord :=
  { activity with deliverySequence }

/-- `sameRevisionContent` -/
def sameRevisionContent (previous activity : CanonicalActivityRecord) : Bool :=
  decide (previous.withDelivery 0 = activity.withDelivery 0)

/-- `isFocusRecord` -/
def isFocusRecord (activity : CanonicalActivityRecord) : Bool :=
  decide (activity.kind ∈
      ["objective.started", "objective.progress", "objective.accepted", "decision.requested"]) &&
    decide (activity.state ∈ ["active", "awaiting-user"])

/-- The record is of the end of an objective. -/
def isTerminal (activity : CanonicalActivityRecord) : Bool :=
  decide (activity.kind ∈ ["objective.completed", "objective.failed", "objective.cancelled"])

/-- `isEffectiveFocusRecord` -/
def isEffectiveFocusRecord (terminalIds : List String)
    (activity : CanonicalActivityRecord) : Bool :=
  activity.isFocusRecord &&
    !("objective.".toList.isPrefixOf activity.kind.toList &&
      (given activity.objectiveId).any (· ∈ terminalIds))

end CanonicalActivityRecord

open CanonicalActivityRecord

/-- `terminalObjectiveIds` -/
def terminalObjectiveIds (activities : List CanonicalActivityRecord) : List String :=
  (activities.filter isTerminal).filterMap fun activity => given activity.objectiveId

/-- Records in the order of their sequences. -/
def sortedRecords (activities : List CanonicalActivityRecord) : List CanonicalActivityRecord :=
  activities.insertionSort fun left right => left.sequence ≤ right.sequence

/-- The effective focus records among rows. -/
def focusOf (rows : List CanonicalActivityRecord) : List CanonicalActivityRecord :=
  (sortedRecords rows).filter (isEffectiveFocusRecord (terminalObjectiveIds (sortedRecords rows)))

/-- The latest changed rows that are not in focus. -/
def recentOf (rows : List CanonicalActivityRecord) : List CanonicalActivityRecord :=
  (((sortedRecords rows).filter fun activity =>
      decide (activity.id ∉ (focusOf rows).map (·.id))).insertionSort
    fun left right => right.deliverySequence ≤ left.deliverySequence).take maxRecentActivityRecords

/-- `retainedRecords` -/
def retainedRecords (source : Table CanonicalActivityRecord.id) :
    Option (List CanonicalActivityRecord) :=
  if maxFocusRecords < (focusOf source.rows).length then none
  else some (sortedRecords (focusOf source.rows ++ recentOf source.rows))

/-- The members of a summary. -/
def wireSummary? (raw : Json) : Option CanonicalActivitySummary := do
  let activeObjectives ← safeIntegerFrom 0 (raw.get "active_objectives")
  let operationCount ← safeIntegerFrom 0 (raw.get "operation_count")
  let pendingDecisions ← safeIntegerFrom 0 (raw.get "pending_decisions")
  return { activeObjectives, operationCount, pendingDecisions }

/-- A summary that may be missing. -/
def optionalSummary? : Json → Option (Option CanonicalActivitySummary)
  | .null => some none
  | raw => (wireSummary? raw).map some

/-- Each row has the delivery number after that of the row before it. -/
def contiguous : List CanonicalActivityRecord → Bool
  | first :: second :: rest =>
    decide (second.deliverySequence = first.deliverySequence + 1) && contiguous (second :: rest)
  | _ => true

section Merging

/-- A row that was delivered before: it may bring a later revision of a row that is held. -/
def mergeSeen (baseline : Bool) (staged : Table CanonicalActivityRecord.id)
    (activity : CanonicalActivityRecord) : Option (Table CanonicalActivityRecord.id) :=
  match staged.find? activity.id with
  | none => if baseline then some staged else none
  | some previous =>
    if previous.stableIdentityMatches activity = false then none
    else if activity.revision = previous.revision then
      if previous.sameRevisionContent activity then some staged else none
    else if previous.revision < activity.revision then
      some (staged.put (activity.withDelivery previous.deliverySequence))
    else some staged

/-- A row that was not delivered before: it takes the place of the row that is held. -/
def mergeUnseen (staged : Table CanonicalActivityRecord.id) (activity : CanonicalActivityRecord) :
    Option (Table CanonicalActivityRecord.id) :=
  match staged.find? activity.id with
  | none => some (staged.put activity)
  | some previous =>
    if previous.stableIdentityMatches activity = false ∨ activity.revision < previous.revision then
      none
    else if activity.revision = previous.revision ∧
        previous.sameRevisionContent activity = false then none
    else some (staged.put activity)

/-- A row of a snapshot: it takes the place of the row that is held, unless that is later. -/
def mergeSnapshot (snapshotCursor : ℤ) (staged : Table CanonicalActivityRecord.id)
    (activity : CanonicalActivityRecord) : Option (Table CanonicalActivityRecord.id) :=
  if snapshotCursor < activity.deliverySequence then none
  else
    match staged.find? activity.id with
    | none => some (staged.put activity)
    | some previous =>
      if previous.stableIdentityMatches activity = false then none
      else if activity.revision < previous.revision then some staged
      else if activity.revision = previous.revision then
        if previous.sameRevisionContent activity = false then none
        else some (staged.put
          (previous.withDelivery (max previous.deliverySequence activity.deliverySequence)))
      else some (staged.put activity)

end Merging

/-- `replaceRecords` -/
def replaceRecords (source : Table CanonicalActivityRecord.id) :
    Option (Table CanonicalActivityRecord.id) :=
  (retainedRecords source).map Table.ofList

namespace CanonicalActivity

/-- What is held after a page of which the retained records are given. -/
def afterPage (records : Table CanonicalActivityRecord.id) (nextCursor latestCursor : ℤ)
    (summary : Option CanonicalActivitySummary) (store : CanonicalActivity) : CanonicalActivity :=
  let renewed := decide (store.summaryCursor ≤ latestCursor)
  { records
    deliveryCursor := max store.deliveryCursor nextCursor
    summaryCursor := if summary.isSome && renewed then latestCursor else store.summaryCursor
    summary := if renewed then summary.getD store.summary else store.summary
    summaryAuthoritative :=
      if summary.isSome && renewed then true
      else if summary.isNone && decide (store.summaryCursor < nextCursor) then false
      else store.summaryAuthoritative
    snapshotBaseline := store.snapshotBaseline }

/-- What is held after the rows of a page, unless they are refused. -/
def takePage (delivered : List CanonicalActivityRecord) (nextCursor latestCursor : ℤ)
    (summary : Option CanonicalActivitySummary) (store : CanonicalActivity) :
    Option CanonicalActivity := do
  guard (contiguous delivered)
  guard (delivered.getLast?.all (·.deliverySequence = nextCursor))
  let unseen := delivered.filter (store.deliveryCursor < ·.deliverySequence)
  guard (unseen.head?.all (·.deliverySequence = store.deliveryCursor + 1))
  guard (unseen = [] → nextCursor ≤ store.deliveryCursor)
  let staged ← (delivered.filter (·.deliverySequence ≤ store.deliveryCursor)).foldlM
    (mergeSeen store.snapshotBaseline) store.records
  let staged ← unseen.foldlM mergeUnseen staged
  guard (staged.rows.map (·.sequence)).Nodup
  let records ← replaceRecords staged
  return store.afterPage records nextCursor latestCursor summary

/-- `ingestCanonicalActivityPage`: what the client holds after a page, unless it refuses it. -/
def ingestPage (raw : Json) (store : CanonicalActivity) : Option CanonicalActivity := do
  guard ((raw.get "schema_version").str? = some activitySchema)
  let rows ← (raw.get "records").arr?.filter (·.length ≤ maxPageRecords)
  let _ ← (raw.get "has_more").bool?
  let nextCursor ← safeIntegerFrom 0 (raw.get "next_cursor")
  let latestCursor ← safeIntegerFrom 0 (raw.get "latest_cursor")
  guard (nextCursor ≤ latestCursor)
  let summary ← optionalSummary? (raw.get "summary")
  let delivered ← rows.mapM normalizeCanonicalActivityRecord
  store.takePage delivered nextCursor latestCursor summary

end CanonicalActivity

/-- `CanonicalActivitySnapshotPage` -/
structure CanonicalActivitySnapshotPage where
  nextBefore : Option ℤ
  nextLimit : Option ℕ
  hasMore : Bool
  snapshotCursor : ℤ
  addedHistoryRecords : ℕ
  deriving DecidableEq, Repr

/-- A cursor that may be missing. -/
def optionalCursor? : Json → Option (Option ℤ)
  | .null => some none
  | raw => (safeIntegerFrom 1 raw).map some

namespace CanonicalActivity

/-- The rows that a snapshot leaves: one that is not older than the cursor removes the focus records
that it does not have. -/
def pruned (snapshotCursor : ℤ) (delivered : List CanonicalActivityRecord)
    (store : CanonicalActivity) : Table CanonicalActivityRecord.id :=
  if store.deliveryCursor ≤ snapshotCursor then
    store.records.filter fun activity =>
      !(activity.isFocusRecord && decide (activity.id ∉ delivered.map (·.id)))
  else store.records

/-- How the client goes on paging after a snapshot of which the retained records are given. -/
def pageAfter (pageRecords retained : List CanonicalActivityRecord) (snapshotCursor : ℤ)
    (nextBefore : Option ℤ) (hasMore : Bool) (store : CanonicalActivity) :
    CanonicalActivitySnapshotPage :=
  let heldHistory := store.records.rows.filter
    (!isEffectiveFocusRecord (terminalObjectiveIds store.records.rows) ·)
  let terminalIds := terminalObjectiveIds retained
  let remaining := maxRecentActivityRecords -
    (retained.filter (!isEffectiveFocusRecord terminalIds ·)).length
  let canLoadAnotherPage := hasMore && !pageRecords.isEmpty && decide (0 < remaining)
  { nextBefore := if canLoadAnotherPage then nextBefore else none
    nextLimit := if canLoadAnotherPage then some (min pageRecords.length remaining) else none
    hasMore := canLoadAnotherPage
    snapshotCursor
    addedHistoryRecords := pageRecords.countP fun activity =>
      !isEffectiveFocusRecord terminalIds activity &&
        decide (activity.id ∈ retained.map (·.id)) &&
        decide (activity.id ∉ heldHistory.map (·.id)) }

/-- What is held after a snapshot of which the retained records are given. -/
def afterSnapshot (retained : List CanonicalActivityRecord) (snapshotCursor : ℤ)
    (summary : CanonicalActivitySummary) (store : CanonicalActivity) : CanonicalActivity :=
  let renewed := decide (store.summaryCursor ≤ snapshotCursor)
  { records := Table.ofList retained
    deliveryCursor := max store.deliveryCursor snapshotCursor
    summaryCursor := if renewed then snapshotCursor else store.summaryCursor
    summary := if renewed then summary else store.summary
    summaryAuthoritative := renewed || store.summaryAuthoritative
    snapshotBaseline := true }

/-- What is held after the rows of a snapshot, with the rows that were retained, unless they are
refused. -/
def takeSnapshot (pageRecords focusRecords : List CanonicalActivityRecord) (snapshotCursor : ℤ)
    (summary : CanonicalActivitySummary) (requireCompletePage : Bool) (store : CanonicalActivity) :
    Option (List CanonicalActivityRecord × CanonicalActivity) := do
  guard (requireCompletePage = true → snapshotCursor ≤ store.deliveryCursor)
  let delivered := pageRecords ++ focusRecords
  let staged ← delivered.foldlM (mergeSnapshot snapshotCursor)
    (store.pruned snapshotCursor delivered)
  guard (staged.rows.map (·.sequence)).Nodup
  let retained ← retainedRecords staged
  guard (requireCompletePage = true → ∀ activity ∈ pageRecords,
    activity.id ∈ retained.map (·.id))
  return (retained, store.afterSnapshot retained snapshotCursor summary)

/-- `ingestCanonicalActivitySnapshot`: what the client holds after a snapshot and how it goes on
paging, unless it refuses it. -/
def ingestSnapshot (raw : Json) (requireCompletePage : Bool) (store : CanonicalActivity) :
    Option (CanonicalActivitySnapshotPage × CanonicalActivity) := do
  guard ((raw.get "schema_version").str? = some activitySchema)
  let rows ← (raw.get "records").arr?.filter (·.length ≤ maxPageRecords)
  let focusRows ← (raw.get "focus_records").arr?.filter (·.length ≤ maxFocusRecords)
  guard ((raw.get "focus_truncated").bool? = some false)
  let snapshotCursor ← safeIntegerFrom 0 (raw.get "snapshot_cursor")
  let _ ← safeIntegerFrom 0 (raw.get "latest_sequence")
  let nextBefore ← optionalCursor? (raw.get "next_before")
  let hasMore ← (raw.get "has_more").bool?
  guard (hasMore = true → nextBefore.isSome)
  let summary ← wireSummary? (raw.get "summary")
  let pageRecords ← rows.mapM normalizeCanonicalActivityRecord
  let focusRecords ← focusRows.mapM normalizeCanonicalActivityRecord
  let taken ← store.takeSnapshot pageRecords focusRecords snapshotCursor summary requireCompletePage
  return (store.pageAfter pageRecords taken.1 snapshotCursor nextBefore hasMore, taken.2)

end CanonicalActivity

end Magistrate.Frontend
