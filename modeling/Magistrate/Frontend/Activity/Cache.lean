import Magistrate.Frontend.Activity.Retention
import Magistrate.Frontend.Activity.Wire

/-!
# The activity cache

What the client holds is stored as a payload of its principal. When the principal is
set again the payload is read back: every record is checked anew, and a payload that
does not fit is refused as a whole.
-/

namespace Magistrate.Frontend

/-- `CACHE_SCHEMA` -/
def cacheSchema : String := "activity-cache.v1"

/-- `MAX_ACTIVITY_RECORDS` -/
def maxActivityRecords : ℕ := maxFocusRecords + maxRecentActivityRecords

/-- A summary as the client stores it. -/
def CanonicalActivitySummary.toWire (s : CanonicalActivitySummary) : Json :=
  .obj [("active_objectives", .int s.activeObjectives), ("operation_count", .int s.operationCount),
    ("pending_decisions", .int s.pendingDecisions)]

namespace CanonicalActivity

/-- The payload of `persist`. -/
def payload (owner : String) (store : CanonicalActivity) : Json :=
  .obj [("schema_version", .str cacheSchema), ("principal", .str owner),
    ("cursor", .int store.deliveryCursor), ("summary_cursor", .int store.summaryCursor),
    ("summary_authoritative", .bool store.summaryAuthoritative),
    ("summary", store.summary.toWire),
    ("records", .arr ((sortedRecords store.records.rows).map CanonicalActivityRecord.toWireRecord))]

/-- What `hydrateCanonicalActivity` restores from a payload, unless it throws. -/
def restore (owner : String) (payload : Json) : Option CanonicalActivity := do
  guard ((payload.get "schema_version").str? = some cacheSchema)
  guard ((payload.get "principal").str? = some owner)
  let deliveryCursor ← safeIntegerFrom 0 (payload.get "cursor")
  let summaryCursor ← safeIntegerFrom 0 (payload.get "summary_cursor")
  let summaryAuthoritative ← (payload.get "summary_authoritative").bool?
  let rows ← (payload.get "records").arr?.filter (·.length ≤ maxActivityRecords)
  let summary ← wireSummary? (payload.get "summary")
  let normalized ← rows.mapM normalizeCanonicalActivityRecord
  guard (∀ activity ∈ normalized, activity.deliverySequence ≤ deliveryCursor)
  guard (normalized.map (·.id)).Nodup
  guard (normalized.map (·.sequence)).Nodup
  let records ← replaceRecords (Table.ofList normalized)
  return { records, deliveryCursor, summaryCursor, summary, summaryAuthoritative
           snapshotBaseline := true }

end CanonicalActivity

/-- `CanonicalActivityRecoveryState` -/
inductive CanonicalActivityRecoveryState where
  | idle
  | hydrating
  | recovering
  | fresh
  | observabilityInterrupted
  deriving DecidableEq, Repr

/-- The activity of the client: whose it is, what is held and how it was recovered. -/
structure ActivityClient where
  principalId : Option String
  activity : CanonicalActivity
  recoveryState : CanonicalActivityRecoveryState
  restoredFromCache : Bool

namespace ActivityClient

/-- A client before a principal is set. -/
def initial : ActivityClient where
  principalId := none
  activity := .initial
  recoveryState := .idle
  restoredFromCache := false

/-- `setCanonicalActivityPrincipal` -/
def setPrincipal (principal : Option String) (client : ActivityClient) : ActivityClient :=
  let nextPrincipal := principal.filter (bounded · 128)
  if client.principalId = nextPrincipal then client
  else
    { principalId := nextPrincipal
      activity := .initial
      recoveryState := if nextPrincipal.isSome then .hydrating else .idle
      restoredFromCache := false }

/-- `hydrateCanonicalActivity` of a principal, with the payload that is stored for it: whether it is
accepted, and the client after it. -/
def hydrate (owner : String) (stored : Option Json) (client : ActivityClient) :
    Bool × ActivityClient :=
  if client.principalId = some owner then
    match stored.bind (CanonicalActivity.restore owner) with
    | some activity =>
      (true, { client with activity, restoredFromCache := true, recoveryState := .recovering })
    | none => (false, { client with recoveryState := .recovering })
  else (false, client)

/-- A page or a snapshot is taken in for a principal, unless it is refused. -/
def ingest (take : CanonicalActivity → Option CanonicalActivity) (client : ActivityClient) :
    ActivityClient :=
  if client.principalId.isSome then
    { client with activity := (take client.activity).getD client.activity }
  else client

/-- `markCanonicalActivityRecovering`, `markCanonicalActivityFresh` and
`markCanonicalActivityInterrupted` -/
def mark (state : CanonicalActivityRecoveryState) (client : ActivityClient) : ActivityClient :=
  if client.principalId = none ∨ client.recoveryState = state then client
  else
    { client with
      recoveryState := state
      restoredFromCache := if state = .fresh then false else client.restoredFromCache }

end ActivityClient

/-- What the client can be called for. What is stored may be any payload. -/
inductive ActivityClientStep where
  | setPrincipal (principal : Option String)
  | hydrate (owner : String) (stored : Option Json)
  | ingestPage (raw : Json)
  | ingestSnapshot (raw : Json) (requireCompletePage : Bool)
  | markRecovering
  | markFresh
  | markInterrupted

/-- One call of the client. -/
def activityClientStep (client : ActivityClient) : ActivityClientStep → ActivityClient
  | .setPrincipal principal => client.setPrincipal principal
  | .hydrate owner stored => (client.hydrate owner stored).2
  | .ingestPage raw => client.ingest (·.ingestPage raw)
  | .ingestSnapshot raw requireCompletePage =>
    client.ingest fun activity => (activity.ingestSnapshot raw requireCompletePage).map Prod.snd
  | .markRecovering => client.mark .recovering
  | .markFresh => client.mark .fresh
  | .markInterrupted => client.mark .observabilityInterrupted

end Magistrate.Frontend
