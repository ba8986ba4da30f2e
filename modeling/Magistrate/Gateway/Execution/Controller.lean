import Magistrate.Gateway.Billing.Hold
import Magistrate.Gateway.Execution.Hosted
import Magistrate.Gateway.Execution.Cancellation

/-!
# Hosted controllers

Controllers launch the runs that they claim and reconcile the runs that are
cancelled, active or over, and the execution service stores an event and settles
its objective in a later transaction. Every transaction is a turn of its own, so
controllers, sources and cancellations interleave, and each can stop or meet an
error between any two turns.
-/

namespace Magistrate

open HostedExecutionStore

/-- A running run as a pass reads it, with the end of its objective. -/
structure ActiveRun where
  run : HostedRun
  terminalPhase : Option ExecutionPhase
  cancellationRequested : Bool
  deriving DecidableEq

namespace HostedExecutionStore

/-- `queued_cancellations` -/
def queuedCancellations (db : Execution) : List HostedRun :=
  ((db.runs.rows.filter fun r => r.state = .queued ∧ db.submissions.find? r.objectiveId ≠ none ∧
    db.cancellationRequested r.ownerUserId r.objectiveId).insertionSort fun r s =>
      r.createdAt ≤ s.createdAt).take 100

/-- `active` -/
def active (db : Execution) : List ActiveRun :=
  (((db.runs.rows.filter fun r => r.state = .running).insertionSort fun r s =>
    r.createdAt ≤ s.createdAt).take 1000).map fun r =>
      { run := r
        terminalPhase := db.terminalPhase r.ownerUserId r.objectiveId
        cancellationRequested := db.cancellationRequested r.ownerUserId r.objectiveId }

/-- `pending_cleanup` -/
def pendingCleanup (db : Execution) : List HostedRun :=
  (db.runs.rows.filter fun r => r.state = .terminal ∧ r.cleanedAt = none).take 100

/-- The runs that `retire_owner` returns, oldest first. -/
def uncleaned (owner : String) (db : Execution) : List HostedRun :=
  (db.runs.rows.filter fun r => r.ownerUserId = owner ∧ r.cleanedAt = none).insertionSort fun r s =>
    r.createdAt < s.createdAt ∨ r.createdAt = s.createdAt ∧ r.objectiveId ≤ s.objectiveId

end HostedExecutionStore

/-- The deployment of the controllers: its limits, what it computes from texts, the columns of a
submission that its accepted event carries, and whether it requires measured usage. -/
structure ControllerRules where
  config : HostedExecutionConfig
  activity : ActivityRules
  requestId : String → String → String
  eventId : String → String
  origin : String → String × String × String
  production : Bool

/-- The execution tables and the billing tables. -/
structure HostedTables where
  execution : Execution
  billing : Billing

/-- `_NO_WORKER_USAGE` -/
def noWorkerUsage : MeasuredUsage where
  provider := "magistrate"
  model := "no-worker"
  inputTokens := 0
  outputTokens := 0
  computeMilliseconds := 0

/-- The usage that a settlement charges. -/
def MeasuredUsage.json (usage : MeasuredUsage) : Json :=
  .obj [("provider", .str usage.provider), ("model", .str usage.model),
    ("input_tokens", .int usage.inputTokens), ("output_tokens", .int usage.outputTokens),
    ("compute_milliseconds", .int usage.computeMilliseconds)]

namespace FirstmateExecutionService

/-- The first transaction of `ingest`. -/
def store (rules : ControllerRules) (owner : String) (event : FirstmateExecutionEvent) (now : ℤ)
    (projected : Bool) (db : Execution) : Except ExecutionFailure Execution := do
  raiseIf (rules.production = true ∧ event.phase.terminal = true ∧ event.usage = none)
    (.valueError "Terminal execution events require measured billing usage in production.")
  stateOf (FirstmateExecutionStore.ingest rules.activity owner event now projected db)

/-- The later transaction of `ingest` for a terminal event: charge the measured usage, or release
the reservation where there is none. Personal objectives, which have no credit reservation, are
left out. -/
def settle (catalog : BillingCatalog) (owner : String) (event : FirstmateExecutionEvent) (now : ℤ)
    (billing : Billing) : Except BillingFailure Billing :=
  match event.usage with
  | some usage => stateOf (CreditLedger.settleObjective catalog owner event.objectiveId usage.json
      event.eventId now billing)
  | none => stateOf (CreditLedger.releaseObjective owner event.objectiveId now billing)

end FirstmateExecutionService

namespace HostedExecutionController

/-- The text that an event id is hashed from. -/
def eventText (label : String) (r : HostedRun) : String :=
  label ++ "\x00" ++ r.ownerUserId ++ "\x00" ++ r.objectiveId

/-- An event of a run. -/
def runEvent (rules : ControllerRules) (label : String) (occurredAt : ℤ) (report : EventReport)
    (r : HostedRun) : FirstmateExecutionEvent where
  eventId := rules.eventId (eventText label r)
  objectiveId := r.objectiveId
  taskId := r.taskId
  runId := r.runId
  occurredAtMs := occurredAt.toNat
  report

/-- `_accepted_event` -/
def acceptedEvent (rules : ControllerRules) (r : HostedRun) (db : Execution) :
    FirstmateExecutionEvent :=
  let acceptedAt := (db.submissions.find? r.objectiveId).bind (·.acceptedAt)
  let (title, conversationId, userMessageId) := rules.origin r.objectiveId
  runEvent rules "accepted" ((acceptedAt.filter (· ≠ 0)).getD r.createdAt)
    (.accepted title (some r.project) conversationId userMessageId) r

/-- `_worker_started_event` -/
def workerStartedEvent (rules : ControllerRules) (r : HostedRun) : FirstmateExecutionEvent :=
  runEvent rules "worker-started" r.updatedAt (.progress .workerStarted) r

end HostedExecutionController

/-- How a workload ended, as its backend tells it. -/
inductive WorkloadEnd where
  | succeeded
  | failed
  | cancelled
  deriving DecidableEq, Repr

/-- `IsolationStatus` -/
inductive IsolationStatus where
  | missing
  | queued
  | running
  | ended (how : WorkloadEnd) (usage : Option MeasuredUsage)
  deriving DecidableEq, Repr

/-- The report of an end, and the label of its event; what succeeds without a completion failed. -/
def WorkloadEnd.report (usage : MeasuredUsage) : WorkloadEnd → String × EventReport
  | .cancelled => ("worker-exit\x00objective.cancelled", .cancelled (some usage))
  | .succeeded | .failed => ("worker-exit\x00objective.failed", .failed (some usage))

/-- Where `reconcile_once` goes on. -/
inductive ReconcilePass where
  | cancellations (rest : List HostedRun)
  | active (rest : List ActiveRun)
  | cleanup (rest : List HostedRun)
  deriving DecidableEq

/-- Where a controller, a source or a cancellation is. -/
inductive HostedTask where
  | pass (pass : ReconcilePass)
  | started (r : HostedRun) (ended : Option (WorkloadEnd × Option MeasuredUsage))
      (rest : List ActiveRun)
  | observed (r : HostedRun) (label : String) (report : EventReport) (rest : ReconcilePass)
  | terminal (r : HostedRun) (event : FirstmateExecutionEvent) (rest : ReconcilePass)
  | settle (r : HostedRun) (event : FirstmateExecutionEvent) (rest : ReconcilePass)
  | mark (r : HostedRun) (rest : ReconcilePass)
  | launch (r : HostedRun)
  | ensure (r : HostedRun)
  | launched (r : HostedRun)
  | launchFailed (r : HostedRun)
  | retire (rest : List HostedRun)
  | service (owner : String) (event : FirstmateExecutionEvent)
  | cancellation (task : CancellationTask)
  deriving DecidableEq

/-- What a turn meets: the catalog and the times, what the backend answers, unless it is not
available, and which writes and notifications go through. -/
structure HostedTurn where
  catalog : BillingCatalog
  now : ℤ
  seconds : ℤ
  backend : Option IsolationStatus := some .running
  projected : Bool := true
  reserved : Bool := false
  delivered : Bool := true

/-- The tables with other execution tables. -/
def HostedTables.write (t : HostedTables) (db : Execution) : HostedTables :=
  { t with execution := db }

namespace HostedTask

open HostedExecutionController

/-- The next transaction of `process_once`, `reconcile_once`, `retire_owner`, `ingest` or of a
cancellation. -/
def turn (rules : ControllerRules) (input : HostedTurn) (task : HostedTask) (t : HostedTables) :
    HostedTables × Option HostedTask :=
  let store := fun owner event => FirstmateExecutionService.store rules owner event input.now
    input.projected t.execution
  match task with
  | .pass (.cancellations []) => (t, some (.pass (.active (active t.execution))))
  | .pass (.cancellations (r :: rest)) =>
    match store r.ownerUserId (HostedExecutionController.acceptedEvent rules r t.execution) with
    | .error _ => (t, none)
    | .ok db => (t.write db, some (.observed r "prelaunch-cancel" (.cancelled (some noWorkerUsage))
        (.cancellations rest)))
  | .pass (.active []) => (t, some (.pass (.cleanup (pendingCleanup t.execution))))
  | .pass (.active (row :: rest)) =>
    if row.terminalPhase.isSome then
      (t.write (markTerminal row.run.ownerUserId row.run.objectiveId input.now t.execution),
        some (.pass (.active rest)))
    else
      match input.backend with
      | none => (t, none)
      | some .missing | some .queued => (t, some (.pass (.active rest)))
      | some .running => (t, some (.started row.run none rest))
      | some (.ended how usage) => (t, some (.started row.run (some (how, usage)) rest))
  | .pass (.cleanup []) => (t, none)
  | .pass (.cleanup (r :: rest)) =>
    if input.backend.isNone then (t, none)
    else (t.write (cleaned r.objectiveId input.now t.execution), some (.pass (.cleanup rest)))
  | .started r ended rest =>
    match store r.ownerUserId (workerStartedEvent rules r) with
    | .error _ => (t, none)
    | .ok db =>
      (t.write db,
        match ended with
        | none => some (.pass (.active rest))
        | some (_, none) => none
        | some (how, some usage) =>
          some (.observed r (how.report usage).1 (how.report usage).2 (.active rest)))
  | .observed r label report rest =>
    let db := terminalTimestamp r.objectiveId input.now t.execution
    match (db.runs.find? r.objectiveId).bind (·.terminalObservedAt) with
    | none => (t.write db, none)
    | some observedAt =>
      (t.write db, some (.terminal r (runEvent rules label observedAt report r) rest))
  | .terminal r event rest =>
    match store r.ownerUserId event with
    | .error _ => (t, none)
    | .ok db => (t.write db, some (.settle r event rest))
  | .settle r event rest =>
    match FirstmateExecutionService.settle input.catalog r.ownerUserId event
      input.seconds t.billing with
    | .error _ => (t, none)
    | .ok billing => ({ t with billing }, some (.mark r rest))
  | .mark r rest =>
    (t.write (markTerminal r.ownerUserId r.objectiveId input.now t.execution), some (.pass rest))
  | .launch r =>
    match store r.ownerUserId (HostedExecutionController.acceptedEvent rules r t.execution) with
    | .error _ => (t, some (.launchFailed r))
    | .ok db => (t.write db, some (.ensure r))
  | .ensure r => (t, some (if input.backend.isSome then .launched r else .launchFailed r))
  | .launched r =>
    match HostedExecutionStore.launched r.objectiveId (r.leaseId.getD "") input.now
        t.execution with
    | .error _ => (t, some (.launchFailed r))
    | .ok db => (t.write db, none)
  | .launchFailed r =>
    (t.write (HostedExecutionStore.launchFailed r.objectiveId (r.leaseId.getD "") input.now
      t.execution), none)
  | .retire [] => (t, none)
  | .retire (r :: rest) =>
    if input.backend.isNone then (t, none)
    else (t.write (cleaned r.objectiveId input.now t.execution), some (.retire rest))
  | .service owner event =>
    match FirstmateExecutionService.settle input.catalog owner event input.seconds t.billing with
    | .error _ => (t, none)
    | .ok billing => ({ t with billing }, none)
  | .cancellation task =>
    let (db, next) := task.turn input.now input.reserved input.delivered t.execution
    (t.write db, next.map .cancellation)

end HostedTask

/-- A controller, a source, a cancellation or the erasure of an account starts, one of them takes a
turn or stops, or the billing, the intake or the chat is written. -/
inductive ControllerStep where
  | process (draws : ClaimDraws) (now : ℤ)
  | reconcile
  | retireOwner (owner : String) (now : ℤ)
  | ingest (owner : String) (event : FirstmateExecutionEvent) (now : ℤ) (projected : Bool)
  /-- A worker posts the end of its objective. -/
  | post (event : FirstmateExecutionEvent)
  | request (owner actor objectiveId key : String) (now : ℤ) (reserved projected : Bool) (pick : ℕ)
  | recover (maximum : ℕ) (cutoff : ℤ)
  | turn (task : ℕ) (input : HostedTurn)
  | stop (task : ℕ)
  | billing (catalog : BillingCatalog) (op : BillingOp)
  | submissions (submissions : Table ObjectiveSubmission.objectiveId)
  | chat (chat : Chat)

/-- The tables and the tasks after a step. -/
def controllerStep (rules : ControllerRules) (p : Pool HostedTables HostedTask) :
    ControllerStep → Pool HostedTables HostedTask
  | .process draws now =>
    match claim rules.config draws now p.shared.execution with
    | (none, db) => p.write (p.shared.write db)
    | (some r, db) => (p.write (p.shared.write db)).spawn (.launch r)
  | .reconcile => p.spawn (.pass (.cancellations (queuedCancellations p.shared.execution)))
  | .retireOwner owner now =>
    (p.write (p.shared.write (retireOwner owner now p.shared.execution))).spawn
      (.retire (uncleaned owner p.shared.execution))
  | .ingest owner event now projected =>
    match FirstmateExecutionService.store rules owner event now projected p.shared.execution with
    | .error _ => p
    | .ok db =>
      let p := p.write (p.shared.write db)
      if event.phase.terminal then p.spawn (.service owner event) else p
  | .post event =>
    -- `post_hosted_event`, up to the running run that `authenticate` finds with its submission; an
    -- event that is no end does what `ingest` does
    match p.shared.execution.runs.find? event.objectiveId with
    | none => p
    | some r =>
      if r.state = .running ∧ event.phase.terminal = true ∧ event.taskId = r.taskId ∧
          event.runId = r.runId ∧
          (p.shared.execution.submissions.find? event.objectiveId).isSome = true then
        p.spawn (.terminal r event (.cleanup []))
      else p
  | .request owner actor objectiveId key now reserved projected pick =>
    match ObjectiveCancellationService.request rules.requestId owner actor objectiveId key now
        reserved projected pick p.shared.execution with
    | .error _ => p
    | .ok ((row, _, notify), db) =>
      let p := p.write (p.shared.write db)
      if notify then p.spawn (.cancellation (.notify row.requestId [])) else p
  | .recover maximum cutoff =>
    match ObjectiveCancellationService.recoverPending maximum cutoff p.shared.execution with
    | .error _ => p
    | .ok rows => p.spawn (.cancellation (.sweep rows))
  | .turn task input => p.turn task (HostedTask.turn rules input)
  | .stop task => p.turn task fun _ t => (t, none)
  | .billing catalog op =>
    p.write { p.shared with billing := billingStep p.shared.billing (catalog, op) }
  | .submissions submissions => p.write (p.shared.write { p.shared.execution with submissions })
  | .chat chat => p.write (p.shared.write { p.shared.execution with chat })

/-- A new deployment with some user profiles. -/
def HostedTables.initial (userProfiles : List String) : Pool HostedTables HostedTask where
  shared := { execution := .initial, billing := .initial userProfiles }
  workers := []

end Magistrate
