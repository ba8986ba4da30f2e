import Magistrate.Gateway.Chat.State

/-!
# Execution tables

Submitted objectives, hosted runs, cancellation requests, execution objectives
and events, and the activity they are projected to. Ids that the code draws or
hashes and the time are arguments of its transactions.
-/

namespace Magistrate

/-- What a transaction on the execution tables can raise. -/
inductive ExecutionFailure where
  | notFound (message : String)
  | conflict (message : String)
  | runtimeError (message : String)
  | valueError (message : String)
  | cancellation (code : String) (statusCode : ℕ)
  | integrityError
  deriving DecidableEq, Repr

/-- The status of a submitted objective. -/
inductive SubmissionStatus where
  | submitting
  | accepted
  | failed
  deriving DecidableEq, Repr

/-- A row of `magi_objective_submissions`. -/
structure ObjectiveSubmission where
  objectiveId : String
  taskId : String
  ownerUserId : String
  invocationKey : String
  /-- The frozen contract; its project is read by the hosted controller. -/
  contractJson : String
  project : String
  status : SubmissionStatus
  attemptCount : ℕ
  lastErrorCode : Option String
  acceptedAt : Option ℤ
  createdAt : ℤ
  updatedAt : ℤ
  deriving DecidableEq, Repr

/-- The state of a hosted run. -/
inductive RunState where
  | queued
  | launching
  | running
  | terminal
  deriving DecidableEq, Repr

/-- A row of `hosted_execution_runs`. -/
structure HostedRun where
  ownerUserId : String
  objectiveId : String
  taskId : String
  runId : String
  project : String
  tenantKey : String
  isolationKey : String
  backendExecutionId : String
  workerTokenHash : String
  workerTokenEnc : String
  state : RunState
  attemptCount : ℕ
  leaseId : Option String
  leaseExpiresAt : Option ℤ
  lastErrorCode : Option String
  terminalObservedAt : Option ℤ
  cleanedAt : Option ℤ
  createdAt : ℤ
  updatedAt : ℤ
  deriving DecidableEq, Repr

/-- The status of a cancellation request. -/
inductive CancellationStatus where
  | requested
  | observed
  | failed
  deriving DecidableEq, Repr

/-- The status of the notification of a cancellation request. -/
inductive NotificationStatus where
  | pending
  | delivered
  | failed
  deriving DecidableEq, Repr

/-- A row of `objective_cancellation_requests`. -/
structure CancellationRequest where
  requestId : String
  ownerUserId : String
  objectiveId : String
  taskId : String
  actorSessionId : String
  idempotencyKey : String
  status : CancellationStatus
  errorCode : Option String
  notificationStatus : NotificationStatus
  notificationAttemptCount : ℕ
  notifiedAt : Option ℤ
  createdAt : ℤ
  updatedAt : ℤ
  deriving DecidableEq, Repr

/-- The phases of the progress events. -/
inductive ProgressPhase where
  | workerStarted
  | implementationStarted
  | testsStarted
  | testsPassed
  | testsFailed
  | reviewStarted
  deriving DecidableEq, Repr

/-- The phase of an execution event. -/
inductive ExecutionPhase where
  | accepted
  | progress (phase : ProgressPhase)
  | completed
  | failed
  | cancelled
  deriving DecidableEq, Repr

/-- `_TERMINAL_PHASES` -/
def ExecutionPhase.terminal : ExecutionPhase → Bool
  | .completed | .failed | .cancelled => true
  | _ => false

/-- `FirstmateVerificationCheck` -/
structure VerificationCheck where
  checkId : String
  kind : String
  label : String
  deriving DecidableEq, Repr

/-- `FirstmateCompletionArtifact` -/
inductive CompletionArtifact where
  | pullRequest (url : String)
  | report (reportId : String)
  | commit (commitSha : String)
  deriving DecidableEq, Repr

/-- `FirstmateCompletionEvidence` -/
structure CompletionEvidence where
  checks : List VerificationCheck
  artifacts : List CompletionArtifact
  deriving DecidableEq, Repr

/-- `FirstmateMeasuredUsage` -/
structure MeasuredUsage where
  provider : String
  model : String
  inputTokens : ℕ
  outputTokens : ℕ
  computeMilliseconds : ℕ
  costMicroUsd : Option ℕ := none
  deriving DecidableEq, Repr

/-- What an execution event reports. -/
inductive EventReport where
  | accepted (title : String) (project : Option String) (conversationId userMessageId : String)
  | progress (phase : ProgressPhase)
  | completed (evidence : CompletionEvidence) (usage : Option MeasuredUsage)
  | failed (usage : Option MeasuredUsage)
  | cancelled (usage : Option MeasuredUsage)
  deriving DecidableEq, Repr

/-- `FirstmateExecutionEventContract` -/
structure FirstmateExecutionEvent where
  eventId : String
  objectiveId : String
  taskId : String
  runId : String
  occurredAtMs : ℕ
  report : EventReport
  deriving DecidableEq, Repr

namespace FirstmateExecutionEvent

/-- The phase of an event. -/
def phase (event : FirstmateExecutionEvent) : ExecutionPhase :=
  match event.report with
  | .accepted .. => .accepted
  | .progress phase => .progress phase
  | .completed .. => .completed
  | .failed .. => .failed
  | .cancelled .. => .cancelled

/-- The evidence of a completion. -/
def evidence (event : FirstmateExecutionEvent) : Option CompletionEvidence :=
  match event.report with
  | .completed evidence _ => evidence
  | _ => none

/-- The measured usage of a terminal event. -/
def usage (event : FirstmateExecutionEvent) : Option MeasuredUsage :=
  match event.report with
  | .completed _ usage => usage
  | .failed usage => usage
  | .cancelled usage => usage
  | _ => none

end FirstmateExecutionEvent

/-- A row of `firstmate_execution_objectives`. -/
structure ExecutionObjective where
  ownerUserId : String
  objectiveId : String
  taskId : String
  runId : String
  acceptedEventId : String
  conversationId : String
  originMessageId : String
  title : String
  project : Option String
  terminalEventId : Option String
  terminalPhase : Option ExecutionPhase
  createdAt : ℤ
  updatedAt : ℤ
  deriving DecidableEq, Repr

/-- Objectives are unique for an owner. -/
def ExecutionObjective.key (objective : ExecutionObjective) : String × String :=
  (objective.ownerUserId, objective.objectiveId)

/-- The state of the completion message of an event. -/
inductive GenerationState where
  | queued
  | generating
  | completed
  | failed
  deriving DecidableEq, Repr

/-- A row of `firstmate_execution_events`. -/
structure ExecutionEvent where
  ownerUserId : String
  eventId : String
  objectiveId : String
  taskId : String
  runId : String
  phase : ExecutionPhase
  occurredAt : ℕ
  /-- The event as it came; its canonical bytes and their digest identify it. -/
  payload : FirstmateExecutionEvent
  evidence : Option CompletionEvidence
  activityRecordId : String
  generationState : Option GenerationState
  generationAttemptCount : ℕ
  assistantMessageId : Option String
  errorCode : Option String
  createdAt : ℤ
  updatedAt : ℤ
  deriving DecidableEq, Repr

/-- Events are unique for an owner. -/
def ExecutionEvent.key (event : ExecutionEvent) : String × String :=
  (event.ownerUserId, event.eventId)

/-- A public reference of an activity record. -/
inductive ActivityRef where
  | pullRequest (url : String)
  | report (id : String)
  deriving DecidableEq, Repr

/-- What is published of an activity. -/
structure ActivityFields where
  sourceEventId : Option String
  kind : String
  state : String
  importance : String
  title : String
  summary : String
  summaryTruncated : Bool
  taskId : Option String
  decisionKey : Option String
  objectiveId : Option String
  runId : Option String
  project : Option String
  occurredAt : Option ℕ
  refs : List ActivityRef
  sourcePayloadSha256 : String
  deriving DecidableEq, Repr

/-- A row of `activity_records`. -/
structure ActivityRecord where
  id : String
  userId : String
  sourceInstanceId : String
  recordKey : String
  sequenceIndex : ℕ
  revision : ℕ
  fields : ActivityFields
  observedAt : ℤ
  createdAt : ℤ
  updatedAt : ℤ
  deriving DecidableEq, Repr

/-- A row of `activity_changes`. -/
structure ActivityChange where
  userId : String
  changeSequence : ℕ
  recordId : String
  recordRevision : ℕ
  changedAt : ℤ
  deriving DecidableEq, Repr

/-- Changes are numbered for a user. -/
def ActivityChange.key (change : ActivityChange) : String × ℕ :=
  (change.userId, change.changeSequence)

/-- The activity tables. -/
structure ActivityLog where
  records : Table ActivityRecord.id
  changes : Table ActivityChange.key
  deriving DecidableEq

/-- The execution tables, and the chat that objectives come from. -/
structure Execution where
  submissions : Table ObjectiveSubmission.objectiveId
  runs : Table HostedRun.objectiveId
  cancellations : Table CancellationRequest.requestId
  objectives : Table ExecutionObjective.key
  events : Table ExecutionEvent.key
  activity : ActivityLog
  chat : Chat
  deriving DecidableEq

/-- The tables of a new database. -/
def Execution.initial : Execution where
  submissions := .empty
  runs := .empty
  cancellations := .empty
  objectives := .empty
  events := .empty
  activity := ⟨.empty, .empty⟩
  chat := .initial

namespace Execution

/-- Whether a cancellation of an objective is requested. -/
def cancellationRequested (db : Execution) (owner objectiveId : String) : Prop :=
  ∃ c ∈ db.cancellations.rows,
    c.ownerUserId = owner ∧ c.objectiveId = objectiveId ∧ c.status = .requested

instance (db : Execution) (owner objectiveId : String) :
    Decidable (db.cancellationRequested owner objectiveId) := by
  unfold cancellationRequested
  infer_instance

/-- The terminal phase of an objective. -/
def terminalPhase (db : Execution) (owner objectiveId : String) : Option ExecutionPhase :=
  (db.objectives.find? (owner, objectiveId)).bind (·.terminalPhase)

end Execution

end Magistrate
