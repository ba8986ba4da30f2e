import Magistrate.Core.Pool
import Magistrate.Gateway.Chat.Messages

/-!
# Turns of native submissions

A gateway that claims an attempt records the route of the turn, asks for an
answer, and stores the answer or the failure and the outcome of the route. Each
of these is a transaction of its own, and gateways take their turns in any
order, between cancellations and the recoveries of restarted gateways.
-/

namespace Magistrate

/-- What a provider's answer or a confirmation request makes of a turn. -/
inductive Answer where
  | directResponse
  | objectiveAccepted
  | memorySaved
  | confirmationRequired
  deriving DecidableEq, Repr

/-- The route outcome of an answer. -/
def Answer.outcome : Answer → RouteOutcome
  | directResponse => .directResponse
  | objectiveAccepted => .objectiveAccepted
  | memorySaved => .memorySaved
  | confirmationRequired => .confirmationRequired

/-- Where a gateway is in a turn. What the store's compare-and-set returned is kept for
statements about runs; the gateway does not read it. -/
inductive TurnPhase where
  /-- The attempt is claimed, and its route is not recorded yet. -/
  | claimed
  /-- An answer is being computed. -/
  | running
  /-- The answer was stored if its attempt was pending, and the route is not written yet. -/
  | answered (answer : Answer) (toolCalls : ℕ) (took : Bool)
  /-- An exception is being handled. -/
  | failing (errorCode : String) (toolCalls : ℕ)
  /-- The failure was stored if its attempt was pending, and the route is not written yet. -/
  | failed (took : Bool)
  deriving DecidableEq, Repr

/-- A gateway's turn for a claimed attempt. -/
structure TurnTask where
  ownerUserId : String
  assistantMessageId : String
  attempt : ℕ
  category : RouteCategory
  permissionGranted : Bool
  explicitConfirmation : Bool
  phase : TurnPhase
  deriving DecidableEq, Repr

/-- The chat tables and the turns that are under way in any gateway. -/
abbrev MagiChatService : Type := Pool Chat TurnTask

namespace TurnTask

/-- `record_turn_route` with the values of a turn. -/
def recordRoute (task : TurnTask) (outcome : RouteOutcome) (now : ℤ) (chat : Chat) :
    Except ChatFailure Chat :=
  MagiChatStore.recordTurnRoute task.ownerUserId task.assistantMessageId task.category
    task.permissionGranted task.explicitConfirmation outcome now chat

/-- Record the route of a claimed attempt, and start its completion. -/
def start (now : ℤ) (task : TurnTask) (chat : Chat) : Chat × Option TurnTask :=
  match task.phase with
  | .claimed =>
    match task.recordRoute .routing now chat with
    | .ok chat => (chat, some { task with phase := .running })
    | .error _ => (chat, none)
  | _ => (chat, some task)

/-- Store an answer. -/
def complete (content : String) (latencyMs toolCalls : ℕ) (answer : Answer) (now : ℤ)
    (task : TurnTask) (chat : Chat) : Chat × Option TurnTask :=
  match task.phase with
  | .running =>
    match MagiChatStore.completeSubmission task.ownerUserId task.assistantMessageId task.attempt
        content latencyMs toolCalls now chat with
    | .ok (took, chat) => (chat, some { task with phase := .answered answer toolCalls took })
    | .error _ => (chat, some { task with phase := .failing "provider_failure" toolCalls })
  | _ => (chat, some task)

/-- An exception is raised before a turn has written its route. -/
def raise (errorCode : String) (toolCalls : ℕ) (task : TurnTask) (chat : Chat) :
    Chat × Option TurnTask :=
  match task.phase with
  | .running | .answered _ _ _ => (chat, some { task with phase := .failing errorCode toolCalls })
  | _ => (chat, some task)

/-- Store a failure. -/
def fail (now : ℤ) (task : TurnTask) (chat : Chat) : Chat × Option TurnTask :=
  match task.phase with
  | .failing errorCode toolCalls =>
    match MagiChatStore.failSubmission task.ownerUserId task.assistantMessageId task.attempt
        errorCode toolCalls now chat with
    | .ok (took, chat) => (chat, some { task with phase := .failed took })
    | .error _ => (chat, none)
  | _ => (chat, some task)

/-- Write the route of a turn after its store write. -/
def close (now : ℤ) (task : TurnTask) (chat : Chat) : Chat × Option TurnTask :=
  match task.phase with
  | .answered answer toolCalls _ =>
    match task.recordRoute answer.outcome now chat with
    | .ok chat => (chat, none)
    | .error _ => (chat, some { task with phase := .failing "provider_failure" toolCalls })
  | .failed _ => (commit (task.recordRoute .failed now chat) chat, none)
  | _ => (chat, some task)

/-- A turn ends with its process, or is cancelled. -/
def drop (_ : TurnTask) (chat : Chat) : Chat × Option TurnTask := (chat, none)

end TurnTask

namespace MagiChatService

/-- `submit`: prepare a submission, and open a turn for a claimed attempt. -/
def submit (owner clientMessageId content : String) (conversationId : Option String)
    (source : String) (attachments : Except ChatFailure (List AttachmentRecord))
    (wantsRetry : Bool) (fresh : FreshIds) (now : ℤ) (category : RouteCategory)
    (allowTools explicitConfirmation : Bool) (service : MagiChatService) : MagiChatService :=
  match MagiChatStore.prepareSubmission owner clientMessageId content conversationId source
      attachments wantsRetry fresh now service.shared with
  | .error _ => service
  | .ok (prepared, chat) =>
    if prepared.claimed = true then
      (service.write chat).spawn
        { ownerUserId := owner
          assistantMessageId := prepared.assistantMessageId
          attempt := prepared.attempt
          category
          permissionGranted := allowTools || decide (category = .directConversation)
          explicitConfirmation
          phase := .claimed }
    else service.write chat

end MagiChatService

/-- A step of some gateway. -/
inductive ServiceStep where
  | submit (owner clientMessageId content : String) (conversationId : Option String)
      (source : String) (attachments : Except ChatFailure (List AttachmentRecord))
      (wantsRetry : Bool) (fresh : FreshIds) (now : ℤ) (category : RouteCategory)
      (allowTools explicitConfirmation : Bool)
  | start (turn : ℕ) (now : ℤ)
  | complete (turn : ℕ) (content : String) (latencyMs toolCalls : ℕ) (answer : Answer) (now : ℤ)
  | raise (turn : ℕ) (errorCode : String) (toolCalls : ℕ)
  | fail (turn : ℕ) (now : ℤ)
  | close (turn : ℕ) (now : ℤ)
  | drop (turn : ℕ)
  | cancel (owner clientMessageId : String) (now : ℤ)
  | recover (now : ℤ)

/-- The tables and turns after a step. -/
def serviceStep (service : MagiChatService) : ServiceStep → MagiChatService
  | .submit owner clientMessageId content conversationId source attachments wantsRetry fresh now
      category allowTools explicitConfirmation =>
    MagiChatService.submit owner clientMessageId content conversationId source attachments
      wantsRetry fresh now category allowTools explicitConfirmation service
  | .start turn now => service.turn turn (TurnTask.start now)
  | .complete turn content latencyMs toolCalls answer now =>
    service.turn turn (TurnTask.complete content latencyMs toolCalls answer now)
  | .raise turn errorCode toolCalls => service.turn turn (TurnTask.raise errorCode toolCalls)
  | .fail turn now => service.turn turn (TurnTask.fail now)
  | .close turn now => service.turn turn (TurnTask.close now)
  | .drop turn => service.turn turn TurnTask.drop
  | .cancel owner clientMessageId now => service.write (commit
      (MagiChatStore.cancelSubmission owner clientMessageId now service.shared) service.shared)
  | .recover now => service.write (commit
      (stateOf (MagiChatStore.recoverOrphanedPending now service.shared)) service.shared)

/-- No message and no turn. -/
def MagiChatService.initial : MagiChatService := ⟨.initial, []⟩

end Magistrate
