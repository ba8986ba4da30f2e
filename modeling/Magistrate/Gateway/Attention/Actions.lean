import Magistrate.Core.Json
import Magistrate.Core.Pool
import Magistrate.Core.Run
import Magistrate.Core.Table

/-!
# Attention actions

An action on a live decision is confirmed before it is executed. An execution
looks for an earlier outcome, reads the confirmation and marks it used, claims
the action key, lets the executor run and records the outcome: each of these is
a transaction of its own, so executions of any users and sessions interleave.
-/

namespace Magistrate

/-- `AttentionActionError` -/
structure AttentionActionError where
  code : String
  detail : String
  statusCode : ℕ := 409
  deriving DecidableEq, Repr

/-- What the actions compute from texts: stripped texts, keyed digests, texts that name a risk, and
the digests of confirmation tokens, which are ASCII. -/
structure AttentionRules where
  strip : String → String
  hmacSha256 : String → String
  riskPattern : String → Bool
  confirmationHash : String → Option String

/-- `CONFIRMATION_TTL_SECONDS` -/
def confirmationTtlSeconds : ℤ := 300

/-- `SAFE_ACTIONS` -/
def safeActions : List String := ["approve", "reject"]

/-- `TASK_ID_PATTERN` -/
def taskIdPattern (id : String) : Bool :=
  1 ≤ id.toList.length ∧ id.toList.length ≤ 200 ∧
    id.toList.all fun c => c.isAlphanum ∨ c ∈ ['.', '_', '-']

/-- The contract of an action on a live item; the safe actions are allowed unless a reason stops
them. -/
structure AttentionAction where
  actionKey : String
  decisionKey : String
  sourceRevision : String
  taskId : String
  reason : Option String
  deriving DecidableEq, Repr

/-- The actions that an action contract allows. -/
def AttentionAction.allowedActions (action : AttentionAction) : List String :=
  if action.reason.isSome then [] else safeActions

/-- A row of `attention_action_confirmations`. -/
structure ActionConfirmation where
  confirmationHash : String
  actionKey : String
  userId : String
  actorSessionId : String
  action : String
  targetId : String
  expiresAt : ℤ
  usedAt : Option ℤ
  deriving DecidableEq, Repr

/-- The evidence of an outcome. -/
structure ActionEvidence where
  provider : String := "firstmate"
  decisionKey : String
  itemId : Option String := none
  targetId : String
  sourceRevision : String
  operation : String := "captain-hold-answer"
  recorded : Option Bool := none
  deriving DecidableEq, Repr

/-- A row of `attention_action_outcomes`. -/
structure ActionOutcome where
  actionKey : String
  userId : String
  actorSessionId : String
  itemId : String
  decisionKey : String
  action : String
  provider : String
  targetId : String
  sourceRevision : String
  status : String
  evidence : ActionEvidence
  createdAt : ℤ
  updatedAt : ℤ
  deriving DecidableEq, Repr

/-- What a user asks to execute, with the live items of the time and the confirmation token. -/
structure ActionAttempt where
  items : List Json
  actionKey : String
  selectedAction : String
  targetId : String
  confirmationToken : String
  userId : String
  sessionId : String

/-- What an execution returns: a stored outcome, or what it recorded if none is found. -/
inductive ActionReply where
  | outcome (row : ActionOutcome) (idempotent : Bool)
  | unstored (status actionKey : String) (evidence : ActionEvidence)
  deriving DecidableEq, Repr

/-- What a preparation returns. -/
structure PreparedAction where
  actionKey : String
  action : String
  decisionKey : String
  sourceRevision : String
  taskId : String
  confirmationToken : String
  expiresAt : ℤ
  deriving DecidableEq, Repr

/-- What is done to the outside: a confirmation is used up, the executor runs, or an execution
returns. -/
inductive ActionEvent where
  | consumed (attempt : ActionAttempt) (row : ActionConfirmation) (now : ℤ)
  | ran (attempt : ActionAttempt)
  | replied (attempt : ActionAttempt) (reply : ActionReply)

/-- The tables of the actions, and what happened so far. -/
structure AttentionActions where
  confirmations : Table ActionConfirmation.confirmationHash
  outcomes : Table ActionOutcome.actionKey
  history : List ActionEvent

/-- The tables of a new database. -/
def AttentionActions.initial : AttentionActions := ⟨.empty, .empty, []⟩

section Items

variable (rules : AttentionRules)

/-- `_safe_text` -/
def safeText : Json → String
  | .str value => String.ofList ((rules.strip value).toList.take 200)
  | _ => ""

/-- The context of an item. -/
def itemContext (item : Json) : Json :=
  if (item.get "context").isObj then item.get "context" else .obj []

/-- `action_key_for` -/
def actionKeyFor (item : Json) : String :=
  "aa1_" ++ rules.hmacSha256 ("\x00".intercalate ["attention-action.v1", "firstmate",
    safeText rules ((itemContext item).get "task_id"),
    safeText rules ((itemContext item).get "decision_key"), safeText rules (item.get "revision")])

/-- `risk_reason` -/
def riskReason (item : Json) : Option String :=
  let context := itemContext item
  let values := [item.get "title", item.get "subtitle", context.get "summary", context.get "risk"]
  let explicitRisk :=
    (["destructive", "irreversible", "security_sensitive", "security_sensitive_request"].any
      fun name => (context.get name).bool? = some true ∨ (item.get name).bool? = some true) ∨
    (item.get "reversible").bool? = some false ∨
    (context.get "risk_level").str?.any (· ∈ ["high", "destructive", "security-sensitive"])
  if explicitRisk ∨ values.any fun value => value.str?.any rules.riskPattern then
    some "This decision is outside the safe Attention action boundary."
  else none

/-- `action_for_item` -/
def actionForItem (item : Json) : Option AttentionAction :=
  let taskId := safeText rules ((itemContext item).get "task_id")
  let decisionKey := safeText rules ((itemContext item).get "decision_key")
  if (item.get "provider").str? ≠ some "firstmate" ∨
      (item.get "notification_kind").str? ≠ some "captain_question" ∨
      (item.get "status").str? ≠ some "needs-decision" ∨
      taskIdPattern taskId = false ∨ taskIdPattern decisionKey = false then none
  else some
    { actionKey := actionKeyFor rules item
      decisionKey
      sourceRevision := safeText rules (item.get "revision")
      taskId
      reason := riskReason rules item }

/-- `_find_live_item`, with the action of the item. -/
def findLiveItem (items : List Json) (actionKey targetId : String) :
    Except AttentionActionError (Json × AttentionAction) :=
  match items with
  | [] => .error ⟨"stale",
      "This Attention decision is no longer current or has already been resolved.", 409⟩
  | item :: items =>
    match actionForItem rules item with
    | none => findLiveItem items actionKey targetId
    | some action =>
      if action.actionKey ≠ actionKey then findLiveItem items actionKey targetId
      else do
        raiseIf (action.taskId ≠ targetId)
          ⟨"mismatch", "The requested target does not match the server-issued action key.", 409⟩
        match action.reason with
        | some reason => .error ⟨"unsupported_risk", reason, 409⟩
        | none => .ok (item, action)

/-- The live action that a choice is made on. -/
def liveAction (items : List Json) (actionKey selectedAction targetId : String) :
    Except AttentionActionError (Json × AttentionAction) := do
  let (item, action) ← findLiveItem rules items actionKey targetId
  raiseIf (selectedAction ∉ action.allowedActions)
    ⟨"unsupported", "That action is not available for this decision.", 409⟩
  return (item, action)

end Items

/-- `prepare_confirmation`, with the token that it draws. -/
def AttentionActions.prepareConfirmation (rules : AttentionRules) (items : List Json)
    (actionKey selectedAction targetId userId sessionId token : String) (now : ℤ)
    (db : AttentionActions) : Except AttentionActionError (PreparedAction × AttentionActions) := do
  raiseIf (selectedAction ∉ safeActions)
    ⟨"invalid_action", "Only approve or reject is supported.", 422⟩
  let (_, action) ← liveAction rules items actionKey selectedAction targetId
  match rules.confirmationHash token with
  | none => .error ⟨"token", "not ASCII", 500⟩
  | some confirmationHash => do
    -- The digests of drawn tokens are the primary key.
    raiseIf (db.confirmations.find? confirmationHash ≠ none) ⟨"integrity", "", 500⟩
    let row : ActionConfirmation :=
      { confirmationHash
        actionKey := action.actionKey
        userId
        actorSessionId := sessionId
        action := selectedAction
        targetId
        expiresAt := now + confirmationTtlSeconds
        usedAt := none }
    let prepared : PreparedAction :=
      { actionKey
        action := selectedAction
        decisionKey := action.decisionKey
        sourceRevision := action.sourceRevision
        taskId := action.taskId
        confirmationToken := token
        expiresAt := now + confirmationTtlSeconds }
    return (prepared, { db with confirmations := db.confirmations.insertOrIgnore row })

/-- `_outcome_row` -/
def outcomeRow (actionKey userId : String) (db : AttentionActions) : Option ActionOutcome :=
  (db.outcomes.find? actionKey).filter fun row => row.userId = userId

/-- A confirmation of an attempt. -/
def ActionConfirmation.Matches (row : ActionConfirmation) (a : ActionAttempt) : Prop :=
  row.userId = a.userId ∧ row.actorSessionId = a.sessionId ∧ row.actionKey = a.actionKey ∧
    row.action = a.selectedAction ∧ row.targetId = a.targetId

instance (row : ActionConfirmation) (a : ActionAttempt) : Decidable (row.Matches a) :=
  inferInstanceAs (Decidable (_ ∧ _))

/-- The outcome that an attempt claims. -/
def pendingOutcome (rules : AttentionRules) (a : ActionAttempt) (item : Json)
    (action : AttentionAction) (now : ℤ) : ActionOutcome where
  actionKey := action.actionKey
  userId := a.userId
  actorSessionId := a.sessionId
  itemId := safeText rules (item.get "id")
  decisionKey := action.decisionKey
  action := a.selectedAction
  provider := "firstmate"
  targetId := a.targetId
  sourceRevision := safeText rules (item.get "revision")
  status := "pending"
  evidence :=
    { decisionKey := action.decisionKey
      itemId := safeText rules (item.get "id")
      targetId := a.targetId
      sourceRevision := safeText rules (item.get "revision") }
  createdAt := now
  updatedAt := now

/-- The evidence of an execution. -/
def executionEvidence (rules : AttentionRules) (a : ActionAttempt) (item : Json)
    (action : AttentionAction) (ok : Bool) : ActionEvidence where
  decisionKey := action.decisionKey
  targetId := a.targetId
  sourceRevision := safeText rules (item.get "revision")
  recorded := ok

/-- The status of an execution. -/
def executionStatus (ok : Bool) : String := if ok then "succeeded" else "failed"

/-- Where `execute_confirmation` is, with the live item and its action. -/
inductive AttemptTask where
  | lookup (a : ActionAttempt)
  | verify (a : ActionAttempt) (live : Json × AttentionAction) (confirmationHash : String)
  | consume (a : ActionAttempt) (live : Json × AttentionAction)
    (confirmationHash : String) (now : ℤ)
  | claim (a : ActionAttempt) (live : Json × AttentionAction)
  | reread (a : ActionAttempt) (live : Json × AttentionAction)
  | execute (a : ActionAttempt) (live : Json × AttentionAction)
  | record (a : ActionAttempt) (live : Json × AttentionAction) (ok : Bool)
  | report (a : ActionAttempt) (live : Json × AttentionAction) (ok : Bool)

/-- The checks of an execution before it reads its confirmation. -/
def confirmationOf (rules : AttentionRules) (a : ActionAttempt) :
    Except AttentionActionError ((Json × AttentionAction) × String) := do
  let live ← liveAction rules a.items a.actionKey a.selectedAction a.targetId
  raiseIf (a.confirmationToken = "")
    ⟨"confirmation_required", "Explicit confirmation is required before execution.", 400⟩
  match rules.confirmationHash a.confirmationToken with
  | none => .error ⟨"confirmation_invalid",
      "Confirmation is missing, expired, already used, or does not match this target.", 409⟩
  | some confirmationHash => .ok (live, confirmationHash)

namespace AttemptTask

/-- The next transaction of `execute_confirmation`, or the run of its executor, which can raise. -/
def turn (rules : AttentionRules) (now : ℤ) (executed : Option Bool) (task : AttemptTask)
    (db : AttentionActions) : AttentionActions × Option AttemptTask :=
  let happens := fun event => { db with history := db.history ++ [event] }
  match task with
  | .lookup a =>
    if a.selectedAction ∉ safeActions then (db, none)
    else
      match outcomeRow a.actionKey a.userId db with
      | some row =>
        if row.action ≠ a.selectedAction ∨ row.targetId ≠ a.targetId then (db, none)
        else (happens (.replied a (.outcome row true)), none)
      | none =>
        match confirmationOf rules a with
        | .error _ => (db, none)
        | .ok (live, confirmationHash) => (db, some (.verify a live confirmationHash))
  | .verify a live confirmationHash =>
    match db.confirmations.find? confirmationHash with
    | none => (db, none)
    | some row =>
      if ¬row.Matches a ∨ row.expiresAt < now ∨ row.usedAt ≠ none then (db, none)
      else (db, some (.consume a live confirmationHash now))
  | .consume a live confirmationHash readAt =>
    match (db.confirmations.find? confirmationHash).filter (·.usedAt = none) with
    | none => (db, some (.claim a live))
    | some row =>
      ({ db with
          confirmations := db.confirmations.update confirmationHash fun row =>
            { row with usedAt := some readAt }
          history := db.history ++ [.consumed a row readAt] }, some (.claim a live))
  | .claim a live =>
    match db.outcomes.find? live.2.actionKey with
    | some _ => (db, some (.reread a live))
    | none =>
      let outcomes := db.outcomes.insertOrIgnore (pendingOutcome rules a live.1 live.2 now)
      ({ db with outcomes }, some (.execute a live))
  | .reread a live =>
    match outcomeRow live.2.actionKey a.userId db with
    | some row => (happens (.replied a (.outcome row true)), none)
    | none => (db, some (.execute a live))
  | .execute a live => (happens (.ran a), executed.map (.record a live))
  | .record a live ok =>
    let outcomes := db.outcomes.updateWhere
      (fun row => row.actionKey = a.actionKey ∧ row.userId = a.userId) fun row =>
        { row with
          status := executionStatus ok
          evidence := executionEvidence rules a live.1 live.2 ok
          updatedAt := now }
    ({ db with outcomes }, some (.report a live ok))
  | .report a live ok =>
    match outcomeRow a.actionKey a.userId db with
    | some row => (happens (.replied a (.outcome row false)), none)
    | none => (happens (.replied a (.unstored (executionStatus ok) a.actionKey
        (executionEvidence rules a live.1 live.2 ok))), none)

end AttemptTask

/-- A confirmation is prepared, an execution starts, takes a turn or stops. -/
inductive AttentionStep where
  | prepare (items : List Json)
      (actionKey selectedAction targetId userId sessionId token : String) (now : ℤ)
  | execute (a : ActionAttempt)
  | turn (task : ℕ) (now : ℤ) (executed : Option Bool)
  | stop (task : ℕ)

/-- The tables and the executions after a step. -/
def attentionStep (rules : AttentionRules) (p : Pool AttentionActions AttemptTask) :
    AttentionStep → Pool AttentionActions AttemptTask
  | .prepare items actionKey selectedAction targetId userId sessionId token now =>
    p.write (commit (stateOf (AttentionActions.prepareConfirmation rules items actionKey
      selectedAction targetId userId sessionId token now p.shared)) p.shared)
  | .execute a => p.spawn (.lookup a)
  | .turn task now executed => p.turn task (AttemptTask.turn rules now executed)
  | .stop task => p.turn task fun _ db => (db, none)

end Magistrate
