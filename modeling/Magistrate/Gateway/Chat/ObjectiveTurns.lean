import Magistrate.Gateway.Chat.Service
import Magistrate.Gateway.Execution.Intake

/-!
# Turns that submit objectives

A completion task of the chat service may call the objective tool. The call
claims the objective and reserves its credits, waits for the dispatcher, and then
accepts the objective, or records the failure and releases the reservation. A
cancellation reaches a task only where it waits, and what lies between two waits
is one turn.
-/

namespace Magistrate

open CreditLedger

/-- What the objective tool and its callers compute from texts. -/
structure ToolRules extends IntakeRules where
  /-- The invocation key of an owner's client message. -/
  toolInvocationKey : String → String → String

/-- How a stretch of `execute` ends. -/
inductive ToolOutcome where
  | accepted
  | raised (code : String)
  | dispatches (attempt : IntakeAttempt) (reservation : CreditReservation)

/-- The attempt that a stretch of `execute` leaves waiting. -/
def ToolOutcome.waiting : ToolOutcome → Option (IntakeAttempt × CreditReservation)
  | .dispatches a reservation => some (a, reservation)
  | _ => none

namespace FirstmateObjectiveTools

/-- Record the failure of an attempt, and release its reservation if that is held. -/
def failAttempt (rules : IntakeRules) (a : IntakeAttempt) (code raised : String)
    (reservation : Option CreditReservation) (input : IntakeTurn) (db : Intake) :
    Intake × ToolOutcome :=
  if input.projected = false then (db, .raised "provider_failure")
  else
    let (failed, submissions) := ObjectiveSubmissionStore.fail rules a.ownerUserId a.claim code
      input.now input.recorded db.submissions
    let db := { db with submissions }
    if failed = true ∧ reservation.any fun r => r.status = .reserved then
      match releaseObjective a.ownerUserId a.claim.objectiveId input.now db.billing with
      | .ok (_, billing) => ({ db with billing }, .raised raised)
      | .error _ => (db, .raised "provider_failure")
    else (db, .raised raised)

/-- `execute` until it waits for the dispatcher, in public mode. -/
def submitObjective (rules : IntakeRules) (context : MagiToolContext)
    (key contractJson contextJson : String) (input : IntakeTurn) (db : Intake) :
    Intake × ToolOutcome :=
  match execute rules context key contractJson contextJson input.now input.personal
      input.projected db.submissions with
  | .error error => (db, .raised error.code)
  | .ok (claim, submissions) =>
    let db := { db with submissions }
    let a : IntakeAttempt := ⟨context.ownerUserId, claim, none⟩
    if claim.accepted then (db, .accepted)
    else
      match reserveObjective input.catalog a.ownerUserId a.claim.objectiveId
          ("objective:" ++ a.claim.objectiveId) input.now db.billing with
      | .error (.billing error) =>
        let code := IntakeTask.billingCode a error
        failAttempt rules a code
          (if error.code = "insufficient_credits" then code else "objective_" ++ code) none input db
      | .error _ => (db, .raised "provider_failure")
      | .ok (reservation, billing) =>
        let db := { db with billing }
        match input.materialized with
        | .error code => failAttempt rules a code code (some reservation) input db
        | .ok _ => (db, .dispatches a reservation)

/-- `execute` from the dispatcher's answer on. -/
def dispatched (rules : IntakeRules) (a : IntakeAttempt) (reservation : CreditReservation)
    (input : IntakeTurn) (db : Intake) : Intake × Option ToolOutcome :=
  match input.outcome with
  | .receipt =>
    match ObjectiveSubmissionStore.accept a.ownerUserId a.claim input.now input.projected
        db.submissions with
    | .ok submissions => ({ db with submissions }, some .accepted)
    | .error error => (db, some (.raised error.code))
  | .dispatchError reason =>
    (failAttempt rules a (IntakeTask.dispatchCode reason) "objective_dispatch_failed"
      (some reservation) input db).map id some
  | .toolError code => (failAttempt rules a code code (some reservation) input db).map id some
  | .cancelled => (db, none)

section Intake

variable {rules : IntakeRules} {a : IntakeAttempt} {input : IntakeTurn} {db : Intake}

/-- A run of the intake that leaves one task goes on with its turn. -/
theorem run_turn (rules : IntakeRules) (p : Pool Intake IntakeTask) {steps : List IntakeStep}
    {w : IntakeTask} (h : run (intakeStep rules) p steps = ⟨db, [w]⟩) (input : IntakeTurn) :
    run (intakeStep rules) p (steps ++ [.turn 0 input]) =
      ⟨(w.turn rules input db).1, (w.turn rules input db).2.toList⟩ := by
  rw [run_append, h]
  simp [intakeStep, Pool.turn]

/-- The intake's turns of a failed attempt. -/
theorem failAttempt_run (rules : IntakeRules) (a : IntakeAttempt) (code raised : String)
    (reservation : Option CreditReservation) (input : IntakeTurn) (db : Intake)
    (ha : a.rest = none) : ∃ steps,
    run (intakeStep rules) ⟨db, [.fail a code reservation]⟩ steps =
      ⟨(failAttempt rules a code raised reservation input db).1, []⟩ := by
  have hfail := run_turn rules ⟨db, [.fail a code reservation]⟩ (run_nil _ _) input
  simp only [IntakeTask.turn, ha, IntakeTask.resume, Option.map_none] at hfail
  unfold failAttempt
  split
  · next hprojected =>
    rw [if_pos hprojected] at hfail
    exact ⟨_, hfail⟩
  · next hprojected =>
    rw [if_neg hprojected] at hfail
    dsimp only at hfail ⊢
    split
    · next hheld =>
      rw [if_pos hheld] at hfail
      have hrelease := run_turn rules _ hfail input
      simp only [IntakeTask.turn, IntakeTask.resume, Option.map_none] at hrelease
      refine ⟨_, hrelease.trans ?_⟩
      cases releaseObjective a.ownerUserId a.claim.objectiveId input.now db.billing <;> rfl
    · next hheld =>
      rw [if_neg hheld] at hfail
      exact ⟨_, hfail⟩

/-- A failed attempt waits for nothing. -/
theorem failAttempt_waiting (code raised : String) (reservation : Option CreditReservation) :
    (failAttempt rules a code raised reservation input db).2.waiting = none := by
  unfold failAttempt
  split
  · rfl
  · dsimp only
    split
    · split <;> rfl
    · rfl

/-- What waits for the dispatcher, as a task of the intake. -/
def waitingTasks (waiting : Option (IntakeAttempt × CreditReservation)) : List IntakeTask :=
  waiting.toList.map fun x => .dispatched x.1 x.2

/-- A tool call until it waits for the dispatcher is a run of the intake. -/
theorem submitObjective_run (context : MagiToolContext) (key contractJson contextJson : String) :
    ∃ steps, run (intakeStep rules) ⟨db, []⟩ steps =
      ⟨(submitObjective rules context key contractJson contextJson input db).1,
        waitingTasks (submitObjective rules context key contractJson contextJson input
          db).2.waiting⟩ := by
  have hclaimed : run (intakeStep rules) ⟨db, []⟩ [.execute context key contractJson contextJson
      input.now input.personal input.projected] = match execute rules context key contractJson
        contextJson input.now input.personal input.projected db.submissions with
      | .error _ => ⟨db, []⟩
      | .ok (claim, submissions) => if claim.accepted then ⟨{ db with submissions }, []⟩
        else ⟨{ db with submissions }, [.reserve ⟨context.ownerUserId, claim, none⟩]⟩ := by
    simp only [run_cons, run_nil, intakeStep]
    cases execute rules context key contractJson contextJson input.now input.personal
      input.projected db.submissions with
    | error error => rfl
    | ok claimed => rfl
  unfold submitObjective
  split
  · next error hexecute =>
    exact ⟨[], rfl⟩
  · next claim submissions hexecute =>
    rw [hexecute] at hclaimed
    dsimp only at hclaimed ⊢
    split
    · next haccepted =>
      rw [if_pos haccepted] at hclaimed
      exact ⟨_, hclaimed⟩
    · next haccepted =>
      rw [if_neg haccepted] at hclaimed
      have hreserve := run_turn rules _ hclaimed input
      simp only [IntakeTask.turn] at hreserve
      -- the turns of a failure after those up to here
      have hfail {db' : Intake} {first : List IntakeStep} (code raised : String)
          (reservation : Option CreditReservation)
          (hfirst : run (intakeStep rules) ⟨db, []⟩ first =
            ⟨db', [.fail ⟨context.ownerUserId, claim, none⟩ code reservation]⟩) :
          ∃ steps, run (intakeStep rules) ⟨db, []⟩ steps =
            ⟨(failAttempt rules ⟨context.ownerUserId, claim, none⟩ code raised reservation input
              db').1, waitingTasks (failAttempt rules ⟨context.ownerUserId, claim, none⟩ code raised
              reservation input db').2.waiting⟩ := by
        obtain ⟨steps, hsteps⟩ := failAttempt_run rules ⟨context.ownerUserId, claim, none⟩ code
          raised reservation input db' rfl
        exact ⟨first ++ steps, by rw [run_append, hfirst, hsteps, failAttempt_waiting]; rfl⟩
      split
      · next error hreserved =>
        rw [hreserved] at hreserve
        exact hfail _ _ none hreserve
      · next failure hbilling hreserved =>
        rw [hreserved] at hreserve
        cases failure with
        | billing error => exact absurd rfl (hbilling error)
        | _ => exact ⟨_, hreserve⟩
      · next reservation billing hreserved =>
        rw [hreserved] at hreserve
        have hsubmit := run_turn rules _ hreserve input
        simp only [IntakeTask.turn, IntakeTask.toolFailure] at hsubmit
        split
        · next code hmaterialized =>
          rw [hmaterialized] at hsubmit
          exact hfail code code (some reservation) hsubmit
        · next hmaterialized =>
          rw [hmaterialized] at hsubmit
          exact ⟨_, hsubmit⟩

/-- A tool call from the dispatcher's answer on is a run of the intake. -/
theorem dispatched_run (reservation : CreditReservation) (ha : a.rest = none) :
    ∃ steps, run (intakeStep rules) ⟨db, [.dispatched a reservation]⟩ steps =
      ⟨(dispatched rules a reservation input db).1, []⟩ := by
  have hanswer := run_turn rules ⟨db, [.dispatched a reservation]⟩ (run_nil _ _) input
  simp only [IntakeTask.turn, IntakeTask.toolFailure, ha] at hanswer
  have hfail (code raised : String) (hfirst : run (intakeStep rules)
      ⟨db, [.dispatched a reservation]⟩ [.turn 0 input] = ⟨db, [.fail a code (some reservation)]⟩) :
      ∃ steps, run (intakeStep rules) ⟨db, [.dispatched a reservation]⟩ steps =
        ⟨(failAttempt rules a code raised (some reservation) input db).1, []⟩ := by
    obtain ⟨steps, hsteps⟩ := failAttempt_run rules a code raised (some reservation) input db ha
    exact ⟨[.turn 0 input] ++ steps, by rw [run_append, hfirst, hsteps]⟩
  unfold dispatched
  split
  · next houtcome =>
    rw [houtcome] at hanswer
    have haccept := run_turn rules _ hanswer input
    simp only [IntakeTask.turn, ha] at haccept
    refine ⟨_, haccept.trans ?_⟩
    cases ObjectiveSubmissionStore.accept a.ownerUserId a.claim input.now input.projected
      db.submissions <;> rfl
  · next reason houtcome =>
    rw [houtcome] at hanswer
    exact hfail _ _ hanswer
  · next code houtcome =>
    rw [houtcome] at hanswer
    exact hfail code code hanswer
  · next houtcome =>
    rw [houtcome] at hanswer
    exact ⟨_, hanswer⟩

end Intake

end FirstmateObjectiveTools

/-- The chat tables and the tables of the intake. -/
structure GatewayTables where
  chat : Chat
  intake : Intake

/-- A completion task, with the context of its tool calls. -/
structure CompletionTask where
  turn : TurnTask
  context : MagiToolContext
  invocationKey : String
  /-- The attempt that waits for the dispatcher, and its reservation. -/
  waiting : Option (IntakeAttempt × CreditReservation)

namespace CompletionTask

/-- A task that waits for no dispatcher goes on as a turn of the chat service. -/
def onTurn (f : TurnTask → Chat → Chat × Option TurnTask) (task : CompletionTask)
    (tables : GatewayTables) : GatewayTables × Option CompletionTask :=
  match task.waiting with
  | some _ => (tables, some task)
  | none =>
    let (chat, next) := f task.turn tables.chat
    ({ tables with chat }, next.map fun turn => { task with turn })

/-- A task after a stretch of `execute`. -/
def goOn (task : CompletionTask) (outcome : ToolOutcome) : CompletionTask :=
  match outcome with
  | .raised code =>
    { task with turn := { task.turn with phase := .failing code 1 }, waiting := none }
  | outcome => { task with waiting := outcome.waiting }

/-- The model's answer selects the objective tool. -/
def execute (rules : ToolRules) (contractJson contextJson : String) (input : IntakeTurn)
    (task : CompletionTask) (tables : GatewayTables) : GatewayTables × Option CompletionTask :=
  match task.waiting, task.turn.phase with
  | none, .running =>
    let (intake, outcome) := FirstmateObjectiveTools.submitObjective rules.toIntakeRules
      task.context task.invocationKey contractJson contextJson input tables.intake
    ({ tables with intake }, some (task.goOn outcome))
  | _, _ => (tables, some task)

/-- The dispatcher answers. -/
def dispatched (rules : ToolRules) (input : IntakeTurn) (task : CompletionTask)
    (tables : GatewayTables) : GatewayTables × Option CompletionTask :=
  match task.waiting with
  | none => (tables, some task)
  | some (a, reservation) =>
    let (intake, outcome) := FirstmateObjectiveTools.dispatched rules.toIntakeRules a reservation
      input tables.intake
    ({ tables with intake }, outcome.map task.goOn)

/-- A task ends with its process, or is cancelled where it waits. -/
def drop (_ : CompletionTask) (tables : GatewayTables) : GatewayTables × Option CompletionTask :=
  (tables, none)

end CompletionTask

/-- A gateway's tables and the completion tasks under way. -/
abbrev ObjectiveTurns : Type := Pool GatewayTables CompletionTask

namespace ObjectiveTurns

/-- `submit`: prepare a submission, and start the task of a claimed attempt. -/
def submit (rules : ToolRules) (owner clientMessageId content : String)
    (conversationId : Option String) (source : String)
    (attachments : Except ChatFailure (List AttachmentRecord)) (wantsRetry : Bool)
    (fresh : FreshIds) (now : ℤ) (category : RouteCategory)
    (allowTools explicitConfirmation : Bool) (p : ObjectiveTurns) : ObjectiveTurns :=
  match MagiChatStore.prepareSubmission owner clientMessageId content conversationId source
      attachments wantsRetry fresh now p.shared.chat with
  | .error _ => p
  | .ok (prepared, chat) =>
    if prepared.claimed = true then
      (p.write { p.shared with chat }).spawn
        { turn :=
            { ownerUserId := owner
              assistantMessageId := prepared.assistantMessageId
              attempt := prepared.attempt
              category
              permissionGranted := allowTools || decide (category = .directConversation)
              explicitConfirmation
              phase := .claimed }
          context :=
            { ownerUserId := owner
              conversationId := prepared.conversationId
              turnId := prepared.turnId
              userMessageId := prepared.userMessageId
              assistantMessageId := prepared.assistantMessageId
              explicitConfirmation }
          invocationKey := rules.toolInvocationKey owner clientMessageId
          waiting := none }
    else p.write { p.shared with chat }

/-- The chat tables are written by no task. -/
def writeChat (chat : Chat) (p : ObjectiveTurns) : ObjectiveTurns :=
  p.write { p.shared with chat }

/-- Nothing is submitted yet. -/
def initial (userProfiles : List String) : ObjectiveTurns where
  shared := ⟨.initial, { submissions := .empty, billing := .initial userProfiles }⟩
  workers := []

end ObjectiveTurns

/-- An operation on the billing tables that holds nothing for an objective. -/
def BillingOp.HoldsNothing (op : BillingOp) : Prop :=
  ∀ owner objective key now, op ≠ .reserveObjective owner objective key now

/-- A step of the chat service, of one of its tasks, or of others on the billing tables. -/
inductive ObjectiveTurnStep where
  | submit (owner clientMessageId content : String) (conversationId : Option String)
      (source : String) (attachments : Except ChatFailure (List AttachmentRecord))
      (wantsRetry : Bool) (fresh : FreshIds) (now : ℤ) (category : RouteCategory)
      (allowTools explicitConfirmation : Bool)
  | start (task : ℕ) (now : ℤ)
  | execute (task : ℕ) (contractJson contextJson : String) (input : IntakeTurn)
  | dispatched (task : ℕ) (input : IntakeTurn)
  | complete (task : ℕ) (content : String) (latencyMs toolCalls : ℕ) (answer : Answer) (now : ℤ)
  | raise (task : ℕ) (errorCode : String) (toolCalls : ℕ)
  | fail (task : ℕ) (now : ℤ)
  | close (task : ℕ) (now : ℤ)
  | drop (task : ℕ)
  | cancel (owner clientMessageId : String) (now : ℤ)
  | recover (now : ℤ)
  | billing (catalog : BillingCatalog) (op : BillingOp) (other : op.HoldsNothing)

/-- The tables and the tasks after a step. -/
def objectiveTurnStep (rules : ToolRules) (p : ObjectiveTurns) : ObjectiveTurnStep → ObjectiveTurns
  | .submit owner clientMessageId content conversationId source attachments wantsRetry fresh now
      category allowTools explicitConfirmation =>
    ObjectiveTurns.submit rules owner clientMessageId content conversationId source attachments
      wantsRetry fresh now category allowTools explicitConfirmation p
  | .start task now => p.turn task (CompletionTask.onTurn (TurnTask.start now))
  | .execute task contractJson contextJson input =>
    p.turn task (CompletionTask.execute rules contractJson contextJson input)
  | .dispatched task input => p.turn task (CompletionTask.dispatched rules input)
  | .complete task content latencyMs toolCalls answer now =>
    p.turn task (CompletionTask.onTurn (TurnTask.complete content latencyMs toolCalls answer now))
  | .raise task errorCode toolCalls =>
    p.turn task (CompletionTask.onTurn (TurnTask.raise errorCode toolCalls))
  | .fail task now => p.turn task (CompletionTask.onTurn (TurnTask.fail now))
  | .close task now => p.turn task (CompletionTask.onTurn (TurnTask.close now))
  | .drop task => p.turn task CompletionTask.drop
  | .cancel owner clientMessageId now => p.writeChat (commit
      (MagiChatStore.cancelSubmission owner clientMessageId now p.shared.chat) p.shared.chat)
  | .recover now => p.writeChat (commit
      (stateOf (MagiChatStore.recoverOrphanedPending now p.shared.chat)) p.shared.chat)
  | .billing catalog op _ => p.write { p.shared with
      intake := { p.shared.intake with
        billing := billingStep p.shared.intake.billing (catalog, op) } }

/-- What a task's tool call is of. -/
def CompletionTask.target (rules : ToolRules) (task : CompletionTask) : String × String :=
  (task.context.ownerUserId, (rules.identities task.context.ownerUserId task.invocationKey).1)

/-- A step cuts the dispatch of an objective off: its task is dropped while it waits for the
dispatcher, the dispatcher is cancelled, or a write of the objective store does not go through. -/
def ObjectiveTurnStep.CutsOff (rules : ToolRules) (target : String × String) (p : ObjectiveTurns) :
    ObjectiveTurnStep → Prop
  | .execute task _ _ input => ∃ w, p.workers[task]? = some w ∧ w.target rules = target ∧
      (input.projected = false ∨ input.recorded = false)
  | .dispatched task input => ∃ w, p.workers[task]? = some w ∧
      (∃ x ∈ w.waiting, x.1.target = target) ∧
        (input.outcome = .cancelled ∨ input.projected = false ∨ input.recorded = false)
  | .drop task => ∃ w, p.workers[task]? = some w ∧ ∃ x ∈ w.waiting, x.1.target = target
  | _ => False

end Magistrate
