import Magistrate.Gateway.Execution.Launch

/-!
# Settlements of finished objectives

The end of an objective is stored in one transaction and its credits are settled
in a later one, which can raise or never come. A pass that finds a running run
whose objective is over ends the run and looks at no credits, so that nothing
settles them afterwards.
-/

namespace Magistrate

open Execution HostedExecutionStore

/-- No credits are held for a run that is over with its objective. -/
def HostedTables.EndsSettled (t : HostedTables) : Prop :=
  ∀ r ∈ t.execution.runs.rows, r.state = .terminal →
    t.execution.Over r.ownerUserId r.objectiveId →
      t.billing.reservationStatus r.ownerUserId r.objectiveId ≠ some .reserved

instance (t : HostedTables) : Decidable t.EndsSettled :=
  inferInstanceAs (Decidable (∀ r ∈ t.execution.runs.rows, _))

/-- The objective of a running run that a pass finds over. -/
def HostedTask.found : HostedTask → Option (String × String)
  | .pass (.active (row :: _)) =>
    if row.terminalPhase.isSome then some (row.run.ownerUserId, row.run.objectiveId) else none
  | _ => none

/-- A step that finds no running run over whose objective's credits are still held. -/
def ControllerStep.SettledFirst (p : Pool HostedTables HostedTask) : ControllerStep → Prop
  | .turn i _ => ∀ task, p.workers[i]? = some task → task.found.all (fun (owner, objectiveId) =>
      p.shared.billing.reservationStatus owner objectiveId ≠ some .reserved) = true
  | _ => True

/-- A step other than the erasure of an account; first reservations are for objectives that are not
over. -/
def ControllerStep.Ordinary (p : Pool HostedTables HostedTask) : ControllerStep → Prop
  | .retireOwner _ _ => False
  | .billing _ (.reserveObjective owner objective _ _) => p.shared.execution.Over owner objective →
      p.shared.billing.reservationStatus owner objective ≠ none
  | _ => True

instance (p : Pool HostedTables HostedTask) (step : ControllerStep) :
    Decidable (step.SettledFirst p) :=
  match step with
  | .turn i _ => inferInstanceAs (Decidable (∀ task, p.workers[i]? = some task →
      task.found.all (fun (owner, objectiveId) =>
        p.shared.billing.reservationStatus owner objectiveId ≠ some .reserved) = true))
  | .process .. | .reconcile | .retireOwner .. | .ingest .. | .post .. | .request .. | .recover ..
  | .stop .. | .billing .. | .submissions .. | .chat .. => .isTrue trivial

instance (p : Pool HostedTables HostedTask) (step : ControllerStep) :
    Decidable (step.Ordinary p) := by
  unfold ControllerStep.Ordinary
  split <;> infer_instance

namespace FirstmateExecutionService

variable {catalog : BillingCatalog} {owner : String} {event : FirstmateExecutionEvent} {now : ℤ}
  {db db' : Billing}

/-- A settlement leaves its objective without a hold. -/
theorem settle_unheld (h : settle catalog owner event now db = .ok db') :
    db'.reservationStatus owner event.objectiveId ≠ some .reserved := by
  unfold settle at h
  split at h
  · obtain ⟨result, h⟩ := stateOf_eq_ok.mp h
    simp [settleObjective_status h]
  · obtain ⟨result, h⟩ := stateOf_eq_ok.mp h
    exact releaseObjective_status h

/-- A settlement holds no credits. -/
theorem settle_keeps (h : settle catalog owner event now db = .ok db') (o id : String)
    (hheld : db.reservationStatus o id ≠ some .reserved) :
    db'.reservationStatus o id ≠ some .reserved := by
  unfold settle at h
  split at h
  · obtain ⟨result, h⟩ := stateOf_eq_ok.mp h
    exact ((settleObjective_moves h).holdChange o id).ne_reserved hheld fun _ _ _ hop => nomatch hop
  · obtain ⟨result, h⟩ := stateOf_eq_ok.mp h
    have hmoves : Moves catalog (.releaseObjective owner event.objectiveId now) db db' :=
      releaseObjective_moves h
    exact (hmoves.holdChange o id).ne_reserved hheld fun _ _ _ hop => nomatch hop

end FirstmateExecutionService

namespace HostedTask

open FirstmateExecutionService

variable {rules : ControllerRules} {input : HostedTurn} {t : HostedTables} {task : HostedTask}

/-- Only settlements write to the billing tables. -/
theorem turn_billing (rules : ControllerRules) (input : HostedTurn) (t : HostedTables)
    (task : HostedTask) : (task.turn rules input t).1.billing = t.billing ∨
      ∃ owner event, FirstmateExecutionService.settle input.catalog owner event input.seconds
        t.billing = .ok (task.turn rules input t).1.billing := by
  cases task with
  | settle r event rest =>
    simp only [turn]
    split
    · exact .inl rfl
    · next billing hsettle => exact .inr ⟨_, _, hsettle⟩
  | service owner event =>
    simp only [turn]
    split
    · exact .inl rfl
    · next billing hsettle => exact .inr ⟨_, _, hsettle⟩
  | pass rest =>
    left
    rcases rest with ⟨_ | _⟩ | ⟨_ | _⟩ | ⟨_ | _⟩ <;> simp only [turn] <;>
      repeat' (first | rfl | split)
  | retire rest =>
    left
    cases rest <;> simp only [turn]
    split <;> rfl
  | _ =>
    left
    simp only [turn]
    repeat' (first | rfl | split)

/-- A run is marked only after its settlement. -/
theorem turn_mark {r : HostedRun} {rest : ReconcilePass}
    (h : (task.turn rules input t).2 = some (.mark r rest)) :
    ∃ event, task = .settle r event rest ∧ FirstmateExecutionService.settle input.catalog
      r.ownerUserId event input.seconds t.billing = .ok (task.turn rules input t).1.billing := by
  cases task with
  | settle s event rest' =>
    simp only [turn] at h ⊢
    split at h
    · cases h
    · next billing hsettle =>
      obtain ⟨rfl, rfl⟩ : s = r ∧ rest' = rest := by simpa using h
      refine ⟨event, rfl, ?_⟩
      simp only [hsettle]
  | cancellation task =>
    obtain ⟨next, -, hnext⟩ := Option.map_eq_some_iff.mp h
    cases hnext
  | pass rest' =>
    rcases rest' with ⟨_ | _⟩ | ⟨_ | _⟩ | ⟨_ | _⟩ <;> simp only [turn] at h <;>
      repeat' (first | cases h | split at h)
  | retire rest' =>
    cases rest' <;> simp only [turn] at h
    · cases h
    · split at h <;> cases h
  | ensure s =>
    simp only [turn] at h
    split at h <;> cases h
  | _ =>
    simp only [turn] at h
    repeat' (first | cases h | split at h)

end HostedTask

section Step

variable {rules : ControllerRules} {p : Pool HostedTables HostedTask}

/-- Only the turns of the tasks and the operations of others write to the billing tables. -/
theorem controllerStep_billing (rules : ControllerRules) (p : Pool HostedTables HostedTask)
    (op : ControllerStep) :
    (controllerStep rules p op).shared.billing = p.shared.billing ∨
      (∃ catalog operation, op = .billing catalog operation) ∨
      ∃ i input task, op = .turn i input ∧ p.workers[i]? = some task := by
  cases op with
  | turn i input =>
    cases htask : p.workers[i]? with
    | none => exact .inl (by rw [controllerStep, Pool.turn_none htask])
    | some task => exact .inr (.inr ⟨i, input, task, rfl, htask⟩)
  | stop i =>
    left
    cases htask : p.workers[i]? with
    | none => rw [controllerStep, Pool.turn_none htask]
    | some task => rw [controllerStep, Pool.shared_turn htask]
  | billing catalog operation => exact .inr (.inl ⟨catalog, operation, rfl⟩)
  | _ =>
    left
    simp only [controllerStep]
    repeat' (first | rfl | split)

/-- Nothing holds credits for an objective that is over. -/
theorem controllerStep_unheld (op : ControllerStep) (hop : op.Ordinary p)
    {owner objectiveId : String}
    (hover : p.shared.execution.Over owner objectiveId)
    (h : p.shared.billing.reservationStatus owner objectiveId ≠ some .reserved) :
    (controllerStep rules p op).shared.billing.reservationStatus owner objectiveId ≠
      some .reserved := by
  rcases controllerStep_billing rules p op with
    hbilling | ⟨catalog, operation, rfl⟩ | ⟨i, input, task, rfl, htask⟩
  · rwa [hbilling]
  · refine ((billingStep_moves catalog operation p.shared.billing).holdChange owner
      objectiveId).ne_reserved h ?_
    rintro hnone key now rfl
    exact hop hover hnone
  · rw [controllerStep, Pool.shared_turn htask]
    rcases task.turn_billing rules input p.shared with hbilling | ⟨source, event, hsettle⟩
    · rwa [hbilling]
    · exact FirstmateExecutionService.settle_keeps hsettle owner objectiveId h

end Step

/-- A run that is over has an objective that is over, and a task ends a run only after its
settlement. -/
structure Settling (rules : ControllerRules) (p : Pool HostedTables HostedTask) : Prop
    extends Tracked rules p where
  ended : ∀ r ∈ p.shared.execution.runs.rows, r.state = .terminal →
    p.shared.execution.Over r.ownerUserId r.objectiveId
  marks : ∀ r rest, .mark r rest ∈ p.workers →
    p.shared.billing.reservationStatus r.ownerUserId r.objectiveId ≠ some .reserved

namespace Settling

variable {rules : ControllerRules} {p : Pool HostedTables HostedTask}

theorem initial (rules : ControllerRules) (userProfiles : List String) :
    Settling rules (HostedTables.initial userProfiles) where
  toTracked := .initial rules userProfiles
  ended r hr := by simp [HostedTables.initial, Execution.initial] at hr
  marks r rest h := by simp [HostedTables.initial] at h

/-- A run that a step ends has an objective that is over. -/
theorem over_of_retires (h : Settling rules p) {op : ControllerStep} (hop : op.Ordinary p)
    {owner objectiveId : String} (hretires : op.retires p owner objectiveId) :
    p.shared.execution.Over owner objectiveId := by
  cases op with
  | retireOwner source now => exact absurd hop id
  | turn i input =>
    obtain ⟨task, htask, hretires⟩ := hretires
    have hcurrent := h.current task (List.mem_of_getElem? htask)
    unfold HostedTask.retires at hretires
    split at hretires
    · obtain ⟨rfl, rfl⟩ := Prod.mk.inj hretires
      exact hcurrent.2
    · next row rest =>
      obtain ⟨hended, htarget⟩ := hretires
      obtain ⟨rfl, rfl⟩ := Prod.mk.inj htarget
      exact (hcurrent row List.mem_cons_self).2 hended
    · exact absurd hretires id
  | _ => exact absurd hretires id

/-- An ordinary step keeps the invariant. -/
theorem step (h : Settling rules p) (op : ControllerStep) (hop : op.Ordinary p) :
    Settling rules (controllerStep rules p op) where
  toTracked := h.toTracked.step op
  ended r' hr' hstate := by
    by_cases hsubmissions : ∃ submissions, op = .submissions submissions
    · obtain ⟨submissions, rfl⟩ := hsubmissions
      exact h.ended r' hr' hstate
    have hmoved := controllerStep_moved h.toTracked op (not_exists.mp hsubmissions)
    refine hmoved.staysOver _ _ ?_
    rcases hmoved.unended r' hr' hstate with ⟨r, hr, howner, hid, hterminal⟩ | hretires
    · rw [← howner, ← hid]
      exact h.ended r hr hterminal
    · exact h.over_of_retires hop hretires
  marks r rest hmark := by
    rcases mem_controllerStep hmark with hmem | ⟨hfresh, -⟩ | ⟨i, input, task, rfl, htask, hnext⟩
    · exact controllerStep_unheld op hop (h.current _ hmem).2 (h.marks r rest hmem)
    · exact absurd hfresh (by simp [HostedTask.fresh])
    · obtain ⟨event, rfl, hsettle⟩ := HostedTask.turn_mark hnext
      have hcurrent := h.current _ (List.mem_of_getElem? htask)
      rw [controllerStep, Pool.shared_turn htask, ← hcurrent.2.1]
      exact FirstmateExecutionService.settle_unheld hsettle

/-- What a step ends holds no credits, unless a pass finds it over before its settlement. -/
theorem unheld_of_retires (h : Settling rules p) {op : ControllerStep} (hop : op.Ordinary p)
    (hfirst : op.SettledFirst p) {owner objectiveId : String}
    (hretires : op.retires p owner objectiveId) :
    p.shared.billing.reservationStatus owner objectiveId ≠ some .reserved := by
  cases op with
  | retireOwner source now => exact absurd hop id
  | turn i input =>
    obtain ⟨task, htask, hretires⟩ := hretires
    have hfound := hfirst task htask
    unfold HostedTask.retires at hretires
    split at hretires
    · obtain ⟨rfl, rfl⟩ := Prod.mk.inj hretires
      exact h.marks _ _ (List.mem_of_getElem? htask)
    · next row rest =>
      obtain ⟨hended, htarget⟩ := hretires
      obtain ⟨rfl, rfl⟩ := Prod.mk.inj htarget
      simpa [HostedTask.found, hended] using hfound
    · exact absurd hretires id
  | _ => exact absurd hretires id

/-- After an ordinary step the runs that are over are settled, exactly if no pass finds a running
run over before its settlement. -/
theorem settledFirst_iff (h : Settling rules p) (op : ControllerStep) (hop : op.Ordinary p)
    (hsettled : p.shared.EndsSettled) :
    op.SettledFirst p ↔ (controllerStep rules p op).shared.EndsSettled := by
  constructor
  · intro hfirst r' hr' hstate hover
    by_cases hsubmissions : ∃ submissions, op = .submissions submissions
    · obtain ⟨submissions, rfl⟩ := hsubmissions
      exact hsettled r' hr' hstate hover
    have hmoved := controllerStep_moved h.toTracked op (not_exists.mp hsubmissions)
    rcases hmoved.unended r' hr' hstate with ⟨r, hr, howner, hid, hterminal⟩ | hretires
    · rw [← howner, ← hid]
      have hended := h.ended r hr hterminal
      exact controllerStep_unheld op hop hended (hsettled r hr hterminal hended)
    · exact controllerStep_unheld op hop (h.over_of_retires hop hretires)
        (h.unheld_of_retires hop hfirst hretires)
  · intro hall
    cases op with
    | turn i input =>
      intro task htask
      have hcurrent := h.current task (List.mem_of_getElem? htask)
      rw [controllerStep, HostedTables.EndsSettled, Pool.shared_turn htask] at hall
      unfold HostedTask.found
      split
      · next row rest =>
        split
        · next hended =>
          obtain ⟨hbegun, hover⟩ := hcurrent row List.mem_cons_self
          obtain ⟨r', hr', hstate, howner, hid⟩ :=
            markTerminal_ended (ReconcilePass.Current.row hcurrent).1 input.now
          simp only [HostedTask.turn, if_pos hended] at hall
          have hunheld := hall r' hr' hstate
          rw [howner, hid] at hunheld
          exact decide_eq_true (hunheld (hover hended))
        · rfl
      · rfl
    | _ => trivial

end Settling

/-- In a run without erasures of accounts, the credits of every run that is over with its objective
are settled or released in every state reached, exactly if no pass finds a running run over whose
objective's credits are still held. -/
theorem settlement_never_lost (rules : ControllerRules) (userProfiles : List String)
    (steps : List ControllerStep)
    (ordinary : RunMeets (controllerStep rules) (fun p step => step.Ordinary p)
      (HostedTables.initial userProfiles) steps) :
    RunMeets (controllerStep rules) (fun p step => step.SettledFirst p)
        (HostedTables.initial userProfiles) steps ↔
      ∀ before after, steps = before ++ after →
        (run (controllerStep rules) (HostedTables.initial userProfiles)
          before).shared.EndsSettled := by
  refine runMeets_iff_reached (P := fun p : Pool HostedTables HostedTask => p.shared.EndsSettled)
    (fun p op h hop => Settling.step h op hop)
    (fun p op h hop hsettled => Settling.settledFirst_iff h op hop hsettled) ordinary
    (.initial rules userProfiles) fun r hr => ?_
  simp [HostedTables.initial, Execution.initial] at hr

namespace SettlementSample

open LaunchSample

/-- The usage of a worker. -/
def usage : MeasuredUsage where
  provider := "openai"
  model := "gpt-4o-mini"
  inputTokens := 1000
  outputTokens := 100
  computeMilliseconds := 1000

/-- The event that fails the objective of the run. -/
def failedEvent (usage : MeasuredUsage) : FirstmateExecutionEvent where
  eventId := "failed"
  objectiveId := submission.objectiveId
  taskId := submission.taskId
  runId := smallConfig.runId "owner" submission.objectiveId
  occurredAtMs := 5
  report := .failed (some usage)

/-- The objective is reserved for, submitted and launched, and its worker reports its failure. -/
def failed (usage : MeasuredUsage) : List ControllerStep :=
  [.chat originChat,
    .billing Shipped.activated (.reserveObjective "owner" submission.objectiveId "key" 1704067200),
    .submissions (Table.empty.insertOrIgnore submission), process "first" 2, next 0 3, next 0 4,
    next 0 5, .ingest "owner" (failedEvent usage) 6 true]

/-- The service settles at once, if the model is priced, and then a pass handles the runs. -/
def reconciled (usage : MeasuredUsage) : List ControllerStep :=
  failed usage ++ [next 0 1704067201, .reconcile, next 0 7, next 0 8]

end SettlementSample

open LaunchSample SettlementSample

/-- A pass that comes after the settlement ends a settled run. -/
theorem settlement_never_lost_settled :
    let p := run (controllerStep rules) (HostedTables.initial ["owner"]) (reconciled usage)
    p.shared.execution.runs.rows.map (·.state) = [.terminal] ∧ p.shared.EndsSettled :=
  ⟨by decide, (settlement_never_lost rules ["owner"] (reconciled usage)
    (by decide)).mp (by decide) _ [] (List.append_nil _).symm⟩

/-- The settlement of a model without a price raises, and a pass ends the run with its credits
held. -/
theorem settlement_lost :
    let unpriced := { usage with model := "unpriced" }
    let p := run (controllerStep rules) (HostedTables.initial ["owner"]) (reconciled unpriced)
    RunMeets (controllerStep rules) (fun p step => step.Ordinary p) (HostedTables.initial ["owner"])
      (reconciled unpriced) ∧
    p.shared.execution.runs.rows.map (·.state) = [.terminal] ∧
    p.shared.execution.terminalPhase "owner" submission.objectiveId = some .failed ∧
    p.shared.billing.reservationStatus "owner" submission.objectiveId = some .reserved ∧
    ¬p.shared.EndsSettled := by
  decide

end Magistrate
