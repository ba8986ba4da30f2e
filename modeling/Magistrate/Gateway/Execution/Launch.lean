import Magistrate.Gateway.Billing.Shipped
import Magistrate.Gateway.Execution.Reconciliation

/-!
# Launches of finished objectives

A claim looks at the state of a run and at pending cancellations, not at the end
of its objective. The cancellation of a run that is not launched is stored as
the end of its objective first, which settles the pending cancellation, and its
run is ended later: a claim in this gap launches the run all the same. Without
such a gap no claim launches an objective that is over.
-/

namespace Magistrate

open Execution HostedExecutionStore

/-- The objective whose end a task stored, if its run is still to be ended and was not read as
running. -/
def HostedTask.gap : HostedTask → Option (String × String)
  | .settle r _ rest | .mark r rest =>
    if rest.running then none else some (r.ownerUserId, r.objectiveId)
  | _ => none

/-- Whether a claim can come to launch the objective whose end a task stored. -/
def HostedTask.exposed (db : Execution) (task : HostedTask) : Bool :=
  task.gap.any fun (owner, objectiveId) => db.Launchable owner objectiveId

/-- Whether the settlement of a task raises. -/
def HostedTask.unsettled (input : HostedTurn) (billing : Billing) : HostedTask → Bool
  | .settle r event _ => !(FirstmateExecutionService.settle input.catalog r.ownerUserId event
      input.seconds billing).isOk
  | _ => false

/-- A step that opens no gap: no claim and no crash comes between the stored end of an objective and
the end of its run that is not launched, a source ends launched objectives only, and the intake
submits no objective that is over already. -/
def ControllerStep.GapFree (p : Pool HostedTables HostedTask) : ControllerStep → Prop
  | .process _ _ => ∀ task ∈ p.workers, task.exposed p.shared.execution = false
  | .ingest owner event _ _ =>
    event.phase.terminal = true → ¬p.shared.execution.Launchable owner event.objectiveId
  | .turn i input => ∀ task, p.workers[i]? = some task →
    task.unsettled input p.shared.billing = true → task.exposed p.shared.execution = false
  | .stop i => ∀ task, p.workers[i]? = some task → task.exposed p.shared.execution = false
  | .submissions offered => ∀ s ∈ offered.rows,
    p.shared.execution.Over s.ownerUserId s.objectiveId →
      (p.shared.execution.submissions.find? s.objectiveId).any
        (fun prior => prior.ownerUserId = s.ownerUserId) = true
  | _ => True

instance (p : Pool HostedTables HostedTask) (step : ControllerStep) :
    Decidable (step.GapFree p) := by
  unfold ControllerStep.GapFree
  split <;> infer_instance

/-- An objective that is over is not launchable, unless a task is about to end its run. -/
structure Guarded (rules : ControllerRules) (p : Pool HostedTables HostedTask) : Prop
    extends Tracked rules p where
  guarded : ∀ owner objectiveId, p.shared.execution.Over owner objectiveId →
    p.shared.execution.Launchable owner objectiveId →
      ∃ task ∈ p.workers, task.gap = some (owner, objectiveId)

/-- The intake makes no objective launchable that is over. -/
theorem launchable_of_offered {db : Execution}
    {offered : Table ObjectiveSubmission.objectiveId} {owner objectiveId : String}
    (hover : db.Over owner objectiveId)
    (hprior : ∀ s ∈ offered.rows, db.Over s.ownerUserId s.objectiveId →
      (db.submissions.find? s.objectiveId).any
        (fun prior => prior.ownerUserId = s.ownerUserId) = true)
    (h : { db with submissions := offered }.Launchable owner objectiveId) :
    db.Launchable owner objectiveId := by
  unfold Launchable at h ⊢
  cases hr : db.runs.find? objectiveId with
  | some r => simpa only [hr] using h
  | none =>
    simp only [hr] at h ⊢
    cases hs : offered.find? objectiveId with
    | none => simp [hs] at h
    | some s =>
      obtain ⟨hmem, rfl⟩ := Table.mem_of_find? hs
      obtain rfl : s.ownerUserId = owner := by simpa [hs] using h
      exact hprior s hmem hover

namespace HostedTask

variable {db : Execution} {rules : ControllerRules} {input : HostedTurn} {t : HostedTables}
  {task : HostedTask} {owner objectiveId : String}

theorem exposed_of_gap (h : task.gap = some (owner, objectiveId))
    (hlaunch : db.Launchable owner objectiveId) : task.exposed db = true := by
  simp [exposed, h, hlaunch]

/-- A turn in a gap ends the run, or leaves the gap to the task. -/
theorem turn_gap (hcurrent : task.Current t.execution)
    (hsettled : task.unsettled input t.billing = true → task.exposed t.execution = false)
    (hgap : task.gap = some (owner, objectiveId))
    (hlaunch : (task.turn rules input t).1.execution.Launchable owner objectiveId) :
    ∃ next, (task.turn rules input t).2 = some next ∧ next.gap = some (owner, objectiveId) := by
  have hbefore := (turn_moved rules input t hcurrent).launchable _ _ hlaunch
  cases task with
  | settle r event rest =>
    simp only [turn]
    split
    · next hraise =>
      have hunsettled := hsettled (by simp [unsettled, hraise, Except.isOk, Except.toBool])
      exact absurd (exposed_of_gap hgap hbefore) (by simp [hunsettled])
    · exact ⟨_, rfl, hgap⟩
  | mark r rest =>
    have htarget : (r.ownerUserId, r.objectiveId) = (owner, objectiveId) := by
      simp only [gap] at hgap
      split at hgap
      · cases hgap
      · exact Option.some.inj hgap
    obtain ⟨rfl, rfl⟩ := Prod.mk.inj htarget
    exact absurd hlaunch (markTerminal_not_launchable hcurrent.1.1 input.now)
  | _ => cases hgap

/-- A turn that ends an objective opens a gap, if the run is not launched. -/
theorem turn_opens (hcurrent : task.Current t.execution) (hends : task.ends owner objectiveId)
    (hopen : ¬t.execution.Over owner objectiveId)
    (hover : (task.turn rules input t).1.execution.Over owner objectiveId)
    (hlaunch : t.execution.Launchable owner objectiveId) :
    ∃ next, (task.turn rules input t).2 = some next ∧ next.gap = some (owner, objectiveId) := by
  cases task with
  | terminal r event rest =>
    obtain ⟨rfl, rfl⟩ := Prod.mk.inj hends
    simp only [turn] at hover ⊢
    split
    · next hraise =>
      rw [hraise] at hover
      exact absurd hover hopen
    · refine ⟨_, rfl, ?_⟩
      have hrunning : rest.running = false := by
        refine Bool.eq_false_iff.mpr fun hrunning => ?_
        exact (hcurrent.1.2.1 hrunning).not_launchable hlaunch
      simp [gap, hrunning]
  | _ => exact absurd hends id

end HostedTask

namespace Guarded

variable {rules : ControllerRules} {p : Pool HostedTables HostedTask}

theorem initial (rules : ControllerRules) (userProfiles : List String) :
    Guarded rules (HostedTables.initial userProfiles) where
  toTracked := .initial rules userProfiles
  guarded _ _ h := absurd rfl h

/-- A step that opens no gap keeps the objectives guarded. -/
theorem step (h : Guarded rules p) (op : ControllerStep) (hfree : op.GapFree p) :
    Guarded rules (controllerStep rules p op) where
  toTracked := h.toTracked.step op
  guarded owner objectiveId hover hlaunch := by
    by_cases hop : ∃ submissions, op = .submissions submissions
    · obtain ⟨submissions, rfl⟩ := hop
      refine h.guarded owner objectiveId hover ?_
      have hover' : p.shared.execution.Over owner objectiveId := hover
      exact launchable_of_offered hover' hfree hlaunch
    have hmoved := controllerStep_moved h.toTracked op (not_exists.mp hop)
    have hbefore := hmoved.launchable _ _ hlaunch
    by_cases hended : p.shared.execution.Over owner objectiveId
    · obtain ⟨task, htask, hgap⟩ := h.guarded owner objectiveId hended hbefore
      rcases mem_controllerStep_of_mem htask op with hstays | ⟨i, hi, rfl | ⟨input, rfl⟩⟩
      · exact ⟨task, hstays, hgap⟩
      · exact absurd (HostedTask.exposed_of_gap hgap hbefore) (by simp [hfree task hi])
      · rw [controllerStep, Pool.shared_turn hi] at hlaunch
        obtain ⟨next, hnext, hgap'⟩ :=
          HostedTask.turn_gap (h.current task htask) (hfree task hi) hgap hlaunch
        exact ⟨next, Pool.mem_turn_next hi hnext, hgap'⟩
    · have hends := (hmoved.ends _ _ hover).resolve_left hended
      cases op with
      | ingest source event now projected =>
        obtain ⟨hterminal, htarget⟩ := hends
        obtain ⟨rfl, rfl⟩ := Prod.mk.inj htarget
        exact absurd hbefore (hfree hterminal)
      | turn i input =>
        obtain ⟨task, hi, hends⟩ := hends
        rw [controllerStep, Pool.shared_turn hi] at hover
        obtain ⟨next, hnext, hgap⟩ := HostedTask.turn_opens
          (h.current task (List.mem_of_getElem? hi)) hends hended hover hbefore
        exact ⟨next, Pool.mem_turn_next hi hnext, hgap⟩
      | _ => exact absurd hends id

end Guarded

/-- In every run without a gap, a claim returns no run whose objective is over. -/
theorem finished_never_launched (rules : ControllerRules) (userProfiles : List String)
    (steps : List ControllerStep) (draws : ClaimDraws) (now : ℤ)
    (gapFree : RunMeets (controllerStep rules) (fun p step => step.GapFree p)
      (HostedTables.initial userProfiles) (steps ++ [.process draws now])) :
    let p := run (controllerStep rules) (HostedTables.initial userProfiles) steps
    ∀ r, (claim rules.config draws now p.shared.execution).1 = some r →
      p.shared.execution.terminalPhase r.ownerUserId r.objectiveId = none := by
  intro p r hr
  obtain ⟨hsteps, hclaim, -⟩ := runMeets_append.mp gapFree
  have hguarded : Guarded rules p :=
    run_invariant (fun _ op h hfree => h.step op hfree) hsteps (.initial rules userProfiles)
  have hlaunch := claim_launchable hr
  by_contra hover
  obtain ⟨task, htask, hgap⟩ := hguarded.guarded _ _ hover hlaunch
  exact absurd (HostedTask.exposed_of_gap hgap hlaunch) (Bool.eq_false_iff.mp (hclaim task htask))

namespace LaunchSample

/-- Rules that take texts as they are. -/
def rules : ControllerRules where
  config := smallConfig
  activity := plainRules
  requestId owner key := owner ++ key
  eventId text := text
  origin _ := ("Objective", "mgc_conversation", "mgm_message")
  production := true

/-- An accepted submission of the objective. -/
def submission : ObjectiveSubmission :=
  { acceptedSubmission with objectiveId := acceptedEvent.objectiveId }

/-- A controller claims. -/
def process (leaseId : String) (now : ℤ) : ControllerStep :=
  .process ⟨fun id => (id ++ leaseId, "token"), leaseId⟩ now

/-- The objective is submitted, and cancelled before a controller opens its run. -/
def cancelled : List ControllerStep :=
  [.chat originChat, .submissions (Table.empty.insertOrIgnore submission),
    .request "owner" "session" submission.objectiveId "cancel-key" 1 false true 0,
    process "first" 2, .reconcile]

/-- The next turn of a task. -/
def next (task : ℕ) (now : ℤ) : ControllerStep :=
  .turn task { catalog := Shipped.activated, now, seconds := now }

/-- A pass stores the accepted event of the run, reads the time, and stores the cancelled event. -/
def inGap : List ControllerStep := cancelled ++ [next 1 3, next 1 4, next 1 5]

end LaunchSample

open LaunchSample

/-- A claim launches an objective that is not over. -/
theorem finished_never_launched_claimed :
    let steps := [.chat originChat, .submissions (Table.empty.insertOrIgnore submission)]
    let db := (run (controllerStep rules) (HostedTables.initial []) steps).shared.execution
    let draws : ClaimDraws := ⟨fun id => (id, "token"), "lease"⟩
    (claim rules.config draws 1 db).1.map (·.objectiveId) = some submission.objectiveId ∧
      ∀ r, (claim rules.config draws 1 db).1 = some r →
        db.terminalPhase r.ownerUserId r.objectiveId = none :=
  ⟨by decide, finished_never_launched _ _ _ _ _ (by decide)⟩

/-- A claim in the gap launches an objective that is cancelled. -/
theorem cancelled_objective_launched :
    ¬∀ (rules : ControllerRules) (userProfiles : List String) (steps : List ControllerStep)
      (draws : ClaimDraws) (now : ℤ),
      let db :=
        (run (controllerStep rules) (HostedTables.initial userProfiles) steps).shared.execution
      ∀ r, (claim rules.config draws now db).1 = some r →
        db.terminalPhase r.ownerUserId r.objectiveId = none := by
  intro hall
  have hreturned : ((claim rules.config ⟨fun id => (id, "token"), "second"⟩ 6
      (run (controllerStep rules) (HostedTables.initial []) inGap).shared.execution).1.any fun r =>
        (run (controllerStep rules) (HostedTables.initial []) inGap).shared.execution.terminalPhase
          r.ownerUserId r.objectiveId = some .cancelled) = true := by
    decide
  obtain ⟨r, hr, hphase⟩ := Option.any_eq_true _ _ |>.mp hreturned
  have hnone := hall rules [] inGap _ 6 r hr
  rw [of_decide_eq_true hphase] at hnone
  exact Option.some_ne_none _ hnone

end Magistrate
