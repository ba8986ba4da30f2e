import Magistrate.Gateway.Execution.Onward

/-!
# What the tasks read

A task goes on with the runs and the events that it read. Its next transaction
does with them what it could do at once, since what it read of them is still so.
-/

namespace Magistrate

open Execution HostedExecutionStore

/-- Whether a report ends its objective. -/
def EventReport.ends : EventReport → Bool
  | .completed .. | .failed _ | .cancelled _ => true
  | _ => false

theorem FirstmateExecutionEvent.terminal_phase (event : FirstmateExecutionEvent) :
    event.phase.terminal = event.report.ends := by
  obtain ⟨_, _, _, _, _, report⟩ := event
  cases report <;> rfl

namespace ReconcilePass

/-- Whether a pass handles the running runs. -/
def running : ReconcilePass → Bool
  | .active _ => true
  | _ => false

/-- What a pass read of the runs that it has still to handle. -/
def Current (db : Execution) : ReconcilePass → Prop
  | .cancellations rest => ∀ r ∈ rest, db.HasRun r
  | .active rest => ∀ row ∈ rest, db.HasBegun row.run ∧
      (row.terminalPhase.isSome = true → db.Over row.run.ownerUserId row.run.objectiveId)
  | .cleanup _ => True

/-- What a pass read of the run that it handles. -/
def Handles (db : Execution) (r : HostedRun) (pass : ReconcilePass) : Prop :=
  db.HasRun r ∧ (pass.running = true → db.HasBegun r) ∧ pass.Current db

end ReconcilePass

namespace HostedTask

/-- What a task read and wrote before. -/
def Current (db : Execution) : HostedTask → Prop
  | .pass rest => rest.Current db
  | .started r _ rest => (ReconcilePass.active rest).Handles db r
  | .observed r _ report rest => rest.Handles db r ∧ report.ends = true
  | .terminal r event rest =>
    rest.Handles db r ∧ event.objectiveId = r.objectiveId ∧ event.phase.terminal = true
  | .settle r event rest =>
    rest.Handles db r ∧ event.objectiveId = r.objectiveId ∧ db.Over r.ownerUserId r.objectiveId
  | .mark r rest => rest.Handles db r ∧ db.Over r.ownerUserId r.objectiveId
  | _ => True

/-- The objective that a turn can end. -/
def ends : HostedTask → String → String → Prop
  | .terminal r _ _, owner, objectiveId => (owner, objectiveId) = (r.ownerUserId, r.objectiveId)
  | _, _, _ => False

/-- The run that a turn ends. -/
def retires : HostedTask → String → String → Prop
  | .mark r _, owner, objectiveId => (owner, objectiveId) = (r.ownerUserId, r.objectiveId)
  | .pass (.active (row :: _)), owner, objectiveId => row.terminalPhase.isSome = true ∧
      (owner, objectiveId) = (row.run.ownerUserId, row.run.objectiveId)
  | _, _, _ => False

end HostedTask

section Current

variable {rules : ActivityRules} {db db' : Execution}

/-- What a pass read is still so. -/
theorem ReconcilePass.Current.onward {pass : ReconcilePass} (h : pass.Current db)
    (later : Onward rules db db') : pass.Current db' := by
  cases pass with
  | cancellations rest => exact fun r hr => (h r hr).onward later
  | active rest =>
    exact fun row hrow => ⟨(h row hrow).1.onward later, fun hended =>
      later.staysOver _ _ ((h row hrow).2 hended)⟩
  | cleanup rest => trivial

theorem ReconcilePass.Handles.onward {r : HostedRun} {pass : ReconcilePass}
    (h : pass.Handles db r) (later : Onward rules db db') : pass.Handles db' r :=
  ⟨h.1.onward later, fun hrunning => (h.2.1 hrunning).onward later, h.2.2.onward later⟩

/-- What a task read and wrote is still so. -/
theorem HostedTask.Current.onward {task : HostedTask} (h : task.Current db)
    (later : Onward rules db db') : task.Current db' := by
  cases task with
  | pass pass => exact ReconcilePass.Current.onward h later
  | started r ended rest => exact ReconcilePass.Handles.onward h later
  | observed r label report rest => exact ⟨h.1.onward later, h.2⟩
  | terminal r event rest => exact ⟨h.1.onward later, h.2⟩
  | settle r event rest => exact ⟨h.1.onward later, h.2.1, later.staysOver _ _ h.2.2⟩
  | mark r rest => exact ⟨h.1.onward later, later.staysOver _ _ h.2⟩
  | launch | ensure | launched | launchFailed | retire | service | cancellation => trivial

/-- A pass handles the first of its cancelled runs. -/
theorem ReconcilePass.Current.cancellation {r : HostedRun} {rest : List HostedRun}
    (h : (ReconcilePass.cancellations (r :: rest)).Current db) :
    (ReconcilePass.cancellations rest).Handles db r :=
  ⟨h r List.mem_cons_self, fun hrunning => absurd hrunning (by simp [ReconcilePass.running]),
    fun s hs => h s (List.mem_cons_of_mem r hs)⟩

/-- A pass handles the first of its running runs. -/
theorem ReconcilePass.Current.row {row : ActiveRun} {rest : List ActiveRun}
    (h : (ReconcilePass.active (row :: rest)).Current db) :
    (ReconcilePass.active rest).Handles db row.run := by
  obtain ⟨hbegun, -⟩ := h row List.mem_cons_self
  exact ⟨hbegun.imp fun _ hr => ⟨hr.1, hr.2.1⟩, fun _ => hbegun,
    fun s hs => h s (List.mem_cons_of_mem row hs)⟩

/-- A pass starts with stored runs. -/
theorem queuedCancellations_current (db : Execution) :
    (ReconcilePass.cancellations (queuedCancellations db)).Current db := by
  intro r hr
  have hmem := (List.mem_insertionSort _).mp (List.mem_of_mem_take hr)
  exact .of_mem (List.mem_filter.mp hmem).1

/-- The running runs are read with the ends of their objectives. -/
theorem active_current (db : Execution) : (ReconcilePass.active (active db)).Current db := by
  intro row hrow
  obtain ⟨r, hr, rfl⟩ := List.mem_map.mp hrow
  have hmem := (List.mem_insertionSort _).mp (List.mem_of_mem_take hr)
  obtain ⟨hmem, hrunning⟩ := List.mem_filter.mp hmem
  refine ⟨⟨r, Table.find?_of_mem hmem, rfl, ?_⟩, fun hended => Option.isSome_iff_ne_none.mp hended⟩
  simp [HostedRun.begun, of_decide_eq_true hrunning]

end Current

namespace HostedTask

open FirstmateExecutionService HostedExecutionController

variable {rules : ControllerRules} {input : HostedTurn} {t : HostedTables} {task next : HostedTask}

/-- A turn ends the objective or the run that its task is at, and keeps the rest. -/
theorem turn_moved (rules : ControllerRules) (input : HostedTurn) (t : HostedTables)
    (h : task.Current t.execution) :
    Moved rules.activity task.ends task.retires t.execution
      (task.turn rules input t).1.execution := by
  have hidle : Idle rules.activity t.execution t.execution := .refl _ _
  cases task with
  | pass rest =>
    cases rest with
    | cancellations rest =>
      cases rest with
      | nil => exact hidle.moved _ _
      | cons r rest =>
        simp only [turn]
        split
        · exact hidle.moved _ _
        · next db hstore => exact (store_idle hstore rfl).moved _ _
    | active rest =>
      cases rest with
      | nil => exact hidle.moved _ _
      | cons row rest =>
        simp only [turn]
        split
        · next hended =>
          have hmark := markTerminal_moved rules.activity rules.config row.run.ownerUserId
            row.run.objectiveId input.now t.execution
          exact { hmark with
            unended := fun r hr hstate => (hmark.unended r hr hstate).imp_right fun hthis =>
              ⟨hended, hthis⟩ }
        · split <;> exact hidle.moved _ _
    | cleanup rest =>
      cases rest with
      | nil => exact hidle.moved _ _
      | cons r rest =>
        simp only [turn]
        split
        · exact hidle.moved _ _
        · exact (cleaned_idle _ rules.config _ _ _).moved _ _
  | started r ended rest =>
    simp only [turn]
    split
    · exact hidle.moved _ _
    · next db hstore => exact (store_idle hstore rfl).moved _ _
  | observed r label report rest =>
    simp only [turn]
    split <;> exact (terminalTimestamp_idle _ rules.config _ _ _).moved _ _
  | terminal r event rest =>
    simp only [turn]
    split
    · exact hidle.moved _ _
    · next db hstore =>
      have hmoved := store_moved hstore
      exact { hmoved with
        ends := fun o id hover => (hmoved.ends o id hover).imp_right fun hthis =>
          hthis.2.trans (by rw [h.2.1])
        unended := fun r hr hstate => .inl ((hmoved.unended r hr hstate).resolve_right id) }
  | settle r event rest =>
    simp only [turn]
    split <;> exact hidle.moved _ _
  | mark r rest => exact markTerminal_moved _ rules.config _ _ _ _
  | launch r =>
    simp only [turn]
    split
    · exact hidle.moved _ _
    · next db hstore => exact (store_idle hstore rfl).moved _ _
  | ensure r => exact hidle.moved _ _
  | launched r =>
    simp only [turn]
    split
    · exact hidle.moved _ _
    · next db hlaunched => exact (launched_idle rules.config hlaunched).moved _ _
  | launchFailed r => exact (launchFailed_idle _ rules.config _ _ _ _).moved _ _
  | retire rest =>
    cases rest with
    | nil => exact hidle.moved _ _
    | cons r rest =>
      simp only [turn]
      split
      · exact hidle.moved _ _
      · exact (cleaned_idle _ rules.config _ _ _).moved _ _
  | service owner event =>
    simp only [turn]
    split <;> exact hidle.moved _ _
  | cancellation task =>
    exact (ObjectiveCancellationService.turn_idle _ _ _ task _ _).moved _ _

/-- A task goes on with what is so after its turn. -/
theorem turn_current (hstreams : EventStreams rules.activity t.execution)
    (hcolumns : t.execution.EventColumns) (h : task.Current t.execution)
    (hnext : (task.turn rules input t).2 = some next) :
    next.Current (task.turn rules input t).1.execution := by
  have later := (turn_moved rules input t h).toOnward
  cases task with
  | pass rest =>
    cases rest with
    | cancellations rest =>
      cases rest with
      | nil =>
        obtain rfl := Option.some.inj hnext
        exact active_current t.execution
      | cons r rest =>
        simp only [turn] at hnext later ⊢
        split at hnext
        · cases hnext
        · next db hstore =>
          obtain rfl := Option.some.inj hnext
          simp only [hstore] at later ⊢
          exact ⟨(ReconcilePass.Current.cancellation h).onward later, rfl⟩
    | active rest =>
      cases rest with
      | nil =>
        obtain rfl := Option.some.inj hnext
        trivial
      | cons row rest =>
        have hrow := ReconcilePass.Current.row h
        simp only [turn] at hnext later ⊢
        split at hnext
        · next hended =>
          obtain rfl := Option.some.inj hnext
          simp only [if_pos hended] at later ⊢
          exact hrow.2.2.onward later
        · next hopen =>
          simp only [if_neg hopen] at later ⊢
          split at hnext
          · cases hnext
          all_goals
            obtain rfl := Option.some.inj hnext
            first | exact hrow.2.2 | exact hrow
    | cleanup rest =>
      cases rest with
      | nil => cases hnext
      | cons r rest =>
        simp only [turn] at hnext
        split at hnext
        · cases hnext
        · obtain rfl := Option.some.inj hnext
          trivial
  | started r ended rest =>
    simp only [turn] at hnext later ⊢
    split at hnext
    · cases hnext
    · next db hstore =>
      simp only [hstore] at later ⊢
      have hhandles := ReconcilePass.Handles.onward h later
      split at hnext
      · obtain rfl := Option.some.inj hnext
        exact hhandles.2.2
      · cases hnext
      · next how usage =>
        obtain rfl := Option.some.inj hnext
        refine ⟨hhandles, ?_⟩
        cases how <;> rfl
  | observed r label report rest =>
    simp only [turn] at hnext later ⊢
    split at hnext
    · cases hnext
    · next observedAt hobserved =>
      obtain rfl := Option.some.inj hnext
      simp only [hobserved] at later ⊢
      refine ⟨h.1.onward later, rfl, ?_⟩
      rw [FirstmateExecutionEvent.terminal_phase]
      exact h.2
  | terminal r event rest =>
    simp only [turn] at hnext later ⊢
    split at hnext
    · cases hnext
    · next db hstore =>
      obtain rfl := Option.some.inj hnext
      simp only [hstore] at later ⊢
      refine ⟨h.1.onward later, h.2.1, ?_⟩
      rw [← h.2.1]
      exact store_over hstreams hcolumns hstore h.2.2
  | settle r event rest =>
    simp only [turn] at hnext
    split at hnext
    · cases hnext
    · next billing hsettle =>
      obtain rfl := Option.some.inj hnext
      simp only [turn, hsettle]
      exact ⟨h.1, h.2.2⟩
  | mark r rest =>
    obtain rfl := Option.some.inj hnext
    exact (h.1.onward later).2.2
  | launch r =>
    simp only [turn] at hnext
    split at hnext <;> (obtain rfl := Option.some.inj hnext; trivial)
  | ensure r =>
    obtain rfl := Option.some.inj hnext
    split <;> trivial
  | launched r =>
    simp only [turn] at hnext
    split at hnext
    · obtain rfl := Option.some.inj hnext
      trivial
    · cases hnext
  | launchFailed r => cases hnext
  | retire rest =>
    cases rest with
    | nil => cases hnext
    | cons r rest =>
      simp only [turn] at hnext
      split at hnext
      · cases hnext
      · obtain rfl := Option.some.inj hnext
        trivial
  | service owner event =>
    simp only [turn] at hnext
    split at hnext <;> cases hnext
  | cancellation task =>
    obtain ⟨next, -, rfl⟩ := Option.map_eq_some_iff.mp hnext
    trivial

end HostedTask

namespace ControllerStep

/-- The objectives that a step can end. -/
def ends (p : Pool HostedTables HostedTask) : ControllerStep → String → String → Prop
  | .ingest owner event _ _, o, id =>
    event.phase.terminal = true ∧ (o, id) = (owner, event.objectiveId)
  | .turn i _, o, id => ∃ task, p.workers[i]? = some task ∧ task.ends o id
  | _, _, _ => False

/-- The runs that a step ends. -/
def retires (p : Pool HostedTables HostedTask) : ControllerStep → String → String → Prop
  | .retireOwner owner _, o, _ => o = owner
  | .turn i _, o, id => ∃ task, p.workers[i]? = some task ∧ task.retires o id
  | _, _, _ => False

end ControllerStep

/-- Whether a task can be the first of its kind. -/
def HostedTask.fresh : HostedTask → Bool
  | .pass _ | .terminal .. | .launch _ | .retire _ | .service .. | .cancellation _ => true
  | _ => false

/-- The events are in order, and what the tasks read and wrote is so. -/
structure Tracked (rules : ControllerRules) (p : Pool HostedTables HostedTask) : Prop where
  streams : EventStreams rules.activity p.shared.execution
  columns : p.shared.execution.EventColumns
  current : ∀ task ∈ p.workers, task.Current p.shared.execution

section Step

variable {rules : ControllerRules} {p : Pool HostedTables HostedTask}

/-- What a step does to the runs and to the objectives; the intake can add submissions. -/
theorem controllerStep_moved (h : Tracked rules p) (op : ControllerStep)
    (hop : ∀ submissions, op ≠ .submissions submissions) :
    Moved rules.activity (op.ends p) (op.retires p) p.shared.execution
      (controllerStep rules p op).shared.execution := by
  have hidle : Idle rules.activity p.shared.execution p.shared.execution := .refl _ _
  cases op with
  | process draws now =>
    have hclaim := claim_idle rules.activity rules.config draws now p.shared.execution
    simp only [controllerStep]
    split <;> (next hresult => rw [hresult] at hclaim; exact hclaim.moved _ _)
  | reconcile => exact hidle.moved _ _
  | retireOwner owner now => exact retireOwner_moved _ rules.config _ _ _
  | ingest owner event now projected =>
    simp only [controllerStep]
    split
    · exact hidle.moved _ _
    · next db hstore =>
      have hmoved := FirstmateExecutionService.store_moved hstore
      split <;> exact hmoved
  | post event =>
    simp only [controllerStep]
    split
    · exact hidle.moved _ _
    · split <;> exact hidle.moved _ _
  | request owner actor objectiveId key now reserved projected pick =>
    simp only [controllerStep]
    split
    · exact hidle.moved _ _
    · next row duplicate notify db hrequest =>
      have hmoved := (ObjectiveCancellationService.request_idle rules.activity hrequest).moved
      split <;> exact hmoved _ _
  | recover maximum cutoff =>
    simp only [controllerStep]
    split <;> exact hidle.moved _ _
  | turn i input =>
    simp only [controllerStep]
    cases htask : p.workers[i]? with
    | none =>
      rw [Pool.turn_none htask]
      exact hidle.moved _ _
    | some task =>
      rw [Pool.shared_turn htask]
      have hmoved := HostedTask.turn_moved rules input p.shared
        (h.current task (List.mem_of_getElem? htask))
      exact { hmoved with
        ends := fun o id hover => (hmoved.ends o id hover).imp_right fun hthis =>
          ⟨task, htask, hthis⟩
        unended := fun r hr hstate => (hmoved.unended r hr hstate).imp_right fun hthis =>
          ⟨task, htask, hthis⟩ }
  | stop i =>
    simp only [controllerStep]
    cases htask : p.workers[i]? with
    | none =>
      rw [Pool.turn_none htask]
      exact hidle.moved _ _
    | some task =>
      rw [Pool.shared_turn htask]
      exact hidle.moved _ _
  | billing catalog op => exact hidle.moved _ _
  | submissions submissions => exact absurd rfl (hop submissions)
  | chat chat =>
    have hchat : Idle rules.activity p.shared.execution { p.shared.execution with chat } :=
      .of_same rfl rfl rfl rfl
    exact hchat.moved _ _

/-- What was so before a step is so after it. -/
theorem controllerStep_onward (h : Tracked rules p) (op : ControllerStep) :
    Onward rules.activity p.shared.execution (controllerStep rules p op).shared.execution := by
  by_cases hop : ∃ submissions, op = .submissions submissions
  · obtain ⟨submissions, rfl⟩ := hop
    exact hostedStep_onward _ rules.config _ (.submissions submissions)
  · exact (controllerStep_moved h op (not_exists.mp hop)).toOnward

/-- After a step every task was there before, is started, or is where the one whose turn it was
goes on. -/
theorem mem_controllerStep {op : ControllerStep} {task' : HostedTask}
    (h : task' ∈ (controllerStep rules p op).workers) :
    task' ∈ p.workers ∨ (task'.fresh = true ∧ task'.Current p.shared.execution) ∨
      ∃ i input task, op = .turn i input ∧ p.workers[i]? = some task ∧
        (task.turn rules input p.shared).2 = some task' := by
  have hspawn : ∀ {tasks : List HostedTask} {task : HostedTask}, task' ∈ tasks ++ [task] →
      task.fresh = true → task.Current p.shared.execution →
      task' ∈ tasks ∨ task'.fresh = true ∧ task'.Current p.shared.execution := by
    intro tasks task hmem hfresh hcurrent
    rcases List.mem_append.mp hmem with hmem | hmem
    · exact .inl hmem
    · rw [List.mem_singleton.mp hmem]
      exact .inr ⟨hfresh, hcurrent⟩
  cases op with
  | process draws now =>
    simp only [controllerStep] at h
    split at h
    · exact .inl h
    · exact (hspawn h rfl trivial).imp_right .inl
  | reconcile =>
    exact (hspawn h rfl (queuedCancellations_current p.shared.execution)).imp_right .inl
  | retireOwner owner now => exact (hspawn h rfl trivial).imp_right .inl
  | ingest owner event now projected =>
    simp only [controllerStep] at h
    split at h
    · exact .inl h
    · split at h
      · exact (hspawn h rfl trivial).imp_right .inl
      · exact .inl h
  | post event =>
    simp only [controllerStep] at h
    split at h
    · exact .inl h
    · next r hr =>
      split at h
      · next hposted =>
        obtain ⟨hmem, hid⟩ := Table.mem_of_find? hr
        refine (hspawn h rfl ⟨⟨.of_mem hmem, fun hrunning => ?_, trivial⟩, hid.symm, ?_⟩).imp_right
          .inl
        · simp [ReconcilePass.running] at hrunning
        · exact hposted.2.1
      · exact .inl h
  | request owner actor objectiveId key now reserved projected pick =>
    simp only [controllerStep] at h
    split at h
    · exact .inl h
    · split at h
      · exact (hspawn h rfl trivial).imp_right .inl
      · exact .inl h
  | recover maximum cutoff =>
    simp only [controllerStep] at h
    split at h
    · exact .inl h
    · exact (hspawn h rfl trivial).imp_right .inl
  | turn i input =>
    rcases Pool.mem_turn h with hmem | ⟨task, htask, hnext⟩
    · exact .inl hmem
    · exact .inr (.inr ⟨i, input, task, rfl, htask, hnext⟩)
  | stop i =>
    rcases Pool.mem_turn h with hmem | ⟨task, -, hnext⟩
    · exact .inl hmem
    · simp at hnext
  | billing catalog op => exact .inl h
  | submissions submissions => exact .inl h
  | chat chat => exact .inl h

/-- A task whose turn it is not stays. -/
theorem mem_controllerStep_of_mem {task : HostedTask} (h : task ∈ p.workers)
    (op : ControllerStep) : task ∈ (controllerStep rules p op).workers ∨
      ∃ i, p.workers[i]? = some task ∧ (op = .stop i ∨ ∃ input, op = .turn i input) := by
  have hspawn : ∀ (q : Pool HostedTables HostedTask) (new : HostedTask), q.workers = p.workers →
      task ∈ (q.spawn new).workers := by
    intro q new hq
    exact List.mem_append_left _ (hq ▸ h)
  cases op with
  | process draws now =>
    simp only [controllerStep]
    split
    · exact .inl h
    · exact .inl (hspawn _ _ rfl)
  | reconcile => exact .inl (hspawn _ _ rfl)
  | retireOwner owner now => exact .inl (hspawn _ _ rfl)
  | ingest owner event now projected =>
    simp only [controllerStep]
    split
    · exact .inl h
    · split
      · exact .inl (hspawn _ _ rfl)
      · exact .inl h
  | post event =>
    simp only [controllerStep]
    split
    · exact .inl h
    · split
      · exact .inl (hspawn _ _ rfl)
      · exact .inl h
  | request owner actor objectiveId key now reserved projected pick =>
    simp only [controllerStep]
    split
    · exact .inl h
    · split
      · exact .inl (hspawn _ _ rfl)
      · exact .inl h
  | recover maximum cutoff =>
    simp only [controllerStep]
    split
    · exact .inl h
    · exact .inl (hspawn _ _ rfl)
  | turn i input => exact (Pool.mem_turn_of_mem h).imp_right fun hi => ⟨i, hi, .inr ⟨input, rfl⟩⟩
  | stop i => exact (Pool.mem_turn_of_mem h).imp_right fun hi => ⟨i, hi, .inl rfl⟩
  | billing catalog op => exact .inl h
  | submissions submissions => exact .inl h
  | chat chat => exact .inl h

namespace Tracked

theorem initial (rules : ControllerRules) (userProfiles : List String) :
    Tracked rules (HostedTables.initial userProfiles) :=
  ⟨.initial, fun _ he => by simp [HostedTables.initial, Execution.initial] at he,
    fun _ htask => by simp [HostedTables.initial] at htask⟩

/-- Every step keeps what the tasks read and wrote. -/
theorem step (h : Tracked rules p) (op : ControllerStep) :
    Tracked rules (controllerStep rules p op) := by
  have later := controllerStep_onward h op
  refine ⟨later.streams h.streams, later.columns h.columns, fun task' htask' => ?_⟩
  rcases mem_controllerStep htask' with hmem | ⟨-, hcurrent⟩ | ⟨i, input, task, rfl, htask, hnext⟩
  · exact (h.current task' hmem).onward later
  · exact hcurrent.onward later
  · have hcurrent := HostedTask.turn_current h.streams h.columns
      (h.current task (List.mem_of_getElem? htask)) hnext
    rw [controllerStep, Pool.shared_turn htask]
    exact hcurrent

end Tracked

end Step

end Magistrate
