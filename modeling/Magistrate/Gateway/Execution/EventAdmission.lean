import Magistrate.Gateway.Execution.EventContract

/-!
# Admitted events and their projections

An event that its contract admits and that its objective takes up is committed, unless
one of its ids resembles a credential or the revisions of its objective are used up.
-/

namespace Magistrate

variable {rules : EventRules} {owner : String} {event : FirstmateExecutionEvent} {now : ℤ}

section Publication

/-- Principals are bounded. -/
theorem bounded_principal (h : isPrincipalId owner = true) :
    rules.activity.boundedPrincipal owner = true := by
  have hstores : rules.text.publish.Stores 128 owner := stores_of_contractId h (by decide)
  exact decide_eq_true ⟨hstores.nonempty, hstores.length, hstores.controls⟩

/-- What the ingest takes for an activity that may be published. -/
theorem publishable_activity (rules : EventRules) {objective : ExecutionObjective}
    (h : event.valid rules.text.unicode = true)
    (hobjective : objective.Displayed rules.text.unicode) :
    rules.activity.publishable (event.activity rules.activity objective) =
      decide (event.Inert rules.text.unicode) := by
  show rules.publishable _ = _
  rw [EventRules.publishable, normalized_activity h hobjective]
  by_cases hinert : event.Inert rules.text.unicode
  · rw [if_pos hinert, decide_eq_true hinert]
  · rw [if_neg hinert, decide_eq_false hinert]

/-- An activity that may be published is written, unless the database raises. -/
theorem upsert_raises (owner : String) (now : ℤ) {fields : ActivityFields}
    (h : rules.activity.publishable fields = true) (source recordKey : String) (log : ActivityLog) :
    Raises (· = .integrityError) (log.upsert rules.activity owner source recordKey fields now) := by
  have hraise (c : Prop) [Decidable c] : Raises (· = ExecutionFailure.integrityError)
      (raiseIf c ExecutionFailure.integrityError) := Raises.raiseIf rfl
  have hchange (log : ActivityLog) (r : ActivityRecord) :
      Raises (· = .integrityError) (log.recordChange r now) :=
    (hraise _).bind fun _ => (hraise _).bind fun _ => .ok _
  unfold ActivityLog.upsert
  rw [raiseIf_ok (by simp [h]), ok_bind]
  split
  · refine .ite (.ok _) ((hchange _ _).bind fun _ => .ok _)
  · exact (hraise _).bind fun _ => (hchange _ _).bind fun _ => .ok _

end Publication

/-- A failure that refuses an event for what is stored already. -/
def ExecutionFailure.IsRefusal : ExecutionFailure → Prop
  | .conflict _ | .notFound _ => True
  | _ => False

/-- An event is committed, or refused for what is stored already. -/
inductive ObjectiveTables.Settled : Except ObjectiveFailure ObjectiveTables → Prop
  | committed (db : ObjectiveTables) : Settled (.ok db)
  | refused (failure : ExecutionFailure) (refusal : failure.IsRefusal) :
    Settled (.error (.execution failure))

/-- The objective of an event takes it: a new one that comes from a message of its owner, or an open
one of the task and the run. -/
def Execution.Takes (owner : String) (event : FirstmateExecutionEvent) (db : Execution) : Prop :=
  match event.report with
  | .accepted _ _ conversationId userMessageId =>
    db.objectives.find? (owner, event.objectiveId) = none ∧
      (∀ o ∈ db.objectives.rows, o.ownerUserId = owner → o.taskId ≠ event.taskId) ∧
      (db.chat.messages.find? userMessageId).any fun m => m.ownerUserId = owner ∧
        m.conversationId = conversationId ∧ m.role = .user ∧ m.status = .completed
  | _ => (db.objectives.find? (owner, event.objectiveId)).any fun o =>
      o.taskId = event.taskId ∧ o.runId = event.runId ∧ o.terminalEventId = none

/-- An event is new, and its objective takes it. -/
def Execution.TakesUp (owner : String) (event : FirstmateExecutionEvent) (db : Execution) : Prop :=
  db.events.find? (owner, event.eventId) = none ∧ db.Takes owner event

/-- The titles and projects of the objectives are display texts. -/
def Execution.Displayed (unicode : UnicodeRules) (db : Execution) : Prop :=
  ∀ o ∈ db.objectives.rows, o.Displayed unicode

namespace FirstmateExecutionStore

variable {db mid db' : Execution} {objective : ExecutionObjective}

/-- The objective of a valid event has display texts, as those before it. -/
theorem displayed_objectiveOf {unicode : UnicodeRules} (h : event.valid unicode = true)
    (hdisplayed : db.Displayed unicode)
    (hobjective : objectiveOf owner event now db = .ok (objective, mid)) :
    objective.Displayed unicode ∧ mid.Displayed unicode := by
  obtain ⟨-, -, -, -, -, hreport, -⟩ := of_decide_eq_true h
  unfold objectiveOf at hobjective
  split at hobjective
  · next title project conversationId userMessageId hcase =>
    rw [hcase] at hreport
    obtain ⟨htitle, hproject, -⟩ := of_decide_eq_true hreport
    simp only [acceptObjective, bind_eq_ok, raiseIf_eq_ok, pure_eq_ok, exists_const,
      Prod.mk.injEq] at hobjective
    obtain ⟨-, -, -, -, rfl, rfl⟩ := hobjective
    have hnew : ∀ project' ∈ project, validatedDisplayText unicode 160 project' = true := by
      rintro project' rfl
      exact hproject
    refine ⟨⟨htitle, hnew⟩, fun o ho => ?_⟩
    rcases Table.mem_insertOrIgnore ho with ho | ⟨-, rfl⟩
    · exact hdisplayed o ho
    · exact ⟨htitle, hnew⟩
  · unfold openObjective at hobjective
    split at hobjective
    · cases hobjective
    · next found hfound =>
      simp only [bind_eq_ok, raiseIf_eq_ok, pure_eq_ok, exists_const, Prod.mk.injEq] at hobjective
      obtain ⟨-, -, rfl, rfl⟩ := hobjective
      exact ⟨hdisplayed _ (Table.mem_of_find? hfound).1, hdisplayed⟩

/-- A block that starts with a check of what is stored refuses by it. -/
theorem refused {α : Type} {c : Prop} [Decidable c] (h : c) {failure : ExecutionFailure}
    (hrefusal : failure.IsRefusal) (next : Unit → Except ExecutionFailure α) :
    ∃ f : ExecutionFailure, f.IsRefusal ∧ (raiseIf c failure >>= next) = .error f := by
  refine ⟨failure, hrefusal, ?_⟩
  rw [raiseIf_error h]
  rfl

/-- An objective that may take an event takes it or refuses it; the database may raise for one that
takes it. -/
theorem openObjective_outcome (db : Execution) (owner : String) (event : FirstmateExecutionEvent) :
    if (db.objectives.find? (owner, event.objectiveId)).any fun o =>
        o.taskId = event.taskId ∧ o.runId = event.runId ∧ o.terminalEventId = none then
      ∃ objective, openObjective owner event db = .ok (objective, db)
    else ∃ failure : ExecutionFailure, failure.IsRefusal ∧
      openObjective owner event db = .error failure := by
  unfold openObjective
  cases hfound : db.objectives.find? (owner, event.objectiveId) with
  | none => exact ⟨.notFound _, trivial, rfl⟩
  | some o =>
    simp only [Option.any_some, decide_eq_true_eq]
    by_cases hcause : o.taskId ≠ event.taskId ∨ o.runId ≠ event.runId
    · rw [if_neg (by tauto)]
      exact refused hcause (by trivial) _
    · rw [raiseIf_ok hcause, ok_bind]
      by_cases hended : o.terminalEventId ≠ none
      · rw [if_neg (by tauto)]
        exact refused hended (by trivial) _
      · rw [if_pos (by tauto), raiseIf_ok hended]
        exact ⟨o, rfl⟩

/-- An event that its objective takes has an objective, unless the database raises; another one is
refused. -/
theorem objectiveOf_outcome (db : Execution) (owner : String) (event : FirstmateExecutionEvent)
    (now : ℤ) :
    db.Takes owner event ∧
        ((∃ objective mid, objectiveOf owner event now db = .ok (objective, mid)) ∨
        objectiveOf owner event now db = .error .integrityError) ∨
      ¬db.Takes owner event ∧ ∃ failure : ExecutionFailure, failure.IsRefusal ∧
        objectiveOf owner event now db = .error failure := by
  have hopen := openObjective_outcome db owner event
  unfold objectiveOf Execution.Takes
  cases event.report with
  | accepted title project conversationId userMessageId =>
    simp only [acceptObjective]
    by_cases hobjective : db.objectives.find? (owner, event.objectiveId) = none
    · rw [raiseIf_ok (not_not.mpr hobjective), ok_bind]
      by_cases htask : ∃ o ∈ db.objectives.rows, o.ownerUserId = owner ∧ o.taskId = event.taskId
      · obtain ⟨o, ho, howned, hsame⟩ := htask
        exact .inr ⟨fun htakes => htakes.2.1 o ho howned hsame,
          refused ⟨o, ho, howned, hsame⟩ (by trivial) _⟩
      · rw [raiseIf_ok htask, ok_bind]
        by_cases horigin : (db.chat.messages.find? userMessageId).any fun m =>
            m.ownerUserId = owner ∧ m.conversationId = conversationId ∧ m.role = .user ∧
              m.status = .completed
        · rw [raiseIf_ok (not_not.mpr horigin), ok_bind]
          have hunused : ∀ o ∈ db.objectives.rows, o.ownerUserId = owner →
              o.taskId ≠ event.taskId :=
            fun o ho howned hsame => htask ⟨o, ho, howned, hsame⟩
          refine .inl ⟨⟨hobjective, hunused, horigin⟩, ?_⟩
          by_cases haccepted : ∃ o ∈ db.objectives.rows, o.ownerUserId = owner ∧
              o.acceptedEventId = event.eventId
          · rw [raiseIf_error haccepted]
            exact .inr rfl
          · rw [raiseIf_ok haccepted]
            exact .inl ⟨_, _, rfl⟩
        · exact .inr ⟨fun htakes => horigin htakes.2.2, refused horigin (by trivial) _⟩
    · exact .inr ⟨fun htakes => hobjective htakes.1, refused hobjective (by trivial) _⟩
  | progress | completed | failed | cancelled =>
    split at hopen
    · next htakes =>
      obtain ⟨objective, hobjective⟩ := hopen
      exact .inl ⟨htakes, .inl ⟨objective, db, hobjective⟩⟩
    · next hnot => exact .inr ⟨hnot, hopen⟩

/-- An event that is not taken up is refused. -/
theorem ingest_refused (rules : EventRules) (now : ℤ) (howner : isPrincipalId owner = true)
    (h : ¬db.TakesUp owner event) :
    (∃ stored, ingest rules.activity owner event now true db = .ok ((stored, true), db)) ∨
      ∃ failure : ExecutionFailure, failure.IsRefusal ∧
        ingest rules.activity owner event now true db = .error failure := by
  unfold ingest
  rw [raiseIf_ok (by simp [bounded_principal howner]), ok_bind]
  cases hstored : db.events.find? (owner, event.eventId) with
  | some stored =>
    by_cases hpayload : stored.payload = event
    · exact .inl ⟨stored, by simp only [raiseIf_ok (not_not.mpr hpayload), ok_bind]; rfl⟩
    · exact .inr (refused hpayload (by trivial) _)
  | none =>
    rcases objectiveOf_outcome db owner event now with ⟨htakes, -⟩ | ⟨-, failure, hrefusal, hraised⟩
    · exact absurd ⟨hstored, htakes⟩ h
    · exact .inr ⟨failure, hrefusal, by simp only [hraised]; rfl⟩

/-- An event with an activity that may not be published raises. -/
theorem ingest_unpublished (howner : isPrincipalId owner = true)
    (hfresh : db.events.find? (owner, event.eventId) = none)
    (hobjective : objectiveOf owner event now db = .ok (objective, mid))
    (hpublishable : rules.activity.publishable (event.activity rules.activity objective) = false) :
    ingest rules.activity owner event now true db = .error (.valueError "activity") := by
  unfold ingest
  rw [raiseIf_ok (by simp [bounded_principal howner]), ok_bind, hfresh]
  simp only [hobjective, ok_bind, ActivityLog.upsert, raiseIf_error hpublishable]
  rfl

/-- An event that is taken up is stored, or refused when an id of it resembles a credential; the
database may raise instead. -/
theorem ingest_taken (now : ℤ) (howner : isPrincipalId owner = true)
    (hevent : event.valid rules.text.unicode = true) (hdisplayed : db.Displayed rules.text.unicode)
    (h : db.TakesUp owner event) :
    (event.Inert rules.text.unicode → ∃ stored db',
        ingest rules.activity owner event now true db = .ok ((stored, false), db')) ∧
      (¬event.Inert rules.text.unicode →
        ingest rules.activity owner event now true db = .error (.valueError "activity")) ∨
    ingest rules.activity owner event now true db = .error .integrityError := by
  rcases objectiveOf_outcome db owner event now with
    ⟨-, ⟨objective, mid, hobjective⟩ | hraised⟩ | ⟨hnot, -⟩
  · obtain ⟨htexts, -⟩ := displayed_objectiveOf hevent hdisplayed hobjective
    have hpublishable := publishable_activity rules hevent htexts
    by_cases hinert : event.Inert rules.text.unicode
    · rw [decide_eq_true hinert] at hpublishable
      have hraises := upsert_raises owner now hpublishable firstmateExecutionSource
        (executionKey event.eventId) mid.activity
      unfold ingest
      rw [raiseIf_ok (by simp [bounded_principal howner]), ok_bind, h.1]
      cases hupsert : mid.activity.upsert rules.activity owner firstmateExecutionSource
          (executionKey event.eventId) (event.activity rules.activity objective) now with
      | ok a =>
        obtain ⟨record, activity⟩ := a
        refine .inl ⟨fun _ => ?_, fun hnot => absurd hinert hnot⟩
        simp only [hobjective, ok_bind, hupsert]
        exact ⟨_, _, rfl⟩
      | error failure =>
        obtain rfl := hraises failure hupsert
        exact .inr (by simp only [hobjective, ok_bind, hupsert]; rfl)
    · rw [decide_eq_false hinert] at hpublishable
      exact .inl ⟨fun hthis => absurd hthis hinert,
        fun _ => ingest_unpublished howner h.1 hobjective hpublishable⟩
  · right
    unfold ingest
    rw [raiseIf_ok (by simp [bounded_principal howner]), ok_bind, h.1]
    simp only [hraised]
    rfl
  · exact absurd h.2 hnot

/-- The objectives after an ingest of a valid event have display texts, as those before it. -/
theorem displayed_ingest {unicode : UnicodeRules} {rules : ActivityRules} {projected : Bool}
    {stored : ExecutionEvent × Bool} (h : event.valid unicode = true)
    (hdisplayed : db.Displayed unicode)
    (hingest : ingest rules owner event now projected db = .ok (stored, db')) :
    db'.Displayed unicode := by
  rcases (ingest_cases hingest).2 with
    ⟨-, -, rfl⟩ | ⟨-, objective, mid, record, activity, hobjective, -, -, rfl⟩
  · exact hdisplayed
  have hmid := (displayed_objectiveOf h hdisplayed hobjective).2
  unfold closeObjective
  split
  · intro o ho
    have hupdated : o ∈ (mid.objectives.update (owner, event.objectiveId)
        (closedObjective event now) (key_closedObjective event now)).rows := ho
    obtain ⟨before, hbefore, rfl⟩ := Table.mem_update.mp hupdated
    split
    · exact hmid before hbefore
    · exact hmid before hbefore
  · exact hmid

end FirstmateExecutionStore

/-- A step that is admitted: a valid step, of which an ingest is of a valid event. -/
def EventRules.Admits (rules : EventRules) (op : ObjectiveStep) : Prop :=
  op.Valid ∧ match op with
    | .ingest _ event _ => event.valid rules.text.unicode = true
    | _ => True

namespace ObjectiveTables

variable {rules : ObjectiveRules} {db db' : ObjectiveTables}

/-- The transaction of an ingest. -/
theorem transaction_ingest (rules : EventRules) (db : ObjectiveTables) (owner : String)
    (event : FirstmateExecutionEvent) (now : ℤ) :
    db.transaction rules.objective (.ingest owner event now) =
    (FirstmateExecutionStore.ingest rules.activity owner event now true
      db.execution).mapError .execution >>= fun answer =>
        if answer.1.2 then pure { db with execution := answer.2 }
        else project owner false { db with execution := answer.2 } event.objectiveId := rfl

/-- A projection writes none of the tables that it reads. -/
theorem execution_project {recovering : Bool} {id : String}
    (h : project owner recovering db id = .ok db') : db'.execution = db.execution := by
  have hpersist := mapError_eq_ok.mp h
  unfold persistObjectiveState at hpersist
  split at hpersist
  · obtain rfl := Except.ok.inj hpersist
    rfl
  · split at hpersist
    · simp only [bind_eq_ok, pure_eq_ok] at hpersist
      obtain ⟨incoming, -, rfl⟩ := hpersist
      rfl
    · simp only [bind_eq_ok] at hpersist
      obtain ⟨incoming, -, advanced, -, hlast⟩ := hpersist
      split at hlast
      · obtain rfl := pure_eq_ok.mp hlast
        rfl
      · obtain rfl := pure_eq_ok.mp hlast
        rfl

/-- A turn of a cancellation writes no objective. -/
theorem objectives_turn (task : CancellationTask) (now : ℤ) (reserved delivered : Bool)
    (db : Execution) : (task.turn now reserved delivered db).1.objectives = db.objectives := by
  cases task with
  | sweep rest =>
    cases rest with
    | nil => rfl
    | cons row rest =>
      simp only [CancellationTask.turn]
      split <;> rfl
  | checked row rest =>
    simp only [CancellationTask.turn]
    split
    · rfl
    · split <;> rfl
  | notify id rest => rfl
  | delivering id rest => cases delivered <;> rfl

/-- A transaction other than an ingest writes no objective. -/
theorem objectives_transaction {op : ObjectiveStep} (h : db.transaction rules op = .ok db') :
    (∃ owner event now, op = .ingest owner event now) ∨
      db'.execution.objectives = db.execution.objectives := by
  cases op with
  | ingest owner event now => exact .inl ⟨owner, event, now, rfl⟩
  | claim context key contractJson contextJson now =>
    right
    simp only [transaction, bind_eq_ok, mapError_eq_ok, Prod.exists] at h
    obtain ⟨claim, submissions, -, h⟩ := h
    split at h
    · obtain rfl := pure_eq_ok.mp h
      rfl
    · rw [execution_project h]
  | accept owner claim now =>
    right
    simp only [transaction, bind_eq_ok, mapError_eq_ok] at h
    obtain ⟨submissions, -, h⟩ := h
    rw [execution_project h]
  | fail owner claim code now =>
    right
    simp only [transaction] at h
    split at h
    · rw [execution_project h]
    · obtain rfl := Except.ok.inj h
      rfl
  | withhold row =>
    obtain rfl := Except.ok.inj h
    exact .inr rfl
  | invalidate row now =>
    obtain rfl := Except.ok.inj h
    exact .inr rfl
  | resubmit row now =>
    right
    simp only [transaction] at h
    split at h
    · obtain rfl := Except.ok.inj h
      rfl
    · rw [execution_project h]
  | cancel owner actor objectiveId key now reserved pick =>
    right
    simp only [transaction, bind_eq_ok, mapError_eq_ok, Prod.exists] at h
    obtain ⟨row, duplicate, notify, execution, hrequest, h⟩ := h
    have hobjectives : execution.objectives = db.execution.objectives := by
      rcases ObjectiveCancellationService.request_cases hrequest with
        rfl | ⟨existing, -, -, -, rfl⟩ | ⟨-, -, -, -, rfl⟩ <;> rfl
    split at h
    · obtain rfl := pure_eq_ok.mp h
      exact hobjectives
    · rw [execution_project h]
      exact hobjectives
  | cancellation task now reserved delivered =>
    obtain rfl := Except.ok.inj h
    exact .inr (objectives_turn task now reserved delivered db.execution)
  | mint context owner session decisionId revision messageId token =>
    right
    simp only [transaction, bind_eq_ok, mapError_eq_ok, pure_eq_ok, Prod.exists] at h
    obtain ⟨_, decisions, -, rfl⟩ := h
    rfl
  | answer context owner session decisionId revision messageId token claimId =>
    right
    simp only [transaction, bind_eq_ok, mapError_eq_ok, pure_eq_ok, Prod.exists] at h
    obtain ⟨_, decisions, -, rfl⟩ := h
    rfl
  | finish context owner key claimId result =>
    right
    simp only [transaction, bind_eq_ok, mapError_eq_ok, Prod.exists] at h
    obtain ⟨_, decisions, -, h⟩ := h
    split at h
    · obtain rfl := pure_eq_ok.mp h
      rfl
    · rw [execution_project h]
  | snapshot context owner source observedAt snapshotSha256 events =>
    right
    simp only [transaction, bind_eq_ok, mapError_eq_ok, Prod.exists] at h
    obtain ⟨_, decisions, -, h⟩ := h
    split at h
    · obtain rfl := pure_eq_ok.mp h
      rfl
    · have hfold : db'.execution = db.execution :=
        foldlM_invariant (f := project owner false) (I := fun q => q.execution = db.execution)
          (s := { db with decisions })
          (fun q id q' hq hproject => (execution_project hproject).trans hq) rfl h
      rw [hfold]
  | chat chat =>
    obtain rfl := Except.ok.inj h
    exact .inr rfl

/-- The titles and projects of the objectives stay display texts. -/
theorem displayed_step {rules : EventRules} {op : ObjectiveStep} (hop : rules.Admits op)
    (hdisplayed : db.execution.Displayed rules.text.unicode) :
    (objectiveStep rules.objective db op).execution.Displayed rules.text.unicode := by
  unfold objectiveStep
  cases hresult : db.transaction rules.objective op with
  | error e => exact hdisplayed
  | ok db' =>
    rcases objectives_transaction hresult with ⟨owner, event, now, rfl⟩ | hsame
    · simp only [transaction, bind_eq_ok, mapError_eq_ok, Prod.exists] at hresult
      obtain ⟨stored, duplicate, execution, hingest, hresult⟩ := hresult
      have hafter := FirstmateExecutionStore.displayed_ingest hop.2 hdisplayed hingest
      split at hresult
      · obtain rfl := pure_eq_ok.mp hresult
        exact hafter
      · exact execution_project hresult ▸ hafter
    · intro o ho
      exact hdisplayed o (hsame ▸ ho)

end ObjectiveTables

/-- The tables that admitted steps reach. -/
structure EventRules.Reached (rules : EventRules) (db : ObjectiveTables) : Prop where
  projected : StatesProjected rules.objective db
  displayed : db.execution.Displayed rules.text.unicode

namespace EventRules.Reached

variable {db : ObjectiveTables}

theorem runs (rules : EventRules) {steps : List ObjectiveStep}
    (hsteps : ∀ op ∈ steps, rules.Admits op) :
    rules.Reached (run (objectiveStep rules.objective) .initial steps) :=
  run_invariant (fun _ _ h hop => ⟨(h.projected.step rules.objective_ids hop.1).1,
      ObjectiveTables.displayed_step hop h.displayed⟩)
    (runMeets_of_mem hsteps _) ⟨.initial, fun o ho => by
      simp [ObjectiveTables.initial, Execution.initial] at ho⟩

/-- The revisions of an objective are not used up. -/
def Renewable (owner objectiveId : String) (db : ObjectiveTables) : Prop :=
  ∀ p, db.projections.find? (owner, objectiveId) = some p → p.revision ≠ maxContractInteger

/-- An event that is stored is projected, unless the revisions of its objective are used up. -/
theorem project_stored (h : rules.Reached db) (howner : isPrincipalId owner = true)
    (hevent : event.valid rules.text.unicode = true)
    (hfresh : db.execution.events.find? (owner, event.eventId) = none) {stored : ExecutionEvent}
    {duplicate : Bool} {execution : Execution}
    (hingest : FirstmateExecutionStore.ingest rules.activity owner event now true db.execution =
      .ok ((stored, duplicate), execution)) :
    (Renewable owner event.objectiveId db →
        ∃ db', ObjectiveTables.project owner false { db with execution } event.objectiveId =
          .ok db') ∧
      (¬Renewable owner event.objectiveId db →
        ObjectiveTables.project owner false { db with execution } event.objectiveId =
          .error (.projection .validation)) := by
  have hkept := h.projected.kept (Kept.ingest h.projected (of_decide_eq_true hevent).2.1 hingest)
  have hfacts :
      (ObjectiveTables.facts owner event.objectiveId false { db with execution }).isSome := by
    refine ObjectiveTables.facts_isSome.mpr (.inr ?_)
    rcases FirstmateExecutionStore.ingest_stored hingest with
      ⟨hstored, -, -⟩ | ⟨objective, objectives, hstored⟩
    · exact absurd (hfresh.symm.trans hstored) (by simp)
    · obtain ⟨after, hafter, -⟩ := EventStreams.find?_stored hstored hstored.found
      exact Option.isSome_iff_exists.mpr ⟨after, hafter⟩
  obtain ⟨facts, hfacts⟩ := Option.isSome_iff_exists.mp hfacts
  rcases hkept.persist_cases howner event.objectiveId false with
    ⟨db', hpersist, -⟩ | ⟨hraised, p, hp, hbound⟩
  · refine ⟨fun _ => ⟨db', mapError_eq_ok.mpr hpersist⟩, fun hused => absurd ?_ hused⟩
    intro p hp hbound
    exact absurd (hpersist.symm.trans (hkept.persist_error howner hp hbound hfacts)) (by simp)
  · refine ⟨fun hrenewable => absurd hbound (hrenewable p hp), fun _ => ?_⟩
    rw [ObjectiveTables.project, hraised]
    rfl

/-- An event is committed or refused for what is stored exactly when it is not taken up, or its ids
and the revisions of its objective allow it. -/
theorem settled_iff (h : rules.Reached db) (howner : isPrincipalId owner = true)
    (hevent : event.valid rules.text.unicode = true) (now : ℤ) :
    db.transaction rules.objective (.ingest owner event now) =
        .error (.execution .integrityError) ∨
      (ObjectiveTables.Settled (db.transaction rules.objective (.ingest owner event now)) ↔
        ¬db.execution.TakesUp owner event ∨
          event.Inert rules.text.unicode ∧ Renewable owner event.objectiveId db) := by
  rw [ObjectiveTables.transaction_ingest]
  by_cases htakes : db.execution.TakesUp owner event
  · rcases FirstmateExecutionStore.ingest_taken now howner hevent h.displayed htakes with
      ⟨hstored, hrefused⟩ | hraised
    · by_cases hinert : event.Inert rules.text.unicode
      · obtain ⟨stored, execution, hingest⟩ := hstored hinert
        obtain ⟨hprojected, hused⟩ := h.project_stored howner hevent htakes.1 hingest
        rw [hingest]
        show ObjectiveTables.project owner false { db with execution } event.objectiveId = _ ∨
          (ObjectiveTables.Settled (ObjectiveTables.project owner false { db with execution }
            event.objectiveId) ↔ _)
        by_cases hrenewable : Renewable owner event.objectiveId db
        · obtain ⟨db', hdb'⟩ := hprojected hrenewable
          rw [hdb']
          exact .inr ⟨fun _ => .inr ⟨hinert, hrenewable⟩, fun _ => .committed db'⟩
        · rw [hused hrenewable]
          refine .inr ⟨fun hsettled => (nomatch hsettled), fun hcond => ?_⟩
          exact hcond.elim (absurd htakes ·) fun hthis => absurd hthis.2 hrenewable
      · rw [hrefused hinert]
        refine .inr ⟨fun hsettled => ?_, fun hcond => ?_⟩
        · cases hsettled with
          | refused failure refusal => exact absurd refusal id
        · exact hcond.elim (absurd htakes ·) fun hthis => absurd hthis.1 hinert
    · rw [hraised]
      exact .inl rfl
  · rcases FirstmateExecutionStore.ingest_refused rules now howner htakes with
      ⟨stored, hingest⟩ | ⟨failure, hrefusal, hraised⟩
    · rw [hingest]
      exact .inr ⟨fun _ => .inl htakes, fun _ => .committed _⟩
    · rw [hraised]
      exact .inr ⟨fun _ => .inl htakes, fun _ => .refused failure hrefusal⟩

end EventRules.Reached

/-- The execution events. In every run of admitted steps, an event that its contract admits is
committed, or refused for what is stored, exactly when it is not taken up, or none of its ids
resembles a credential and the revisions of its objective are not used up; the database may raise
instead. -/
theorem events_settled_iff (rules : EventRules) (steps : List ObjectiveStep)
    (hsteps : ∀ op ∈ steps, rules.Admits op) (owner : String) (howner : isPrincipalId owner = true)
    (event : FirstmateExecutionEvent) (hevent : event.valid rules.text.unicode = true) (now : ℤ) :
    let db := run (objectiveStep rules.objective) .initial steps
    let result := db.transaction rules.objective (.ingest owner event now)
    result = .error (.execution .integrityError) ∨
      (ObjectiveTables.Settled result ↔ ¬db.execution.TakesUp owner event ∨
        event.Inert rules.text.unicode ∧
          ∀ p, db.projections.find? (owner, event.objectiveId) = some p →
            p.revision ≠ maxContractInteger) :=
  (EventRules.Reached.runs rules hsteps).settled_iff howner hevent now

/-- Rules for texts of ASCII and for the event that accepts the objective. -/
def sampleEventRules : EventRules where
  text :=
    { unicode := asciiUnicode
      digest := fun _ _ _ => "1aa5117fcd073f9ce52dea0e"
      digest_hex := fun _ _ _ => HexText.of_all rfl rfl }
  ascii _ _ := rfl
  payloadSha256 _ := "4e200bd8733e98d360231cd23be3298364002d7b6d059c7c5da1d5e098dd0ad2"
  payload_hash _ := by decide
  intake := sampleObjectiveRules.intake
  objective_ids := sampleObjectiveRules_safe
  requestId := sampleObjectiveRules.requestId
  decisions := sampleObjectiveRules.decisions

theorem sampleEventRules_admits :
    ∀ op ∈ [ObjectiveStep.chat originChat], sampleEventRules.Admits op :=
  List.forall_mem_singleton.mpr ⟨by decide, trivial⟩

/-- The tables with the message that the objective comes from. -/
def originTables : ObjectiveTables :=
  run (objectiveStep sampleEventRules.objective) .initial [.chat originChat]

/-- An event that accepts the objective, under an id of its own. -/
def acceptance (eventId : String) : FirstmateExecutionEvent :=
  objectiveEvent eventId acceptedEvent.report

/-- Both events are valid, and only the second has an id that resembles a credential. -/
theorem acceptance_checked :
    let unicode := sampleEventRules.text.unicode
    (acceptance "accepted").valid unicode = true ∧ (acceptance "key:1").valid unicode = true ∧
      (acceptance "accepted").Inert unicode ∧ ¬(acceptance "key:1").Inert unicode := by
  decide +kernel

/-- The event that accepts the objective is committed, or the database raises. -/
theorem events_settled_iff_accepted :
    let result := originTables.transaction sampleEventRules.objective
      (.ingest "owner" (acceptance "accepted") 0)
    result = .error (.execution .integrityError) ∨ ObjectiveTables.Settled result := by
  intro result
  obtain ⟨hvalid, -, hinert, -⟩ := acceptance_checked
  have hnone : originTables.projections.rows = [] := by decide
  have hrenewable : ∀ p,
      originTables.projections.find? ("owner", (acceptance "accepted").objectiveId) = some p →
        p.revision ≠ maxContractInteger := by
    intro p hp
    have hmem : p ∈ originTables.projections.rows := (Table.mem_of_find? hp).1
    rw [hnone] at hmem
    cases hmem
  have hsettled := events_settled_iff sampleEventRules [.chat originChat] sampleEventRules_admits
    "owner" (by decide) (acceptance "accepted") hvalid 0
  rw [← originTables] at hsettled
  exact hsettled.imp id fun h => h.mpr (.inr ⟨hinert, hrenewable⟩)

/-- An event that accepts the same objective, under an id that reads like a key, is refused by its
activity. -/
theorem event_unpublished_key :
    (∀ op ∈ [ObjectiveStep.chat originChat], sampleEventRules.Admits op) ∧
      isPrincipalId "owner" = true ∧
      (acceptance "key:1").valid sampleEventRules.text.unicode = true ∧
      (run (objectiveStep sampleEventRules.objective) .initial [.chat originChat]).transaction
        sampleEventRules.objective (.ingest "owner" (acceptance "key:1") 0) =
          .error (.execution (.valueError "activity")) := by
  obtain ⟨-, hvalid, -, hsensitive⟩ := acceptance_checked
  have hobjective : (FirstmateExecutionStore.objectiveOf "owner" (acceptance "key:1") 0
      originTables.execution).isOk = true := by
    decide
  have hfresh : originTables.execution.events.find? ("owner", "key:1") = none := by decide
  have hnone : originTables.execution.objectives.rows = [] := by decide
  have hdisplayed : originTables.execution.Displayed sampleEventRules.text.unicode := by
    intro o ho
    rw [hnone] at ho
    cases ho
  rw [← originTables]
  refine ⟨sampleEventRules_admits, by decide, hvalid, ?_⟩
  cases hresult : FirstmateExecutionStore.objectiveOf "owner" (acceptance "key:1") 0
      originTables.execution with
  | error failure =>
    rw [hresult] at hobjective
    cases hobjective
  | ok a =>
    obtain ⟨objective, mid⟩ := a
    have htexts := (FirstmateExecutionStore.displayed_objectiveOf hvalid hdisplayed hresult).1
    have hpublishable := publishable_activity sampleEventRules hvalid htexts
    rw [decide_eq_false hsensitive] at hpublishable
    have hingest := FirstmateExecutionStore.ingest_unpublished (by decide) hfresh hresult
      hpublishable
    rw [ObjectiveTables.transaction_ingest, hingest]
    rfl

end Magistrate
