import Magistrate.Gateway.Execution.ObjectiveState
import Magistrate.Gateway.Execution.Intake
import Magistrate.Gateway.Decisions.Snapshots

/-!
# The projection of objective states

The transactions of the intake, of the executions, of the cancellations and of
the decisions project the state of the objectives that they change, from the
facts that are stored at their end. A projection that raises undoes its
transaction.
-/

namespace Magistrate

/-- A row of `objective_state_projections`. -/
structure ObjectiveProjection where
  ownerUserId : String
  objectiveId : String
  revision : ℕ
  record : ObjectiveStateContract
  deriving DecidableEq

/-- Projections are unique for the objective of an owner. -/
def ObjectiveProjection.key (p : ObjectiveProjection) : String × String :=
  (p.ownerUserId, p.objectiveId)

/-- A projection of another state. -/
def ObjectiveProjection.replaced (record : ObjectiveStateContract) (p : ObjectiveProjection) :
    ObjectiveProjection :=
  { p with
    revision := record.revision
    record }

theorem ObjectiveProjection.key_replaced (record : ObjectiveStateContract)
    (p : ObjectiveProjection) : (p.replaced record).key = p.key := rfl

/-- The submissions as the execution tables have them. -/
def executionSubmissions (submissions : Table IntakeSubmission.key) :
    Table ObjectiveSubmission.objectiveId where
  rows := submissions.rows.map (·.toObjectiveSubmission)
  unique := by
    rw [List.map_map]
    exact submissions.unique

/-- The tables that states are projected from, and the projections. -/
structure ObjectiveTables where
  submissions : Table IntakeSubmission.key
  /-- Its submissions are the ones above, whenever it reads them. -/
  execution : Execution
  decisions : Decisions
  projections : Table ObjectiveProjection.key
  deriving DecidableEq

/-- The tables of a new database. -/
def ObjectiveTables.initial : ObjectiveTables where
  submissions := .empty
  execution := .initial
  decisions := .initial
  projections := .empty

/-- The phase that stored events show: running evidence is not erased by late pushes. -/
def shownPhase (phases : List ExecutionPhase) : Option ExecutionPhase :=
  if phases.any (·.isRunning) then some (.progress .workerStarted)
  else if .accepted ∈ phases then some .accepted
  else none

namespace ObjectiveTables

/-- The submission of an owner. -/
def submission (owner objectiveId : String) (db : ObjectiveTables) : Option IntakeSubmission :=
  (db.submissions.find? objectiveId).filter fun s => s.ownerUserId = owner

/-- The phases of the stored events of an objective. -/
def phases (owner objectiveId : String) (db : ObjectiveTables) : List ExecutionPhase :=
  (db.execution.events.rows.filter fun e =>
    e.ownerUserId = owner ∧ e.objectiveId = objectiveId).map (·.phase)

/-- The stored facts about an objective that was submitted or accepted. -/
def facts (owner objectiveId : String) (recovering : Bool) (db : ObjectiveTables) :
    Option ObjectiveFacts :=
  let submission := db.submission owner objectiveId
  let execution := db.execution.objectives.find? (owner, objectiveId)
  ((execution.map (·.taskId)).or (submission.map (·.taskId))).map fun taskId =>
    { submissionStatus := submission.map (·.status)
      executionPhase := shownPhase (db.phases owner objectiveId)
      terminalPhase := execution.bind (·.terminalPhase)
      waitingForInput := db.decisions.decisions.rows.any fun d =>
        d.ownerUserId = owner ∧ d.taskId = taskId ∧ (d.state = .pending ∨ d.state = .answering)
      recovering
      observationComplete := true
      cancellationRequested := db.execution.cancellations.rows.any fun c =>
        c.ownerUserId = owner ∧ c.objectiveId = objectiveId }

/-- Store the state of an objective, in place of the one that it had. -/
def storeState (owner objectiveId : String) (record : ObjectiveStateContract)
    (db : ObjectiveTables) : ObjectiveTables :=
  let row : ObjectiveProjection :=
    { ownerUserId := owner
      objectiveId
      revision := record.revision
      record }
  let projections := (db.projections.insertOrIgnore row).update (owner, objectiveId)
    (.replaced record) (ObjectiveProjection.key_replaced record)
  { db with projections }

end ObjectiveTables

/-- Whether two states differ in no more than their revision. -/
def ObjectiveStateContract.sameContent (r r' : ObjectiveStateContract) : Bool :=
  { r.toObjectiveStateFields with revision := r'.revision } = r'.toObjectiveStateFields

/-- `persist_objective_state` -/
def persistObjectiveState (owner objectiveId : String) (recovering : Bool) (db : ObjectiveTables) :
    Except ObjectiveStateError ObjectiveTables :=
  match db.facts owner objectiveId recovering with
  | none => .ok db
  | some facts =>
    match db.projections.find? (owner, objectiveId) with
    | none => do
      let incoming ← projectObjectiveState objectiveId owner 1 facts
      return db.storeState owner objectiveId incoming
    | some row => do
      let current := row.record
      let incoming ← projectObjectiveState objectiveId owner (current.revision + 1) facts
      let incoming ← advanceObjectiveState current incoming
      if incoming.sameContent current then return db
      return db.storeState owner objectiveId incoming

/-- What the stores compute from texts. -/
structure ObjectiveRules where
  intake : IntakeRules
  activity : ActivityRules
  requestId : String → String → String
  decisions : DecisionRules

/-- What a transaction can raise: the failure of a store, or that of the projection. -/
inductive ObjectiveFailure where
  | intake (error : MagiToolError)
  | execution (error : ExecutionFailure)
  | decision (error : DecisionFailure)
  | projection (error : ObjectiveStateError)

/-- A transaction of the intake, of an ingest, of a cancellation or of the decisions, or a write of
others to the chat. -/
inductive ObjectiveStep where
  | claim (context : MagiToolContext) (key contractJson contextJson : String) (now : ℤ)
  | accept (owner : String) (claim : ObjectiveClaim) (now : ℤ)
  | fail (owner : String) (claim : ObjectiveClaim) (code : String) (now : ℤ)
  | withhold (row : IntakeSubmission)
  | invalidate (row : IntakeSubmission) (now : ℤ)
  | resubmit (row : IntakeSubmission) (now : ℤ)
  | ingest (owner : String) (event : FirstmateExecutionEvent) (now : ℤ)
  | cancel (owner actor objectiveId key : String) (now : ℤ) (reserved : Bool) (pick : ℕ)
  | cancellation (task : CancellationTask) (now : ℤ) (reserved delivered : Bool)
  | mint (context : DecisionContext) (owner session decisionId : String) (revision : ℕ)
      (messageId token : String)
  | answer (context : DecisionContext) (owner session decisionId : String) (revision : ℕ)
      (messageId token claimId : String)
  | finish (context : DecisionContext) (owner key claimId : String) (result : CommandResult)
  | snapshot (context : DecisionContext) (owner source : String) (observedAt : ℕ)
      (snapshotSha256 : String) (events : List DecisionRequiredEvent)
  | chat (chat : Chat)

namespace ObjectiveTables

open FirstmateDecisionStore

/-- The objective of the decision that a pending answer under its claim is about. -/
def answeredObjective (owner key claimId : String) (db : ObjectiveTables) : Option String :=
  match existingAnswer owner key db.decisions with
  | none => none
  | some row =>
    if row.status ≠ .pending ∨ row.executionClaimId ≠ claimId then none
    else
      (ownDecision owner row.decisionId db.decisions).bind fun d =>
        (db.submissions.rows.find? fun s =>
          s.taskId = d.taskId ∧ s.ownerUserId = d.ownerUserId).map (·.objectiveId)

/-- The objectives that an owner submitted. -/
def submittedBy (owner : String) (db : ObjectiveTables) : List String :=
  (db.submissions.rows.filter fun s => s.ownerUserId = owner).map (·.objectiveId)

/-- Project the state of an objective at the end of a transaction. -/
def project (owner : String) (recovering : Bool) (db : ObjectiveTables) (objectiveId : String) :
    Except ObjectiveFailure ObjectiveTables :=
  (persistObjectiveState owner objectiveId recovering db).mapError .projection

/-- A transaction, with the projections that it ends with. -/
def transaction (rules : ObjectiveRules) (db : ObjectiveTables) :
    ObjectiveStep → Except ObjectiveFailure ObjectiveTables
  | .claim context key contractJson contextJson now => do
    let (claim, submissions) ← (ObjectiveSubmissionStore.claim rules.intake context key contractJson
      contextJson now true db.submissions).mapError .intake
    if claim.duplicate then return { db with submissions }
    project context.ownerUserId false { db with submissions } claim.objectiveId
  | .accept owner claim now => do
    let submissions ← (ObjectiveSubmissionStore.accept owner claim now true
      db.submissions).mapError .intake
    project owner false { db with submissions } claim.objectiveId
  | .fail owner claim code now =>
    let (changed, submissions) := ObjectiveSubmissionStore.fail rules.intake owner claim code now
      true db.submissions
    if changed then project owner false { db with submissions } claim.objectiveId
    else .ok { db with submissions }
  | .withhold row =>
    .ok { db with submissions := ObjectiveSubmissionStore.withhold row db.submissions }
  | .invalidate row now =>
    .ok { db with submissions := (ObjectiveSubmissionStore.invalidate row now db.submissions).2 }
  | .resubmit row now =>
    match ObjectiveSubmissionStore.resubmit row now db.submissions with
    | none => .ok db
    | some (_, submissions) => project row.ownerUserId true { db with submissions } row.objectiveId
  | .ingest owner event now => do
    let ((_, duplicate), execution) ← (FirstmateExecutionStore.ingest rules.activity owner event now
      true db.execution).mapError .execution
    if duplicate then return { db with execution }
    project owner false { db with execution } event.objectiveId
  | .cancel owner actor objectiveId key now reserved pick => do
    let ((_, duplicate, _), execution) ← (ObjectiveCancellationService.request rules.requestId owner
      actor objectiveId key now reserved true pick
      { db.execution with submissions := executionSubmissions db.submissions }).mapError .execution
    if duplicate then return { db with execution }
    project owner false { db with execution } objectiveId
  | .cancellation task now reserved delivered =>
    .ok { db with execution := (task.turn now reserved delivered db.execution).1 }
  | .mint context owner session decisionId revision messageId token => do
    let (_, decisions) ← (prepareConfirmation rules.decisions context owner session decisionId
      revision messageId token db.decisions).mapError .decision
    return { db with decisions }
  | .answer context owner session decisionId revision messageId token claimId => do
    let (_, decisions) ← (claimAnswer rules.decisions context owner session decisionId revision
      messageId token claimId db.decisions).mapError .decision
    return { db with decisions }
  | .finish context owner key claimId result => do
    let (_, decisions) ← (finishAnswer { context with projected := true } owner key claimId result
      db.decisions).mapError .decision
    match db.answeredObjective owner key claimId with
    | none => return { db with decisions }
    | some objectiveId => project owner false { db with decisions } objectiveId
  | .snapshot context owner source observedAt snapshotSha256 events => do
    let seen := (db.decisions.sources.find? (owner, source)).bind (·.lastObservedAt)
    let (_, decisions) ← (applySnapshot rules.decisions { context with projected := true } owner
      source observedAt snapshotSha256 events db.decisions).mapError .decision
    -- A snapshot that is older than the last one changes nothing.
    if seen.any (observedAt < ·) then return { db with decisions }
    (db.submittedBy owner).foldlM (project owner false) { db with decisions }
  | .chat chat =>
    .ok { db with
      execution := { db.execution with chat }
      decisions := { db.decisions with chat } }

end ObjectiveTables

/-- The tables after a step. -/
def objectiveStep (rules : ObjectiveRules) (db : ObjectiveTables) (op : ObjectiveStep) :
    ObjectiveTables :=
  commit (db.transaction rules op) db

/-- What later tables keep of earlier ones: submissions and their acceptance, objectives and their
ends, events, and cancellations. -/
structure ObjectiveTables.Later (db db' : ObjectiveTables) : Prop where
  submitted : ∀ owner id s, db.submission owner id = some s →
    ∃ s', db'.submission owner id = some s' ∧ (s.status = .accepted → s'.status = .accepted)
  execution : db.execution.Later db'.execution
  objectives : ∀ k, (db.execution.objectives.find? k).isSome →
    (db'.execution.objectives.find? k).isSome
  events : ∀ e ∈ db.execution.events.rows, e ∈ db'.execution.events.rows

namespace ObjectiveTables

variable {db db' db'' : ObjectiveTables} {owner id : String} {recovering : Bool}

theorem Later.refl (db : ObjectiveTables) : db.Later db :=
  ⟨fun _ _ s hs => ⟨s, hs, id⟩, .refl _, fun _ hk => hk, fun _ he => he⟩

theorem facts_eq_some {f : ObjectiveFacts} (h : db.facts owner id recovering = some f) :
    f.submissionStatus = (db.submission owner id).map (·.status) ∧
      f.executionPhase = shownPhase (db.phases owner id) ∧
      f.terminalPhase = db.execution.terminalPhase owner id ∧ f.observationComplete = true ∧
      f.cancellationRequested = db.execution.cancellations.rows.any fun c =>
        c.ownerUserId = owner ∧ c.objectiveId = id := by
  obtain ⟨taskId, -, rfl⟩ := Option.map_eq_some_iff.mp h
  exact ⟨rfl, rfl, rfl, rfl, rfl⟩

/-- There are facts about an objective that was submitted or accepted. -/
theorem facts_isSome : (db.facts owner id recovering).isSome ↔
    (db.submission owner id).isSome ∨ (db.execution.objectives.find? (owner, id)).isSome := by
  unfold facts
  cases db.execution.objectives.find? (owner, id) <;> cases db.submission owner id <;> simp

/-- The phase that more events show is not behind. -/
theorem shownPhase_extends (phases phases' : List ExecutionPhase) (h : ∀ p ∈ phases, p ∈ phases') :
    (shownPhase phases = some .accepted → shownPhase phases' ≠ none) ∧
      ((shownPhase phases).any (·.isRunning) = true →
        (shownPhase phases').any (·.isRunning) = true) := by
  have hrunning : phases.any (·.isRunning) = true → phases'.any (·.isRunning) = true := by
    rw [List.any_eq_true, List.any_eq_true]
    rintro ⟨p, hp, hrunning⟩
    exact ⟨p, h p hp, hrunning⟩
  unfold shownPhase
  refine ⟨fun haccepted => ?_, fun hshown => ?_⟩
  · have hmem : .accepted ∈ phases := by
      by_contra hnone
      rw [if_neg hnone] at haccepted
      split_ifs at haccepted
      simp at haccepted
    split_ifs with hafter hmem'
    · simp
    · simp
    · exact absurd (h _ hmem) hmem'
  · split_ifs at hshown with hbefore hmem
    · rw [if_pos (hrunning hbefore)]
      rfl
    · simp [ExecutionPhase.isRunning] at hshown
    · simp at hshown

/-- Later tables have facts that extend the earlier ones. -/
theorem Later.extends (h : db.Later db') {recovering' : Bool} {f f' : ObjectiveFacts}
    (hf : db.facts owner id recovering = some f) (hf' : db'.facts owner id recovering' = some f') :
    f.Extends f' := by
  obtain ⟨hstatus, hphase, hended, -, hrequested⟩ := facts_eq_some hf
  obtain ⟨hstatus', hphase', hended', -, hrequested'⟩ := facts_eq_some hf'
  obtain ⟨hbegun, hrunning⟩ := shownPhase_extends (db.phases owner id)
    (db'.phases owner id) fun p hp => by
      obtain ⟨e, he, rfl⟩ := List.mem_map.mp hp
      obtain ⟨hmem, hof⟩ := List.mem_filter.mp he
      exact List.mem_map_of_mem (List.mem_filter.mpr ⟨h.events e hmem, hof⟩)
  refine ⟨fun hsome => ?_, fun haccepted => ?_, ?_, ?_, ?_, fun hcancelled => ?_⟩
  · rw [hstatus, Option.isSome_map] at hsome
    obtain ⟨s, hs⟩ := Option.isSome_iff_exists.mp hsome
    obtain ⟨s', hs', -⟩ := h.submitted owner id s hs
    rw [hstatus', hs']
    rfl
  · rw [hstatus] at haccepted
    obtain ⟨s, hs, hsaccepted⟩ := Option.map_eq_some_iff.mp haccepted
    obtain ⟨s', hs', hkept⟩ := h.submitted owner id s hs
    rw [hstatus', hs', Option.map_some, hkept hsaccepted]
  · rw [hphase, hphase']
    exact hbegun
  · rw [hphase, hphase']
    exact hrunning
  · intro phase hphase
    rw [hended']
    exact h.execution.ended owner id phase (hended ▸ hphase)
  · rw [hrequested, List.any_eq_true] at hcancelled
    obtain ⟨c, hc, hof⟩ := hcancelled
    obtain ⟨c', hc', htarget⟩ := h.execution.requests _ c (Table.find?_of_mem hc)
    obtain ⟨howner, hid⟩ := Prod.mk.inj htarget
    rw [hrequested', List.any_eq_true]
    refine ⟨c', (Table.mem_of_find? hc').1, ?_⟩
    rw [howner, hid]
    exact hof

/-- The stored state of an objective, and those of the others. -/
theorem find?_storeState (record : ObjectiveStateContract) (k : String × String) :
    (db.storeState owner id record).projections.find? k =
      if k = (owner, id) then
        some { ownerUserId := owner, objectiveId := id, revision := record.revision, record }
      else db.projections.find? k := by
  simp only [storeState, Table.find?_update, Table.find?_insertOrIgnore]
  by_cases hk : k = (owner, id)
  · subst hk
    cases hstored : db.projections.find? (owner, id) with
    | none => simp [ObjectiveProjection.key, ObjectiveProjection.replaced]
    | some p =>
      obtain ⟨howner, hid⟩ := Prod.mk.inj (Table.mem_of_find? hstored).2
      simp [ObjectiveProjection.replaced, howner, hid]
  · have hother : ¬(ObjectiveProjection.key
        { ownerUserId := owner, objectiveId := id, revision := record.revision, record } = k) :=
      fun hthis => hk hthis.symm
    simp [hk, hother]

end ObjectiveTables

/-- A stored state is of its objective, and says no more than the facts. -/
structure ObjectiveProjection.Current (db : ObjectiveTables) (p : ObjectiveProjection) : Prop where
  objectiveId : p.record.objectiveId = p.objectiveId
  owner : p.record.ownerPrincipalId = p.ownerUserId
  revision : p.record.revision = p.revision
  covered : ∃ f, db.facts p.ownerUserId p.objectiveId false = some f ∧
    f.Covers p.record.toObjectiveStateFields

/-- What holds of the tables at the end of every transaction. -/
structure StatesProjected (rules : ObjectiveRules) (db : ObjectiveTables) : Prop where
  streams : EventStreams rules.activity db.execution
  submitted : ∀ s ∈ db.submissions.rows, isObjectiveId s.objectiveId = true
  accepted : ∀ o ∈ db.execution.objectives.rows, isObjectiveId o.objectiveId = true
  projected : ∀ p ∈ db.projections.rows, p.Current db

/-- What a store keeps of the tables before it. -/
structure Kept (rules : ObjectiveRules) (db db' : ObjectiveTables) : Prop where
  later : db.Later db'
  streams : EventStreams rules.activity db'.execution
  submitted : ∀ s ∈ db'.submissions.rows, isObjectiveId s.objectiveId = true
  accepted : ∀ o ∈ db'.execution.objectives.rows, isObjectiveId o.objectiveId = true
  projections : db'.projections = db.projections

/-- How the stored state of an objective moves: it stays, it is the first, or the next one follows
with another content. -/
inductive ProjectionMove : Option ObjectiveProjection → Option ObjectiveProjection → Prop
  | stays (p : Option ObjectiveProjection) : ProjectionMove p p
  | created {p : ObjectiveProjection} (revision : p.revision = 1) : ProjectionMove none (some p)
  | revised {p p' : ObjectiveProjection} (follows : p.record.Follows p'.record)
      (revision : p'.revision = p.revision + 1)
      (changed : p'.record.sameContent p.record = false) : ProjectionMove (some p) (some p')

namespace StatesProjected

variable {rules : ObjectiveRules} {db db' : ObjectiveTables} {owner id : String} {recovering : Bool}

theorem initial : StatesProjected rules .initial where
  streams := .initial
  submitted _ hs := by simp [ObjectiveTables.initial] at hs
  accepted _ ho := by simp [ObjectiveTables.initial, Execution.initial] at ho
  projected _ hp := by simp [ObjectiveTables.initial] at hp

/-- The stored facts are well formed. -/
theorem facts_wellFormed (hstreams : EventStreams rules.activity db.execution) {f : ObjectiveFacts}
    (hf : db.facts owner id recovering = some f) : f.WellFormed := by
  obtain ⟨-, hphase, hended, hcomplete, -⟩ := ObjectiveTables.facts_eq_some hf
  refine ⟨fun phase hmem => ?_, fun phase hmem => ?_, hcomplete⟩
  · rw [hended] at hmem
    obtain ⟨o, ho, hophase⟩ := Option.bind_eq_some_iff.mp hmem
    rcases hstreams.ended o (Table.mem_of_find? ho).1
      with ⟨-, hopen⟩ | ⟨e, -, hterminal, -, -, -, he⟩
    · exact absurd (hopen.symm.trans hophase) (by simp)
    · rw [Option.some.inj (hophase.symm.trans he)]
      exact hterminal
  · rw [hphase, shownPhase] at hmem
    split_ifs at hmem
    · exact .inr (Option.some.inj hmem ▸ rfl)
    · exact .inl (Option.some.inj hmem).symm
    · exact nomatch hmem

/-- What there are facts about has an objective id. -/
theorem objectiveId_of_facts (h : StatesProjected rules db) {f : ObjectiveFacts}
    (hf : db.facts owner id recovering = some f) : isObjectiveId id = true := by
  rcases ObjectiveTables.facts_isSome.mp (by rw [hf]; rfl) with hsome | hsome
  · obtain ⟨s, hs⟩ := Option.isSome_iff_exists.mp hsome
    obtain ⟨hfind, -⟩ := Option.filter_eq_some_iff.mp hs
    obtain ⟨hmem, hkey⟩ := Table.mem_of_find? hfind
    exact hkey ▸ h.submitted s hmem
  · obtain ⟨o, ho⟩ := Option.isSome_iff_exists.mp hsome
    obtain ⟨hmem, hkey⟩ := Table.mem_of_find? ho
    exact (Prod.mk.inj hkey).2 ▸ h.accepted o hmem

/-- The tables that a store left, before the projection, are again projected from. -/
theorem kept (h : StatesProjected rules db) (hkept : Kept rules db db') :
    StatesProjected rules db' := by
  obtain ⟨hlater, hstreams, hsubmitted, haccepted, hprojections⟩ := hkept
  refine ⟨hstreams, hsubmitted, haccepted, fun p hp => ?_⟩
  rw [hprojections] at hp
  obtain ⟨hid, howner, hrevision, f, hf, hcovers⟩ := h.projected p hp
  have hsome : (db'.facts p.ownerUserId p.objectiveId false).isSome := by
    refine ObjectiveTables.facts_isSome.mpr ?_
    refine (ObjectiveTables.facts_isSome.mp (by rw [hf]; rfl)).imp (fun hsome => ?_)
      (hlater.objectives _)
    obtain ⟨s, hs⟩ := Option.isSome_iff_exists.mp hsome
    obtain ⟨s', hs', -⟩ := hlater.submitted _ _ s hs
    rw [hs']
    rfl
  obtain ⟨f', hf'⟩ := Option.isSome_iff_exists.mp hsome
  exact ⟨hid, howner, hrevision, f', hf',
    hcovers.extends (hlater.extends hf hf') (facts_wellFormed hstreams hf')⟩

/-- A stored state says no more than what is projected now. -/
theorem covers (h : StatesProjected rules db) {f : ObjectiveFacts}
    (hf : db.facts owner id recovering = some f) {p : ObjectiveProjection}
    (hp : db.projections.find? (owner, id) = some p) :
    f.Covers p.record.toObjectiveStateFields := by
  obtain ⟨hmem, hkey⟩ := Table.mem_of_find? hp
  obtain ⟨howner, hid⟩ := Prod.mk.inj hkey
  obtain ⟨f', hf', hcovers⟩ := (h.projected p hmem).covered
  rw [howner, hid] at hf'
  exact hcovers.extends ((ObjectiveTables.Later.refl db).extends hf' hf)
    (facts_wellFormed h.streams hf)

/-- A state that is stored, and no more than the facts say. -/
theorem storeState (h : StatesProjected rules db) {f : ObjectiveFacts}
    (hf : db.facts owner id recovering = some f) {record : ObjectiveStateContract}
    (hid : record.objectiveId = id) (howner : record.ownerPrincipalId = owner)
    (hcovers : f.Covers record.toObjectiveStateFields) :
    StatesProjected rules (db.storeState owner id record) := by
  refine ⟨h.streams, h.submitted, h.accepted, fun p hp => ?_⟩
  have hfind := Table.find?_of_mem hp
  rw [ObjectiveTables.find?_storeState] at hfind
  split_ifs at hfind with hkey
  · obtain rfl := Option.some.inj hfind
    have hsome : (db.facts owner id false).isSome :=
      ObjectiveTables.facts_isSome.mpr (ObjectiveTables.facts_isSome.mp (by rw [hf]; rfl))
    obtain ⟨f', hf'⟩ := Option.isSome_iff_exists.mp hsome
    exact ⟨hid, howner, rfl, f', hf',
      hcovers.extends ((ObjectiveTables.Later.refl db).extends hf hf')
      (facts_wellFormed h.streams hf')⟩
  · obtain ⟨hpid, hpowner, hprevision, hcovered⟩ := h.projected p (Table.mem_of_find? hfind).1
    exact ⟨hpid, hpowner, hprevision, hcovered⟩

/-- A projection stores what the facts say and nothing else, or the revisions of its objective are
used up. -/
theorem persist_cases (h : StatesProjected rules db) (howner : isPrincipalId owner = true)
    (id : String) (recovering : Bool) :
    (∃ db', persistObjectiveState owner id recovering db = .ok db' ∧ StatesProjected rules db' ∧
        db' = { db with projections := db'.projections } ∧
        (∀ k, k ≠ (owner, id) → db'.projections.find? k = db.projections.find? k) ∧
        ProjectionMove (db.projections.find? (owner, id)) (db'.projections.find? (owner, id)) ∧
        ∀ f, db.facts owner id recovering = some f →
          ∃ p, db'.projections.find? (owner, id) = some p ∧ p.record.state = f.state) ∨
      persistObjectiveState owner id recovering db = .error .validation ∧
        ∃ p, db.projections.find? (owner, id) = some p ∧ p.revision = maxContractInteger := by
  unfold persistObjectiveState
  cases hf : db.facts owner id recovering with
  | none => exact .inl ⟨db, rfl, h, rfl, fun _ _ => rfl, .stays _, fun _ hf => nomatch hf⟩
  | some f =>
    have hwell := facts_wellFormed h.streams hf
    have hid := h.objectiveId_of_facts hf
    have hother : ∀ record k, k ≠ (owner, id) →
        (db.storeState owner id record).projections.find? k = db.projections.find? k := by
      intro record k hk
      rw [ObjectiveTables.find?_storeState, if_neg hk]
    cases hp : db.projections.find? (owner, id) with
    | none =>
      rcases projectObjectiveState_eq hwell 1 hid howner with
        ⟨r, hr, hfields, -⟩ | ⟨-, hlarge⟩
      · refine .inl ⟨db.storeState owner id r, ?_, ?_, rfl, hother r, ?_⟩
        · simp only [hr, ok_bind]
          rfl
        · exact h.storeState hf (by rw [hfields]) (by rw [hfields]) (hfields ▸ hwell.covers)
        · rw [ObjectiveTables.find?_storeState, if_pos rfl]
          refine ⟨.created (by rw [hfields]), fun f' hf' => ⟨_, rfl, ?_⟩⟩
          rw [hfields, Option.some.inj hf']
      · exact absurd hlarge (by decide)
    | some p =>
      obtain ⟨hmem, hkey⟩ := Table.mem_of_find? hp
      obtain ⟨hpowner, hpid⟩ := Prod.mk.inj hkey
      have hcurrent := h.projected p hmem
      have hcovers := h.covers hf hp
      have hrid : p.record.objectiveId = id := hcurrent.objectiveId.trans hpid
      have hrowner : p.record.ownerPrincipalId = owner := hcurrent.owner.trans hpowner
      rcases projectObjectiveState_eq hwell (p.record.revision + 1) hid howner with
        ⟨incoming, hincoming, hfields, -⟩ | ⟨hraised, hlarge⟩
      · have hsame : incoming.toObjectiveStateFields = f.fields p.record.objectiveId
            p.record.ownerPrincipalId (p.record.revision + 1) := by
          rw [hfields, hrid, hrowner]
        obtain ⟨r, hr, hstate, hrcovers, hfollows⟩ :=
          advanceObjectiveState_eq_ok hwell hcovers hsame
        simp only [hincoming, hr, ok_bind]
        cases hsame : r.sameContent p.record with
        | true =>
          refine .inl ⟨db, rfl, h, rfl, fun _ _ => rfl, hp ▸ .stays _, fun f' hf' => ⟨p, hp, ?_⟩⟩
          have hfields' := of_decide_eq_true hsame
          rw [← Option.some.inj hf', ← hstate, ← hfields']
        | false =>
          refine .inl ⟨db.storeState owner id r, rfl, ?_, rfl, hother r, ?_⟩
          · exact h.storeState hf (hfollows.objectiveId.trans hrid)
              (hfollows.ownerPrincipalId.trans hrowner) hrcovers
          · rw [ObjectiveTables.find?_storeState, if_pos rfl]
            refine ⟨.revised hfollows (by rw [hfollows.revision, hcurrent.revision]) hsame,
              fun f' hf' => ⟨_, rfl, ?_⟩⟩
            rw [← Option.some.inj hf']
            exact hstate
      · refine .inr ⟨by simp only [hraised]; rfl, p, rfl, ?_⟩
        have hbound := p.record.valid.revision
        rw [← hcurrent.revision]
        omega

/-- Projections of different objectives store what the facts say of each, or the revisions of one
are used up. -/
theorem foldlM_project (h : StatesProjected rules db) (howner : isPrincipalId owner = true)
    (recovering : Bool) (ids : List String) (nodup : ids.Nodup) :
    (∃ db', ids.foldlM (ObjectiveTables.project owner recovering) db = .ok db' ∧
        StatesProjected rules db' ∧ db' = { db with projections := db'.projections } ∧
        (∀ k, k ∉ ids.map (owner, ·) → db'.projections.find? k = db.projections.find? k) ∧
        ∀ k, ProjectionMove (db.projections.find? k) (db'.projections.find? k)) ∨
      (∃ e, ids.foldlM (ObjectiveTables.project owner recovering) db = .error (.projection e)) ∧
        ∃ id ∈ ids, ∃ p, db.projections.find? (owner, id) = some p ∧
          p.revision = maxContractInteger := by
  induction ids generalizing db with
  | nil => exact .inl ⟨db, rfl, h, rfl, fun _ _ => rfl, fun _ => .stays _⟩
  | cons id ids ih =>
    obtain ⟨hid, nodup⟩ := List.nodup_cons.mp nodup
    have hothers : ∀ id' ∈ ids, (owner, id') ≠ (owner, id) := by
      intro id' hid' hsame
      exact hid ((Prod.mk.inj hsame).2 ▸ hid')
    rw [List.foldlM_cons]
    rcases h.persist_cases howner id recovering with
      ⟨db₁, hpersist, h₁, htables₁, hkept₁, hmove₁, -⟩ | ⟨hpersist, p, hp, hbound⟩
    · have hproject : ObjectiveTables.project owner recovering db id = .ok db₁ :=
        mapError_eq_ok.mpr hpersist
      rw [hproject, ok_bind]
      rcases ih h₁ nodup with ⟨db₂, hfold, h₂, htables₂, hkept₂, hmove₂⟩ | ⟨hraised, id',
        hid', p, hp, hbound⟩
      · refine .inl ⟨db₂, hfold, h₂, ?_, fun k hk => ?_, fun k => ?_⟩
        · rw [htables₂, htables₁]
        · rw [List.map_cons, List.mem_cons, not_or] at hk
          rw [hkept₂ k hk.2, hkept₁ k hk.1]
        · by_cases hk : k = (owner, id)
          · have hlast : k ∉ ids.map (owner, ·) := by
              intro hmem
              obtain ⟨id', hid', hsame⟩ := List.mem_map.mp hmem
              exact hothers id' hid' (hsame.trans hk)
            rw [hkept₂ k hlast, hk]
            exact hmove₁
          · rw [← hkept₁ k hk]
            exact hmove₂ k
      · rw [hkept₁ _ (hothers id' hid')] at hp
        exact .inr ⟨hraised, id', List.mem_cons_of_mem _ hid', p, hp, hbound⟩
    · refine .inr ⟨⟨.validation, ?_⟩, id, List.mem_cons_self, p, hp, hbound⟩
      rw [ObjectiveTables.project, hpersist]
      rfl

end StatesProjected

namespace Kept

variable {rules : ObjectiveRules} {db : ObjectiveTables}

/-- Other submissions that keep the acceptance of the earlier ones. -/
theorem submissions (h : StatesProjected rules db) {submissions : Table IntakeSubmission.key}
    (hkept : ∀ id s, db.submissions.find? id = some s → ∃ s', submissions.find? id = some s' ∧
      s'.ownerUserId = s.ownerUserId ∧ (s.status = .accepted → s'.status = .accepted))
    (hsubmitted : ∀ s ∈ submissions.rows, isObjectiveId s.objectiveId = true) :
    Kept rules db { db with submissions } := by
  refine ⟨⟨fun owner id s hs => ?_, .refl _, fun _ hk => hk, fun _ he => he⟩, h.streams, hsubmitted,
    h.accepted, rfl⟩
  obtain ⟨hfind, howner⟩ := Option.filter_eq_some_iff.mp hs
  obtain ⟨s', hs', hsame, haccepted⟩ := hkept id s hfind
  exact ⟨s', Option.filter_eq_some_iff.mpr ⟨hs', by rw [hsame]; exact howner⟩, haccepted⟩

/-- A submission that is changed and stays accepted if it was. -/
theorem update (h : StatesProjected rules db) {k : String} {f : IntakeSubmission → IntakeSubmission}
    (haccepted : ∀ s, db.submissions.find? k = some s → s.status = .accepted →
      (f s).status = .accepted)
    (hf : ∀ s, (f s).key = s.key) (howner : ∀ s, (f s).ownerUserId = s.ownerUserId) :
    Kept rules db { db with submissions := db.submissions.update k f hf } := by
  refine submissions h (fun id s hs => ?_) fun s hs => ?_
  · rw [Table.find?_update, hs, Option.map_some]
    refine ⟨_, rfl, ?_⟩
    split
    · next hk => exact ⟨howner s, haccepted s (hk ▸ hs)⟩
    · exact ⟨rfl, fun hstatus => hstatus⟩
  · obtain ⟨r, hr, rfl⟩ := Table.mem_update.mp hs
    have hid := h.submitted r hr
    split
    · have hsame : (f r).objectiveId = r.objectiveId := hf r
      exact hsame ▸ hid
    · exact hid

/-- Other decisions. -/
theorem decisions (h : StatesProjected rules db) (decisions : Decisions) :
    Kept rules db { db with decisions } :=
  ⟨⟨fun _ _ s hs => ⟨s, hs, id⟩, .refl _, fun _ hk => hk, fun _ he => he⟩, h.streams, h.submitted,
    h.accepted, rfl⟩

/-- Other cancellations, of the same objectives as the earlier ones. -/
theorem cancellations (h : StatesProjected rules db) {execution : Execution}
    (hevents : execution.events = db.execution.events)
    (hobjectives : execution.objectives = db.execution.objectives)
    (hkept : ∀ id c, db.execution.cancellations.find? id = some c →
      ∃ c', execution.cancellations.find? id = some c' ∧ c'.target = c.target) :
    Kept rules db { db with execution } := by
  refine ⟨⟨fun _ _ s hs => ⟨s, hs, id⟩, ⟨fun owner id phase hphase => ?_, hkept⟩, fun _ hk => ?_,
    fun _ he => ?_⟩, h.streams.congr hevents hobjectives, h.submitted, fun o ho => ?_, rfl⟩
  · rw [Execution.terminalPhase, hobjectives]
    exact hphase
  · rw [hobjectives]
    exact hk
  · rw [hevents]
    exact he
  · exact h.accepted o (hobjectives ▸ ho)

/-- A claim, which inserts a submission or takes up one that is not accepted. -/
theorem claim (h : StatesProjected rules db)
    (hids : ∀ owner key, safeObjectiveId (rules.intake.identities owner key).1 = true)
    {context : MagiToolContext} {key contractJson contextJson : String} {now : ℤ} {projected : Bool}
    {c : ObjectiveClaim} {submissions : Table IntakeSubmission.key}
    (hclaim : ObjectiveSubmissionStore.claim rules.intake context key contractJson contextJson now
      projected db.submissions = .ok (c, submissions)) : Kept rules db { db with submissions } := by
  simp only [ObjectiveSubmissionStore.claim, bind_eq_ok, raiseIf_eq_ok, exists_const] at hclaim
  obtain ⟨-, -, hclaim⟩ := hclaim
  split at hclaim
  · next existing hexisting =>
    simp only [bind_eq_ok, raiseIf_eq_ok, exists_const] at hclaim
    obtain ⟨-, hclaim⟩ := hclaim
    split at hclaim
    · obtain ⟨-, rfl⟩ := Prod.mk.inj (pure_eq_ok.mp hclaim)
      exact Kept.submissions h (fun _ s hs => ⟨s, hs, rfl, id⟩) h.submitted
    · next hopen =>
      simp only [bind_eq_ok, raiseIf_eq_ok, pure_eq_ok, exists_const, Prod.mk.injEq] at hclaim
      obtain ⟨-, -, rfl⟩ := hclaim
      refine update h (fun s hs haccepted => ?_) _ fun _ => rfl
      have hfind := Table.find?_of_mem (List.mem_of_find?_eq_some hexisting)
      obtain rfl : existing = s := Option.some.inj (hfind.symm.trans hs)
      exact absurd haccepted hopen
  · simp only [bind_eq_ok, raiseIf_eq_ok, pure_eq_ok, exists_const, Prod.mk.injEq] at hclaim
    obtain ⟨-, -, -, rfl⟩ := hclaim
    refine Kept.submissions h (fun id s hs => ⟨s, ?_, rfl,
      fun haccepted => haccepted⟩) fun s hs => ?_
    · rw [Table.find?_insertOrIgnore, hs, Option.some_or]
    · rcases Table.mem_insertOrIgnore hs with hs | ⟨-, rfl⟩
      · exact h.submitted s hs
      · exact isObjectiveId_of_safe (hids context.ownerUserId key)

/-- An acceptance. -/
theorem accept (h : StatesProjected rules db) {owner : String} {c : ObjectiveClaim} {now : ℤ}
    {projected : Bool} {submissions : Table IntakeSubmission.key}
    (haccept : ObjectiveSubmissionStore.accept owner c now projected db.submissions =
      .ok submissions) : Kept rules db { db with submissions } := by
  simp only [ObjectiveSubmissionStore.accept, bind_eq_ok, raiseIf_eq_ok, pure_eq_ok,
    exists_const] at haccept
  obtain ⟨-, -, rfl⟩ := haccept
  exact update h (fun _ _ _ => rfl) _ fun _ => rfl

/-- A recorded failure, of a submission that is not accepted. -/
theorem fail (h : StatesProjected rules db) (owner : String) (c : ObjectiveClaim) (code : String)
    (now : ℤ) (recorded : Bool) :
    Kept rules db { db with submissions :=
      (ObjectiveSubmissionStore.fail rules.intake owner c code now recorded
        db.submissions).2 } := by
  unfold ObjectiveSubmissionStore.fail
  split
  · next hrecorded =>
    refine update (f := .failed _ now) h (fun s hs haccepted => ?_) (fun _ => rfl) fun _ => rfl
    rw [hs] at hrecorded
    exact absurd haccepted (of_decide_eq_true hrecorded.2).2
  · exact decisions h db.decisions

/-- An open submission is not accepted. -/
theorem not_accepted_of_isOpen {row s : IntakeSubmission} {submissions : Table IntakeSubmission.key}
    (h : ObjectiveSubmissionStore.isOpen row submissions = true)
    (hs : submissions.find? row.objectiveId = some s) : s.status ≠ .accepted := by
  rw [ObjectiveSubmissionStore.isOpen, hs] at h
  obtain ⟨-, hstatus⟩ := of_decide_eq_true (show decide _ = true from h)
  rcases hstatus with hstatus | hstatus <;> rw [hstatus] <;> simp

/-- A submission that is withheld. -/
theorem withhold (h : StatesProjected rules db) (row : IntakeSubmission) :
    Kept rules db
      { db with submissions := ObjectiveSubmissionStore.withhold row db.submissions } := by
  unfold ObjectiveSubmissionStore.withhold
  split
  · exact update (f := .withheld) h (fun _ _ haccepted => haccepted) (fun _ => rfl) fun _ => rfl
  · exact decisions h db.decisions

/-- A submission whose contract is not valid. -/
theorem invalidate (h : StatesProjected rules db) (row : IntakeSubmission) (now : ℤ) :
    Kept rules db { db with submissions :=
      (ObjectiveSubmissionStore.invalidate row now db.submissions).2 } := by
  unfold ObjectiveSubmissionStore.invalidate
  split
  · next hopen =>
    refine update h ?_ ?_ ?_
    · exact fun s hs haccepted => absurd haccepted (not_accepted_of_isOpen hopen hs)
    · exact fun _ => rfl
    · exact fun _ => rfl
  · exact decisions h db.decisions

/-- A submission that a recovery takes up. -/
theorem resubmit (h : StatesProjected rules db) {row : IntakeSubmission} {now : ℤ}
    {c : ObjectiveClaim} {submissions : Table IntakeSubmission.key}
    (hresubmit : ObjectiveSubmissionStore.resubmit row now db.submissions = some (c, submissions)) :
    Kept rules db { db with submissions } := by
  unfold ObjectiveSubmissionStore.resubmit at hresubmit
  split at hresubmit
  · next hopen =>
    obtain ⟨-, rfl⟩ := Prod.mk.inj (Option.some.inj hresubmit)
    exact update h (fun s hs haccepted => absurd haccepted (not_accepted_of_isOpen hopen.1 hs)) _
      fun _ => rfl
  · cases hresubmit

/-- An ingest, which stores an event, or nothing. -/
theorem ingest (h : StatesProjected rules db) {owner : String} {event : FirstmateExecutionEvent}
    {now : ℤ} {projected duplicate : Bool} {stored : ExecutionEvent} {execution : Execution}
    (hid : isObjectiveId event.objectiveId = true)
    (hingest : FirstmateExecutionStore.ingest rules.activity owner event now
      projected db.execution =
      .ok ((stored, duplicate), execution)) : Kept rules db { db with execution } := by
  rcases FirstmateExecutionStore.ingest_stored hingest with
    ⟨-, -, rfl⟩ | ⟨objective, objectives, hstored⟩
  · exact decisions h db.decisions
  have hopen := h.streams.open_of_stored hstored
  refine ⟨⟨fun _ _ s hs => ⟨s, hs, id⟩,
    ⟨fun o i phase hphase => ?_, fun i c hc => ?_⟩, fun k hk => ?_,
      fun e he => ?_⟩, h.streams.store (FirstmateExecutionStore.ingest_cases hingest).1 hstored,
    h.submitted, fun o' ho' => ?_, rfl⟩
  · rw [EventStreams.terminalPhase_stored hstored, if_neg, hphase]
    rintro ⟨-, hthis⟩
    obtain ⟨rfl, rfl⟩ := Prod.mk.inj hthis
    exact absurd (hopen.symm.trans hphase) (by simp)
  · rw [hstored.cancellations]
    split
    · rw [CancellationsAgree.find?_closeCancellations, hc, Option.map_some]
      refine ⟨_, rfl, ?_⟩
      split <;> rfl
    · exact ⟨c, hc, rfl⟩
  · obtain ⟨o, ho⟩ := Option.isSome_iff_exists.mp hk
    obtain ⟨o', ho', -⟩ :=
      EventStreams.find?_stored hstored (EventStreams.find?_objectives hstored ho)
    rw [ho']
    rfl
  · rw [hstored.events]
    exact List.mem_append_left _ he
  · obtain ⟨o, -, -, hsame, -, -, hold | ⟨-, rfl⟩⟩ := EventStreams.mem_objectives_stored hstored ho'
    · exact hsame ▸ h.accepted o hold
    · rw [hsame, hstored.objectiveId]
      exact hid

/-- A cancellation request, which changes or inserts a request. -/
theorem request (h : StatesProjected rules db) {owner actor objectiveId key : String} {now : ℤ}
    {reserved projected duplicate notify : Bool} {pick : ℕ} {row : CancellationRequest}
    {submissions : Table ObjectiveSubmission.objectiveId} {execution : Execution}
    (hrequest : ObjectiveCancellationService.request rules.requestId owner actor objectiveId key now
      reserved projected pick { db.execution with submissions } =
        .ok ((row, duplicate, notify), execution)) : Kept rules db { db with execution } := by
  rcases ObjectiveCancellationService.request_cases hrequest with
    rfl | ⟨existing, -, -, -, rfl⟩ | ⟨-, -, -, -, rfl⟩
  · exact cancellations h rfl rfl fun _ c hc => ⟨c, hc, rfl⟩
  · refine cancellations h rfl rfl fun id c hc => ?_
    rw [Table.find?_update, hc, Option.map_some]
    refine ⟨_, rfl, ?_⟩
    split <;> rfl
  · refine cancellations h rfl rfl fun id c hc => ⟨c, ?_, rfl⟩
    rw [Table.find?_insertOrIgnore, hc, Option.some_or]

/-- A cancellation request that is changed. -/
theorem updateCancellation (h : StatesProjected rules db) (id : String)
    (f : CancellationRequest → CancellationRequest) (hf : ∀ c, (f c).requestId = c.requestId)
    (htarget : ∀ c, (f c).target = c.target) :
    Kept rules db { db with execution :=
      { db.execution with cancellations := db.execution.cancellations.update id f hf } } := by
  refine cancellations h rfl rfl fun l c hc => ?_
  rw [Table.find?_update, hc, Option.map_some]
  refine ⟨_, rfl, ?_⟩
  split
  · exact htarget c
  · rfl

/-- A transaction of a recovery, or of a notification. -/
theorem turn (h : StatesProjected rules db) (task : CancellationTask) (now : ℤ)
    (reserved delivered : Bool) :
    Kept rules db { db with execution := (task.turn now reserved delivered db.execution).1 } := by
  have hsame : Kept rules db { db with execution := db.execution } := decisions h db.decisions
  cases task with
  | sweep rest =>
    cases rest with
    | nil => exact hsame
    | cons row rest =>
      simp only [CancellationTask.turn]
      split <;> exact hsame
  | checked row rest =>
    simp only [CancellationTask.turn]
    split
    · exact updateCancellation h _ _ _ fun _ => rfl
    · split
      · exact hsame
      · exact updateCancellation h _ _ _ fun c => by
          unfold CancellationRequest.recovered
          split <;> rfl
  | notify id rest =>
    exact updateCancellation h _ _ _ fun c => by
      unfold CancellationRequest.notifying
      split <;> rfl
  | delivering id rest =>
    cases delivered with
    | true => exact updateCancellation h id (.notified now) (fun _ => rfl) fun _ => rfl
    | false =>
      exact updateCancellation h id (.unnotified now) (CancellationRequest.requestId_unnotified now)
        fun c => by
          unfold CancellationRequest.unnotified
          split <;> rfl

/-- Another chat. -/
theorem chat (h : StatesProjected rules db) (chat : Chat) :
    Kept rules db { db with
      execution := { db.execution with chat }
      decisions := { db.decisions with chat } } :=
  ⟨⟨fun _ _ s hs => ⟨s, hs, id⟩, ⟨fun _ _ _ hphase => hphase, fun _ c hc => ⟨c, hc, rfl⟩⟩,
    fun _ hk => hk, fun _ he => he⟩, h.streams.congr rfl rfl, h.submitted, h.accepted, rfl⟩

end Kept

namespace ObjectiveStep

/-- The owner whose objectives a step projects. -/
def owner : ObjectiveStep → Option String
  | .claim context .. => some context.ownerUserId
  | .accept owner .. | .fail owner .. | .ingest owner .. | .cancel owner .. | .finish _ owner ..
  | .snapshot _ owner .. => some owner
  | .resubmit row _ => some row.ownerUserId
  | _ => none

/-- The owner is a principal of the contract, and an event is one that its contract admits. -/
def Valid : ObjectiveStep → Prop
  | .ingest owner event _ => isPrincipalId owner = true ∧ isObjectiveId event.objectiveId = true
  | op => ∀ owner ∈ op.owner, isPrincipalId owner = true

instance (op : ObjectiveStep) : Decidable op.Valid := by
  unfold Valid
  split <;> infer_instance

end ObjectiveStep

/-- What comes of a transaction: projected tables in which every stored state moved at most once, or
a failure, which is the projection's only if the revisions of an objective are used up. -/
def Outcome (rules : ObjectiveRules) (owner : Option String) (db : ObjectiveTables) :
    Except ObjectiveFailure ObjectiveTables → Prop
  | .ok db' => StatesProjected rules db' ∧
      ∀ k, ProjectionMove (db.projections.find? k) (db'.projections.find? k)
  | .error (.projection _) =>
    ∃ p ∈ db.projections.rows, p.ownerUserId ∈ owner ∧ p.revision = maxContractInteger
  | .error _ => True

namespace Outcome

variable {rules : ObjectiveRules} {db db' : ObjectiveTables} {owner : String} {op : ObjectiveStep}

/-- A transaction without a projection. -/
theorem kept (h : StatesProjected rules db) (hkept : Kept rules db db') (owner : Option String) :
    Outcome rules owner db (.ok db') :=
  ⟨h.kept hkept, fun k => by rw [hkept.projections]; exact .stays _⟩

/-- A transaction that ends with the projection of objectives. -/
theorem projections (h : StatesProjected rules db) (hkept : Kept rules db db')
    (howner : isPrincipalId owner = true) (recovering : Bool) (ids : List String)
    (nodup : ids.Nodup) :
    Outcome rules (some owner) db (ids.foldlM (ObjectiveTables.project owner recovering) db') := by
  rcases (h.kept hkept).foldlM_project howner recovering ids nodup with
    ⟨db'', hfold, hprojected, -, -, hmove⟩ | ⟨⟨e, hraised⟩, id, -, p, hp, hbound⟩
  · rw [hfold]
    exact ⟨hprojected, fun k => hkept.projections ▸ hmove k⟩
  · rw [hraised]
    obtain ⟨hmem, hkey⟩ := Table.mem_of_find? hp
    rw [hkept.projections] at hmem
    exact ⟨p, hmem, (Prod.mk.inj hkey).1 ▸ rfl, hbound⟩

/-- A transaction that ends with the projection of one objective. -/
theorem projection (h : StatesProjected rules db) (hkept : Kept rules db db')
    (howner : isPrincipalId owner = true) (recovering : Bool) (id : String) :
    Outcome rules (some owner) db (ObjectiveTables.project owner recovering db' id) := by
  have hone := projections h hkept howner recovering [id] (List.nodup_singleton id)
  simpa only [List.foldlM_cons, List.foldlM_nil, bind_pure] using hone

/-- A store refuses, or the transaction goes on with what it returns. -/
theorem bind {ε α : Type} {owner : Option String} {result : Except ε α}
    {failure : ε → ObjectiveFailure}
    {next : α → Except ObjectiveFailure ObjectiveTables}
    (hfailure : ∀ e e', failure e ≠ .projection e')
    (hnext : ∀ a, result = .ok a → Outcome rules owner db (next a)) :
    Outcome rules owner db (result.mapError failure >>= next) := by
  cases result with
  | ok a => exact hnext a rfl
  | error e =>
    cases hcase : failure e with
    | projection e' => exact absurd hcase (hfailure e e')
    | intake e' | execution e' | decision e' =>
      show Outcome rules owner db (.error (failure e))
      rw [hcase]
      trivial

/-- The objectives that an owner submitted are different ones. -/
theorem nodup_submittedBy (owner : String) (db : ObjectiveTables) : (db.submittedBy owner).Nodup :=
  db.submissions.unique.sublist (List.filter_sublist.map _)

/-- What comes of a transaction. -/
theorem transaction (h : StatesProjected rules db)
    (hids : ∀ owner key, safeObjectiveId (rules.intake.identities owner key).1 = true)
    (hvalid : op.Valid) : Outcome rules op.owner db (db.transaction rules op) := by
  cases op with
  | claim context key contractJson contextJson now =>
    refine bind (fun _ _ => by simp) fun ⟨c, submissions⟩ hclaim => ?_
    have hkept := Kept.claim h hids hclaim
    dsimp only
    split
    · exact kept h hkept _
    · exact projection h hkept (hvalid _ rfl) false c.objectiveId
  | accept owner claim now =>
    refine bind (fun _ _ => by simp) fun submissions haccept => ?_
    exact projection h (Kept.accept h haccept) (hvalid _ rfl) false claim.objectiveId
  | fail owner claim code now =>
    have hkept := Kept.fail h owner claim code now true
    simp only [ObjectiveTables.transaction]
    split
    · exact projection h hkept (hvalid _ rfl) false claim.objectiveId
    · exact kept h hkept _
  | withhold row => exact kept h (.withhold h row) _
  | invalidate row now => exact kept h (.invalidate h row now) _
  | resubmit row now =>
    simp only [ObjectiveTables.transaction]
    split
    · exact kept h (.decisions h db.decisions) _
    · next c submissions hresubmit =>
      exact projection h (.resubmit h hresubmit) (hvalid _ rfl) true row.objectiveId
  | ingest owner event now =>
    refine bind (fun _ _ => by simp) fun ⟨⟨stored, duplicate⟩, execution⟩ hingest => ?_
    have hkept := Kept.ingest h hvalid.2 hingest
    dsimp only
    split
    · exact kept h hkept _
    · exact projection h hkept hvalid.1 false event.objectiveId
  | cancel owner actor objectiveId key now reserved pick =>
    refine bind (fun _ _ => by simp) fun ⟨⟨row, duplicate, notify⟩, execution⟩ hrequest => ?_
    have hkept := Kept.request h hrequest
    dsimp only
    split
    · exact kept h hkept _
    · exact projection h hkept (hvalid _ rfl) false objectiveId
  | cancellation task now reserved delivered => exact kept h (.turn h task now reserved delivered) _
  | mint context owner session decisionId revision messageId token =>
    exact bind (fun _ _ => by simp) fun ⟨_, decisions⟩ _ => kept h (.decisions h decisions) _
  | answer context owner session decisionId revision messageId token claimId =>
    exact bind (fun _ _ => by simp) fun ⟨_, decisions⟩ _ => kept h (.decisions h decisions) _
  | finish context owner key claimId result =>
    refine bind (fun _ _ => by simp) fun ⟨_, decisions⟩ _ => ?_
    dsimp only
    split
    · exact kept h (.decisions h decisions) _
    · next objectiveId _ =>
      exact projection h (.decisions h decisions) (hvalid _ rfl) false objectiveId
  | snapshot context owner source observedAt snapshotSha256 events =>
    refine bind (fun _ _ => by simp) fun ⟨_, decisions⟩ _ => ?_
    dsimp only
    split
    · exact kept h (.decisions h decisions) _
    · exact projections h (.decisions h decisions) (hvalid _ rfl) false _
        (nodup_submittedBy owner db)
  | chat chat => exact kept h (.chat h chat) _

end Outcome

namespace StatesProjected

variable {rules : ObjectiveRules} {db : ObjectiveTables} {op : ObjectiveStep}

/-- A valid step keeps the states projected, and moves each at most once. -/
theorem step (h : StatesProjected rules db)
    (hids : ∀ owner key, safeObjectiveId (rules.intake.identities owner key).1 = true)
    (hvalid : op.Valid) : StatesProjected rules (objectiveStep rules db op) ∧
      ∀ k, ProjectionMove (db.projections.find? k)
        ((objectiveStep rules db op).projections.find? k) := by
  have houtcome := Outcome.transaction h hids hvalid
  unfold objectiveStep
  cases hresult : db.transaction rules op with
  | ok db' =>
    rw [hresult] at houtcome
    exact houtcome
  | error e => exact ⟨h, fun _ => .stays _⟩

/-- The tables that a run of valid steps reaches are projected. -/
theorem runs (h : StatesProjected rules db)
    (hids : ∀ owner key, safeObjectiveId (rules.intake.identities owner key).1 = true)
    {steps : List ObjectiveStep} (hsteps : ∀ op ∈ steps, op.Valid) :
    StatesProjected rules (run (objectiveStep rules) db steps) :=
  run_invariant (fun _ _ h hop => (h.step hids hop).1)
    (runMeets_of_mem hsteps db) h

end StatesProjected

/-- What a later stored state keeps of an earlier one. -/
structure ObjectiveProjection.Advanced (p p' : ObjectiveProjection) : Prop where
  revision : p.revision ≤ p'.revision
  progress : p.record.progressStage.order ≤ p'.record.progressStage.order
  ended : p.record.state.terminal = true → p'.record.state = p.record.state

namespace ObjectiveProjection.Advanced

variable {p p' p'' : ObjectiveProjection}

theorem refl (p : ObjectiveProjection) : p.Advanced p := ⟨le_rfl, le_rfl, fun _ => rfl⟩

theorem trans (h : p.Advanced p') (h' : p'.Advanced p'') : p.Advanced p'' := by
  refine ⟨h.revision.trans h'.revision, h.progress.trans h'.progress, fun hended => ?_⟩
  have hsame := h.ended hended
  exact (h'.ended (hsame ▸ hended)).trans hsame

/-- A stored state that moves is kept. -/
theorem of_move {stored : Option ObjectiveProjection} (h : ProjectionMove (some p) stored) :
    ∃ p', stored = some p' ∧ p.Advanced p' := by
  cases h with
  | stays => exact ⟨p, rfl, refl p⟩
  | @revised _ p' follows revision changed =>
    exact ⟨p', rfl, by omega, follows.progress, follows.ended⟩

end ObjectiveProjection.Advanced

/-- Later runs keep what is stored. -/
theorem StatesProjected.advanced {rules : ObjectiveRules} {db : ObjectiveTables}
    (h : StatesProjected rules db)
    (hids : ∀ owner key, safeObjectiveId (rules.intake.identities owner key).1 = true)
    {steps : List ObjectiveStep} (hsteps : ∀ op ∈ steps, op.Valid) {k : String × String}
    {p : ObjectiveProjection} (hp : db.projections.find? k = some p) :
    ∃ p', (run (objectiveStep rules) db steps).projections.find? k = some p' ∧ p.Advanced p' := by
  induction steps generalizing db p with
  | nil => exact ⟨p, hp, .refl p⟩
  | cons op steps ih =>
    obtain ⟨hop, hsteps⟩ := List.forall_mem_cons.mp hsteps
    obtain ⟨hnext, hmove⟩ := h.step hids hop
    obtain ⟨p₁, hp₁, hadvanced₁⟩ := ObjectiveProjection.Advanced.of_move (hp ▸ hmove k)
    obtain ⟨p₂, hp₂, hadvanced₂⟩ := ih hnext hsteps hp₁
    exact ⟨p₂, hp₂, hadvanced₁.trans hadvanced₂⟩

/-- The projection of objective states. In every run, whatever the decisions are, it raises only for
an objective whose stored revision is the last one of the contract. A transaction moves every stored
state at most once, to the next revision and with another content. What is stored is kept: a
revision and a progress never decrease, and an end never changes. -/
theorem objective_states_projected (rules : ObjectiveRules)
    (hids : ∀ owner key, safeObjectiveId (rules.intake.identities owner key).1 = true)
    (before after : List ObjectiveStep) (hsteps : ∀ op ∈ before ++ after, op.Valid)
    (op : ObjectiveStep) (hop : op.Valid) :
    let db := run (objectiveStep rules) .initial before
    let db' := run (objectiveStep rules) db after
    (∀ e, db.transaction rules op = .error (.projection e) →
      ∃ p ∈ db.projections.rows, p.ownerUserId ∈ op.owner ∧ p.revision = maxContractInteger) ∧
    (∀ decisions owner id recovering e, isPrincipalId owner = true →
      persistObjectiveState owner id recovering { db with decisions } = .error e →
      ∃ p, db.projections.find? (owner, id) = some p ∧ p.revision = maxContractInteger) ∧
    (∀ k, ProjectionMove (db.projections.find? k)
      ((objectiveStep rules db op).projections.find? k)) ∧
    ∀ k p, db.projections.find? k = some p → p.record.revision = p.revision ∧
      ∃ p', db'.projections.find? k = some p' ∧ p.Advanced p' := by
  intro db db'
  have hprojected : StatesProjected rules db :=
    StatesProjected.initial.runs hids fun op hmem => hsteps op (List.mem_append_left _ hmem)
  refine ⟨fun e hraised => ?_, fun decisions owner id recovering e howner hraised => ?_,
    (hprojected.step hids hop).2, fun k p hp => ⟨?_, ?_⟩⟩
  · have houtcome := Outcome.transaction hprojected hids hop
    rw [hraised] at houtcome
    exact houtcome
  · have hkept := hprojected.kept (.decisions hprojected decisions)
    rcases hkept.persist_cases howner id recovering with ⟨db'', hok, -⟩ | ⟨-, hbound⟩
    · exact absurd (hok.symm.trans hraised) (by simp)
    · exact hbound
  · exact (hprojected.projected p (Table.mem_of_find? hp).1).revision
  · exact hprojected.advanced hids (fun op hmem => hsteps op (List.mem_append_right _ hmem)) hp

/-- Rules that refuse nothing, and an intake of one objective. -/
def sampleObjectiveRules : ObjectiveRules where
  intake := { IntakeSample.rules with
    identities := fun _ _ => ("mgo_0123456789abcdef0123456789abcdef", "magi-task") }
  activity := plainRules
  requestId owner key := owner ++ key
  decisions := sampleDecisionRules

theorem sampleObjectiveRules_safe (owner key : String) :
    safeObjectiveId (sampleObjectiveRules.intake.identities owner key).1 = true :=
  (by decide : safeObjectiveId "mgo_0123456789abcdef0123456789abcdef" = true)

/-- The turn that the objective is submitted in. -/
def sampleTurn : MagiToolContext :=
  ⟨"user", "mgc_conversation", "mgt_turn", "mgm_user", "mgm_assistant", false⟩

/-- A claim of the objective. -/
def sampleClaim : ObjectiveStep := .claim sampleTurn "key" "contract" "context" 0

/-- A failure to dispatch the objective. -/
def sampleFailure : ObjectiveStep :=
  .fail "user" ⟨"mgo_0123456789abcdef0123456789abcdef", "magi-task", "contract", false, false, 1,
    "context"⟩ "objective_dispatch_failed" 0

/-- A snapshot without decisions. -/
def samplePoll : ObjectiveStep :=
  .snapshot sampleDecisionContext "user" "firstmate" 1 "sha256" []

/-- A submission that failed and is claimed again. -/
theorem objective_states_projected_failed :
    let db := run (objectiveStep sampleObjectiveRules) .initial [sampleClaim]
    let db' := run (objectiveStep sampleObjectiveRules) db [sampleFailure, sampleClaim]
    (db'.projections.rows.map fun p => (p.revision, p.record.state, p.record.progressStage)) =
        [(2, .unknown, .submitting)] ∧
      ∀ k p, db.projections.find? k = some p → p.record.revision = p.revision ∧
        ∃ p', db'.projections.find? k = some p' ∧ p.Advanced p' :=
  ⟨by decide +kernel, (objective_states_projected sampleObjectiveRules
    sampleObjectiveRules_safe [sampleClaim] [sampleFailure, sampleClaim] (by decide +kernel)
    samplePoll (by decide +kernel)).2.2.2⟩

/-- A projection of another state than the stored one. -/
theorem StatesProjected.project_eq {rules : ObjectiveRules} {db : ObjectiveTables}
    (h : StatesProjected rules db) {owner id : String} (howner : isPrincipalId owner = true)
    {p : ObjectiveProjection} (hp : db.projections.find? (owner, id) = some p)
    (hbound : p.revision < maxContractInteger) {f : ObjectiveFacts}
    (hf : db.facts owner id false = some f) (hstate : p.record.state ≠ f.state) :
    ∃ projections p', ObjectiveTables.project owner false db id = .ok { db with projections } ∧
      StatesProjected rules { db with projections } ∧ projections.find? (owner, id) = some p' ∧
      p'.revision = p.revision + 1 ∧ p'.record.state = f.state := by
  rcases h.persist_cases howner id false with
    ⟨db', hpersist, hprojected, htables, -, hmove, hnow⟩ | ⟨-, q, hq, hused⟩
  · obtain ⟨p', hp', hpstate⟩ := hnow f hf
    rw [htables] at hpersist hprojected
    refine ⟨db'.projections, p', mapError_eq_ok.mpr hpersist, hprojected, hp', ?_, hpstate⟩
    rw [hp, hp'] at hmove
    cases hmove with
    | stays => exact absurd hpstate hstate
    | revised follows revision changed => exact revision
  · rw [Option.some.inj (hp.symm.trans hq)] at hbound
    omega

/-- A projection raises when the revisions of its objective are used up. -/
theorem StatesProjected.persist_error {rules : ObjectiveRules} {db : ObjectiveTables}
    (h : StatesProjected rules db) {owner id : String} {recovering : Bool}
    (howner : isPrincipalId owner = true) {p : ObjectiveProjection}
    (hp : db.projections.find? (owner, id) = some p) (hbound : p.revision = maxContractInteger)
    {f : ObjectiveFacts} (hf : db.facts owner id recovering = some f) :
    persistObjectiveState owner id recovering db = .error .validation := by
  have hrevision := (h.projected p (Table.mem_of_find? hp).1).revision
  have hid := h.objectiveId_of_facts hf
  have hraised : projectObjectiveState id owner (p.record.revision + 1) f = .error .validation := by
    rcases projectObjectiveState_eq (facts_wellFormed h.streams hf)
      (p.record.revision + 1) hid howner with ⟨-, -, -, hsmall⟩ | ⟨hraised, -⟩
    · omega
    · exact hraised
  rw [persistObjectiveState, hf]
  simp only [hp, hraised]
  rfl

/-- The objective of the sample. -/
def sampleObjective : String × String := ("user", "mgo_0123456789abcdef0123456789abcdef")

/-- The submission of the objective when it was claimed `n` times again. -/
def sampleSubmission (n : ℕ) : IntakeSubmission :=
  { ObjectiveSubmissionStore.newSubmission sampleObjectiveRules.intake sampleTurn "key" "contract"
      "context" 0 with attemptCount := n + 1 }

/-- The decision tables after a snapshot. -/
def polledDecisions : Decisions :=
  decisionStep sampleDecisionRules .initial
    (.snapshot sampleDecisionContext "user" "firstmate" 1 "sha256" [])

/-- Tables of one submission, with the state that is stored of it. -/
structure Submitted (s : IntakeSubmission) (revision : ℕ) (state : ObjectiveState)
    (db : ObjectiveTables) : Prop where
  projected : StatesProjected sampleObjectiveRules db
  submissions : db.submissions.rows = [s]
  execution : db.execution = .initial
  decisions : db.decisions = polledDecisions
  stored : ∃ p, db.projections.find? sampleObjective = some p ∧ p.revision = revision ∧
    p.record.state = state

/-- The facts about a submission that nothing else is stored of. -/
def submissionFacts (status : SubmissionStatus) : ObjectiveFacts where
  submissionStatus := some status
  executionPhase := none
  terminalPhase := none
  waitingForInput := false
  recovering := false
  observationComplete := true
  cancellationRequested := false

theorem facts_of_submission {db : ObjectiveTables} {s : IntakeSubmission}
    (hsubmissions : db.submissions.rows = [s]) (hs : s.target = sampleObjective)
    (hexecution : db.execution = .initial) (hdecisions : db.decisions = polledDecisions) :
    db.facts sampleObjective.1 sampleObjective.2 false = some (submissionFacts s.status) := by
  have hfind : db.submission sampleObjective.1 sampleObjective.2 = some s := by
    rw [ObjectiveTables.submission, Table.find?, hsubmissions, ← hs]
    simp [IntakeSubmission.key, IntakeSubmission.target]
  have hnone : polledDecisions.decisions.rows = [] := by decide
  simp [ObjectiveTables.facts, ObjectiveTables.phases, hfind, hexecution, hdecisions, hnone,
    Execution.initial, shownPhase, submissionFacts]

namespace Submitted

variable {s : IntakeSubmission} {n revision : ℕ} {state : ObjectiveState} {db : ObjectiveTables}

/-- A projection of a submission that another state is stored of. -/
theorem project (h : Submitted s revision state db) (hrevision : revision < maxContractInteger)
    (s' : IntakeSubmission) (hs : s'.target = sampleObjective)
    {submissions : Table IntakeSubmission.key} (hsubmissions : submissions.rows = [s'])
    (hkept : Kept sampleObjectiveRules db { db with submissions })
    (hstate : state ≠ (submissionFacts s'.status).state) :
    ∃ db', ObjectiveTables.project sampleObjective.1 false { db with submissions }
        sampleObjective.2 = .ok db' ∧
      Submitted s' (revision + 1) (submissionFacts s'.status).state db' := by
  obtain ⟨p, hp, rfl, rfl⟩ := h.stored
  have hf : ObjectiveTables.facts sampleObjective.1 sampleObjective.2 false
    { db with submissions } =
      some (submissionFacts s'.status) :=
    facts_of_submission hsubmissions hs h.execution h.decisions
  obtain ⟨projections, p', hproject, hprojected, hp', hrevision', hstate'⟩ :=
    (h.projected.kept hkept).project_eq (by decide) hp hrevision hf hstate
  exact ⟨_, hproject, hprojected, hsubmissions, h.execution, h.decisions, p', hp',
    hrevision', hstate'⟩

/-- The only row of a table is updated. -/
theorem rows_update_one {submissions : Table IntakeSubmission.key} (hrows : submissions.rows = [s])
    {k : String} (hk : s.key = k) (f : IntakeSubmission → IntakeSubmission)
    (hf : ∀ s, (f s).key = s.key) : (submissions.update k f hf).rows = [f s] := by
  rw [Table.rows_update, hrows]
  simp [hk]

/-- The failure of a dispatch is projected. -/
theorem failure (h : Submitted (sampleSubmission n) revision .submitting db)
    (hrevision : revision < maxContractInteger) :
    Submitted ((sampleSubmission n).failed "objective_dispatch_failed" 0) (revision + 1) .unknown
      (objectiveStep sampleObjectiveRules db sampleFailure) := by
  obtain ⟨submissions, execution, decisions, projections⟩ := db
  have hrows : submissions.rows = [sampleSubmission n] := h.submissions
  have hfind : submissions.find? sampleObjective.2 = some (sampleSubmission n) := by
    rw [Table.find?, hrows]
    simp [sampleSubmission, ObjectiveSubmissionStore.newSubmission, IntakeSubmission.key,
      sampleObjectiveRules, sampleObjective]
  have hfail : ObjectiveSubmissionStore.fail sampleObjectiveRules.intake "user"
      ⟨"mgo_0123456789abcdef0123456789abcdef", "magi-task", "contract", false, false, 1, "context"⟩
      "objective_dispatch_failed" 0 true submissions = (true,
        submissions.update sampleObjective.2 (.failed "objective_dispatch_failed" 0)) := by
    have hopen : (submissions.find? sampleObjective.2).any fun s =>
        s.ownerUserId = "user" ∧ s.status ≠ .accepted := by
      rw [hfind]
      simp [sampleSubmission, ObjectiveSubmissionStore.newSubmission, sampleTurn]
    exact if_pos ⟨rfl, hopen⟩
  have hkept := Kept.fail h.projected "user"
    ⟨"mgo_0123456789abcdef0123456789abcdef", "magi-task", "contract", false, false, 1, "context"⟩
    "objective_dispatch_failed" 0 true
  rw [hfail] at hkept
  obtain ⟨db', hproject, hnext⟩ := h.project hrevision
    ((sampleSubmission n).failed "objective_dispatch_failed" 0) rfl
    (rows_update_one hrows rfl (.failed "objective_dispatch_failed" 0) fun _ => rfl) hkept
    (show ObjectiveState.submitting ≠ (submissionFacts .failed).state by decide)
  have htransaction : ObjectiveTables.transaction sampleObjectiveRules
      ⟨submissions, execution, decisions, projections⟩ sampleFailure = .ok db' := by
    simp only [sampleFailure, ObjectiveTables.transaction, hfail]
    exact hproject
  rw [objectiveStep, htransaction]
  exact hnext

/-- The submission that failed is claimed again, which is not projected. -/
theorem reclaim
    (h : Submitted ((sampleSubmission n).failed "objective_dispatch_failed" 0)
      revision .unknown db) :
    Submitted (sampleSubmission (n + 1)) revision .unknown
      (objectiveStep sampleObjectiveRules db sampleClaim) := by
  obtain ⟨submissions, execution, decisions, projections⟩ := db
  have hrows : submissions.rows = [(sampleSubmission n).failed "objective_dispatch_failed" 0] :=
    h.submissions
  have hclaim : ObjectiveSubmissionStore.claim sampleObjectiveRules.intake sampleTurn
    "key" "contract"
      "context" 0 true submissions = .ok (ObjectiveSubmissionStore.claimOf false true (n + 2)
        ((sampleSubmission n).failed "objective_dispatch_failed" 0),
        submissions.update sampleObjective.2 (.submitting (n + 2) 0)) := by
    have hexisting : submissions.rows.find? (fun s =>
        s.ownerUserId = sampleTurn.ownerUserId ∧ s.invocationKey = "key") =
          some ((sampleSubmission n).failed "objective_dispatch_failed" 0) := by
      rw [hrows]
      rfl
    have hbound : ObjectiveSubmissionStore.boundTo sampleObjectiveRules.intake sampleTurn "key"
        "contract" ((sampleSubmission n).failed "objective_dispatch_failed" 0) = true :=
      decide_eq_true ⟨rfl, rfl, rfl, rfl, rfl, rfl⟩
    unfold ObjectiveSubmissionStore.claim
    rw [hexisting]
    refine bind_eq_ok.mpr ⟨(), raiseIf_ok (by decide) _, ?_⟩
    refine bind_eq_ok.mpr ⟨(), raiseIf_ok (by decide) _, ?_⟩
    refine bind_eq_ok.mpr ⟨(), raiseIf_ok (by simp [hbound]) _, ?_⟩
    rfl
  have hkept := Kept.claim h.projected sampleObjectiveRules_safe hclaim
  have htransaction : ObjectiveTables.transaction sampleObjectiveRules
      ⟨submissions, execution, decisions, projections⟩ sampleClaim = .ok
        ⟨submissions.update sampleObjective.2 (.submitting (n + 2) 0), execution, decisions,
          projections⟩ := by
    simp only [sampleClaim, ObjectiveTables.transaction, hclaim]
    rfl
  rw [objectiveStep, htransaction]
  exact ⟨h.projected.kept hkept, rows_update_one hrows rfl (.submitting (n + 2) 0) fun _ => rfl,
    h.execution, h.decisions, h.stored⟩

/-- A snapshot projects the submission. -/
theorem poll (h : Submitted (sampleSubmission n) revision .unknown db)
    (hrevision : revision < maxContractInteger) :
    Submitted (sampleSubmission n) (revision + 1) .submitting
      (objectiveStep sampleObjectiveRules db samplePoll) := by
  obtain ⟨submissions, execution, decisions, projections⟩ := db
  have hrows : submissions.rows = [sampleSubmission n] := h.submissions
  obtain rfl : decisions = polledDecisions := h.decisions
  obtain ⟨db', hproject, hnext⟩ := h.project hrevision (sampleSubmission n) rfl hrows
    (.decisions h.projected polledDecisions)
    (show ObjectiveState.unknown ≠ (submissionFacts .submitting).state by decide)
  have hsnapshot : FirstmateDecisionStore.applySnapshot sampleDecisionRules sampleDecisionContext
      "user" "firstmate" 1 "sha256" [] polledDecisions = .ok ([], polledDecisions) := by
    decide
  have hsubmitted : ObjectiveTables.submittedBy "user"
      ⟨submissions, execution, polledDecisions, projections⟩ = [sampleObjective.2] := by
    rw [ObjectiveTables.submittedBy, hrows]
    rfl
  have htransaction : ObjectiveTables.transaction sampleObjectiveRules
      ⟨submissions, execution, polledDecisions, projections⟩ samplePoll = .ok db' := by
    have hone : [sampleObjective.2].foldlM (ObjectiveTables.project sampleObjective.1 false)
        ⟨submissions, execution, polledDecisions, projections⟩ = .ok db' := by
      simpa only [List.foldlM_cons, List.foldlM_nil, bind_pure] using hproject
    have hfresh : ((polledDecisions.sources.find? ("user", "firstmate")).bind
        (·.lastObservedAt)).any (1 < ·) = false := by
      decide
    rw [samplePoll, ObjectiveTables.transaction]
    refine bind_eq_ok.mpr ⟨([], polledDecisions), mapError_eq_ok.mpr hsnapshot, ?_⟩
    refine (if_neg ?_).trans ?_
    · rw [hfresh]
      exact Bool.false_ne_true
    · rw [hsubmitted]
      exact hone
  rw [objectiveStep, htransaction]
  exact hnext

/-- A failure, a claim and a snapshot take two revisions. -/
theorem cycle (h : Submitted (sampleSubmission n) revision .submitting db)
    (hrevision : revision + 1 < maxContractInteger) :
    Submitted (sampleSubmission (n + 1)) (revision + 2) .submitting
      (run (objectiveStep sampleObjectiveRules) db [sampleFailure, sampleClaim, samplePoll]) :=
  ((h.failure (by omega)).reclaim).poll hrevision

/-- The steps of a number of cycles. -/
def cycles (n : ℕ) : List ObjectiveStep :=
  (List.replicate n [sampleFailure, sampleClaim, samplePoll]).flatten

theorem cycles_succ (n : ℕ) :
    cycles (n + 1) = cycles n ++ [sampleFailure, sampleClaim, samplePoll] := by
  simp [cycles, List.replicate_succ']

/-- The steps of cycles are valid. -/
theorem valid_cycles (n : ℕ) : ∀ op ∈ [sampleClaim, samplePoll] ++ cycles n, op.Valid := by
  have hvalid : ∀ op ∈ [sampleFailure, sampleClaim, samplePoll], op.Valid := by decide
  intro op hop
  refine hvalid op ?_
  rcases List.mem_append.mp hop with hop | hop
  · exact List.mem_cons_of_mem _ hop
  · obtain ⟨l, hl, hop⟩ := List.mem_flatten.mp hop
    rwa [List.eq_of_mem_replicate hl] at hop

/-- The first claim and the first snapshot. -/
theorem start : Submitted (sampleSubmission 0) 1 .submitting
    (run (objectiveStep sampleObjectiveRules) .initial [sampleClaim, samplePoll]) := by
  refine ⟨StatesProjected.initial.runs sampleObjectiveRules_safe (by decide +kernel),
    by decide +kernel, by decide +kernel, by decide +kernel, ?_⟩
  have hstored : ((run (objectiveStep sampleObjectiveRules) .initial
      [sampleClaim, samplePoll]).projections.find? sampleObjective).any
        fun p => p.revision = 1 ∧ p.record.state = .submitting := by
    decide +kernel
  obtain ⟨p, hp, hof⟩ := Option.any_eq_true _ _ |>.mp hstored
  obtain ⟨hrevision, hstate⟩ := of_decide_eq_true hof
  exact ⟨p, hp, hrevision, hstate⟩

/-- Cycles take their revisions as long as there are any. -/
theorem run_cycles (n : ℕ) (hn : 2 * n < maxContractInteger) :
    Submitted (sampleSubmission n) (2 * n + 1) .submitting
      (run (objectiveStep sampleObjectiveRules) .initial
        ([sampleClaim, samplePoll] ++ cycles n)) := by
  induction n with
  | zero => exact start
  | succ n ih =>
    have hbefore := ih (by omega)
    rw [cycles_succ, ← List.append_assoc, run_append]
    exact hbefore.cycle (by omega)

end Submitted

/-- A submission that fails and is claimed again until the revisions of its state are used up: the
projection raises. -/
theorem objective_revisions_used_up :
    let db := run (objectiveStep sampleObjectiveRules) .initial
      ([sampleClaim, samplePoll] ++ Submitted.cycles 4503599627370495)
    (∀ op ∈ [sampleClaim, samplePoll] ++ Submitted.cycles 4503599627370495, op.Valid) ∧
      persistObjectiveState "user" "mgo_0123456789abcdef0123456789abcdef" false db =
        .error .validation := by
  intro db
  have hdb := Submitted.run_cycles 4503599627370495 (by decide)
  refine ⟨Submitted.valid_cycles 4503599627370495, ?_⟩
  obtain ⟨p, hp, hrevision, -⟩ := hdb.stored
  exact hdb.projected.persist_error (by decide) hp hrevision
    (facts_of_submission hdb.submissions rfl hdb.execution hdb.decisions)

end Magistrate
