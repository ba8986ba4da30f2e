import Magistrate.Gateway.Execution.Cancellation

/-!
# The state of an objective

The published state of an objective is projected from the stored facts about it,
and a stored state is replaced only by one that may follow it. A contract carries
its own validity. Facts that only ever extend earlier ones project to states that
may follow.
-/

namespace Magistrate

/-- `MAX_CONTRACT_INTEGER` -/
def maxContractInteger : ℕ := 9007199254740991

/-- An id of at most 128 letters, digits and further characters, of which the first is a letter or
a digit. -/
def contractId (further : List Char) (id : String) : Bool :=
  id.toList.length ≤ 128 ∧ id.toList.head?.any asciiAlphanumeric ∧
    id.toList.all fun c => asciiAlphanumeric c ∨ c ∈ further

/-- `PRINCIPAL_ID_PATTERN` -/
def isPrincipalId : String → Bool := contractId ['.', '_', '-']

/-- The pattern of objective ids. -/
def isObjectiveId : String → Bool := contractId ['.', '_', ':', '-']

/-- The ids of submitted objectives are objective ids. -/
theorem isObjectiveId_of_safe {id : String} (h : safeObjectiveId id = true) :
    isObjectiveId id = true := by
  obtain ⟨hstart, hlength, hdigits⟩ := of_decide_eq_true h
  have hsplit := List.take_append_drop 4 id.toList
  rw [hstart] at hsplit
  refine decide_eq_true ⟨by omega, ?_, ?_⟩
  · rw [← hsplit]
    rfl
  · rw [← hsplit, List.all_append, Bool.and_eq_true]
    refine ⟨by decide, List.all_eq_true.mpr fun c hc => ?_⟩
    have hdigit := List.all_eq_true.mp hdigits c hc
    have hcases : c.isDigit = true ∨ 'a' ≤ c ∧ c ≤ 'f' := of_decide_eq_true hdigit
    refine decide_eq_true (.inl (decide_eq_true ?_))
    rcases hcases with hnumber | ⟨hfirst, hlast⟩
    · exact .inl hnumber
    · exact .inr (.inl ⟨hfirst, Char.le_trans hlast (by decide)⟩)

/-- `ObjectiveState` -/
inductive ObjectiveState where
  | unknown
  | submitting
  | queued
  | accepted
  | running
  | waitingForInput
  | recovering
  | succeeded
  | failed
  | cancelled
  deriving DecidableEq, Repr

/-- How far the progress of an objective was observed. -/
inductive ProgressStage where
  | unobserved
  | submitting
  | queued
  | accepted
  | running
  | terminal
  deriving DecidableEq, Repr

/-- What is known of the cancellation of an objective. -/
inductive CancellationMark where
  | none
  | requested
  | observed
  deriving DecidableEq, Repr

/-- `_PROGRESS_ORDER` -/
def ProgressStage.order : ProgressStage → ℕ
  | .unobserved => 0
  | .submitting => 1
  | .queued => 2
  | .accepted => 3
  | .running => 4
  | .terminal => 5

namespace ObjectiveState

/-- `_TERMINAL_PUBLIC_STATES` -/
def terminal : ObjectiveState → Bool
  | .succeeded | .failed | .cancelled => true
  | _ => false

/-- `_UNCERTAIN_STATES` -/
def uncertain : ObjectiveState → Bool
  | .unknown | .recovering | .waitingForInput => true
  | _ => false

/-- The stage of a state that is observed progress. -/
def stage : ObjectiveState → Option ProgressStage
  | .submitting => some .submitting
  | .queued => some .queued
  | .accepted => some .accepted
  | .running => some .running
  | _ => none

/-- `_ALLOWED_TRANSITIONS` -/
def allows : ObjectiveState → ObjectiveState → Bool
  | .submitting, next => next ∈ [.submitting, .queued, .accepted, .running] ∨ next.uncertain ∨
      next.terminal
  | .queued, next => next ∈ [.queued, .accepted, .running] ∨ next.uncertain ∨ next.terminal
  | .accepted, next => next ∈ [.accepted, .running] ∨ next.uncertain ∨ next.terminal
  | .running, next => next = .running ∨ next.uncertain ∨ next.terminal
  | .unknown, next | .recovering, next | .waitingForInput, next =>
    next ∈ [.submitting, .queued, .accepted, .running] ∨ next.uncertain ∨ next.terminal
  | .succeeded, next => next = .succeeded
  | .failed, next => next = .failed
  | .cancelled, next => next = .cancelled

/-- An open state allows every end and every uncertainty. -/
theorem allows_of_open {current next : ObjectiveState} (hopen : current.terminal = false)
    (hnext : next.uncertain = true ∨ next.terminal = true) : current.allows next = true := by
  cases current <;> simp [terminal] at hopen <;> simp [allows, hnext]

/-- Observed progress is allowed after uncertainty, and after progress that is not beyond it. -/
theorem allows_of_stage {current next : ObjectiveState} {stage : ProgressStage}
    (hnext : next.stage = some stage) (hopen : current.terminal = false)
    (hcurrent : ∀ earlier, current.stage = some earlier → earlier.order ≤ stage.order) :
    current.allows next = true := by
  cases next <;> simp [ObjectiveState.stage] at hnext <;> subst hnext <;>
    cases current <;> simp_all [ObjectiveState.stage, ProgressStage.order, allows, terminal]

end ObjectiveState

/-- The fields of an objective's state. -/
structure ObjectiveStateFields where
  objectiveId : String
  ownerPrincipalId : String
  revision : ℕ
  state : ObjectiveState
  progressStage : ProgressStage
  cancellation : CancellationMark
  deriving DecidableEq, Repr

/-- The field patterns and `validate_state`. -/
structure ObjectiveStateFields.Valid (r : ObjectiveStateFields) : Prop where
  objectiveId : isObjectiveId r.objectiveId = true
  ownerPrincipalId : isPrincipalId r.ownerPrincipalId = true
  revision : r.revision ≤ maxContractInteger
  cancellation : r.cancellation = .observed ↔ r.state = .cancelled
  terminal : r.state.terminal = true ↔ r.progressStage = .terminal
  progress : ∀ stage ∈ r.state.stage, r.progressStage = stage

instance (r : ObjectiveStateFields) : Decidable r.Valid :=
  decidable_of_iff (isObjectiveId r.objectiveId = true ∧ isPrincipalId r.ownerPrincipalId = true ∧
      r.revision ≤ maxContractInteger ∧ (r.cancellation = .observed ↔ r.state = .cancelled) ∧
      (r.state.terminal = true ↔ r.progressStage = .terminal) ∧
      ∀ stage ∈ r.state.stage, r.progressStage = stage)
    ⟨fun ⟨h₁, h₂, h₃, h₄, h₅, h₆⟩ => ⟨h₁, h₂, h₃, h₄, h₅, h₆⟩,
      fun ⟨h₁, h₂, h₃, h₄, h₅, h₆⟩ => ⟨h₁, h₂, h₃, h₄, h₅, h₆⟩⟩

/-- `ObjectiveStateContract`: the fields of a state, which are valid. -/
structure ObjectiveStateContract extends ObjectiveStateFields where
  valid : toObjectiveStateFields.Valid
  deriving DecidableEq

/-- What the projection of a state can raise. -/
inductive ObjectiveStateError where
  | validation
  | deploymentMode (code : String)
  deriving DecidableEq, Repr

/-- The contract with valid fields. -/
def ObjectiveStateFields.validate (r : ObjectiveStateFields) :
    Except ObjectiveStateError ObjectiveStateContract :=
  if h : r.Valid then .ok ⟨r, h⟩ else .error .validation

/-- The facts that a state is projected from. -/
structure ObjectiveFacts where
  submissionStatus : Option SubmissionStatus
  executionPhase : Option ExecutionPhase
  terminalPhase : Option ExecutionPhase
  waitingForInput : Bool
  recovering : Bool
  observationComplete : Bool
  cancellationRequested : Bool
  deriving DecidableEq, Repr

/-- `_TERMINAL_STATES` -/
def ExecutionPhase.terminalState : ExecutionPhase → Option ObjectiveState
  | .completed => some .succeeded
  | .failed => some .failed
  | .cancelled => some .cancelled
  | _ => none

/-- `_RUNNING_PHASES` -/
def ExecutionPhase.isRunning : ExecutionPhase → Bool
  | .progress _ => true
  | _ => false

namespace ObjectiveFacts

/-- The state that facts project to. -/
def state (f : ObjectiveFacts) : ObjectiveState :=
  let terminal := f.terminalPhase.or (f.executionPhase.filter (·.terminal))
  match terminal.bind (·.terminalState) with
  | some state => state
  | none =>
    if terminal.isSome ∨ f.observationComplete = false then .unknown
    else if f.recovering then .recovering
    else if f.executionPhase.any fun phase => ¬phase.isRunning ∧ phase ≠ .accepted then .unknown
    else if f.waitingForInput then .waitingForInput
    else if f.executionPhase.any (·.isRunning) then .running
    else if f.executionPhase = some .accepted then .accepted
    else if f.submissionStatus = some .accepted then .queued
    else if f.submissionStatus = some .submitting then .submitting
    else .unknown

/-- The progress that the phase and the submission show. -/
def observed (f : ObjectiveFacts) : ProgressStage :=
  if f.executionPhase.any (·.isRunning) then .running
  else if f.executionPhase = some .accepted then .accepted
  else if f.submissionStatus = some .accepted then .queued
  else if f.submissionStatus = some .submitting then .submitting
  else .unobserved

/-- The progress that facts show. -/
def progressStage (f : ObjectiveFacts) : ProgressStage :=
  if f.state.terminal then .terminal else f.observed

/-- What facts say about the cancellation. -/
def cancellation (f : ObjectiveFacts) : CancellationMark :=
  if f.state = .cancelled then .observed
  else if f.cancellationRequested then .requested
  else .none

end ObjectiveFacts

/-- `project_objective_state` -/
def projectObjectiveState (objectiveId ownerPrincipalId : String) (revision : ℕ)
    (f : ObjectiveFacts) : Except ObjectiveStateError ObjectiveStateContract :=
  ObjectiveStateFields.validate
    { objectiveId
      ownerPrincipalId
      revision
      state := f.state
      progressStage := f.progressStage
      cancellation := f.cancellation }

/-- An uncertain update does not erase the progress that was observed. -/
def keepProgress (current incoming : ObjectiveStateContract) :
    Except ObjectiveStateError ObjectiveStateContract :=
  if current.state.terminal = false ∧ incoming.state.uncertain = true ∧
      incoming.progressStage.order < current.progressStage.order then
    ObjectiveStateFields.validate
      { incoming.toObjectiveStateFields with progressStage := current.progressStage }
  else pure incoming

/-- `advance_objective_state`: an incoming state that may replace the current one. -/
def advanceObjectiveState (current incoming : ObjectiveStateContract) :
    Except ObjectiveStateError ObjectiveStateContract := do
  raiseIf ((current.ownerPrincipalId, current.objectiveId) ≠
    (incoming.ownerPrincipalId, incoming.objectiveId))
    (.deploymentMode "objective_identity_conflict")
  raiseIf (incoming.revision < current.revision) (.deploymentMode "objective_revision_stale")
  let incoming ← keepProgress current incoming
  if incoming.revision = current.revision then
    raiseIf (incoming ≠ current) (.deploymentMode "objective_revision_conflict")
    return current
  raiseIf (current.state.terminal = true ∧ incoming.state ≠ current.state)
    (.deploymentMode "objective_terminal_conflict")
  raiseIf (current.state.allows incoming.state = false ∨
    incoming.progressStage.order < current.progressStage.order)
    (.deploymentMode "objective_transition_invalid")
  raiseIf (current.cancellation ≠ .none ∧ incoming.cancellation = .none)
    (.deploymentMode "objective_cancellation_conflict")
  return incoming

namespace ObjectiveFacts

variable {f f' : ObjectiveFacts}

/-- Facts as they are stored: an end is terminal, a phase is not, and the observation is
complete. -/
structure WellFormed (f : ObjectiveFacts) : Prop where
  ended : ∀ phase ∈ f.terminalPhase, phase.terminal = true
  begun : ∀ phase ∈ f.executionPhase, phase = .accepted ∨ phase.isRunning = true
  complete : f.observationComplete = true

/-- The furthest stage that facts have reached; a submission that failed was submitted. -/
def reached (f : ObjectiveFacts) : ProgressStage :=
  if f.terminalPhase.isSome then .terminal
  else if f.observed = .unobserved ∧ f.submissionStatus.isSome then .submitting
  else f.observed

theorem observed_ne_terminal (f : ObjectiveFacts) : f.observed ≠ .terminal := by
  unfold observed
  split_ifs <;> simp

/-- What is observed of open facts has been reached. -/
theorem observed_le_reached (hopen : f.terminalPhase = none) :
    f.observed.order ≤ f.reached.order := by
  unfold reached
  rw [if_neg (by simp [hopen])]
  split
  · next hfailed => simp [hfailed.1, ProgressStage.order]
  · exact le_rfl

/-- Progress that is observed is what open facts have reached. -/
theorem observed_eq_reached (hopen : f.terminalPhase = none) (h : f.observed ≠ .unobserved) :
    f.observed = f.reached := by
  unfold reached
  rw [if_neg (by simp [hopen]), if_neg fun hfailed => h hfailed.1]

/-- The state of facts without an end: uncertain, or the progress that is observed. -/
theorem WellFormed.state_of_open (h : f.WellFormed) (hopen : f.terminalPhase = none) :
    f.state.uncertain = true ∨ f.state.stage = some f.observed ∧ f.observed ≠ .unobserved := by
  have hfilter : f.executionPhase.filter (·.terminal) = none := by
    refine Option.filter_eq_none_iff.mpr fun phase hphase => ?_
    rcases h.begun phase hphase with rfl | hrunning
    · simp [ExecutionPhase.terminal]
    · cases phase <;> simp_all [ExecutionPhase.isRunning, ExecutionPhase.terminal]
  have hknown : ¬(f.executionPhase.any fun phase => ¬phase.isRunning ∧ phase ≠ .accepted) := by
    rw [Option.any_eq_true]
    rintro ⟨phase, hphase, hother⟩
    obtain ⟨hstopped, haccepted⟩ := of_decide_eq_true hother
    exact (h.begun phase hphase).elim haccepted hstopped
  simp only [state, observed, hopen, hfilter, Option.or_none, Option.bind_none, Option.isSome_none,
    h.complete, Bool.false_eq_true, Bool.true_eq_false, or_self, if_false, if_neg hknown]
  split_ifs <;> simp [ObjectiveState.uncertain, ObjectiveState.stage]

/-- Facts project to an end, to uncertainty, or to the stage that they have reached. -/
theorem WellFormed.state_cases (h : f.WellFormed) :
    (∃ phase, f.terminalPhase = some phase ∧ phase.terminalState = some f.state ∧
        f.state.terminal = true ∧ f.progressStage = .terminal) ∨
      (f.terminalPhase = none ∧ f.state.uncertain = true ∧
        f.progressStage.order ≤ f.reached.order ∧ f.progressStage ≠ .terminal) ∨
      (f.terminalPhase = none ∧ f.state.stage = some f.progressStage ∧
        f.progressStage = f.reached) := by
  cases hterminal : f.terminalPhase with
  | some phase =>
    refine .inl ⟨phase, rfl, ?_⟩
    have hphase := h.ended phase hterminal
    cases phase <;>
      simp_all [ExecutionPhase.terminal, state, progressStage, ExecutionPhase.terminalState,
        ObjectiveState.terminal]
  | none =>
    have hprogress : f.state.terminal = false → f.progressStage = f.observed := by
      intro hopen
      simp [progressStage, hopen]
    rcases h.state_of_open hterminal with huncertain | ⟨hstage, hobserved⟩
    · have hopen : f.state.terminal = false := by
        cases hstate : f.state <;> simp_all [ObjectiveState.uncertain, ObjectiveState.terminal]
      rw [hprogress hopen]
      exact .inr (.inl ⟨rfl, huncertain, observed_le_reached hterminal, observed_ne_terminal f⟩)
    · have hopen : f.state.terminal = false := by
        cases hstate : f.state <;> simp_all [ObjectiveState.stage, ObjectiveState.terminal]
      rw [hprogress hopen]
      exact .inr (.inr ⟨rfl, hstage, observed_eq_reached hterminal hobserved⟩)

/-- The fields that facts project to. -/
abbrev fields (objectiveId ownerPrincipalId : String) (revision : ℕ) (f : ObjectiveFacts) :
    ObjectiveStateFields where
  objectiveId
  ownerPrincipalId
  revision
  state := f.state
  progressStage := f.progressStage
  cancellation := f.cancellation

variable {id owner : String} {revision : ℕ}

/-- Projected fields are valid exactly when their ids and their revision are. -/
theorem WellFormed.valid_iff (h : f.WellFormed) : (fields id owner revision f).Valid ↔
    isObjectiveId id = true ∧ isPrincipalId owner = true ∧ revision ≤ maxContractInteger := by
  refine ⟨fun hvalid => ⟨hvalid.objectiveId, hvalid.ownerPrincipalId, hvalid.revision⟩, ?_⟩
  rintro ⟨hid, howner, hrevision⟩
  refine ⟨hid, howner, hrevision, ?_, ?_, ?_⟩
  · simp only [cancellation]
    split_ifs <;> simp_all
  · simp only [progressStage]
    split_ifs with hterminal
    · simp [hterminal]
    · simp [hterminal, observed_ne_terminal]
  · intro stage hstage
    rcases h.state_cases with ⟨-, -, -, hterminal, -⟩ | ⟨-, huncertain, -, -⟩ | ⟨-, hstage', -⟩
    · cases hstate : f.state <;> simp_all [ObjectiveState.terminal, ObjectiveState.stage]
    · cases hstate : f.state <;> simp_all [ObjectiveState.uncertain, ObjectiveState.stage]
    · exact Option.some.inj (hstage'.symm.trans hstage)

/-- Facts only ever extend earlier ones: what a later state has to keep. -/
structure Extends (f f' : ObjectiveFacts) : Prop where
  submitted : f.submissionStatus.isSome = true → f'.submissionStatus.isSome = true
  accepted : f.submissionStatus = some .accepted → f'.submissionStatus = some .accepted
  begun : f.executionPhase = some .accepted → f'.executionPhase ≠ none
  running : f.executionPhase.any (·.isRunning) = true → f'.executionPhase.any (·.isRunning) = true
  ended : ∀ phase, f.terminalPhase = some phase → f'.terminalPhase = some phase
  requested : f.cancellationRequested = true → f'.cancellationRequested = true

/-- A stored state says no more than the facts. -/
structure Covers (f : ObjectiveFacts) (r : ObjectiveStateFields) : Prop where
  progress : r.progressStage.order ≤ f.reached.order
  ended : r.state.terminal = true →
    ∃ phase, f.terminalPhase = some phase ∧ phase.terminalState = some r.state
  cancellation : r.cancellation ≠ .none → r.state = .cancelled ∨ f.cancellationRequested = true

/-- How far facts have come at least. -/
theorem WellFormed.le_reached (h : f.WellFormed) :
    (f.terminalPhase.isSome = true → 5 ≤ f.reached.order) ∧
    (f.executionPhase.any (·.isRunning) = true → 4 ≤ f.reached.order) ∧
    (f.executionPhase ≠ none → 3 ≤ f.reached.order) ∧
    (f.submissionStatus = some .accepted → 2 ≤ f.reached.order) ∧
    (f.submissionStatus.isSome = true → 1 ≤ f.reached.order) := by
  have hphase : f.executionPhase ≠ none →
      f.executionPhase = some .accepted ∨ f.executionPhase.any (·.isRunning) = true := by
    intro hsome
    obtain ⟨phase, hphase⟩ := Option.ne_none_iff_exists'.mp hsome
    rw [hphase]
    exact (h.begun phase hphase).imp (congrArg some) id
  simp only [reached, observed]
  refine ⟨?_, ?_, fun hsome => ?_, ?_, ?_⟩
  · intro hended
    simp [hended, ProgressStage.order]
  · intro hrunning
    split_ifs <;> simp_all [ProgressStage.order]
  · have hbegun := hphase hsome
    split_ifs <;> simp_all [ProgressStage.order]
  · intro haccepted
    split_ifs <;> simp_all [ProgressStage.order]
  · intro hsubmitted
    split_ifs <;> simp_all [ProgressStage.order]

/-- Facts that extend others have come as far. -/
theorem Extends.reached_le (h : f.Extends f') (hf' : f'.WellFormed) :
    f.reached.order ≤ f'.reached.order := by
  obtain ⟨hended, hrunning, hbegun, haccepted, hsubmitted⟩ := hf'.le_reached
  by_cases hterminal : f.terminalPhase.isSome = true
  · obtain ⟨phase, hphase⟩ := Option.isSome_iff_exists.mp hterminal
    have hfive := hended (by rw [h.ended phase hphase]; rfl)
    have hle : f.reached.order ≤ 5 := by cases f.reached <;> simp [ProgressStage.order]
    omega
  · rw [show f.reached = if f.observed = .unobserved ∧ f.submissionStatus.isSome = true then
        .submitting else f.observed from if_neg hterminal]
    split_ifs with hfailed
    · exact hsubmitted (h.submitted hfailed.2)
    · unfold observed
      split_ifs with h₁ h₂ h₃ h₄
      · exact hrunning (h.running h₁)
      · exact hbegun (h.begun h₂)
      · exact haccepted (h.accepted h₃)
      · exact hsubmitted (h.submitted (by rw [h₄]; rfl))
      · exact Nat.zero_le _

/-- What facts cover, facts that extend them cover. -/
theorem Covers.extends {r : ObjectiveStateFields} (h : f.Covers r) (hextends : f.Extends f')
    (hf' : f'.WellFormed) : f'.Covers r := by
  refine ⟨h.progress.trans (hextends.reached_le hf'), fun hterminal => ?_, fun hmark => ?_⟩
  · obtain ⟨phase, hphase, hstate⟩ := h.ended hterminal
    exact ⟨phase, hextends.ended phase hphase, hstate⟩
  · exact (h.cancellation hmark).imp id hextends.requested

/-- Facts cover what they project to. -/
theorem WellFormed.covers (h : f.WellFormed) : f.Covers (fields id owner revision f) := by
  refine ⟨?_, fun hterminal => ?_, fun hmark => ?_⟩
  · rcases h.state_cases with ⟨phase, hphase, -, -, hstage⟩ | ⟨-, -, hle, -⟩ | ⟨-, -, heq⟩
    · simp [hstage, reached, hphase]
    · exact hle
    · simp [heq]
  · rcases h.state_cases with ⟨phase, hphase, hstate, -, -⟩ | ⟨-, huncertain, -, -⟩ | ⟨-, hstage, -⟩
    · exact ⟨phase, hphase, hstate⟩
    · cases hstate : f.state <;> simp_all [ObjectiveState.terminal, ObjectiveState.uncertain]
    · cases hstate : f.state <;> simp_all [ObjectiveState.terminal, ObjectiveState.stage]
  · simp only [cancellation] at hmark ⊢
    split_ifs at hmark with hcancelled hrequested
    · exact .inl hcancelled
    · exact .inr hrequested
    · exact absurd rfl hmark

end ObjectiveFacts

/-- Facts project to a state exactly as long as its revision is one of the contract. -/
theorem projectObjectiveState_eq {f : ObjectiveFacts} (hf : f.WellFormed) {id owner : String}
    (revision : ℕ) (hid : isObjectiveId id = true) (howner : isPrincipalId owner = true) :
    (∃ r, projectObjectiveState id owner revision f = .ok r ∧
        r.toObjectiveStateFields = f.fields id owner revision ∧ revision ≤ maxContractInteger) ∨
      projectObjectiveState id owner revision f = .error .validation ∧
        maxContractInteger < revision := by
  by_cases hrevision : revision ≤ maxContractInteger
  · have hvalid : (f.fields id owner revision).Valid := hf.valid_iff.mpr ⟨hid, howner, hrevision⟩
    exact .inl ⟨⟨_, hvalid⟩, dif_pos hvalid, rfl, hrevision⟩
  · have hinvalid : ¬(f.fields id owner revision).Valid := fun hvalid => hrevision hvalid.revision
    exact .inr ⟨dif_neg hinvalid, not_le.mp hrevision⟩

/-- What follows a stored state of an objective: the next revision, no less progress, and the same
end if there is one. -/
structure ObjectiveStateContract.Follows (r r' : ObjectiveStateContract) : Prop where
  objectiveId : r'.objectiveId = r.objectiveId
  ownerPrincipalId : r'.ownerPrincipalId = r.ownerPrincipalId
  revision : r'.revision = r.revision + 1
  progress : r.progressStage.order ≤ r'.progressStage.order
  ended : r.state.terminal = true → r'.state = r.state

namespace ObjectiveState

theorem open_of_uncertain {state : ObjectiveState} (h : state.uncertain = true) :
    state.terminal = false := by
  cases state <;> simp_all [uncertain, terminal]

theorem stage_of_uncertain {state : ObjectiveState} (h : state.uncertain = true) :
    state.stage = none := by
  cases state <;> simp_all [uncertain, stage]

end ObjectiveState

namespace ObjectiveFacts

variable {f : ObjectiveFacts}

/-- The end that facts have is the one they project to. -/
theorem Covers.state_eq {r : ObjectiveStateFields} (h : f.Covers r) (hf : f.WellFormed)
    (hended : r.state.terminal = true) : f.state = r.state := by
  obtain ⟨phase, hphase, hstate⟩ := h.ended hended
  rcases hf.state_cases with ⟨phase', hphase', hstate', -, -⟩ | ⟨hopen, -⟩ | ⟨hopen, -⟩
  · obtain rfl : phase = phase' := Option.some.inj (hphase.symm.trans hphase')
    exact Option.some.inj (hstate'.symm.trans hstate)
  · exact absurd (hopen.symm.trans hphase) (by simp)
  · exact absurd (hopen.symm.trans hphase) (by simp)

/-- What facts project to may follow a stored state that they cover. -/
theorem Covers.allows {r : ObjectiveStateFields} (h : f.Covers r) (hf : f.WellFormed)
    (hr : r.Valid) : r.state.allows f.state = true := by
  by_cases hended : r.state.terminal = true
  · rw [h.state_eq hf hended]
    cases hstate : r.state <;> simp_all [ObjectiveState.terminal, ObjectiveState.allows]
  · have hopen : r.state.terminal = false := by simpa using hended
    rcases hf.state_cases with ⟨-, -, -, hterminal, -⟩ | ⟨-, huncertain, -, -⟩ | ⟨-, hstage, heq⟩
    · exact ObjectiveState.allows_of_open hopen (.inr hterminal)
    · exact ObjectiveState.allows_of_open hopen (.inl huncertain)
    · refine ObjectiveState.allows_of_stage hstage hopen fun earlier hearlier => ?_
      rw [← hr.progress earlier hearlier, heq]
      exact h.progress

end ObjectiveFacts

/-- What facts project to, with the progress that was observed before. -/
theorem keepProgress_eq_ok {f : ObjectiveFacts} (hf : f.WellFormed)
    {current incoming : ObjectiveStateContract} (hcovers : f.Covers current.toObjectiveStateFields)
    (hincoming : incoming.toObjectiveStateFields =
      f.fields current.objectiveId current.ownerPrincipalId (current.revision + 1)) :
    ∃ r, keepProgress current incoming = .ok r ∧
      (∃ stage, r.toObjectiveStateFields =
        { incoming.toObjectiveStateFields with progressStage := stage } ∧
        (stage = incoming.progressStage ∨ stage = current.progressStage)) ∧
      current.progressStage.order ≤ r.progressStage.order := by
  have hstate : incoming.state = f.state := congrArg (·.state) hincoming
  have hprogress : incoming.progressStage = f.progressStage := congrArg (·.progressStage) hincoming
  unfold keepProgress
  split
  · next hlost =>
    obtain ⟨hopen, huncertain, -⟩ := hlost
    have hvalid : ({ incoming.toObjectiveStateFields with
        progressStage := current.progressStage } : ObjectiveStateFields).Valid := by
      refine ⟨incoming.valid.objectiveId, incoming.valid.ownerPrincipalId, incoming.valid.revision,
        incoming.valid.cancellation, ?_, ?_⟩
      · rw [← current.valid.terminal, hopen, ObjectiveState.open_of_uncertain huncertain]
      · intro stage hstage
        rw [ObjectiveState.stage_of_uncertain huncertain] at hstage
        exact nomatch hstage
    exact ⟨⟨_, hvalid⟩, dif_pos hvalid, ⟨current.progressStage, rfl, .inr rfl⟩, le_rfl⟩
  · next hkept =>
    refine ⟨incoming, rfl, ⟨incoming.progressStage, rfl, .inl rfl⟩, ?_⟩
    rcases hf.state_cases with ⟨-, -, -, -, hterminal⟩ | ⟨hnone, huncertain, -, -⟩ | ⟨-, -, heq⟩
    · rw [hprogress, hterminal]
      cases current.progressStage <;> simp [ProgressStage.order]
    · by_contra hlt
      refine hkept ⟨?_, hstate ▸ huncertain, not_le.mp hlt⟩
      by_contra hended
      obtain ⟨phase, hphase, -⟩ := hcovers.ended (by simpa using hended)
      exact absurd (hnone.symm.trans hphase) (by simp)
    · rw [hprogress, heq]
      exact hcovers.progress

/-- A state that covered facts project to may replace the stored one. -/
theorem advanceObjectiveState_eq_ok {f : ObjectiveFacts} (hf : f.WellFormed)
    {current incoming : ObjectiveStateContract} (hcovers : f.Covers current.toObjectiveStateFields)
    (hincoming : incoming.toObjectiveStateFields =
      f.fields current.objectiveId current.ownerPrincipalId (current.revision + 1)) :
    ∃ r, advanceObjectiveState current incoming = .ok r ∧ r.state = f.state ∧
      f.Covers r.toObjectiveStateFields ∧ current.Follows r := by
  obtain ⟨r, hr, ⟨stage, hfields, hstage⟩, hle⟩ := keepProgress_eq_ok hf hcovers hincoming
  have hstate : r.state = f.state := by
    rw [hfields, hincoming]
  have hrevision : r.revision = current.revision + 1 := by
    rw [hfields, hincoming]
  have hid : r.objectiveId = current.objectiveId := by
    rw [hfields, hincoming]
  have howner : r.ownerPrincipalId = current.ownerPrincipalId := by
    rw [hfields, hincoming]
  have hmark : r.cancellation = f.cancellation := by
    rw [hfields, hincoming]
  have hcovered : f.Covers r.toObjectiveStateFields := by
    have hprojected : f.Covers incoming.toObjectiveStateFields := hincoming ▸ hf.covers
    refine ⟨?_, fun hended => ?_, fun hsome => ?_⟩
    · rw [hfields]
      rcases hstage with rfl | rfl
      · exact hprojected.progress
      · exact hcovers.progress
    · have hsame : incoming.state = r.state := by rw [hfields]
      exact hsame ▸ hprojected.ended (hsame ▸ hended)
    · have hsame : incoming.state = r.state := by rw [hfields]
      have hsame' : incoming.cancellation = r.cancellation := by rw [hfields]
      exact hsame ▸ hprojected.cancellation (hsame' ▸ hsome)
  have hsame : (current.ownerPrincipalId, current.objectiveId) =
      (incoming.ownerPrincipalId, incoming.objectiveId) := by
    rw [hincoming]
  have hnext : incoming.revision = current.revision + 1 := by
    rw [hincoming]
  have hallowed : current.state.allows r.state = true := hstate ▸ hcovers.allows hf current.valid
  have hended : current.state.terminal = true → r.state = current.state :=
    fun hended => hstate.trans (hcovers.state_eq hf hended)
  have hcancelled : ¬(current.cancellation ≠ .none ∧ r.cancellation = .none) := by
    rintro ⟨hbefore, hafter⟩
    rw [hmark] at hafter
    unfold ObjectiveFacts.cancellation at hafter
    rcases hcovers.cancellation hbefore with hcancelled | hrequested
    · have hterminal : current.state.terminal = true := by rw [hcancelled]; rfl
      rw [← hstate, hended hterminal, hcancelled] at hafter
      simp at hafter
    · simp [hrequested] at hafter
      split_ifs at hafter
  refine ⟨r, ?_, hstate, hcovered, hid, howner, hrevision, hle, hended⟩
  unfold advanceObjectiveState
  refine bind_eq_ok.mpr ⟨(), raiseIf_ok (not_not_intro hsame) _, ?_⟩
  refine bind_eq_ok.mpr ⟨(), raiseIf_ok (by omega) _, ?_⟩
  refine bind_eq_ok.mpr ⟨r, hr, ?_⟩
  rw [if_neg (by omega)]
  refine bind_eq_ok.mpr ⟨(), raiseIf_ok (fun h => h.2 (hended h.1)) _, ?_⟩
  refine bind_eq_ok.mpr ⟨(), raiseIf_ok (by simp [hallowed, hle]) _, ?_⟩
  exact bind_eq_ok.mpr ⟨(), raiseIf_ok hcancelled _, rfl⟩

end Magistrate
