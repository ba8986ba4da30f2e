import Magistrate.Core.Calendar
import Magistrate.Core.CanonicalJson
import Magistrate.Gateway.Execution.ObjectiveState

/-!
# Personal resources

A personal deployment holds the full ceiling of each objective before it is dispatched.
A hold ends when the measured cost of the objective is settled, in the month of the
settlement, or when the objective was never published.
-/

namespace Magistrate

/-- `DeploymentModeError` -/
structure DeploymentModeError where
  code : String
  statusCode : ℕ := 403
  deriving DecidableEq, Repr

/-- `PersonalDeploymentContract` of a personal deployment, with what its validation checks of the
limits. -/
structure PersonalDeployment where
  ownerPrincipalId : String
  maxImplementationWorkers : ℤ
  objectiveSpendLimit : ℤ
  monthlySpendLimit : ℤ
  workersValid : 1 ≤ maxImplementationWorkers ∧ maxImplementationWorkers ≤ 2
  spendValid : 1 ≤ objectiveSpendLimit ∧ objectiveSpendLimit ≤ monthlySpendLimit ∧
    monthlySpendLimit ≤ maxContractInteger

/-- `DeploymentMode`: a public deployment has no personal settings. -/
abbrev DeploymentMode := Option PersonalDeployment

/-- The members of a `Principal` that the policy reads. -/
structure PersonalPrincipal where
  userId : String
  scopes : List String
  sessionId : String
  expiresAt : ℕ
  deriving DecidableEq, Repr

/-- `PersonalResourceUsage` -/
structure PersonalResourceUsage where
  ownerPrincipalId : String
  activeObjectives : ℤ
  activeImplementationWorkers : ℤ
  spentMicroUsd : ℤ
  reservedMicroUsd : ℤ
  deriving DecidableEq, Repr

/-- The bounds of the members. -/
def PersonalResourceUsage.bounded (usage : PersonalResourceUsage) : Bool :=
  [usage.activeObjectives, usage.activeImplementationWorkers, usage.spentMicroUsd,
    usage.reservedMicroUsd].all fun value => decide (0 ≤ value ∧ value ≤ maxContractInteger)

namespace DeploymentMode

/-- `require_principal` with a scope -/
def requirePrincipal (mode : DeploymentMode) (now : ℕ) (principal : PersonalPrincipal)
    (scope : String) : Except DeploymentModeError Unit := do
  raiseIf (principal.sessionId = "" ∨ principal.expiresAt ≤ now) ⟨"authentication_required", 401⟩
  match mode with
  | some contract =>
    raiseIf (principal.userId ≠ contract.ownerPrincipalId) { code := "personal_owner_required" }
  | none => pure ()
  raiseIf (scope ∉ principal.scopes) { code := "scope_required" }

/-- `check_personal_admission` -/
def checkPersonalAdmission (mode : DeploymentMode) (now : ℕ) (principal : PersonalPrincipal)
    (usage : PersonalResourceUsage) (implementationWorkers : ℤ) :
    Except DeploymentModeError ℤ := do
  mode.requirePrincipal now principal "command"
  let contract ← orRaise mode { code := "personal_mode_required" }
  raiseIf (usage.ownerPrincipalId ≠ principal.userId) { code := "resource_owner_mismatch" }
  raiseIf (¬(1 ≤ implementationWorkers ∧ implementationWorkers ≤ contract.maxImplementationWorkers))
    ⟨"implementation_capacity_exceeded", 409⟩
  let committedWorkers := max usage.activeObjectives usage.activeImplementationWorkers
  raiseIf (contract.maxImplementationWorkers ≤ usage.activeObjectives ∨
      contract.maxImplementationWorkers < committedWorkers + implementationWorkers)
    ⟨"implementation_capacity_exceeded", 409⟩
  raiseIf (contract.monthlySpendLimit <
      usage.spentMicroUsd + usage.reservedMicroUsd + contract.objectiveSpendLimit)
    ⟨"personal_spend_limit_exceeded", 409⟩
  return contract.objectiveSpendLimit

end DeploymentMode

/-- The status of a reservation. -/
inductive PersonalReservationStatus where
  | reserved
  | settled
  | released
  deriving DecidableEq, Repr

/-- A row of `personal_resource_reservations`. -/
structure PersonalReservation where
  objectiveId : String
  ownerUserId : String
  actorSessionId : String
  contractSha256 : String
  reservedMicroUsd : ℤ
  implementationWorkers : ℤ
  status : PersonalReservationStatus
  actualMicroUsd : Option ℤ
  usageJson : Option PyText
  settlementEventId : Option String
  /-- The year and the month that `_period` formats. -/
  periodKey : ℤ × ℤ
  createdAt : ℕ
  updatedAt : ℕ
  deriving DecidableEq, Repr

/-- A row of `firstmate_execution_events`, with the usage of its payload. -/
structure ExecutionEventRow where
  ownerUserId : String
  objectiveId : String
  eventId : String
  phase : String
  usage : PyJson

/-- What the ledger reads of the other tables: the owners of the credits that are held, the
execution objectives with their owners and terminal phases, the execution events, and the
submissions with their statuses. -/
structure ExecutionTables where
  heldCredits : List String
  objectives : List (String × String × Option String)
  events : List ExecutionEventRow
  submissions : List (String × String)

/-- The reservations, the other tables and the time in seconds. -/
structure PersonalResources where
  reservations : Table PersonalReservation.objectiveId
  tables : ExecutionTables
  now : ℕ

/-- `reserve`, with the repository that is found for the project, and whether the transaction around
it goes through. -/
structure PersonalReserve where
  principal : PersonalPrincipal
  objectiveId : String
  contractSha256 : String
  repository : Option String
  implementationWorkers : ℤ := 1
  commits : Bool := true

/-- `_TERMINAL_PHASES` -/
def terminalExecutionPhases : List String :=
  ["objective.completed", "objective.failed", "objective.cancelled"]

namespace PersonalResources

/-- `_period` -/
def period (now : ℕ) : ℤ × ℤ := civilMonth ((now : ℤ) / 86400)

/-- The reservation of an owner is open. -/
def isHeld (owner : String) (row : PersonalReservation) : Bool :=
  row.ownerUserId == owner && row.status == .reserved

/-- The reservation of an owner is settled in a month. -/
def isSpent (owner : String) (month : ℤ × ℤ) (row : PersonalReservation) : Bool :=
  row.ownerUserId == owner && row.status == .settled && row.periodKey == month

/-- A sum over the open reservations of an owner. -/
def held (amount : PersonalReservation → ℤ) (owner : String) (s : PersonalResources) : ℤ :=
  ((s.reservations.rows.filter (isHeld owner)).map amount).sum

/-- What an owner has settled in a month. -/
def spent (owner : String) (month : ℤ × ℤ) (s : PersonalResources) : ℤ :=
  ((s.reservations.rows.filter (isSpent owner month)).map (·.actualMicroUsd.getD 0)).sum

/-- The open reservations of an owner. -/
def activeObjectives (owner : String) (s : PersonalResources) : ℤ := s.held (fun _ => 1) owner

/-- The workers of the open reservations of an owner. -/
def activeImplementationWorkers (owner : String) (s : PersonalResources) : ℤ :=
  s.held (·.implementationWorkers) owner

/-- The ceilings of the open reservations of an owner. -/
def reservedMicroUsd (owner : String) (s : PersonalResources) : ℤ :=
  s.held (·.reservedMicroUsd) owner

/-- An objective is open without an open reservation. -/
def unknown (owner : String) (s : PersonalResources) : Bool :=
  s.tables.objectives.any fun (objectiveId, objectiveOwner, terminalPhase) =>
    objectiveOwner == owner && terminalPhase.isNone &&
      !s.reservations.rows.any fun row => row.objectiveId == objectiveId && row.status == .reserved

/-- `usage` -/
def usage (s : PersonalResources) (owner : String) :
    Except DeploymentModeError PersonalResourceUsage := do
  raiseIf (owner ∈ s.tables.heldCredits ∨ s.unknown owner = true)
    ⟨"historical_execution_unsettled", 409⟩
  let usage : PersonalResourceUsage :=
    { ownerPrincipalId := owner
      activeObjectives := s.activeObjectives owner
      activeImplementationWorkers := s.activeImplementationWorkers owner
      spentMicroUsd := s.spent owner (period s.now)
      reservedMicroUsd := s.reservedMicroUsd owner }
  -- what the validation of the usage raises ends the transaction as well
  raiseIf (usage.bounded = false) ⟨"validation_error", 500⟩
  return usage

/-- `reserve` -/
def reserve (mode : DeploymentMode) (s : PersonalResources) (call : PersonalReserve) :
    Except DeploymentModeError PersonalResources := do
  mode.requirePrincipal s.now call.principal "command"
  match s.reservations.find? call.objectiveId with
  | some existing =>
    raiseIf ((existing.ownerUserId, existing.contractSha256, existing.status) ≠
        (call.principal.userId, call.contractSha256, .reserved))
      ⟨"personal_reservation_conflict", 409⟩
    return s
  | none =>
    raiseIf (call.repository = none) { code := "authorized_repository_required" }
    let usage ← s.usage call.principal.userId
    let ceiling ← mode.checkPersonalAdmission s.now call.principal usage call.implementationWorkers
    return { s with
      reservations := s.reservations.insertOrIgnore
        { objectiveId := call.objectiveId
          ownerUserId := call.principal.userId
          actorSessionId := call.principal.sessionId
          contractSha256 := call.contractSha256
          reservedMicroUsd := ceiling
          implementationWorkers := call.implementationWorkers
          status := .reserved
          actualMicroUsd := none
          usageJson := none
          settlementEventId := none
          periodKey := period s.now
          createdAt := s.now
          updatedAt := s.now } }

/-- `release_unpublished` -/
def releaseUnpublished (s : PersonalResources) (owner objectiveId : String) : PersonalResources :=
  if s.tables.objectives.any (fun objective => objective.1 == objectiveId) = false ∧
      s.tables.submissions.any (fun (id, status) => id == objectiveId &&
        status != "accepted") = true
  then
    { s with
      reservations := s.reservations.update objectiveId (fun row =>
        if isHeld owner row then { row with status := .released, updatedAt := s.now } else row)
        (by intro row; split <;> rfl) }
  else s

/-- The measured cost of a usage. -/
def measuredCost? (usage : PyJson) : Option ℤ :=
  match usage.get "cost_micro_usd" with
  | .int actual => if 0 ≤ actual ∧ actual ≤ maxContractInteger then some actual else none
  | _ => none

/-- A terminal event of an objective of an owner reports a usage; `sameUsage` compares values. -/
def hasEvidence (sameUsage : PyJson → PyJson → Bool) (s : PersonalResources)
    (owner objectiveId eventId : String) (usage : PyJson) : Bool :=
  match s.tables.events.find? fun event =>
    event.ownerUserId == owner && event.objectiveId == objectiveId && event.eventId == eventId with
  | some event => terminalExecutionPhases.contains event.phase && sameUsage event.usage usage
  | none => false

/-- `settle` -/
def settle (sameUsage : PyJson → PyJson → Bool) (s : PersonalResources)
    (owner objectiveId eventId : String) (usage : PyJson) :
    Except DeploymentModeError PersonalResources := do
  let actual ← orRaise (measuredCost? usage) ⟨"personal_measured_usage_required", 422⟩
  let encoded := usage.canonicalJson
  let row ← orRaise ((s.reservations.find? objectiveId).filter (·.ownerUserId == owner))
    ⟨"personal_terminal_evidence_required", 409⟩
  raiseIf (s.hasEvidence sameUsage owner objectiveId eventId usage = false)
    ⟨"personal_terminal_evidence_required", 409⟩
  if row.status = .settled ∧ row.settlementEventId = some eventId ∧
    row.usageJson = some encoded then
    return s
  raiseIf (row.status ≠ .reserved) ⟨"personal_settlement_conflict", 409⟩
  return { s with
    reservations := s.reservations.update objectiveId (fun row =>
      if row.ownerUserId == owner then
        { row with
          status := .settled
          actualMicroUsd := some actual
          usageJson := some encoded
          settlementEventId := some eventId
          periodKey := period s.now
          updatedAt := s.now }
      else row) (by intro row; split <;> rfl) }

end PersonalResources

/-- What happens to the reservations of a deployment. -/
inductive PersonalResourceStep where
  /-- Time goes on. -/
  | elapse (seconds : ℕ)
  /-- The other tables are written. -/
  | others (tables : ExecutionTables)
  | reserve (call : PersonalReserve)
  | settle (owner objectiveId eventId : String) (usage : PyJson)
  | release (owner objectiveId : String)

namespace PersonalResources

/-- The reservations after a step. -/
def step (mode : DeploymentMode) (sameUsage : PyJson → PyJson → Bool) (s : PersonalResources) :
    PersonalResourceStep → PersonalResources
  | .elapse seconds => { s with now := s.now + seconds }
  | .others tables => { s with tables }
  | .reserve call => if call.commits then commit (s.reserve mode call) s else s
  | .settle owner objectiveId eventId usage =>
    commit (s.settle sameUsage owner objectiveId eventId usage) s
  | .release owner objectiveId => s.releaseUnpublished owner objectiveId

/-- Nothing is reserved. -/
def initial : PersonalResources := ⟨Table.empty, ⟨[], [], [], []⟩, 0⟩

/-- What is active and spent is within the limits of the deployment. -/
structure WithinLimits (contract : PersonalDeployment) (s : PersonalResources) : Prop where
  objectives : s.activeObjectives contract.ownerPrincipalId ≤ contract.maxImplementationWorkers
  workers :
    s.activeImplementationWorkers contract.ownerPrincipalId ≤ contract.maxImplementationWorkers
  spend : s.spent contract.ownerPrincipalId (period s.now) +
    s.reservedMicroUsd contract.ownerPrincipalId ≤ contract.monthlySpendLimit

/-- A reservation is settled between two states. -/
def Settles (s t : PersonalResources) (objectiveId : String) : Prop :=
  ∃ row ∈ s.reservations.find? objectiveId, row.status ≠ .settled ∧
    ∃ row' ∈ t.reservations.find? objectiveId, row'.status = .settled

/-- A reservation that is not open any more stays as it is. -/
def KeepsClosed (s t : PersonalResources) : Prop :=
  ∀ objectiveId, ∀ row ∈ s.reservations.find? objectiveId, row.status ≠ .reserved →
    t.reservations.find? objectiveId = some row

end PersonalResources

/-- A settlement measures no more than what is reserved. -/
def PersonalResourceStep.WithinCeiling (s : PersonalResources) : PersonalResourceStep → Prop
  | .settle _ objectiveId _ usage => ∀ row ∈ s.reservations.find? objectiveId,
    ∀ actual ∈ PersonalResources.measuredCost? usage, actual ≤ row.reservedMicroUsd
  | _ => True

instance (s : PersonalResources) : (t : PersonalResourceStep) → Decidable (t.WithinCeiling s)
  | .settle _ objectiveId _ usage => inferInstanceAs (Decidable
      (∀ row ∈ s.reservations.find? objectiveId,
        ∀ actual ∈ PersonalResources.measuredCost? usage, actual ≤ row.reservedMicroUsd))
  | .elapse _ | .others _ | .reserve _ | .release _ _ => .isTrue trivial

/-- The objective whose reservation a step is to end. -/
def PersonalResourceStep.ended? : PersonalResourceStep → Option String
  | .settle _ objectiveId _ _ | .release _ objectiveId => some objectiveId
  | _ => none

/-- A reservation is made that there is, or ended that is not open any more. -/
def PersonalResourceStep.Replays (s : PersonalResources) : PersonalResourceStep → Prop
  | .reserve call => s.reservations.find? call.objectiveId ≠ none
  | .settle _ objectiveId _ _ | .release _ objectiveId =>
    ∃ row ∈ s.reservations.find? objectiveId, row.status ≠ .reserved
  | _ => False

namespace PersonalResources

section Calls

variable {contract : PersonalDeployment} {sameUsage : PyJson → PyJson → Bool}
  {s s' : PersonalResources} {owner objectiveId eventId : String} {usage : PyJson}

/-- A principal that passes is the owner of the deployment. -/
theorem requirePrincipal_owner {now : ℕ} {principal : PersonalPrincipal} {scope : String} {u : Unit}
    (h : DeploymentMode.requirePrincipal (some contract) now principal scope = .ok u) :
    principal.userId = contract.ownerPrincipalId := by
  obtain ⟨-, -, h⟩ := bind_eq_ok.mp h
  obtain ⟨_, howner, -⟩ := bind_eq_ok.mp h
  exact not_not.mp (raiseIf_eq_ok.mp howner)

/-- What an admission is given leaves room for the objective. -/
theorem checkPersonalAdmission_eq_ok {now : ℕ} {principal : PersonalPrincipal}
    {usage : PersonalResourceUsage} {workers ceiling : ℤ}
    (h : DeploymentMode.checkPersonalAdmission (some contract) now principal usage workers =
      .ok ceiling) :
    ceiling = contract.objectiveSpendLimit ∧ 1 ≤ workers ∧
      usage.activeObjectives + 1 ≤ contract.maxImplementationWorkers ∧
      usage.activeImplementationWorkers + workers ≤ contract.maxImplementationWorkers ∧
      usage.spentMicroUsd + usage.reservedMicroUsd + ceiling ≤ contract.monthlySpendLimit := by
  obtain ⟨-, -, h⟩ := bind_eq_ok.mp h
  obtain ⟨settings, hsettings, h⟩ := bind_eq_ok.mp h
  obtain rfl := Option.some.inj (orRaise_eq_ok.mp hsettings)
  obtain ⟨-, -, h⟩ := bind_eq_ok.mp h
  obtain ⟨_, hworkers, h⟩ := bind_eq_ok.mp h
  obtain ⟨_, hcapacity, h⟩ := bind_eq_ok.mp h
  obtain ⟨_, hspend, h⟩ := bind_eq_ok.mp h
  obtain rfl := pure_eq_ok.mp h
  have hworkers := not_not.mp (raiseIf_eq_ok.mp hworkers)
  have hcapacity := not_or.mp (raiseIf_eq_ok.mp hcapacity)
  have hspend := raiseIf_eq_ok.mp hspend
  omega

/-- The usage of an owner is what the reservations add up to. -/
theorem usage_eq_ok {found : PersonalResourceUsage} (h : s.usage owner = .ok found) :
    found.activeObjectives = s.activeObjectives owner ∧
      found.activeImplementationWorkers = s.activeImplementationWorkers owner ∧
      found.spentMicroUsd = s.spent owner (period s.now) ∧
      found.reservedMicroUsd = s.reservedMicroUsd owner := by
  obtain ⟨-, -, h⟩ := bind_eq_ok.mp h
  obtain ⟨-, -, h⟩ := bind_eq_ok.mp h
  obtain rfl := pure_eq_ok.mp h
  exact ⟨rfl, rfl, rfl, rfl⟩

/-- A reservation is there already, or is made for the owner within the limits. -/
theorem reserve_eq_ok {call : PersonalReserve}
    (h : s.reserve (some contract) call = .ok s') :
    (s' = s ∧ s.reservations.find? call.objectiveId ≠ none) ∨
    ∃ row : PersonalReservation,
      s.reservations.find? row.objectiveId = none ∧ row.objectiveId = call.objectiveId ∧
      s' = { s with reservations := s.reservations.insertOrIgnore row } ∧
      row.ownerUserId = contract.ownerPrincipalId ∧ row.status = .reserved ∧
      row.actualMicroUsd = none ∧ 1 ≤ row.implementationWorkers ∧
      row.reservedMicroUsd = contract.objectiveSpendLimit ∧
      s.activeObjectives row.ownerUserId + 1 ≤ contract.maxImplementationWorkers ∧
      s.activeImplementationWorkers row.ownerUserId + row.implementationWorkers ≤
        contract.maxImplementationWorkers ∧
      s.spent row.ownerUserId (period s.now) + s.reservedMicroUsd row.ownerUserId +
        row.reservedMicroUsd ≤ contract.monthlySpendLimit := by
  obtain ⟨_, hprincipal, h⟩ := bind_eq_ok.mp h
  split at h
  · next existing hfound =>
    obtain ⟨-, -, h⟩ := bind_eq_ok.mp h
    obtain rfl := pure_eq_ok.mp h
    exact .inl ⟨rfl, by rw [hfound]; exact Option.some_ne_none existing⟩
  · next hfree =>
    obtain ⟨-, -, h⟩ := bind_eq_ok.mp h
    obtain ⟨found, hfound, h⟩ := bind_eq_ok.mp h
    obtain ⟨ceiling, hceiling, h⟩ := bind_eq_ok.mp h
    obtain rfl := pure_eq_ok.mp h
    obtain ⟨hlimit, hworkers, hactive, hcapacity, hspend⟩ := checkPersonalAdmission_eq_ok hceiling
    obtain ⟨hobjectives, hactiveWorkers, hspent, hreserved⟩ := usage_eq_ok hfound
    rw [hobjectives] at hactive
    rw [hactiveWorkers] at hcapacity
    rw [hspent, hreserved] at hspend
    exact .inr ⟨_, hfree, rfl, rfl, requirePrincipal_owner hprincipal, rfl, rfl, hworkers, hlimit,
      hactive, hcapacity, hspend⟩

/-- A settlement writes an open reservation of the owner, or changes nothing. -/
theorem settle_eq_ok (h : s.settle sameUsage owner objectiveId eventId usage = .ok s') :
    ∃ actual row, measuredCost? usage = some actual ∧
      s.reservations.find? objectiveId = some row ∧ row.ownerUserId = owner ∧
      (s' = s ∧ row.status = .settled ∨
        row.status = .reserved ∧
        ∃ (f : PersonalReservation → PersonalReservation)
          (hf : ∀ row, (f row).objectiveId = row.objectiveId),
          s' = { s with reservations := s.reservations.update objectiveId f hf } ∧
          f row = { row with
            status := .settled
            actualMicroUsd := some actual
            usageJson := some usage.canonicalJson
            settlementEventId := some eventId
            periodKey := period s.now
            updatedAt := s.now }) := by
  obtain ⟨actual, hactual, h⟩ := bind_eq_ok.mp h
  obtain ⟨row, hrow, h⟩ := bind_eq_ok.mp h
  obtain ⟨-, -, h⟩ := bind_eq_ok.mp h
  obtain ⟨hfound, howner⟩ := Option.filter_eq_some_iff.mp (orRaise_eq_ok.mp hrow)
  refine ⟨actual, row, orRaise_eq_ok.mp hactual, hfound, beq_iff_eq.mp howner, ?_⟩
  split at h
  · next hsettled =>
    obtain rfl := pure_eq_ok.mp h
    exact .inl ⟨rfl, hsettled.1⟩
  · obtain ⟨_, hopen, h⟩ := bind_eq_ok.mp h
    obtain rfl := pure_eq_ok.mp h
    refine .inr ⟨not_not.mp (raiseIf_eq_ok.mp hopen), _, _, rfl, ?_⟩
    rw [if_pos howner]

/-- A stored reservation is replaced by another one. -/
def Rewrites (s s' : PersonalResources) (row row' : PersonalReservation) : Prop :=
  s.reservations.find? row.objectiveId = some row ∧
    ∃ (f : PersonalReservation → PersonalReservation)
      (hf : ∀ row, (f row).objectiveId = row.objectiveId),
      s' = { s with reservations := s.reservations.update row.objectiveId f hf } ∧ f row = row'

/-- An open reservation of the owner is released, or nothing changes. -/
theorem releaseUnpublished_cases (s : PersonalResources) (owner objectiveId : String) :
    s.releaseUnpublished owner objectiveId = s ∨
      ∃ row, row.objectiveId = objectiveId ∧ row.status = .reserved ∧
        Rewrites s (s.releaseUnpublished owner objectiveId) row
          { row with status := .released, updatedAt := s.now } := by
  rw [releaseUnpublished]
  split
  · cases hfound : s.reservations.find? objectiveId with
    | none =>
      refine .inl ?_
      rw [Table.update_eq_self fun row hrow => by rw [hfound] at hrow; cases hrow]
    | some row =>
      obtain ⟨-, rfl⟩ := Table.mem_of_find? hfound
      by_cases hheld : isHeld owner row = true
      · refine .inr ⟨row, rfl, ?_, hfound, _, _, rfl, if_pos hheld⟩
        exact beq_iff_eq.mp ((Bool.and_eq_true _ _).mp hheld).2
      · refine .inl ?_
        rw [Table.update_eq_self fun other hother => ?_]
        obtain rfl := Option.some.inj (hfound.symm.trans hother)
        exact if_neg hheld
  · exact .inl rfl

variable (contract sameUsage) in
/-- What a step does to the reservations: it keeps them while time goes on, makes one within the
limits, or ends one that is open. -/
theorem step_cases (s : PersonalResources) (t : PersonalResourceStep) :
    let s' := s.step (some contract) sameUsage t
    (s'.reservations = s.reservations ∧ s.now ≤ s'.now) ∨
    (∃ row : PersonalReservation,
      s.reservations.find? row.objectiveId = none ∧
      s' = { s with reservations := s.reservations.insertOrIgnore row } ∧
      (∃ call, t = .reserve call ∧ row.objectiveId = call.objectiveId) ∧
      row.ownerUserId = contract.ownerPrincipalId ∧ row.status = .reserved ∧
      row.actualMicroUsd = none ∧ 1 ≤ row.implementationWorkers ∧
      row.reservedMicroUsd = contract.objectiveSpendLimit ∧
      s.activeObjectives row.ownerUserId + 1 ≤ contract.maxImplementationWorkers ∧
      s.activeImplementationWorkers row.ownerUserId + row.implementationWorkers ≤
        contract.maxImplementationWorkers ∧
      s.spent row.ownerUserId (period s.now) + s.reservedMicroUsd row.ownerUserId +
        row.reservedMicroUsd ≤ contract.monthlySpendLimit) ∨
    ∃ row row' : PersonalReservation,
      Rewrites s s' row row' ∧ row.status = .reserved ∧ t.ended? = some row.objectiveId ∧
      row'.ownerUserId = row.ownerUserId ∧
      row'.reservedMicroUsd = row.reservedMicroUsd ∧
      row'.implementationWorkers = row.implementationWorkers ∧
      (row'.status = .released ∧ row'.actualMicroUsd = row.actualMicroUsd ∨
        row'.status = .settled ∧ row'.periodKey = period s.now ∧
        ∃ actual, row'.actualMicroUsd = some actual ∧ 0 ≤ actual ∧
          (t.WithinCeiling s → actual ≤ row.reservedMicroUsd)) := by
  intro s'
  cases t with
  | elapse seconds => exact .inl ⟨rfl, Nat.le_add_right ..⟩
  | others tables => exact .inl ⟨rfl, Nat.le_refl _⟩
  | reserve call =>
    cases hcommits : call.commits with
    | false =>
      have hkept : s' = s := by simp only [s', step, hcommits, Bool.false_eq_true, if_false]
      exact .inl ⟨by rw [hkept], by rw [hkept]⟩
    | true =>
      have hdone : s' = commit (s.reserve (some contract) call) s := by
        simp only [s', step, hcommits, if_true]
      cases hreserve : s.reserve (some contract) call with
      | error e =>
        rw [hreserve, commit_error] at hdone
        exact .inl ⟨by rw [hdone], by rw [hdone]⟩
      | ok reserved =>
        rw [hreserve, commit_ok] at hdone
        rcases reserve_eq_ok hreserve with ⟨hkept, -⟩ | ⟨row, hfree, hkey, hinsert, hrest⟩
        · exact .inl ⟨by rw [hdone, hkept], by rw [hdone, hkept]⟩
        · exact .inr (.inl ⟨row, hfree, hdone.trans hinsert, ⟨call, rfl, hkey⟩, hrest⟩)
  | settle owner objectiveId eventId usage =>
    have hdone : s' = commit (s.settle sameUsage owner objectiveId eventId usage) s := rfl
    cases hsettle : s.settle sameUsage owner objectiveId eventId usage with
    | error e =>
      rw [hsettle, commit_error] at hdone
      exact .inl ⟨by rw [hdone], by rw [hdone]⟩
    | ok settled =>
      rw [hsettle, commit_ok] at hdone
      obtain ⟨actual, row, hactual, hfound, -, ⟨hkept, -⟩ | ⟨hopen, f, hf, hupdate, hrow⟩⟩ :=
        settle_eq_ok hsettle
      · exact .inl ⟨by rw [hdone, hkept], by rw [hdone, hkept]⟩
      · obtain ⟨-, rfl⟩ := Table.mem_of_find? hfound
        refine .inr (.inr ⟨row, _, ⟨hfound, f, hf, hdone.trans hupdate, hrow⟩, hopen, rfl, rfl, rfl,
          rfl, .inr ⟨rfl, rfl, actual, rfl, ?_, fun hwithin => hwithin row hfound actual hactual⟩⟩)
        unfold measuredCost? at hactual
        split at hactual
        · split at hactual
          · next hbounds => exact Option.some.inj hactual ▸ hbounds.1
          · cases hactual
        · cases hactual
  | release owner objectiveId =>
    rcases releaseUnpublished_cases s owner objectiveId with hkept | ⟨row, rfl, hopen, hrewrites⟩
    · have hkept : s' = s := hkept
      exact .inl ⟨by rw [hkept], by rw [hkept]⟩
    · exact .inr (.inr ⟨row, _, hrewrites, hopen, rfl, rfl, rfl, rfl, .inl ⟨rfl, rfl⟩⟩)

end Calls

section Limits

variable {contract : PersonalDeployment} {sameUsage : PyJson → PyJson → Bool}
  {s s' : PersonalResources} {row row' : PersonalReservation} {owner : String}

/-- The times of one month are consecutive. -/
theorem period_between {first now last : ℕ} (hfirst : first ≤ now) (hlast : now ≤ last)
    (h : period first = period last) : period now = period last :=
  civilMonth_between (by omega) (by omega) h

/-- What is held with one more reservation. -/
theorem held_insert (amount : PersonalReservation → ℤ) (owner : String)
    (hfree : s.reservations.find? row.objectiveId = none)
    (h : s' = { s with reservations := s.reservations.insertOrIgnore row }) :
    s'.held amount owner = s.held amount owner + if isHeld owner row then amount row else 0 := by
  subst h
  exact Table.sum_filter_insertOrIgnore (isHeld owner) amount hfree

/-- What is spent with one more reservation. -/
theorem spent_insert (owner : String) (month : ℤ × ℤ)
    (hfree : s.reservations.find? row.objectiveId = none)
    (h : s' = { s with reservations := s.reservations.insertOrIgnore row }) :
    s'.spent owner month =
      s.spent owner month + if isSpent owner month row then row.actualMicroUsd.getD 0 else 0 := by
  subst h
  exact Table.sum_filter_insertOrIgnore (isSpent owner month) (·.actualMicroUsd.getD 0) hfree

/-- What is held with one reservation replaced. -/
theorem Rewrites.held_eq (h : Rewrites s s' row row') (amount : PersonalReservation → ℤ)
    (owner : String) : s'.held amount owner =
      s.held amount owner - (if isHeld owner row then amount row else 0) +
        if isHeld owner row' then amount row' else 0 := by
  obtain ⟨hfound, f, hf, rfl, rfl⟩ := h
  exact Table.sum_filter_update (isHeld owner) amount hf hfound

/-- What is spent with one reservation replaced. -/
theorem Rewrites.spent_eq (h : Rewrites s s' row row') (owner : String) (month : ℤ × ℤ) :
    s'.spent owner month =
      s.spent owner month - (if isSpent owner month row then row.actualMicroUsd.getD 0 else 0) +
        if isSpent owner month row' then row'.actualMicroUsd.getD 0 else 0 := by
  obtain ⟨hfound, f, hf, rfl, rfl⟩ := h
  exact Table.sum_filter_update (isSpent owner month) (·.actualMicroUsd.getD 0) hf hfound

/-- Every reservation is an old one, or the one that replaces it. -/
theorem Rewrites.mem (h : Rewrites s s' row row') {stored : PersonalReservation}
    (hstored : stored ∈ s'.reservations.rows) : stored ∈ s.reservations.rows ∨ stored = row' := by
  obtain ⟨hfound, f, hf, rfl, rfl⟩ := h
  obtain ⟨old, hold, rfl⟩ := List.mem_map.mp hstored
  split
  · next hkey =>
    refine .inr (congrArg f ?_)
    exact Table.eq_of_mem hold (Table.mem_of_find? hfound).1 hkey
  · exact .inl hold

/-- Amounts are not negative, settlements are not in the future, and at every later time what is
spent in its month fits beside what is held. -/
structure Accounted (contract : PersonalDeployment) (s : PersonalResources) : Prop where
  rows : ∀ row ∈ s.reservations.rows,
    0 ≤ row.reservedMicroUsd ∧ 0 ≤ row.implementationWorkers ∧ 0 ≤ row.actualMicroUsd.getD 0 ∧
      (row.status = .settled → ∃ now ≤ s.now, row.periodKey = period now)
  objectives : s.activeObjectives contract.ownerPrincipalId ≤ contract.maxImplementationWorkers
  workers :
    s.activeImplementationWorkers contract.ownerPrincipalId ≤ contract.maxImplementationWorkers
  spend : ∀ now, s.now ≤ now → s.spent contract.ownerPrincipalId (period now) +
    s.reservedMicroUsd contract.ownerPrincipalId ≤ contract.monthlySpendLimit

namespace Accounted

theorem withinLimits (h : Accounted contract s) : s.WithinLimits contract :=
  ⟨h.objectives, h.workers, h.spend s.now (Nat.le_refl _)⟩

theorem initial (contract : PersonalDeployment) : Accounted contract initial where
  rows _ h := absurd h List.not_mem_nil
  objectives := Int.le_trans (show (0 : ℤ) ≤ 1 by decide) contract.workersValid.1
  workers := Int.le_trans (show (0 : ℤ) ≤ 1 by decide) contract.workersValid.1
  spend _ _ := Int.le_trans (show (0 : ℤ) ≤ 1 by decide)
    (Int.le_trans contract.spendValid.1 contract.spendValid.2.1)

/-- What is spent in a month is not negative. -/
theorem spent_nonneg (h : Accounted contract s) (owner : String) (month : ℤ × ℤ) :
    0 ≤ s.spent owner month := by
  refine List.sum_nonneg fun amount hamount => ?_
  obtain ⟨row, hrow, rfl⟩ := List.mem_map.mp hamount
  exact (h.rows row (List.mem_filter.mp hrow).1).2.2.1

/-- Nothing is spent in a month that has not come. -/
theorem spent_eq_zero (h : Accounted contract s) (owner : String) {now : ℕ} (hnow : s.now ≤ now)
    (hmonth : period now ≠ period s.now) : s.spent owner (period now) = 0 := by
  rw [spent, List.filter_eq_nil_iff.mpr, List.map_nil, List.sum_nil]
  intro row hrow hspent
  simp only [isSpent, Bool.and_eq_true, beq_iff_eq] at hspent
  obtain ⟨⟨-, hstatus⟩, hperiod⟩ := hspent
  obtain ⟨first, hfirst, hsame⟩ := (h.rows row hrow).2.2.2 hstatus
  exact hmonth (period_between hfirst hnow (hsame ▸ hperiod)).symm

/-- Time goes on, and the reservations stay. -/
theorem keep (h : Accounted contract s) (hrows : s'.reservations = s.reservations)
    (hnow : s.now ≤ s'.now) : Accounted contract s' := by
  have hheld (amount : PersonalReservation → ℤ) (owner : String) :
      s'.held amount owner = s.held amount owner := by rw [held, held, hrows]
  refine ⟨fun row hrow => ?_, ?_, ?_, fun now hlater => ?_⟩
  · obtain ⟨hreserved, hworkers, hactual, hperiod⟩ := h.rows row (hrows ▸ hrow)
    refine ⟨hreserved, hworkers, hactual, fun hstatus => ?_⟩
    obtain ⟨now, hbefore, hsame⟩ := hperiod hstatus
    exact ⟨now, Nat.le_trans hbefore hnow, hsame⟩
  · rw [activeObjectives, hheld]
    exact h.objectives
  · rw [activeImplementationWorkers, hheld]
    exact h.workers
  · rw [reservedMicroUsd, hheld, spent, hrows]
    exact h.spend now (Nat.le_trans hnow hlater)

/-- One more reservation is held within the limits. -/
theorem insert (h : Accounted contract s) (hfree : s.reservations.find? row.objectiveId = none)
    (hs' : s' = { s with reservations := s.reservations.insertOrIgnore row })
    (howner : row.ownerUserId = contract.ownerPrincipalId) (hopen : row.status = .reserved)
    (hactual : row.actualMicroUsd = none) (hworkers : 1 ≤ row.implementationWorkers)
    (hceiling : row.reservedMicroUsd = contract.objectiveSpendLimit)
    (hactive : s.activeObjectives row.ownerUserId + 1 ≤ contract.maxImplementationWorkers)
    (hcapacity : s.activeImplementationWorkers row.ownerUserId + row.implementationWorkers ≤
      contract.maxImplementationWorkers)
    (hspend : s.spent row.ownerUserId (period s.now) + s.reservedMicroUsd row.ownerUserId +
      row.reservedMicroUsd ≤ contract.monthlySpendLimit) : Accounted contract s' := by
  have hlimit := contract.spendValid.1
  have hnow : s'.now = s.now := by rw [hs']
  have hheld : isHeld row.ownerUserId row = true := by simp [isHeld, hopen]
  have hunspent (month : ℤ × ℤ) : isSpent row.ownerUserId month row = false := by
    simp [isSpent, hopen]
  refine ⟨fun stored hstored => ?_, ?_, ?_, fun now hlater => ?_⟩
  · rw [hnow]
    rw [hs'] at hstored
    rcases Table.mem_insertOrIgnore hstored with hold | ⟨-, rfl⟩
    · exact h.rows stored hold
    · rw [hactual, hopen]
      exact ⟨by omega, by omega, Int.le_refl 0, nofun⟩
  · rw [← howner, activeObjectives, held_insert _ _ hfree hs', if_pos hheld]
    exact hactive
  · rw [← howner, activeImplementationWorkers, held_insert _ _ hfree hs', if_pos hheld]
    exact hcapacity
  · rw [← howner, reservedMicroUsd, held_insert _ _ hfree hs', if_pos hheld,
      spent_insert _ _ hfree hs', hunspent, if_neg Bool.false_ne_true, add_zero]
    rw [hnow] at hlater
    by_cases hmonth : period now = period s.now
    · rw [hmonth]
      unfold reservedMicroUsd at hspend
      omega
    · have hzero := h.spent_eq_zero row.ownerUserId hlater hmonth
      have hpast := h.spent_nonneg row.ownerUserId (period s.now)
      unfold reservedMicroUsd at hspend
      omega

/-- A reservation that ends leaves room for what was measured of it. -/
theorem rewrite (h : Accounted contract s) (hrewrites : Rewrites s s' row row')
    (hopen : row.status = .reserved) (howner : row'.ownerUserId = row.ownerUserId)
    (hreserved : row'.reservedMicroUsd = row.reservedMicroUsd)
    (hworkers : row'.implementationWorkers = row.implementationWorkers)
    (hends : row'.status = .released ∧ row'.actualMicroUsd = row.actualMicroUsd ∨
      row'.status = .settled ∧ row'.periodKey = period s.now ∧
        ∃ actual, row'.actualMicroUsd = some actual ∧ 0 ≤ actual ∧ actual ≤ row.reservedMicroUsd) :
    Accounted contract s' := by
  have hnow : s'.now = s.now := by
    obtain ⟨-, f, hf, rfl, -⟩ := hrewrites
    rfl
  obtain ⟨hfirst, hsecond, hthird, -⟩ := h.rows row (Table.mem_of_find? hrewrites.1).1
  have hclosed : row'.status ≠ .reserved := by
    rcases hends with ⟨hstatus, -⟩ | ⟨hstatus, -⟩
    · rw [hstatus]
      exact nofun
    · rw [hstatus]
      exact nofun
  have hunheld (owner : String) : isHeld owner row' = false := by simp [isHeld, hclosed]
  have hunspent (owner : String) (month : ℤ × ℤ) : isSpent owner month row = false := by
    simp [isSpent, hopen]
  -- What is held shrinks by what the reservation held.
  have hshrinks (amount : PersonalReservation → ℤ) (owner : String) : s'.held amount owner =
      s.held amount owner - if isHeld owner row then amount row else 0 := by
    rw [hrewrites.held_eq, hunheld, if_neg Bool.false_ne_true, add_zero]
  refine ⟨fun stored hstored => ?_, ?_, ?_, fun now hlater => ?_⟩
  · rw [hnow]
    rcases hrewrites.mem hstored with hold | rfl
    · exact h.rows stored hold
    · rw [hreserved, hworkers]
      refine ⟨hfirst, hsecond, ?_, fun hsettled => ?_⟩
      · rcases hends with ⟨-, hsame⟩ | ⟨-, -, actual, hactual, hpos, -⟩
        · rwa [hsame]
        · rwa [hactual]
      · rcases hends with ⟨hstatus, -⟩ | ⟨-, hperiod, -⟩
        · cases hstatus.symm.trans hsettled
        · exact ⟨s.now, Nat.le_refl _, hperiod⟩
  · have hbefore := h.objectives
    rw [activeObjectives, hshrinks]
    unfold activeObjectives at hbefore
    split <;> omega
  · have hbefore := h.workers
    rw [activeImplementationWorkers, hshrinks]
    unfold activeImplementationWorkers at hbefore
    split <;> omega
  · rw [hnow] at hlater
    have hbefore := h.spend now hlater
    rw [reservedMicroUsd, hshrinks, hrewrites.spent_eq, hunspent,
      if_neg Bool.false_ne_true, sub_zero]
    unfold reservedMicroUsd at hbefore
    rcases hends with ⟨hstatus, -⟩ | ⟨hstatus, -, actual, hactual, -, hle⟩
    · have hnone : isSpent contract.ownerPrincipalId (period now) row' = false := by
        simp [isSpent, hstatus]
      rw [hnone, if_neg Bool.false_ne_true]
      split <;> omega
    · have hsame : isHeld contract.ownerPrincipalId row =
        (row'.ownerUserId == contract.ownerPrincipalId) := by
        simp [isHeld, hopen, howner]
      rw [hsame]
      by_cases hmine : (row'.ownerUserId == contract.ownerPrincipalId) = true
      · rw [if_pos hmine, hactual, Option.getD_some]
        split <;> omega
      · have hnone : isSpent contract.ownerPrincipalId (period now) row' = false := by
          simp [isSpent, Bool.eq_false_iff.mpr hmine]
        rw [hnone, if_neg hmine, if_neg Bool.false_ne_true]
        omega

/-- A settlement within its ceiling keeps the accounts, and so does every other step. -/
theorem step (h : Accounted contract s) {t : PersonalResourceStep} (ht : t.WithinCeiling s) :
    Accounted contract (s.step (some contract) sameUsage t) := by
  rcases step_cases contract sameUsage s t with ⟨hrows, hnow⟩ |
    ⟨row, hfree, hinsert, -, howner, hopen, hactual, hworkers, hceiling, hactive, hcapacity,
      hspend⟩ |
    ⟨row, row', hrewrites, hopen, -, howner, hreserved, hworkers, hends⟩
  · exact h.keep hrows hnow
  · exact h.insert hfree hinsert howner hopen hactual hworkers hceiling hactive hcapacity hspend
  · refine h.rewrite hrewrites hopen howner hreserved hworkers (hends.imp_right ?_)
    rintro ⟨hstatus, hperiod, actual, hactual, hpos, hle⟩
    exact ⟨hstatus, hperiod, actual, hactual, hpos, hle ht⟩

end Accounted

namespace KeepsClosed

theorem refl (s : PersonalResources) : KeepsClosed s s := fun _ _ hrow _ => hrow

theorem trans {t u : PersonalResources} (hst : KeepsClosed s t) (htu : KeepsClosed t u) :
    KeepsClosed s u :=
  fun objectiveId row hrow hclosed => htu objectiveId row (hst objectiveId row hrow hclosed) hclosed

theorem step (s : PersonalResources) (t : PersonalResourceStep) :
    KeepsClosed s (s.step (some contract) sameUsage t) := by
  intro objectiveId stored hstored hclosed
  rcases step_cases contract sameUsage s t with ⟨hrows, -⟩ |
    ⟨row, -, hinsert, -⟩ | ⟨row, row', ⟨hfound, f, hf, hupdate, -⟩, hopen, -⟩
  · rwa [hrows]
  · rw [hinsert, Table.find?_insertOrIgnore, Option.mem_def.mp hstored, Option.some_or]
  · rw [hupdate, Table.find?_update_ne]
    · exact hstored
    · rintro rfl
      obtain rfl := Option.some.inj (hfound.symm.trans hstored)
      exact hclosed hopen

end KeepsClosed

/-- A replay changes no reservation. -/
theorem reservations_replay {t : PersonalResourceStep} (h : t.Replays s) :
    (s.step (some contract) sameUsage t).reservations = s.reservations := by
  rcases step_cases contract sameUsage s t with ⟨hrows, -⟩ |
    ⟨row, hfree, -, ⟨call, rfl, hkey⟩, -⟩ | ⟨row, row', ⟨hfound, -⟩, hopen, hended, -⟩
  · exact hrows
  · exact absurd (hkey ▸ hfree) h
  · exfalso
    have hnot : ¬∃ stored ∈ s.reservations.find? row.objectiveId, stored.status ≠ .reserved := by
      rintro ⟨stored, hstored, hclosed⟩
      obtain rfl := Option.some.inj (hfound.symm.trans hstored)
      exact hclosed hopen
    cases t with
    | settle owner objectiveId eventId usage =>
      obtain rfl := Option.some.inj hended
      exact hnot h
    | release owner objectiveId =>
      obtain rfl := Option.some.inj hended
      exact hnot h
    | _ => cases hended

end Limits

/-- Where settlements measure no more than what is reserved, the open reservations, their workers
and the spend of the month are within the limits of the deployment. Every reservation is settled at
most once, stays as it is when it is not open any more, and is not changed by a replay. -/
theorem personal_limits (contract : PersonalDeployment) (sameUsage : PyJson → PyJson → Bool)
    (steps : List PersonalResourceStep)
    (h : RunMeets (step (some contract) sameUsage) (fun s t => t.WithinCeiling s) initial steps) :
    let reached (taken : List PersonalResourceStep) :=
      run (step (some contract) sameUsage) initial taken
    (reached steps).WithinLimits contract ∧
      (∀ first settling middle settling' last objectiveId,
        steps = first ++ settling :: middle ++ settling' :: last →
          Settles (reached first) (reached (first ++ [settling])) objectiveId →
            ¬Settles (reached (first ++ settling :: middle))
              (reached (first ++ settling :: middle ++ [settling'])) objectiveId) ∧
      (∀ first second third, steps = first ++ second ++ third →
        KeepsClosed (reached first) (reached (first ++ second))) ∧
      ∀ before replay after, steps = before ++ replay :: after → replay.Replays (reached before) →
        (reached (before ++ [replay])).reservations = (reached before).reservations := by
  intro reached
  have hkeeps (first second : List PersonalResourceStep) :
      KeepsClosed (reached first) (reached (first ++ second)) := by
    show KeepsClosed _ (run (step (some contract) sameUsage) initial (first ++ second))
    rw [run_append]
    exact run_monotone .refl (fun _ _ _ => .trans) (fun s t => .step s t) _ second
  refine ⟨?_, ?_, fun first second _ _ => hkeeps first second, ?_⟩
  · exact (run_invariant (I := Accounted contract) (fun _ _ hs ht => hs.step ht) h
      (.initial contract)).withinLimits
  · rintro first settling middle settling' last objectiveId rfl ⟨-, -, -, row, hrow, hsettled⟩
      ⟨row', hrow', hunsettled, -⟩
    have hkept := hkeeps (first ++ [settling]) middle objectiveId row hrow (by rw [hsettled]; nofun)
    rw [List.append_assoc, List.singleton_append] at hkept
    obtain rfl := Option.some.inj (hkept.symm.trans hrow')
    exact hunsettled hsettled
  · rintro before replay after rfl hreplays
    show (run (step (some contract) sameUsage) initial (before ++ [replay])).reservations = _
    rw [run_append]
    exact reservations_replay hreplays

section Example

/-- A deployment for two workers, with 250 micro-USD a month and 100 an objective. -/
def pairDeployment : PersonalDeployment :=
  ⟨"owner", 2, 100, 250, by decide, by decide⟩

/-- An objective is reserved and settled with a cost of 30. -/
def settledOnce : List PersonalResourceStep :=
  let usage : PyJson := .dict [(PyText.of "cost_micro_usd", .int 30)]
  [.elapse 86400,
    .reserve ⟨⟨"owner", ["command"], "session", 1000000⟩, "objective", "digest",
      some "repository", 1, true⟩,
    .others ⟨[], [], [⟨"owner", "objective", "event", "objective.completed", usage⟩], []⟩,
    .settle "owner" "objective" "event" usage]

/-- Two usages are written the same way. -/
def sameJson (usage usage' : PyJson) : Bool := usage.canonicalJson == usage'.canonicalJson

theorem personal_limits_settled :
    let s := run (step (some pairDeployment) sameJson) initial settledOnce
    s.WithinLimits pairDeployment ∧
      (s.reservations.find? "objective").map (fun row => (row.status, row.actualMicroUsd)) =
        some (.settled, some 30) := by
  intro s
  have h : RunMeets (step (some pairDeployment) sameJson) (fun s t => t.WithinCeiling s) initial
      settledOnce := by decide
  exact ⟨(personal_limits pairDeployment sameJson settledOnce h).1, by decide⟩

end Example

end PersonalResources

end Magistrate
