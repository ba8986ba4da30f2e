import Magistrate.Core.Pool
import Magistrate.Core.Run
import Magistrate.Core.Table

/-!
# Agent migrations

A migration is requested once and moves along a fixed graph of statuses. A call reads
the status, checks the move and writes it, each over a connection of its own, so other
calls take their turns between the check and the write.
-/

namespace Magistrate

/-- The status of a migration. -/
inductive MigrationStatus where
  | requested
  | relaunching
  | runningOnNew
  | failed
  deriving DecidableEq, Repr

namespace MigrationStatus

/-- The name of a status in the database. -/
def name : MigrationStatus → String
  | requested => "requested"
  | relaunching => "relaunching"
  | runningOnNew => "running-on-new"
  | failed => "failed"

/-- `allowed`: the statuses that a status moves to. -/
def allowed : MigrationStatus → List MigrationStatus
  | requested => [relaunching, failed]
  | relaunching => [runningOnNew, failed]
  | failed => [relaunching]
  | runningOnNew => []

/-- A status stays, or moves along an edge of the graph. -/
def Follows (before after : MigrationStatus) : Prop := after = before ∨ after ∈ before.allowed

instance (before after : MigrationStatus) : Decidable (before.Follows after) :=
  inferInstanceAs (Decidable (_ ∨ _))

/-- No edge leaves a migration that runs on its new profile. -/
theorem eq_of_follows_runningOnNew {after : MigrationStatus} (h : runningOnNew.Follows after) :
    after = runningOnNew :=
  h.resolve_right List.not_mem_nil

end MigrationStatus

/-- The profile that an agent is to run on. -/
structure MigrationTarget where
  profileId : String
  harness : String
  model : String
  deriving DecidableEq, Repr

/-- A row of `agent_migration_requests`. -/
structure AgentMigration where
  requestId : String
  userId : String
  agentId : String
  idempotencyKey : String
  target : MigrationTarget
  status : MigrationStatus
  contextJson : String
  evidence : Option String
  error : Option String
  createdAt : ℕ
  updatedAt : ℕ
  deriving DecidableEq, Repr

/-- The table `agent_migration_requests`. -/
abbrev AgentMigrations := Table AgentMigration.requestId

/-- What a call raises. -/
inductive MigrationError where
  | lookupError (message : String)
  | valueError (message : String)
  | integrityError
  deriving DecidableEq, Repr

/-- A call, from the connection that it opens next. -/
inductive MigrationCall where
  /-- `create_agent_migration`, before it looks its key up -/
  | creating (userId agentId idempotencyKey : String) (target : MigrationTarget)
      (contextJson : String)
  /-- The key was free. -/
  | inserting (userId agentId idempotencyKey : String) (target : MigrationTarget)
      (contextJson : String)
  /-- `transition_agent_migration`, before it reads the status -/
  | transitioning (userId requestId : String) (state : MigrationStatus) (evidence : String)
  /-- The move was allowed from the status that was seen. -/
  | updating (userId requestId : String) (state : MigrationStatus) (evidence : String)
      (seen : MigrationStatus)
  /-- The write is done, and the row is read back. -/
  | reporting (userId requestId : String)
  deriving DecidableEq

/-- What a turn comes to: the call goes on, or returns a row. -/
inductive MigrationOutcome where
  | goesOn (call : MigrationCall)
  | returns (row : Option AgentMigration)
  deriving DecidableEq

namespace AgentMigrations

/-- `get_agent_migration` -/
def getAgentMigration (db : AgentMigrations) (userId requestId : String) : Option AgentMigration :=
  (db.find? requestId).filter (·.userId == userId)

/-- `get_agent_migration_by_idempotency` -/
def getAgentMigrationByIdempotency (db : AgentMigrations) (userId idempotencyKey : String) :
    Option AgentMigration :=
  db.rows.find? fun row => row.userId == userId && row.idempotencyKey == idempotencyKey

/-- The `INSERT` of `create_agent_migration`; the id of the request and the key of the user are
unique. -/
def insertRequest (db : AgentMigrations) (row : AgentMigration) :
    Except MigrationError AgentMigrations := do
  raiseIf (db.find? row.requestId ≠ none ∨
    db.getAgentMigrationByIdempotency row.userId row.idempotencyKey ≠ none) .integrityError
  return db.insertOrIgnore row

/-- The `UPDATE` of `transition_agent_migration`. -/
def updateStatus (db : AgentMigrations) (now : ℕ) (userId requestId : String)
    (state : MigrationStatus) (evidence : String) : AgentMigrations :=
  db.update requestId (fun row =>
    if row.userId == userId then
      { row with
        status := state
        evidence := some evidence
        error := if state = .failed then some evidence else none
        updatedAt := now }
    else row) (by intro row; split <;> rfl)

/-- What a call does over one connection; `requestIdOf` makes the id of a request. -/
def serve (requestIdOf : String → String → String) (now : ℕ) (db : AgentMigrations) :
    MigrationCall → Except MigrationError (AgentMigrations × MigrationOutcome)
  | .creating userId agentId idempotencyKey target contextJson => do
    match db.getAgentMigrationByIdempotency userId idempotencyKey with
    | some row =>
      raiseIf (row.agentId ≠ agentId ∨ row.target.profileId ≠ target.profileId) <|
        .valueError "That idempotency key was already used for a different migration request."
      return (db, .returns (some row))
    | none => return (db, .goesOn (.inserting userId agentId idempotencyKey target contextJson))
  | .inserting userId agentId idempotencyKey target contextJson => do
    let requestId := requestIdOf userId idempotencyKey
    let db ← db.insertRequest ⟨requestId, userId, agentId, idempotencyKey, target, .requested,
      contextJson, none, none, now, now⟩
    return (db, .goesOn (.reporting userId requestId))
  | .transitioning userId requestId state evidence => do
    let current ← orRaise (db.getAgentMigration userId requestId) <|
      .lookupError "Migration request not found."
    if current.status = state then
      return (db, .returns (some current))
    raiseIf (state ∉ current.status.allowed) <|
      .valueError ("Migration cannot move from " ++ current.status.name ++ " to " ++
        state.name ++ ".")
    return (db, .goesOn (.updating userId requestId state evidence current.status))
  | .updating userId requestId state evidence _ =>
    return (db.updateStatus now userId requestId state evidence,
      .goesOn (.reporting userId requestId))
  | .reporting userId requestId => return (db, .returns (db.getAgentMigration userId requestId))

end AgentMigrations

/-- The table of the migrations with the calls under way. -/
abbrev MigrationPool := Pool AgentMigrations MigrationCall

/-- What happens to the migrations. -/
inductive MigrationStep where
  /-- A migration is asked for. -/
  | create (userId agentId idempotencyKey : String) (target : MigrationTarget)
      (contextJson : String)
  /-- An operator reports a status. -/
  | transition (userId requestId : String) (state : MigrationStatus) (evidence : String)
  /-- A call uses its next connection. -/
  | turn (i now : ℕ)
  /-- A call ends before its next connection. -/
  | stop (i : ℕ)

namespace MigrationPool

/-- The turn of a call. -/
def serve (requestIdOf : String → String → String) (now : ℕ) (call : MigrationCall)
    (db : AgentMigrations) : AgentMigrations × Option MigrationCall :=
  match db.serve requestIdOf now call with
  | .ok (db', .goesOn call') => (db', some call')
  | .ok (db', .returns _) => (db', none)
  | .error _ => (db, none)

/-- The migrations after a step. -/
def step (requestIdOf : String → String → String) (p : MigrationPool) :
    MigrationStep → MigrationPool
  | .create userId agentId idempotencyKey target contextJson =>
    p.spawn (.creating userId agentId idempotencyKey target contextJson)
  | .transition userId requestId state evidence =>
    p.spawn (.transitioning userId requestId state evidence)
  | .turn i now => p.turn i (serve requestIdOf now)
  | .stop i => p.turn i fun _ db => (db, none)

/-- No migration is stored, and no call is under way. -/
def initial : MigrationPool := ⟨Table.empty, []⟩

end MigrationPool

/-- A migration that a call writes has the status that the call read, or one that the new status
follows. -/
def MigrationCall.Undisturbed (db : AgentMigrations) : MigrationCall → Prop
  | .updating userId requestId state _ seen =>
    ∀ row ∈ db.getAgentMigration userId requestId, row.status = seen ∨ row.status.Follows state
  | _ => True

/-- The call whose turn it is finds its migration as it read it, or in a status that allows its
move. -/
def MigrationStep.Undisturbed (p : MigrationPool) : MigrationStep → Prop
  | .turn i _ => ∀ call, p.workers[i]? = some call → call.Undisturbed p.shared
  | _ => True

/-- A migration starts as requested, stays stored, and its status follows the one it had. -/
def AgentMigrations.Follow (before after : AgentMigrations) : Prop :=
  (∀ requestId, ∀ row ∈ after.find? requestId, before.find? requestId = none →
    row.status = .requested) ∧
  ∀ requestId, ∀ row ∈ before.find? requestId, ∃ row' ∈ after.find? requestId,
    row.status.Follows row'.status

/-- What runs on its new profile keeps doing so. -/
def AgentMigrations.KeepsSuccess (before after : AgentMigrations) : Prop :=
  ∀ requestId, ∀ row ∈ before.find? requestId, row.status = .runningOnNew →
    ∃ row' ∈ after.find? requestId, row'.status = .runningOnNew

namespace AgentMigrations

variable {db : AgentMigrations}

theorem Follow.refl (db : AgentMigrations) : db.Follow db :=
  ⟨fun _ row hrow hnone => absurd (hnone ▸ hrow) (by simp),
    fun _ row hrow => ⟨row, hrow, .inl rfl⟩⟩

/-- A stored migration of a user is the one that the user reads. -/
theorem getAgentMigration_eq_some {userId requestId : String} {row : AgentMigration} :
    db.getAgentMigration userId requestId = some row ↔
      db.find? requestId = some row ∧ row.userId = userId := by
  rw [getAgentMigration, Option.filter_eq_some_iff, beq_iff_eq]

/-- A new request is requested, and all others stay. -/
theorem follow_insertRequest {row : AgentMigration} (hstatus : row.status = .requested)
    {db' : AgentMigrations} (h : db.insertRequest row = .ok db') : db.Follow db' := by
  obtain ⟨-, hguard, hdone⟩ := bind_eq_ok.mp h
  obtain rfl := pure_eq_ok.mp hdone
  constructor
  · intro requestId stored hstored hnone
    rw [Table.find?_insertOrIgnore, hnone, Option.none_or, Option.mem_def] at hstored
    obtain ⟨-, hsame⟩ := Option.ite_none_right_eq_some.mp hstored
    rw [← Option.some.inj hsame, hstatus]
  · intro requestId stored hstored
    refine ⟨stored, ?_, .inl rfl⟩
    rw [Table.find?_insertOrIgnore, Option.mem_def.mp hstored, Option.some_or, Option.mem_def]

/-- An update is one that follows the stored status, or is of a migration of another user. -/
theorem follow_updateStatus (now : ℕ) (userId requestId : String) (state : MigrationStatus)
    (evidence : String) : db.Follow (db.updateStatus now userId requestId state evidence) ↔
      ∀ row ∈ db.getAgentMigration userId requestId, row.status.Follows state := by
  constructor
  · rintro ⟨-, hfollow⟩ row hrow
    obtain ⟨hfound, huser⟩ := getAgentMigration_eq_some.mp hrow
    obtain ⟨row', hrow', hstatus⟩ := hfollow requestId row hfound
    rw [Option.mem_def, updateStatus, Table.find?_update_self, hfound, Option.map_some,
      if_pos (beq_iff_eq.mpr huser)] at hrow'
    rwa [← Option.some.inj hrow'] at hstatus
  · intro hall
    constructor
    · intro other row hrow hnone
      rw [Option.mem_def, updateStatus, Table.find?_update, hnone] at hrow
      cases hrow
    · intro other row hrow
      rw [updateStatus, Table.find?_update, Option.mem_def.mp hrow, Option.map_some]
      refine ⟨_, rfl, ?_⟩
      by_cases hkey : other = requestId
      · rw [if_pos hkey]
        subst hkey
        by_cases huser : row.userId = userId
        · rw [if_pos (beq_iff_eq.mpr huser)]
          exact hall row (getAgentMigration_eq_some.mpr ⟨hrow, huser⟩)
        · rw [if_neg (mt beq_iff_eq.mp huser)]
          exact .inl rfl
      · rw [if_neg hkey]
        exact .inl rfl

end AgentMigrations

/-- A call that is about to write was allowed its move from the status that it read. -/
def MigrationCall.Checked : MigrationCall → Prop
  | .updating _ _ state _ seen => state ∈ seen.allowed
  | _ => True

namespace AgentMigrations

variable {requestIdOf : String → String → String} {now : ℕ} {db db' : AgentMigrations}
  {call : MigrationCall} {outcome : MigrationOutcome}

/-- A turn that does not raise reads, with the move of a call that goes on checked, or inserts a
request, or writes a status. -/
theorem serve_cases (h : db.serve requestIdOf now call = .ok (db', outcome)) :
    (db' = db ∧ (∀ userId requestId state evidence seen,
        call ≠ .updating userId requestId state evidence seen) ∧
      ∀ call', outcome = .goesOn call' → call'.Checked) ∨
    (∃ row : AgentMigration, row.status = .requested ∧ db.insertRequest row = .ok db' ∧
      (∀ userId requestId state evidence seen,
        call ≠ .updating userId requestId state evidence seen) ∧
      outcome = .goesOn (.reporting row.userId row.requestId)) ∨
    ∃ userId requestId state evidence seen,
      call = .updating userId requestId state evidence seen ∧
      db' = db.updateStatus now userId requestId state evidence ∧
      outcome = .goesOn (.reporting userId requestId) := by
  cases call with
  | creating userId agentId idempotencyKey target contextJson =>
    refine .inl ?_
    simp only [serve] at h
    split at h
    · obtain ⟨-, -, hdone⟩ := bind_eq_ok.mp h
      obtain ⟨rfl, rfl⟩ := Prod.ext_iff.mp (pure_eq_ok.mp hdone)
      exact ⟨rfl, nofun, nofun⟩
    · obtain ⟨rfl, rfl⟩ := Prod.ext_iff.mp (pure_eq_ok.mp h)
      refine ⟨rfl, nofun, fun call' hgoes => ?_⟩
      cases hgoes
      trivial
  | inserting userId agentId idempotencyKey target contextJson =>
    simp only [serve] at h
    obtain ⟨inserted, hinsert, hdone⟩ := bind_eq_ok.mp h
    obtain ⟨rfl, rfl⟩ := Prod.ext_iff.mp (pure_eq_ok.mp hdone)
    exact .inr (.inl ⟨_, rfl, hinsert, nofun, rfl⟩)
  | transitioning userId requestId state evidence =>
    refine .inl ?_
    simp only [serve] at h
    obtain ⟨current, -, hrest⟩ := bind_eq_ok.mp h
    split at hrest
    · obtain ⟨rfl, rfl⟩ := Prod.ext_iff.mp (pure_eq_ok.mp hrest)
      exact ⟨rfl, nofun, nofun⟩
    · obtain ⟨_, hallowed, hdone⟩ := bind_eq_ok.mp hrest
      obtain ⟨rfl, rfl⟩ := Prod.ext_iff.mp (pure_eq_ok.mp hdone)
      refine ⟨rfl, nofun, fun call' hgoes => ?_⟩
      cases hgoes
      have hmem : state ∈ current.status.allowed := not_not.mp (raiseIf_eq_ok.mp hallowed)
      exact hmem
  | updating userId requestId state evidence seen =>
    obtain ⟨rfl, rfl⟩ := Prod.ext_iff.mp (pure_eq_ok.mp h)
    exact .inr (.inr ⟨userId, requestId, state, evidence, seen, rfl, rfl, rfl⟩)
  | reporting userId requestId =>
    obtain ⟨rfl, rfl⟩ := Prod.ext_iff.mp (pure_eq_ok.mp h)
    exact .inl ⟨rfl, nofun, nofun⟩

end AgentMigrations

namespace MigrationPool

variable {requestIdOf : String → String → String} {p : MigrationPool} {db : AgentMigrations}
  {call call' : MigrationCall} {now : ℕ}

/-- A call goes on as its turn says. -/
theorem serve_eq_some (h : (serve requestIdOf now call db).2 = some call') :
    ∃ db', db.serve requestIdOf now call = .ok (db', .goesOn call') := by
  unfold serve at h
  split at h
  · next db' _ heq =>
    obtain rfl := Option.some.inj h
    exact ⟨db', heq⟩
  · cases h
  · cases h

/-- A turn leaves what it raises or returns of the migrations. -/
theorem serve_fst (requestIdOf : String → String → String) (now : ℕ) (call : MigrationCall)
    (db : AgentMigrations) : (serve requestIdOf now call db).1 = db ∧
        (∃ e, db.serve requestIdOf now call = .error e) ∨
      ∃ outcome, db.serve requestIdOf now call = .ok
        ((serve requestIdOf now call db).1, outcome) := by
  unfold serve
  cases h : db.serve requestIdOf now call with
  | error e => exact .inl ⟨rfl, e, rfl⟩
  | ok result =>
    obtain ⟨db', outcome⟩ := result
    refine .inr ⟨outcome, ?_⟩
    cases outcome <;> rfl

/-- A call checks its move before it goes on to write it. -/
theorem checked_serve (h : (serve requestIdOf now call db).2 = some call') : call'.Checked := by
  obtain ⟨db', hserve⟩ := serve_eq_some h
  rcases AgentMigrations.serve_cases hserve with ⟨-, -, hchecked⟩ | ⟨row, -, -, -, hgoes⟩ |
    ⟨userId, requestId, state, evidence, seen, -, -, hgoes⟩
  · exact hchecked call' rfl
  · cases hgoes
    trivial
  · cases hgoes
    trivial

/-- The statuses follow each other over a turn exactly when its call is undisturbed. -/
theorem follow_serve_iff (hchecked : call.Checked) :
    call.Undisturbed db ↔ db.Follow (serve requestIdOf now call db).1 := by
  have hundisturbed (hcall : ∀ userId requestId state evidence seen,
      call ≠ .updating userId requestId state evidence seen) : call.Undisturbed db := by
    cases call with
    | updating userId requestId state evidence seen => exact absurd rfl (hcall _ _ _ _ _)
    | _ => trivial
  rcases serve_fst requestIdOf now call db with ⟨hsame, e, herror⟩ | ⟨outcome, hserve⟩
  · rw [hsame]
    refine iff_of_true (hundisturbed ?_) (.refl db)
    rintro userId requestId state evidence seen rfl
    cases herror
  · rcases AgentMigrations.serve_cases hserve with ⟨hsame, hcall, -⟩ |
      ⟨row, hstatus, hinsert, hcall, -⟩ |
      ⟨userId, requestId, state, evidence, seen, rfl, hupdate, -⟩
    · rw [hsame]
      exact iff_of_true (hundisturbed hcall) (.refl db)
    · exact iff_of_true (hundisturbed hcall) (AgentMigrations.follow_insertRequest hstatus hinsert)
    · rw [hupdate, AgentMigrations.follow_updateStatus]
      refine forall₂_congr fun row _ => ⟨?_, .inr⟩
      rintro (rfl | hfollows)
      · exact .inr hchecked
      · exact hfollows

/-- Every call that is about to write was allowed its move. -/
def Checked (p : MigrationPool) : Prop := ∀ call ∈ p.workers, call.Checked

theorem Checked.initial : Checked initial := fun _ h => absurd h List.not_mem_nil

theorem Checked.step (h : Checked p) (s : MigrationStep) : Checked (step requestIdOf p s) := by
  intro call hcall
  cases s with
  | create userId agentId idempotencyKey target contextJson =>
    rcases List.mem_append.mp hcall with hcall | hcall
    · exact h call hcall
    · obtain rfl := List.mem_singleton.mp hcall
      trivial
  | transition userId requestId state evidence =>
    rcases List.mem_append.mp hcall with hcall | hcall
    · exact h call hcall
    · obtain rfl := List.mem_singleton.mp hcall
      trivial
  | turn i now =>
    rcases Pool.mem_turn hcall with hcall | ⟨before, -, hnext⟩
    · exact h call hcall
    · exact checked_serve hnext
  | stop i =>
    rcases Pool.mem_turn hcall with hcall | ⟨before, -, hnext⟩
    · exact h call hcall
    · cases hnext

/-- The statuses follow each other over a step exactly when it is undisturbed. -/
theorem undisturbed_iff (h : Checked p) (s : MigrationStep) :
    s.Undisturbed p ↔ p.shared.Follow (step requestIdOf p s).shared := by
  cases s with
  | create userId agentId idempotencyKey target contextJson =>
    exact iff_of_true trivial (.refl _)
  | transition userId requestId state evidence => exact iff_of_true trivial (.refl _)
  | turn i now =>
    cases hi : p.workers[i]? with
    | none =>
      refine iff_of_true (fun call hcall => by rw [hi] at hcall; cases hcall) ?_
      rw [step, Pool.turn_none hi]
      exact .refl _
    | some call =>
      rw [step, Pool.shared_turn hi, ← follow_serve_iff (h call (List.mem_of_getElem? hi))]
      refine ⟨fun hall => hall call hi, fun hone other hother => ?_⟩
      exact Option.some.inj (hi.symm.trans hother) ▸ hone
  | stop i =>
    refine iff_of_true trivial ?_
    cases hi : p.workers[i]? with
    | none =>
      rw [step, Pool.turn_none hi]
      exact .refl _
    | some call =>
      rw [step, Pool.shared_turn hi]
      exact .refl _

end MigrationPool

/-- Statuses that follow each other never leave a success. -/
theorem AgentMigrations.Follow.keepsSuccess {before after : AgentMigrations}
    (h : before.Follow after) : before.KeepsSuccess after := by
  intro requestId row hrow hsuccess
  obtain ⟨row', hrow', hfollows⟩ := h.2 requestId row hrow
  exact ⟨row', hrow', MigrationStatus.eq_of_follows_runningOnNew (hsuccess ▸ hfollows)⟩

open MigrationPool in
/-- Every call that writes finds its migration as it read it, or in a status that allows its move,
exactly if the statuses of every migration are a path of the graph; none of them leaves
`running-on-new` then. -/
theorem migrations_serial_iff (requestIdOf : String → String → String)
    (steps : List MigrationStep) :
    let reached (taken : List MigrationStep) := (run (step requestIdOf) initial taken).shared
    RunMeets (step requestIdOf) (fun p s => s.Undisturbed p) initial steps ↔
      (∀ before s after, steps = before ++ s :: after →
        (reached before).Follow (reached (before ++ [s]))) ∧
      ∀ first second third, steps = first ++ second ++ third →
        (reached first).KeepsSuccess (reached (first ++ second)) := by
  intro reached
  have hstep : ∀ p s, Checked p → Checked (step requestIdOf p s) := fun p s h => h.step s
  have hfollow : ∀ p s, Checked p →
      (s.Undisturbed p ↔ p.shared.Follow (step requestIdOf p s).shared) :=
    fun p s h => undisturbed_iff h s
  have hsuccessive : RunMeets (step requestIdOf) (fun p s => s.Undisturbed p) initial steps ↔
      ∀ before s after, steps = before ++ s :: after →
        (reached before).Follow (reached (before ++ [s])) :=
    runMeets_iff_successive (R := fun p q => p.shared.Follow q.shared) hstep hfollow
      Checked.initial
  refine ⟨fun hmeets => ⟨hsuccessive.mp hmeets, ?_⟩, fun h => hsuccessive.mpr h.1⟩
  rintro first second third rfl
  obtain ⟨hfirst, -⟩ := runMeets_append.mp hmeets
  obtain ⟨-, hsecond⟩ := runMeets_append.mp hfirst
  have hkept := run_invariant
    (I := fun p => Checked p ∧ (reached first).KeepsSuccess p.shared)
    (fun p s hp hs => ⟨hp.1.step s, fun requestId row hrow hsuccess => by
      obtain ⟨mid, hmid, hstatus⟩ := hp.2 requestId row hrow hsuccess
      exact ((undisturbed_iff hp.1 s).mp hs).keepsSuccess requestId mid hmid hstatus⟩) hsecond
    ⟨run_invariant' (fun p s h => h.step s) first Checked.initial,
      fun _ row hrow hsuccess => ⟨row, hrow, hsuccess⟩⟩
  show (reached first).KeepsSuccess (run (step requestIdOf) initial (first ++ second)).shared
  rw [run_append]
  exact hkept.2

section Example

/-- A migration is relaunching, and two operators report that it runs and that it failed. -/
def reportedTwice : List MigrationStep :=
  [.create "user_1" "w2:p8" "migration_retry_0002" ⟨"codex:gpt-5", "codex", "gpt-5"⟩ "{}",
    .turn 0 0, .turn 0 0, .turn 0 0,
    .transition "user_1" "migration_1" .relaunching "operator started relaunch",
    .turn 0 1, .turn 0 1, .turn 0 1,
    .transition "user_1" "migration_1" .runningOnNew "new pane observed on codex/gpt-5",
    .transition "user_1" "migration_1" .failed "runtime exited before attach",
    .turn 0 2, .turn 1 2, .turn 0 2]

/-- The success that is stored is overwritten by the failure, whose call read the status before
it. -/
theorem success_overwritten :
    let reached (taken : List MigrationStep) :=
      (run (MigrationPool.step fun _ _ => "migration_1") MigrationPool.initial taken).shared
    ¬(reached reportedTwice).Follow (reached (reportedTwice ++ [.turn 1 3])) ∧
      ¬(reached reportedTwice).KeepsSuccess (reached (reportedTwice ++ [.turn 1 3])) := by
  intro reached
  have hbefore : ((reached reportedTwice).find? "migration_1").map (·.status) =
      some .runningOnNew := by decide
  have hafter : ((reached (reportedTwice ++ [.turn 1 3])).find? "migration_1").map (·.status) =
      some .failed := by decide
  have hlost : ¬(reached reportedTwice).KeepsSuccess (reached (reportedTwice ++ [.turn 1 3])) := by
    intro hkept
    obtain ⟨row, hrow, hstatus⟩ := Option.map_eq_some_iff.mp hbefore
    obtain ⟨row', hrow', hstatus'⟩ := hkept "migration_1" row hrow hstatus
    rw [Option.mem_def.mp hrow', Option.map_some, hstatus'] at hafter
    cases hafter
  exact ⟨fun hfollow => hlost hfollow.keepsSuccess, hlost⟩

end Example

end Magistrate
