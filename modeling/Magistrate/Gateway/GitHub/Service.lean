import Magistrate.Core.Pool
import Magistrate.Gateway.GitHub.Store

/-!
# The GitHub App service

Webhook deliveries, the setup callback and reconciles are tasks that take turns:
a turn is one statement of a call on the store, one answer of GitHub, or the end
of a delivery. A task can stop at any point, as in a crash.
-/

namespace Magistrate

/-- `REQUIRED_PERMISSIONS`, sorted. -/
def requiredPermissions : List String := ["checks", "contents", "metadata", "pull_requests"]

/-- `REQUIRED_EVENTS`, sorted. -/
def requiredEvents : List String :=
  ["check_run", "check_suite", "installation", "installation_repositories", "pull_request",
    "repository"]

/-- `validate_installation_permissions` -/
def validateInstallationPermissions (payload : Json) : Except GitHubAppError Unit := do
  let permissions := (payload.get "permissions").object
  raiseIf (requiredPermissions.any fun name => !(permissions.get name).isScalar)
    ⟨"unhashable type", 500⟩
  let missing := requiredPermissions.filter fun name =>
    (permissions.get name).str? ∉ [some "read", some "write"]
  raiseIf (missing ≠ []) ⟨"GitHub App installation is missing required read permissions: " ++
    ", ".intercalate missing ++ ".", 409⟩
  let events := match payload.get "events" with
    | .arr items => items
    | _ => []
  raiseIf (events.any fun event => !event.isScalar) ⟨"unhashable type", 500⟩
  let missingEvents := requiredEvents.filter fun name => some name ∉ events.map Json.str?
  raiseIf (missingEvents ≠ []) ⟨"GitHub App is missing required webhook subscriptions: " ++
    ", ".intercalate missingEvents ++ ".", 409⟩

/-- GitHub's answer on an installation, checked. -/
def checkInstallation (installationId : ℤ) (payload : Json) : Except GitHubAppError Unit := do
  raiseIf (payload.isObj = false ∨ (payload.get "id").instanceInt? ≠ some installationId)
    ⟨"GitHub returned a different installation.", 502⟩
  validateInstallationPermissions payload

/-- The status that GitHub gives an installation. -/
def installationStatus (payload : Json) : InstallationStatus :=
  if (payload.get "suspended_at").truthy then .suspended else .active

/-- `replace_repositories` -/
def replaceCalls (installationId : ℤ) (repositories : List Json) : List StoreCall :=
  repositories.map (.upsertRepository installationId ·) ++
    [.deactivateOthers installationId (repositories.filterMap fun repo => (repo.get "id").int?)]

/-- What happened on the store: a delivery removed repositories of an installation, all of them or
those listed; GitHub listed a repository; or all calls of a delivery were made. -/
inductive GitHubEvent where
  | removed (installationId : ℤ) (repositoryIds : Option (List ℤ))
  | listed (installationId repositoryId : ℤ)
  | completed (deliveryId : String)
  deriving DecidableEq, Repr

/-- The tables, and what happened so far. -/
structure GitHubState where
  tables : GitHubTables
  history : List GitHubEvent

/-- What a task goes on with once its calls are made: the end of a delivery, or the next part of
`bind_installation` or `reconcile`. -/
inductive GitHubJob where
  | finish (deliveryId event : String)
  | failed (deliveryId : String)
  | bind (userId : String) (installationId : ℤ)
  | check (userId : String) (installationId : ℤ)
  | reconcile (userId : String) (installationId : ℤ)
  | pages (installationId : ℤ) (repositories : List Json) (page : ℕ)
  | done

/-- A task: the calls that it makes, how far the first is, and what comes then. -/
structure GitHubTask where
  calls : List StoreCall
  stage : CallStage
  job : GitHubJob

/-- The delivery that a task processes. -/
def GitHubTask.handles (task : GitHubTask) : Option String :=
  match task.job with
  | .finish deliveryId _ => some deliveryId
  | .failed deliveryId => some deliveryId
  | _ => none

/-- What a call that was made tells: a delivery removes or adds repositories, and a reconcile adds
what GitHub lists. -/
def GitHubJob.told (job : GitHubJob) (call : StoreCall) : List GitHubEvent :=
  match job, call with
  | .finish _ _, .setInstallationStatus installationId .removed => [.removed installationId none]
  | .finish _ _, .removeRepositories installationId repositoryIds =>
    [.removed installationId (some repositoryIds)]
  | .finish _ event, .upsertRepository installationId repo =>
    if event = "installation_repositories" then
      (repo.get "id").identifier?.toList.map (.listed installationId ·)
    else []
  | _, .upsertRepository installationId repo =>
    (repo.get "id").identifier?.toList.map (.listed installationId ·)
  | _, _ => []

/-- A delivery of which no call is left is complete. -/
def GitHubJob.completes (job : GitHubJob) (calls : List StoreCall) : List GitHubEvent :=
  match job, calls with
  | .finish deliveryId _, [] => [.completed deliveryId]
  | _, _ => []

/-- What a task goes on with when a call raises. -/
def GitHubJob.afterError : GitHubJob → Option GitHubTask
  | .finish deliveryId _ => some ⟨[], .start, .failed deliveryId⟩
  | _ => none

/-- A part of a task that makes no call, on GitHub's answer. -/
def GitHubJob.turn (now : ℤ) (answer : Except GitHubAppError Json) (db : GitHubTables) :
    GitHubJob → GitHubTables × Option GitHubTask
  | .finish deliveryId _ => (db.finishDelivery deliveryId none now, none)
  | .failed deliveryId => (db.finishDelivery deliveryId (some "processing_failed") now, none)
  | .bind userId installationId =>
    match answer with
    | .error _ => (db, none)
    | .ok payload =>
      match checkInstallation installationId payload with
      | .error _ => (db, none)
      | .ok () =>
        let status := installationStatus payload
        (db, some ⟨[.upsertInstallation payload (some userId) (some status)], .start,
          if status = .suspended then .done else .check userId installationId⟩)
  | .check userId installationId =>
    match db.installationForUser userId installationId with
    | .error _ => (db, none)
    | .ok () => (db, some ⟨[], .start, .reconcile userId installationId⟩)
  | .reconcile userId installationId =>
    match answer with
    | .error e =>
      if e.statusCode = 404 then
        (db, some ⟨[.setInstallationStatus installationId .removed], .start, .done⟩)
      else (db, none)
    | .ok payload =>
      match checkInstallation installationId payload with
      | .error _ => (db, none)
      | .ok () =>
        let status := installationStatus payload
        (db, some ⟨[.upsertInstallation payload (some userId) (some status)], .start,
          if status = .suspended then .done else .pages installationId [] 1⟩)
  | .pages installationId repositories page =>
    match (answer.map fun data => data.get "repositories" : Except GitHubAppError Json) with
    | .ok (.arr batch) =>
      let repositories := repositories ++ batch.filter Json.isObj
      if batch.length < 100 then
        (db, some ⟨replaceCalls installationId repositories, .start, .done⟩)
      -- GitHub lists more than the supported 2,000 repositories.
      else if page = 20 then (db, none)
      else (db, some ⟨[], .start, .pages installationId repositories (page + 1)⟩)
    | _ => (db, none)
  | .done => (db, none)

/-- A turn of a task. -/
def GitHubTask.turn (rules : GitHubRules) (now : ℤ) (answer : Except GitHubAppError Json)
    (task : GitHubTask) (s : GitHubState) : GitHubState × Option GitHubTask :=
  match task.calls with
  | [] =>
    let (tables, next) := task.job.turn now answer s.tables
    ({ s with tables }, next)
  | call :: calls =>
    match call.turn rules now s.tables task.stage with
    | .error _ => (s, task.job.afterError)
    | .ok (tables, some stage) => ({ s with tables }, some { task with stage })
    | .ok (tables, none) =>
      ({ tables, history := s.history ++ task.job.told call ++ task.job.completes calls },
        some ⟨calls, .start, task.job⟩)

section Turns

variable (rules : GitHubRules) (now : ℤ) (answer : Except GitHubAppError Json)

/-- A turn takes a part of the job when no call is left; else its first call raises, goes on or is
made. -/
theorem GitHubTask.turn_cases (task : GitHubTask) (s : GitHubState) :
    (task.calls = [] ∧ task.turn rules now answer s =
      ({ s with tables := (task.job.turn now answer s.tables).1 },
        (task.job.turn now answer s.tables).2)) ∨
    ∃ call calls, task.calls = call :: calls ∧
      ((∃ e, call.turn rules now s.tables task.stage = .error e ∧
        task.turn rules now answer s = (s, task.job.afterError)) ∨
      (∃ tables stage, call.turn rules now s.tables task.stage = .ok (tables, some stage) ∧
        task.turn rules now answer s = ({ s with tables }, some { task with stage })) ∨
      ∃ tables, call.turn rules now s.tables task.stage = .ok (tables, none) ∧
        task.turn rules now answer s =
          ({ tables, history := s.history ++ task.job.told call ++ task.job.completes calls },
            some ⟨calls, .start, task.job⟩)) := by
  obtain ⟨calls, stage, job⟩ := task
  cases calls with
  | nil => exact .inl ⟨rfl, rfl⟩
  | cons call calls =>
    refine .inr ⟨call, calls, rfl, ?_⟩
    simp only [GitHubTask.turn]
    cases hcall : call.turn rules now s.tables stage with
    | error e => exact .inl ⟨e, rfl, rfl⟩
    | ok result =>
      obtain ⟨tables, _ | stage⟩ := result
      · exact .inr (.inr ⟨tables, rfl, rfl⟩)
      · exact .inr (.inl ⟨tables, stage, rfl, rfl⟩)

/-- A part of a job changes deliveries only, and goes on with a call that has not begun. -/
theorem GitHubJob.turn_keeps (job : GitHubJob) (db : GitHubTables) :
    (job.turn now answer db).1.installations = db.installations ∧
      (job.turn now answer db).1.repositories = db.repositories ∧
      ∀ next, (job.turn now answer db).2 = some next → next.stage = .start := by
  have hstarts : ∀ {calls : List StoreCall} {job next : _},
      some (GitHubTask.mk calls .start job) = some next → next.stage = .start := by
    rintro calls job next h
    rw [← Option.some.inj h]
  cases job with
  | finish deliveryId event => exact ⟨rfl, rfl, fun _ h => by cases h⟩
  | failed deliveryId => exact ⟨rfl, rfl, fun _ h => by cases h⟩
  | bind userId installationId =>
    simp only [GitHubJob.turn]
    split
    · exact ⟨rfl, rfl, fun _ h => by cases h⟩
    · split
      · exact ⟨rfl, rfl, fun _ h => by cases h⟩
      · exact ⟨rfl, rfl, fun _ h => hstarts h⟩
  | check userId installationId =>
    simp only [GitHubJob.turn]
    split
    · exact ⟨rfl, rfl, fun _ h => by cases h⟩
    · exact ⟨rfl, rfl, fun _ h => hstarts h⟩
  | reconcile userId installationId =>
    simp only [GitHubJob.turn]
    split
    · split
      · exact ⟨rfl, rfl, fun _ h => hstarts h⟩
      · exact ⟨rfl, rfl, fun _ h => by cases h⟩
    · split
      · exact ⟨rfl, rfl, fun _ h => by cases h⟩
      · exact ⟨rfl, rfl, fun _ h => hstarts h⟩
  | pages installationId repositories page =>
    simp only [GitHubJob.turn]
    split
    · split
      · exact ⟨rfl, rfl, fun _ h => hstarts h⟩
      · split
        · exact ⟨rfl, rfl, fun _ h => by cases h⟩
        · exact ⟨rfl, rfl, fun _ h => hstarts h⟩
    · exact ⟨rfl, rfl, fun _ h => by cases h⟩
  | done => exact ⟨rfl, rfl, fun _ h => by cases h⟩

end Turns

/-- A delivery that was verified: its headers, its decoded body and the digest of that. -/
structure GitHubWebhook where
  deliveryId : String
  event : String
  payload : Json
  payloadSha256 : String

/-- The action of a delivery, as it is recorded. -/
def GitHubWebhook.action (rules : GitHubRules) (webhook : GitHubWebhook) : Option String :=
  match webhook.payload.get "action" with
  | .null => none
  | value => some (String.ofList ((rules.str value).toList.take 64))

/-- What is done: a delivery arrives, the setup callback comes back, a user reconciles an
installation, a task takes a turn, or it stops. -/
inductive GitHubStep where
  | deliver (webhook : GitHubWebhook) (now : ℤ)
  | bind (userId : String) (installationId : ℤ)
  | reconcile (userId : String) (installationId : ℤ)
  | turn (task : ℕ) (now : ℤ) (answer : Except GitHubAppError Json)
  | stop (task : ℕ)

/-- The state and the tasks after a step. -/
def githubStep (rules : GitHubRules) (p : Pool GitHubState GitHubTask) :
    GitHubStep → Pool GitHubState GitHubTask
  | .deliver webhook now =>
    match p.shared.tables.beginDelivery webhook.deliveryId webhook.event (webhook.action rules)
        webhook.payloadSha256 now with
    | .error _ => p
    | .ok (false, _) => p
    | .ok (true, tables) =>
      let calls := webhookCalls webhook.event webhook.payload
      let job := GitHubJob.finish webhook.deliveryId webhook.event
      (p.write { tables, history := p.shared.history ++ job.completes calls }).spawn
        ⟨calls, .start, job⟩
  | .bind userId installationId =>
    if installationId < 1 then p else p.spawn ⟨[], .start, .bind userId installationId⟩
  | .reconcile userId installationId => p.spawn ⟨[], .start, .check userId installationId⟩
  | .turn i now answer => p.turn i (GitHubTask.turn rules now answer)
  | .stop i => p.turn i fun _ s => (s, none)

/-- The state of a new database, without tasks. -/
def GitHubState.initial : GitHubState := ⟨.initial, []⟩

namespace GitHubSample

/-- Rules that keep strings and forget everything else. -/
def rules : GitHubRules := ⟨fun value => value.str?.getD "", fun _ => ""⟩

/-- An installation with the permissions and the events that are required. -/
def installation : Json :=
  .obj [("id", .int 7),
    ("permissions", .obj (requiredPermissions.map fun name => (name, .str "read"))),
    ("events", .arr (requiredEvents.map .str))]

/-- A delivery about the installation. -/
def delivery (deliveryId event action : String) (members : List (String × Json)) :
    GitHubWebhook where
  deliveryId
  event
  payload := .obj (("action", .str action) :: ("installation", installation) :: members)
  payloadSha256 := "digest of " ++ deliveryId

end GitHubSample

end Magistrate
