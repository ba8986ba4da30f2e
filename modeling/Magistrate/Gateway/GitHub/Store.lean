import Magistrate.Core.Json
import Magistrate.Core.Rewrite

/-!
# The GitHub App store

Installations, their repositories and the webhook deliveries, with the calls
that the service makes on them. A call is one transaction, but for the upsert
of an installation: that first reads who owns the installation, then its status
where none is given, and then writes the row.
-/

namespace Magistrate

/-- `GitHubAppError`, and with code 500 any other exception. -/
structure GitHubAppError where
  message : String
  statusCode : ℕ
  deriving DecidableEq, Repr

/-- The status of an installation. -/
inductive InstallationStatus where
  | active
  | suspended
  | removed
  deriving DecidableEq, Repr

/-- A row of `github_app_installations`. -/
structure GitHubInstallation where
  installationId : ℤ
  userId : Option String
  accountId : Json
  accountLogin : String
  accountType : String
  repositorySelection : String
  status : InstallationStatus
  permissionsJson : String
  eventsJson : String
  suspendedAt : Option ℤ
  createdAt : ℤ
  updatedAt : ℤ
  lastReconciledAt : Option ℤ

/-- A row of `github_app_repositories`. -/
structure GitHubRepository where
  installationId : ℤ
  repositoryId : ℤ
  ownerLogin : String
  name : String
  fullName : String
  isPrivate : Bool
  defaultBranch : String
  htmlUrl : String
  active : Bool
  deletedAt : Option ℤ
  updatedAt : ℤ
  deriving DecidableEq, Repr

/-- The primary key of a repository. -/
def GitHubRepository.key (r : GitHubRepository) : ℤ × ℤ := (r.installationId, r.repositoryId)

/-- The status of a delivery. -/
inductive DeliveryStatus where
  | processing
  | processed
  | failed
  deriving DecidableEq, Repr

/-- A row of `github_webhook_deliveries`. -/
structure GitHubDelivery where
  deliveryId : String
  eventName : String
  action : Option String
  payloadSha256 : String
  status : DeliveryStatus
  receivedAt : ℤ
  processedAt : Option ℤ
  errorCode : Option String
  deriving DecidableEq, Repr

/-- The tables of the store. -/
structure GitHubTables where
  installations : Table GitHubInstallation.installationId
  repositories : Table GitHubRepository.key
  deliveries : Table GitHubDelivery.deliveryId

/-- The tables of a new database. -/
def GitHubTables.initial : GitHubTables := ⟨.empty, .empty, .empty⟩

/-- What the store computes from decoded values: `str` and `json.dumps`. -/
structure GitHubRules where
  str : Json → String
  dumps : Json → String

/-- `str(value or default)[:limit]` -/
def GitHubRules.text (rules : GitHubRules) (value : Json) (default : String) (limit : ℕ) : String :=
  String.ofList ((if value.truthy then rules.str value else default).toList.take limit)

/-- What passes `isinstance(value, int)`: integers and booleans. -/
def Json.instanceInt? : Json → Option ℤ
  | .int value => some value
  | .bool value => some value.toInt
  | _ => none

/-- An object, or an empty one in place of any other value. -/
def Json.object (value : Json) : Json := if value.isObj then value else .obj []

/-- An array, or an empty one in place of any other value. -/
def Json.array : Json → Json
  | .arr items => .arr items
  | _ => .arr []

/-- A positive identifier that is no boolean. -/
def Json.identifier? (value : Json) : Option ℤ := value.int?.filter (1 ≤ ·)

/-- `_installation_values`, as the row that an upsert inserts. -/
def installationRow (rules : GitHubRules) (installationId : ℤ) (payload : Json)
    (userId : Option String) (status : InstallationStatus) (createdAt now : ℤ) :
    GitHubInstallation :=
  let account := (payload.get "account").object
  { installationId
    userId
    accountId := account.get "id"
    accountLogin := rules.text (account.get "login") "" 255
    accountType := rules.text (account.get "type") "" 40
    repositorySelection := rules.text (payload.get "repository_selection") "selected" 20
    status
    permissionsJson := rules.dumps (payload.get "permissions").object
    eventsJson := rules.dumps (payload.get "events").array
    suspendedAt := none
    createdAt
    updatedAt := now
    lastReconciledAt := none }

/-- What an upsert leaves of a stored installation. -/
def GitHubInstallation.replaced (row old : GitHubInstallation) : GitHubInstallation :=
  { row with
    installationId := old.installationId
    suspendedAt := old.suspendedAt
    createdAt := old.createdAt
    lastReconciledAt := old.lastReconciledAt }

@[simp] theorem GitHubInstallation.installationId_replaced (row old : GitHubInstallation) :
    (row.replaced old).installationId = old.installationId := rfl

/-- The row that `upsert_repository` inserts. -/
def repositoryRow (rules : GitHubRules) (installationId repositoryId : ℤ) (repo : Json) (now : ℤ) :
    GitHubRepository :=
  let ownerLogin := rules.text ((repo.get "owner").object.get "login") "" 255
  let name := rules.text (repo.get "name") "" 255
  { installationId
    repositoryId
    ownerLogin
    name
    fullName := rules.text (repo.get "full_name")
      (if ownerLogin ≠ "" ∧ name ≠ "" then ownerLogin ++ "/" ++ name else "") 512
    isPrivate := (repo.get "private").bool? = some true
    defaultBranch := rules.text (repo.get "default_branch") "" 255
    htmlUrl := rules.text (repo.get "html_url") "" 1024
    active := true
    deletedAt := none
    updatedAt := now }

/-- What an upsert leaves of a stored repository. -/
def GitHubRepository.replaced (row old : GitHubRepository) : GitHubRepository :=
  { row with installationId := old.installationId, repositoryId := old.repositoryId }

@[simp] theorem GitHubRepository.key_replaced (row old : GitHubRepository) :
    (row.replaced old).key = old.key := rfl

/-- A repository is inactive from now on. -/
def GitHubRepository.deactivate (now : ℤ) (r : GitHubRepository) : GitHubRepository :=
  { r with active := false, deletedAt := some now, updatedAt := now }

@[simp] theorem GitHubRepository.key_deactivate (now : ℤ) (r : GitHubRepository) :
    (r.deactivate now).key = r.key := rfl

/-- An installation has another status. -/
def GitHubInstallation.withStatus (status : InstallationStatus) (now : ℤ)
    (i : GitHubInstallation) : GitHubInstallation :=
  { i with
    status
    suspendedAt := if status = .suspended then some now else none
    updatedAt := now }

@[simp] theorem GitHubInstallation.installationId_withStatus (status : InstallationStatus) (now : ℤ)
    (i : GitHubInstallation) : (i.withStatus status now).installationId = i.installationId := rfl

namespace GitHubTables

/-- The first statement of `upsert_installation`: the owner and the creation of an installation. -/
def readOwner (installationId : ℤ) (db : GitHubTables) : Option (Option String × ℤ) :=
  (db.installations.find? installationId).map fun i => (i.userId, i.createdAt)

/-- The second statement of `upsert_installation`: the status that is kept. -/
def readStatus (installationId : ℤ) (db : GitHubTables) : InstallationStatus :=
  ((db.installations.find? installationId).map (·.status)).getD .active

/-- The last statement of `upsert_installation`. -/
def writeInstallation (row : GitHubInstallation) (db : GitHubTables) : GitHubTables :=
  { db with
    installations := (db.installations.insertOrIgnore row).update row.installationId row.replaced
      row.installationId_replaced }

/-- `set_installation_status` -/
def setInstallationStatus (installationId : ℤ) (status : InstallationStatus) (now : ℤ)
    (db : GitHubTables) : GitHubTables :=
  { db with
    installations := db.installations.update installationId
      (GitHubInstallation.withStatus status now)
      (GitHubInstallation.installationId_withStatus status now)
    repositories := if status = .removed then
        db.repositories.updateWhere (·.installationId = installationId)
          (GitHubRepository.deactivate now) (GitHubRepository.key_deactivate now)
      else db.repositories }

/-- `upsert_repository` -/
def upsertRepository (rules : GitHubRules) (installationId : ℤ) (repo : Json) (now : ℤ)
    (db : GitHubTables) : Except GitHubAppError GitHubTables :=
  match (repo.get "id").identifier? with
  | none => .error ⟨"GitHub repository payload is invalid.", 400⟩
  | some repositoryId =>
    let row := repositoryRow rules installationId repositoryId repo now
    .ok { db with
      repositories := (db.repositories.insertOrIgnore row).update row.key row.replaced
        row.key_replaced }

/-- `remove_repositories` -/
def removeRepositories (installationId : ℤ) (repositoryIds : List ℤ) (now : ℤ)
    (db : GitHubTables) : GitHubTables :=
  { db with
    repositories := db.repositories.updateWhere
      (fun r => r.installationId = installationId ∧ r.repositoryId ∈ repositoryIds)
      (GitHubRepository.deactivate now) (GitHubRepository.key_deactivate now) }

/-- The last transaction of `replace_repositories`: what GitHub did not list is inactive. -/
def deactivateOthers (installationId : ℤ) (seen : List ℤ) (now : ℤ) (db : GitHubTables) :
    GitHubTables :=
  { db with
    installations := db.installations.update installationId fun i =>
      { i with lastReconciledAt := some now, updatedAt := now }
    repositories := db.repositories.updateWhere
      (fun r => r.installationId = installationId ∧ r.repositoryId ∉ seen)
      (GitHubRepository.deactivate now) (GitHubRepository.key_deactivate now) }

/-- `repositories`: the active repositories of the active installations of a user. -/
def listing (userId : String) (db : GitHubTables) : List GitHubRepository :=
  db.repositories.rows.filter fun r => r.active ∧
    (db.installations.find? r.installationId).any fun i =>
      i.userId = some userId ∧ i.status = .active

/-- `installation_for_user`, of an active installation. -/
def installationForUser (userId : String) (installationId : ℤ) (db : GitHubTables) :
    Except GitHubAppError Unit :=
  match db.installations.find? installationId with
  | none => .error ⟨"GitHub installation was not found.", 404⟩
  | some i => do
    raiseIf (i.userId ≠ some userId) ⟨"GitHub installation was not found.", 404⟩
    raiseIf (i.status ≠ .active) ⟨"GitHub installation is not active.", 409⟩

/-- `begin_delivery`: whether the delivery is to be processed. -/
def beginDelivery (deliveryId eventName : String) (action : Option String) (payloadSha256 : String)
    (now : ℤ) (db : GitHubTables) : Except GitHubAppError (Bool × GitHubTables) :=
  match db.deliveries.find? deliveryId with
  | some row => do
    raiseIf (row.payloadSha256 ≠ payloadSha256)
      ⟨"Webhook delivery identifier was reused with different content.", 409⟩
    match row.status with
    | .processed => return (false, db)
    | .processing => .error ⟨"Webhook delivery is already being processed.", 503⟩
    | .failed => return (true, { db with deliveries := db.deliveries.update deliveryId fun d =>
        { d with status := .processing, errorCode := none } })
  | none => do
    let row : GitHubDelivery :=
      { deliveryId
        eventName
        action
        payloadSha256
        status := .processing
        receivedAt := now
        processedAt := none
        errorCode := none }
    return (true, { db with deliveries := db.deliveries.insertOrIgnore row })

/-- A delivery that begins is one more row, or a row that goes from failed to processing. -/
theorem beginDelivery_eq_ok {deliveryId eventName payloadSha256 : String} {action : Option String}
    {now : ℤ} {fresh : Bool} {db db' : GitHubTables}
    (h : db.beginDelivery deliveryId eventName action payloadSha256 now = .ok (fresh, db')) :
    (fresh = false ∧ db' = db ∧
      ∃ row, db.deliveries.find? deliveryId = some row ∧ row.status = .processed) ∨
    (fresh = true ∧ ∃ row deliveries, db.deliveries.find? deliveryId = some row ∧
      row.status = .failed ∧ db' = { db with deliveries } ∧
      deliveries = db.deliveries.update deliveryId fun d =>
        { d with status := .processing, errorCode := none }) ∨
    (fresh = true ∧ db.deliveries.find? deliveryId = none ∧ ∃ row : GitHubDelivery,
      row.deliveryId = deliveryId ∧ row.status = .processing ∧
      db' = { db with deliveries := db.deliveries.insertOrIgnore row }) := by
  simp only [beginDelivery] at h
  split at h
  · next row hrow =>
    simp only [bind_eq_ok, raiseIf_eq_ok, exists_const] at h
    obtain ⟨-, h⟩ := h
    split at h
    · next hstatus =>
      obtain ⟨rfl, rfl⟩ := Prod.mk.inj (Except.ok.inj h)
      exact .inl ⟨rfl, rfl, row, hrow, hstatus⟩
    · cases h
    · next hstatus =>
      obtain ⟨rfl, rfl⟩ := Prod.mk.inj (Except.ok.inj h)
      exact .inr (.inl ⟨rfl, row, _, hrow, hstatus, rfl, rfl⟩)
  · next hnone =>
    obtain ⟨rfl, rfl⟩ := Prod.mk.inj (Except.ok.inj h)
    exact .inr (.inr ⟨rfl, hnone, _, rfl, rfl, rfl⟩)

/-- A delivery that is delivered again begins when it failed. -/
theorem beginDelivery_again {row : GitHubDelivery} {db : GitHubTables}
    (hrow : db.deliveries.find? row.deliveryId = some row) (eventName : String)
    (action : Option String) (now : ℤ) :
    db.beginDelivery row.deliveryId eventName action row.payloadSha256 now =
      match row.status with
      | .processed => .ok (false, db)
      | .processing => .error ⟨"Webhook delivery is already being processed.", 503⟩
      | .failed => .ok (true, { db with
          deliveries := db.deliveries.update row.deliveryId fun d =>
            { d with status := .processing, errorCode := none } }) := by
  simp only [beginDelivery, hrow]
  rw [raiseIf_ok (not_not.mpr rfl), ok_bind]
  rfl

/-- A delivery that begins leaves installations and repositories. -/
theorem beginDelivery_keeps {deliveryId eventName payloadSha256 : String} {action : Option String}
    {now : ℤ} {fresh : Bool} {db db' : GitHubTables}
    (h : db.beginDelivery deliveryId eventName action payloadSha256 now = .ok (fresh, db')) :
    db'.installations = db.installations ∧ db'.repositories = db.repositories := by
  rcases beginDelivery_eq_ok h with ⟨-, rfl, -⟩ | ⟨-, row, deliveries, -, -, rfl, -⟩ |
    ⟨-, -, row, -, -, rfl⟩ <;> exact ⟨rfl, rfl⟩

/-- `finish_delivery` -/
def finishDelivery (deliveryId : String) (error : Option String) (now : ℤ) (db : GitHubTables) :
    GitHubTables :=
  { db with deliveries := db.deliveries.update deliveryId fun d =>
      { d with
        status := if error = none then .processed else .failed
        processedAt := some now
        errorCode := error } }

end GitHubTables

/-- A call on the store. An upsert of an installation carries the status to set, if any; what is no
call raises. -/
inductive StoreCall where
  | upsertInstallation (payload : Json) (userId : Option String)
      (status : Option InstallationStatus)
  | setInstallationStatus (installationId : ℤ) (status : InstallationStatus)
  | upsertRepository (installationId : ℤ) (repo : Json)
  | removeRepositories (installationId : ℤ) (repositoryIds : List ℤ)
  | deactivateOthers (installationId : ℤ) (seen : List ℤ)
  | raise (error : GitHubAppError)

/-- How far a call is: an upsert of an installation has read its owner, or also its status. -/
inductive CallStage where
  | start
  | owned (existing : Option (Option String × ℤ))
  | ready (existing : Option (Option String × ℤ)) (status : InstallationStatus)
  deriving DecidableEq, Repr

/-- The row that an upsert writes once it has read what there is. -/
def upsertedRow (rules : GitHubRules) (installationId : ℤ) (payload : Json)
    (userId : Option String) (existing : Option (Option String × ℤ)) (status : InstallationStatus)
    (now : ℤ) : GitHubInstallation :=
  installationRow rules installationId payload (userId.orElse fun _ =>
    existing.bind Prod.fst) status
    ((existing.map Prod.snd).getD now) now

namespace StoreCall

/-- The check of `upsert_installation` on the owner that it read. -/
def checkOwner (userId : Option String) (existing : Option (Option String × ℤ)) :
    Except GitHubAppError Unit :=
  raiseIf (∃ owner ∈ existing.bind Prod.fst, ∃ user ∈ userId, owner ≠ user)
    ⟨"This GitHub installation is already assigned to another account.", 409⟩

/-- One statement of a call: the tables, and how far the call is unless it is done. -/
def turn (rules : GitHubRules) (now : ℤ) (db : GitHubTables) :
    StoreCall → CallStage → Except GitHubAppError (GitHubTables × Option CallStage)
  | .upsertInstallation payload userId status, stage =>
    match (payload.get "id").identifier? with
    | none => .error ⟨"GitHub installation payload is invalid.", 400⟩
    | some installationId =>
      match stage with
      | .start => do
        let existing := db.readOwner installationId
        checkOwner userId existing
        match status with
        | none => return (db, some (.owned existing))
        | some status => return (db, some (.ready existing status))
      | .owned existing => .ok (db, some (.ready existing (db.readStatus installationId)))
      | .ready existing status => do
        -- An array or an object cannot be bound to the account column.
        raiseIf (((payload.get "account").object.get "id").isScalar = false) ⟨"binding", 500⟩
        return (db.writeInstallation
          (upsertedRow rules installationId payload userId existing status now), none)
  | .setInstallationStatus installationId status, _ =>
    .ok (db.setInstallationStatus installationId status now, none)
  | .upsertRepository installationId repo, _ => do
    let db ← db.upsertRepository rules installationId repo now
    return (db, none)
  | .removeRepositories installationId repositoryIds, _ =>
    .ok (db.removeRepositories installationId repositoryIds now, none)
  | .deactivateOthers installationId seen, _ =>
    .ok (db.deactivateOthers installationId seen now, none)
  | .raise error, _ => .error error

end StoreCall

/-- `payload.get(name) or []`, as far as a loop over it meets objects; a value that is no sequence
raises. -/
def Json.loop (value : Json) : Option (List Json) :=
  match value with
  | .arr items => some (items.filter Json.isObj)
  | .str _ | .obj _ => some []
  | other => if other.truthy then none else some []

/-- `process_webhook`, as the calls that it makes on the store. -/
def webhookCalls (event : String) (payload : Json) : List StoreCall :=
  let action := (payload.get "action").str?.getD ""
  let installation := (payload.get "installation").object
  let raised : List StoreCall := [.raise ⟨"not iterable", 500⟩]
  match (installation.get "id").instanceInt? with
  | none => []
  | some installationId =>
    if event = "installation" then
      if action = "deleted" then [.setInstallationStatus installationId .removed]
      else if action = "suspend" then [.setInstallationStatus installationId .suspended]
      else [.upsertInstallation installation none
        (some (if (installation.get "suspended_at").truthy then .suspended else .active))]
    else if event = "installation_repositories" then
      .upsertInstallation installation none none ::
        match (payload.get "repositories_added").loop with
        | none => raised
        | some added =>
          added.map (.upsertRepository installationId ·) ++
            match (payload.get "repositories_removed").loop with
            | none => raised
            | some removed => [.removeRepositories installationId
                (removed.filterMap fun item => (item.get "id").instanceInt?)]
    else if event = "repository" ∧ (payload.get "repository").isObj then
      if action = "deleted" then
        if ((payload.get "repository").get "id").isScalar then
          [.removeRepositories installationId
            ((payload.get "repository").get "id").instanceInt?.toList]
        else [.raise ⟨"binding", 500⟩]
      else [.upsertRepository installationId (payload.get "repository")]
    else []

end Magistrate
