import Mathlib.Data.List.Infix
import Magistrate.Core.Dict
import Magistrate.Core.Run

/-!
# Projects and their repositories

A project belongs to an owner and can bind repositories. Each operation is one
transaction: what it raises rolls back what it wrote.
-/

namespace Magistrate

/-- What an operation on projects raises. -/
inductive ProjectRaise where
  | error (detail : String) (statusCode : ℕ)
  /-- A `ValueError` of the URL parser. -/
  | value
  | integrity
  deriving DecidableEq, Repr

/-- The parts of a URL that are read. -/
structure UrlParts where
  scheme : String
  hostname : Option String
  path : String
  deriving DecidableEq, Repr

/-- What the operations take from the character database, the URL parser and the hash. -/
structure ProjectRules where
  isSpace : Char → Bool
  /-- The character is of a category that starts with `C`. -/
  isOther : Char → Bool
  lower : String → String
  urlsplit : String → Option UrlParts
  /-- The id of the personal workspace of an owner. -/
  workspaceId : String → String

section Texts

/-- The words of a text; the characters of the open word are kept backwards. -/
def wordsOf (isSpace : Char → Bool) : List Char → List Char → List String
  | word, [] => if word = [] then [] else [String.ofList word.reverse]
  | word, c :: rest =>
    if isSpace c then
      (if word = [] then [] else [String.ofList word.reverse]) ++ wordsOf isSpace [] rest
    else wordsOf isSpace (c :: word) rest

/-- `_clean_text` -/
def ProjectRules.cleanText (rules : ProjectRules) (value field : String) (maximum : ℕ)
    (required : Bool) : Except ProjectRaise String := do
  let cleaned := " ".intercalate (wordsOf rules.isSpace [] value.toList)
  raiseIf (required ∧ cleaned = "" ∨ maximum < cleaned.length ∨ cleaned.toList.any rules.isOther)
    (.error s!"{field} is invalid." 422)
  pure cleaned

/-- `[a-z0-9]` -/
def isSlugChar (c : Char) : Bool := c.isLower || c.isDigit

/-- `_SLUG` -/
def isSlug (slug : List Char) : Bool :=
  slug ≠ [] ∧ slug.all (fun c => isSlugChar c || c == '-') ∧ slug.head? ≠ some '-' ∧
    slug.getLast? ≠ some '-' ∧ ¬['-', '-'] <:+: slug

/-- `re.sub(r"[^a-z0-9]+", "-", …)` -/
def dashed : Bool → List Char → List Char
  | _, [] => []
  | inRun, c :: rest =>
    if isSlugChar c then c :: dashed false rest
    else if inRun then dashed true rest
    else '-' :: dashed true rest

/-- A text without some character at its ends. -/
def stripChar (c : Char) (text : List Char) : List Char :=
  ((text.dropWhile (· == c)).reverse.dropWhile (· == c)).reverse

/-- `_slug` -/
def ProjectRules.slug (rules : ProjectRules) (value : Option String) (name : String) :
    Except ProjectRaise String := do
  let candidate := match value with
    | some value =>
      let text := (value.toList.dropWhile rules.isSpace).reverse.dropWhile rules.isSpace
      (rules.lower (String.ofList text.reverse)).toList
    | none => stripChar '-' (dashed false (rules.lower name).toList)
  raiseIf (64 < candidate.length ∨ isSlug candidate = false) (.error
    "slug must contain only lowercase letters, numbers, and single hyphen-separated words." 422)
  pure (String.ofList candidate)

/-- `[A-Za-z0-9_.-]{1,100}` -/
def isGithubPart (part : List Char) : Bool :=
  1 ≤ part.length ∧ part.length ≤ 100 ∧
    part.all fun c => c.isAlphanum || c == '_' || c == '.' || c == '-'

/-- `_GITHUB_NAME` -/
def isGithubName (name : String) : Bool :=
  let owner := name.toList.takeWhile (· ≠ '/')
  let rest := name.toList.dropWhile (· ≠ '/')
  isGithubPart owner && rest.head? == some '/' && isGithubPart rest.tail

/-- `_ID` -/
def isProjectId (id : String) : Bool :=
  let rest := if "prj_".toList.isPrefixOf id.toList then id.toList.drop 4 else id.toList.drop 5
  ("prj_".toList.isPrefixOf id.toList || "repo_".toList.isPrefixOf id.toList) &&
    decide (16 ≤ rest.length ∧ rest.length ≤ 64) &&
      rest.all fun c => c.isAlphanum || c == '_' || c == '-'

/-- `removesuffix` -/
def removeSuffix (suffix text : List Char) : List Char :=
  if suffix <:+ text then text.take (text.length - suffix.length) else text

end Texts

inductive ProjectKind where
  | standalone
  | github
  deriving DecidableEq, Repr

inductive ProjectStatus where
  | active
  | archived
  deriving DecidableEq, Repr

/-- `workspaces` -/
structure Workspace where
  workspaceId : String
  ownerUserId : String
  createdAt : ℤ
  updatedAt : ℤ
  deriving DecidableEq, Repr

/-- `projects` -/
structure Project where
  projectId : String
  workspaceId : String
  ownerUserId : String
  name : String
  slug : String
  description : String
  kind : ProjectKind
  status : ProjectStatus
  createdAt : ℤ
  updatedAt : ℤ
  deriving DecidableEq, Repr

/-- `project_repositories` -/
structure ProjectRepository where
  repositoryId : String
  ownerUserId : String
  projectId : String
  provider : String
  providerRepositoryId : Option String
  fullName : String
  htmlUrl : String
  defaultBranch : Option String
  createdAt : ℤ
  updatedAt : ℤ
  deriving DecidableEq, Repr

/-- A row of another table that names a project of an owner. -/
structure ProjectMention where
  ownerUserId : String
  projectId : String
  deriving DecidableEq, Repr

/-- The tables of the projects, and what other tables have of their owners. -/
structure ProjectDb where
  userProfiles : List String
  workspaces : Table Workspace.workspaceId
  projects : Table Project.projectId
  repositories : Table ProjectRepository.repositoryId
  /-- `project_memories` -/
  memories : List ProjectMention
  /-- `magi_objective_submissions` -/
  objectives : List ProjectMention
  /-- `account_credit_ledger` -/
  credits : List ProjectMention
  deriving DecidableEq

namespace ProjectDb

variable (db : ProjectDb)

/-- `_owned_project` -/
def ownedProject (owner projectId : String) (includeArchived : Bool) :
    Except ProjectRaise Project := do
  raiseIf (isProjectId projectId = false) (.error "Project not found." 404)
  orRaise ((db.projects.find? projectId).filter fun p =>
    p.ownerUserId = owner ∧ (includeArchived ∨ p.status = .active))
    (.error "Project not found." 404)

/-- The repositories that a project of an owner binds. -/
def repositoriesOf (owner projectId : String) : List ProjectRepository :=
  db.repositories.rows.filter fun r => r.ownerUserId = owner ∧ r.projectId = projectId

/-- `ensure_personal_workspace` -/
def ensurePersonalWorkspace (rules : ProjectRules) (owner : String) (now : ℤ) :
    Except ProjectRaise (String × ProjectDb) := do
  let workspace : Workspace := ⟨rules.workspaceId owner, owner, now, now⟩
  if db.workspaces.rows.any (·.ownerUserId = owner) ∨
      db.workspaces.find? workspace.workspaceId ≠ none then
    return (workspace.workspaceId, db)
  -- a violated foreign key is not ignored
  raiseIf (owner ∉ db.userProfiles) .integrity
  pure (workspace.workspaceId, { db with workspaces := db.workspaces.insertOrIgnore workspace })

/-- What `create_project` is called with and draws. -/
structure Creation where
  name : String
  slug : Option String := none
  description : String := ""
  projectId : String
  now : ℤ
  deriving DecidableEq, Repr

/-- `create_project` -/
def createProject (rules : ProjectRules) (owner : String) (request : Creation) :
    Except ProjectRaise (Project × ProjectDb) := do
  let name ← rules.cleanText request.name "name" 120 true
  let slug ← rules.slug request.slug name
  let description ← rules.cleanText request.description "description" 2000 false
  let (workspaceId, db) ← db.ensurePersonalWorkspace rules owner request.now
  let project : Project :=
    ⟨request.projectId, workspaceId, owner, name, slug, description, .standalone, .active,
      request.now, request.now⟩
  raiseIf (db.projects.find? project.projectId ≠ none ∨
      db.projects.rows.any (fun p => p.ownerUserId = owner ∧ p.slug = slug) ∨
      db.workspaces.find? workspaceId = none ∨ owner ∉ db.userProfiles)
    (.error "A project with that slug already exists." 409)
  let db := { db with projects := db.projects.insertOrIgnore project }
  let row ← db.ownedProject owner project.projectId true
  pure (row, db)

/-- What `update_project` is called with and draws; a status is given as its text. -/
structure Change where
  name : Option String := none
  description : Option String := none
  status : Option String := none
  now : ℤ
  deriving DecidableEq, Repr

/-- The status of a text. -/
def statusOf : String → Option ProjectStatus
  | "active" => some .active
  | "archived" => some .archived
  | _ => none

/-- A field that is changed when a text is given for it. -/
def changed {α : Type} (given : Option String) (current : α)
    (read : String → Except ProjectRaise α) :
    Except ProjectRaise α :=
  match given with
  | some text => read text
  | none => pure current

/-- `update_project` -/
def updateProject (rules : ProjectRules) (owner projectId : String) (change : Change) :
    Except ProjectRaise (Project × ProjectDb) := do
  let current ← db.ownedProject owner projectId true
  let name ← changed change.name current.name (rules.cleanText · "name" 120 true)
  let description ← changed change.description current.description
    (rules.cleanText · "description" 2000 false)
  let status ← changed change.status current.status fun status =>
    orRaise (statusOf status) (.error "status must be active or archived." 422)
  let db := { db with
    projects := db.projects.updateWhere (fun p => p.projectId = projectId ∧ p.ownerUserId = owner)
      fun p => { p with
        name := name, description := description, status := status, updatedAt := change.now } }
  let row ← db.ownedProject owner projectId true
  pure (row, db)

/-- `delete_project` -/
def deleteProject (owner projectId : String) : Except ProjectRaise ProjectDb := do
  let _ ← db.ownedProject owner projectId true
  raiseIf (⟨owner, projectId⟩ ∈ db.objectives)
    (.error "A project with objective history must be archived instead of deleted." 409)
  let memories := db.memories.filter fun m => ¬(m.ownerUserId = owner ∧ m.projectId = projectId)
  let repositories := db.repositories.filter fun r =>
    ¬(r.ownerUserId = owner ∧ r.projectId = projectId)
  -- the foreign keys of the rows that are left
  raiseIf (memories.any (·.projectId = projectId) ∨
    repositories.rows.any (·.projectId = projectId) ∨
      db.credits.any (·.projectId = projectId)) .integrity
  pure { db with
    memories := memories
    repositories := repositories
    projects := db.projects.filter fun p => ¬(p.ownerUserId = owner ∧ p.projectId = projectId) }

/-- `UPDATE projects SET kind = ?, updated_at = ? WHERE project_id = ? AND owner_user_id = ?` -/
def setKind (owner projectId : String) (kind : ProjectKind) (now : ℤ) : ProjectDb :=
  { db with
    projects := db.projects.updateWhere (fun p => p.projectId = projectId ∧ p.ownerUserId = owner)
      fun p => { p with kind := kind, updatedAt := now } }

/-- What `bind_github_repository` is called with and draws. -/
structure Binding where
  fullName : String
  htmlUrl : String
  providerRepositoryId : Option String := none
  defaultBranch : Option String := none
  repositoryId : String
  now : ℤ
  deriving DecidableEq, Repr

/-- A text that is cleaned when it is given. -/
def cleanGiven (rules : ProjectRules) (value : Option String) (field : String) (maximum : ℕ) :
    Except ProjectRaise (Option String) :=
  match value.filter (· ≠ "") with
  | some text => (rules.cleanText text field maximum false).map some
  | none => pure none

/-- The row that a binding writes, when its texts are those of a repository. -/
def boundRepository (rules : ProjectRules) (owner projectId : String) (binding : Binding) :
    Except ProjectRaise ProjectRepository := do
  let fullName ← rules.cleanText binding.fullName "full_name" 201 true
  raiseIf (isGithubName fullName = false)
    (.error "full_name must be a GitHub owner/repository name." 422)
  let parsed ← orRaise (rules.urlsplit binding.htmlUrl) .value
  let path := String.ofList (removeSuffix ".git".toList (stripChar '/' parsed.path.toList))
  raiseIf (parsed.scheme ≠ "https" ∨ parsed.hostname ≠ some "github.com" ∨
      rules.lower path ≠ rules.lower fullName)
    (.error "html_url must be the matching https://github.com repository URL." 422)
  let providerId ← cleanGiven rules binding.providerRepositoryId "provider_repository_id" 128
  let branch ← cleanGiven rules binding.defaultBranch "default_branch" 255
  pure ⟨binding.repositoryId, owner, projectId, "github", providerId, fullName,
    "https://github.com/" ++ path, branch, binding.now, binding.now⟩

/-- `bind_github_repository` -/
def bindGithubRepository (rules : ProjectRules) (owner projectId : String) (binding : Binding) :
    Except ProjectRaise (ProjectRepository × ProjectDb) := do
  let row ← boundRepository rules owner projectId binding
  let _ ← db.ownedProject owner projectId false
  raiseIf (20 ≤ (db.repositoriesOf owner projectId).length)
    (.error "A project may bind at most 20 repositories." 409)
  raiseIf (db.repositories.find? row.repositoryId ≠ none ∨
      db.repositories.rows.any (fun r =>
        r.ownerUserId = owner ∧ r.provider = row.provider ∧ r.fullName = row.fullName) ∨
      owner ∉ db.userProfiles)
    (.error "That repository is already bound to one of your projects." 409)
  let db := { db with repositories := db.repositories.insertOrIgnore row }
  pure (row, db.setKind owner projectId .github binding.now)

/-- `DELETE FROM project_repositories` of one repository. -/
def withoutRepository (repositoryId : String) : ProjectDb :=
  { db with repositories := db.repositories.filter (·.repositoryId ≠ repositoryId) }

/-- `unbind_repository` -/
def unbindRepository (owner projectId repositoryId : String) (now : ℤ) :
    Except ProjectRaise ProjectDb := do
  raiseIf (isProjectId repositoryId = false) (.error "Repository not found." 404)
  let _ ← db.ownedProject owner projectId true
  let _ ← orRaise ((db.repositories.find? repositoryId).filter fun r =>
    r.projectId = projectId ∧ r.ownerUserId = owner) (.error "Repository not found." 404)
  let db := db.withoutRepository repositoryId
  if db.repositoriesOf owner projectId = [] then
    return db.setKind owner projectId .standalone now
  pure db

end ProjectDb

end Magistrate
