import Magistrate.Gateway.Projects.Store

/-!
# Bound repositories

A project is one of a forge exactly while it binds a repository. The repositories of an owner
have distinct names as long as none is bound under its name in other letters.
-/

namespace Magistrate

/-- An operation on the projects, or a write of other stores that name owners and projects. -/
inductive ProjectTurn where
  | create (owner : String) (request : ProjectDb.Creation)
  | update (owner projectId : String) (change : ProjectDb.Change)
  | delete (owner projectId : String)
  | bind (owner projectId : String) (binding : ProjectDb.Binding)
  | unbind (owner projectId repositoryId : String) (now : ℤ)
  | others (userProfiles : List String) (memories objectives credits : List ProjectMention)
  deriving DecidableEq

namespace ProjectDb

/-- The database after an operation that returns. -/
def turn (rules : ProjectRules) (db : ProjectDb) : ProjectTurn → Except ProjectRaise ProjectDb
  | .create owner request => stateOf (db.createProject rules owner request)
  | .update owner projectId change => stateOf (db.updateProject rules owner projectId change)
  | .delete owner projectId => db.deleteProject owner projectId
  | .bind owner projectId binding => stateOf (db.bindGithubRepository rules owner projectId binding)
  | .unbind owner projectId repositoryId now => db.unbindRepository owner projectId repositoryId now
  | .others userProfiles memories objectives credits =>
    .ok { db with
      userProfiles := userProfiles, memories := memories, objectives := objectives
      credits := credits }

/-- The database after an operation, which a raise rolls back. -/
def step (rules : ProjectRules) (db : ProjectDb) (t : ProjectTurn) : ProjectDb :=
  commit (db.turn rules t) db

/-- The database before the first operation. -/
def initial : ProjectDb := ⟨[], .empty, .empty, .empty, [], [], []⟩

/-- The name of a repository without the case of its letters. -/
def ignoringCase (name : String) : List Char := name.toList.map Char.toLower

/-- The repositories of each owner are distinct ignoring letter case. -/
def Distinct (db : ProjectDb) : Prop :=
  ∀ r ∈ db.repositories.rows, ∀ r' ∈ db.repositories.rows, r.ownerUserId = r'.ownerUserId →
    ignoringCase r.fullName = ignoringCase r'.fullName → r = r'

/-- A binding names no repository of its owner in other letters than those it is bound under. -/
def NoOtherLetters (rules : ProjectRules) (db : ProjectDb) : ProjectTurn → Prop
  | .bind owner _ binding =>
    ∀ name ∈ (rules.cleanText binding.fullName "full_name" 201 true).toOption,
      ∀ r ∈ db.repositories.rows, r.ownerUserId = owner →
        ignoringCase r.fullName = ignoringCase name → r.fullName = name
  | _ => True

instance (rules : ProjectRules) (db : ProjectDb) : ∀ t, Decidable (db.NoOtherLetters rules t)
  | .bind owner _ binding => inferInstanceAs (Decidable (
      ∀ name ∈ (rules.cleanText binding.fullName "full_name" 201 true).toOption,
        ∀ r ∈ db.repositories.rows, r.ownerUserId = owner →
          ignoringCase r.fullName = ignoringCase name → r.fullName = name))
  | .create .. => .isTrue trivial
  | .update .. => .isTrue trivial
  | .delete .. => .isTrue trivial
  | .unbind .. => .isTrue trivial
  | .others .. => .isTrue trivial

/-- The project binds a repository. -/
def Binds (db : ProjectDb) (p : Project) : Prop :=
  ∃ r ∈ db.repositories.rows, r.ownerUserId = p.ownerUserId ∧ r.projectId = p.projectId

/-- What every operation keeps. -/
structure Sound (db : ProjectDb) : Prop where
  /-- A repository is bound to a project of its owner. -/
  owned : ∀ r ∈ db.repositories.rows, ∃ p ∈ db.projects.rows,
    p.projectId = r.projectId ∧ p.ownerUserId = r.ownerUserId
  provider : ∀ r ∈ db.repositories.rows, r.provider = "github"
  kind : ∀ p ∈ db.projects.rows, p.kind = .github ↔ db.Binds p

section Operations

variable {rules : ProjectRules} {db db' : ProjectDb}
  {owner projectId repositoryId : String} {p : Project}
  {row : ProjectRepository} {now : ℤ}

theorem ownedProject_eq_ok {includeArchived : Bool}
    (h : db.ownedProject owner projectId includeArchived = .ok p) :
    db.projects.find? projectId = some p ∧ p.ownerUserId = owner := by
  simp only [ownedProject, bind_eq_ok, raiseIf_eq_ok, orRaise_eq_ok, Option.filter_eq_some_iff,
    decide_eq_true_eq] at h
  obtain ⟨-, -, hfound, howner, -⟩ := h
  exact ⟨hfound, howner⟩

theorem mem_setKind {kind : ProjectKind} {s : Project} :
    s ∈ (db.setKind owner projectId kind now).projects.rows ↔ ∃ p ∈ db.projects.rows,
      (if p.projectId = projectId ∧ p.ownerUserId = owner then
        { p with kind := kind, updatedAt := now } else p) = s := by
  simp [setKind, Table.mem_updateWhere]

/-- The rows of a new project, and nothing about repositories. -/
theorem createProject_eq_ok {request : Creation}
    (h : db.createProject rules owner request = .ok (p, db')) : ∃ project : Project,
    db.projects.find? project.projectId = none ∧ project.kind = .standalone ∧
      db'.projects = db.projects.insertOrIgnore project ∧ db'.repositories = db.repositories := by
  simp only [createProject, bind_eq_ok, raiseIf_eq_ok, pure_eq_ok, not_or, not_not] at h
  obtain ⟨name, -, slug, -, description, -, ⟨workspaceId, mid⟩, hmid, -, ⟨hfresh, -⟩, p', -, h⟩ := h
  cases h
  have hsame : mid.projects = db.projects ∧ mid.repositories = db.repositories := by
    rw [ensurePersonalWorkspace] at hmid
    split at hmid
    · cases hmid
      exact ⟨rfl, rfl⟩
    · simp only [bind_eq_ok, raiseIf_eq_ok, pure_eq_ok] at hmid
      obtain ⟨-, -, hmid⟩ := hmid
      cases hmid
      exact ⟨rfl, rfl⟩
  simp only [hsame.1] at hfresh
  refine ⟨⟨request.projectId, workspaceId, owner, name, slug, description, .standalone, .active,
    request.now, request.now⟩, hfresh, rfl, ?_, hsame.2⟩
  simp only [hsame.1]

theorem boundRepository_eq_ok {binding : Binding}
    (h : boundRepository rules owner projectId binding = .ok row) :
    row.ownerUserId = owner ∧ row.projectId = projectId ∧ row.provider = "github" ∧
      rules.cleanText binding.fullName "full_name" 201 true = .ok row.fullName := by
  simp only [boundRepository, bind_eq_ok, raiseIf_eq_ok, pure_eq_ok] at h
  obtain ⟨name, hname, -, -, -, -, -, -, -, -, -, -, rfl⟩ := h
  exact ⟨rfl, rfl, rfl, hname⟩

theorem bindGithubRepository_eq_ok {binding : Binding}
    (h : db.bindGithubRepository rules owner projectId binding = .ok (row, db')) :
    boundRepository rules owner projectId binding = .ok row ∧
      (∃ p ∈ db.projects.rows, p.projectId = projectId ∧ p.ownerUserId = owner) ∧
      db.repositories.find? row.repositoryId = none ∧
      (∀ r ∈ db.repositories.rows, r.ownerUserId = owner → r.provider = row.provider →
        r.fullName ≠ row.fullName) ∧
      db' = { db with repositories := db.repositories.insertOrIgnore row }.setKind owner projectId
        .github binding.now := by
  simp only [bindGithubRepository, bind_eq_ok, raiseIf_eq_ok, pure_eq_ok, not_or, not_not,
    Prod.mk.injEq] at h
  obtain ⟨row', hrow, p, hp, -, -, -, ⟨hfresh, hnew, -⟩, rfl, rfl⟩ := h
  obtain ⟨hfound, howner⟩ := ownedProject_eq_ok hp
  obtain ⟨hmem, hid⟩ := Table.mem_of_find? hfound
  refine ⟨hrow, ⟨p, hmem, hid, howner⟩, hfresh, fun r hr ho hprovider hname => hnew ?_, rfl⟩
  exact List.any_eq_true.mpr ⟨r, hr, decide_eq_true ⟨ho, hprovider, hname⟩⟩

theorem unbindRepository_eq_ok
    (h : db.unbindRepository owner projectId repositoryId now = .ok db') :
    (∃ r ∈ db.repositories.rows, r.repositoryId = repositoryId ∧ r.projectId = projectId ∧
        r.ownerUserId = owner) ∧
      db' = if (db.withoutRepository repositoryId).repositoriesOf owner projectId = [] then
        (db.withoutRepository repositoryId).setKind owner projectId .standalone now
      else db.withoutRepository repositoryId := by
  simp only [unbindRepository, bind_eq_ok, raiseIf_eq_ok, orRaise_eq_ok, Option.filter_eq_some_iff,
    decide_eq_true_eq] at h
  obtain ⟨-, -, -, -, r, ⟨hfound, hproject, howner⟩, h⟩ := h
  obtain ⟨hmem, hid⟩ := Table.mem_of_find? hfound
  refine ⟨⟨r, hmem, hid, hproject, howner⟩, ?_⟩
  split at h
  · next hlast =>
    cases h
    exact (if_pos hlast).symm
  · next hleft =>
    cases h
    exact (if_neg hleft).symm

/-- What a deletion leaves. -/
theorem deleteProject_eq_ok (h : db.deleteProject owner projectId = .ok db') :
    db'.projects =
        db.projects.filter (fun p => ¬(p.ownerUserId = owner ∧ p.projectId = projectId)) ∧
      db'.repositories =
        db.repositories.filter (fun r => ¬(r.ownerUserId = owner ∧ r.projectId = projectId)) := by
  simp only [deleteProject, bind_eq_ok, raiseIf_eq_ok, pure_eq_ok] at h
  obtain ⟨p, -, -, -, -, -, rfl⟩ := h
  exact ⟨rfl, rfl⟩

/-- What an update writes keeps the ids, the owner and the kind. -/
theorem updateProject_eq_ok {change : Change}
    (h : db.updateProject rules owner projectId change = .ok (p, db')) :
    db'.repositories = db.repositories ∧
      ∃ f : Project → Project, (∀ p, (f p).projectId = p.projectId ∧
        (f p).ownerUserId = p.ownerUserId ∧ (f p).kind = p.kind) ∧
        db'.projects.rows = db.projects.rows.map f := by
  simp only [updateProject, bind_eq_ok] at h
  obtain ⟨current, -, name, -, description, -, status, -, row, -, h⟩ := h
  cases h
  refine ⟨rfl, _, fun p => ?_, rfl⟩
  split
  · exact ⟨rfl, rfl, rfl⟩
  · exact ⟨rfl, rfl, rfl⟩

end Operations

section Soundness

variable {rules : ProjectRules} {db db' : ProjectDb}
  {owner projectId repositoryId : String} {p : Project}
  {row : ProjectRepository} {now : ℤ} {request : Creation} {change : Change} {binding : Binding}

theorem Sound.createProject (hs : db.Sound)
    (h : db.createProject rules owner request = .ok (p, db')) : db'.Sound := by
  obtain ⟨project, hfresh, hkind, hprojects, hrepositories⟩ := createProject_eq_ok h
  have hrows : db'.projects.rows = db.projects.rows ++ [project] := by
    rw [hprojects, Table.rows_insertOrIgnore hfresh]
  -- no repository is bound to a project that is not there yet
  have hunbound : ¬∃ r ∈ db.repositories.rows,
      r.ownerUserId = project.ownerUserId ∧ r.projectId = project.projectId := by
    rintro ⟨r, hr, -, hid⟩
    obtain ⟨p, hp, hpid, -⟩ := hs.owned r hr
    exact Table.find?_eq_none_iff.mp hfresh p hp (hpid.trans hid)
  refine ⟨fun r hr => ?_, fun r hr => hs.provider r (hrepositories ▸ hr), fun p hp => ?_⟩
  · obtain ⟨p, hp, h⟩ := hs.owned r (hrepositories ▸ hr)
    exact ⟨p, hrows ▸ List.mem_append_left _ hp, h⟩
  · rw [Binds, hrepositories]
    rw [hrows, List.mem_append, List.mem_singleton] at hp
    rcases hp with hp | rfl
    · exact hs.kind p hp
    · exact iff_of_false (by rw [hkind]; exact ProjectKind.noConfusion) hunbound

theorem Sound.updateProject (hs : db.Sound)
    (h : db.updateProject rules owner projectId change = .ok (p, db')) : db'.Sound := by
  obtain ⟨hrepositories, f, hf, hrows⟩ := updateProject_eq_ok h
  refine ⟨fun r hr => ?_, fun r hr => hs.provider r (hrepositories ▸ hr), fun p hp => ?_⟩
  · obtain ⟨p, hp, hid, howner⟩ := hs.owned r (hrepositories ▸ hr)
    obtain ⟨hfid, hfowner, -⟩ := hf p
    exact ⟨f p, hrows ▸ List.mem_map_of_mem hp, hfid.trans hid, hfowner.trans howner⟩
  · rw [hrows] at hp
    obtain ⟨q, hq, rfl⟩ := List.mem_map.mp hp
    obtain ⟨hfid, hfowner, hfkind⟩ := hf q
    rw [Binds, hrepositories, hfid, hfowner, hfkind]
    exact hs.kind q hq

theorem Sound.deleteProject (hs : db.Sound)
    (h : db.deleteProject owner projectId = .ok db') : db'.Sound := by
  obtain ⟨hprojects, hrepositories⟩ := deleteProject_eq_ok h
  have hrepository {r : ProjectRepository} : r ∈ db'.repositories.rows ↔
      r ∈ db.repositories.rows ∧ ¬(r.ownerUserId = owner ∧ r.projectId = projectId) := by
    rw [hrepositories]
    exact List.mem_filter.trans (by rw [decide_eq_true_eq])
  have hproject {p : Project} : p ∈ db'.projects.rows ↔
      p ∈ db.projects.rows ∧ ¬(p.ownerUserId = owner ∧ p.projectId = projectId) := by
    rw [hprojects]
    exact List.mem_filter.trans (by rw [decide_eq_true_eq])
  refine ⟨fun r hr => ?_, fun r hr => hs.provider r (hrepository.mp hr).1, fun p hp => ?_⟩
  · obtain ⟨hr, hother⟩ := hrepository.mp hr
    obtain ⟨p, hp, hid, howner⟩ := hs.owned r hr
    exact ⟨p, hproject.mpr ⟨hp, hid ▸ howner ▸ hother⟩, hid, howner⟩
  · obtain ⟨hp, hother⟩ := hproject.mp hp
    rw [hs.kind p hp]
    refine exists_congr fun r => ⟨fun ⟨hr, howner, hid⟩ => ?_, fun ⟨hr, h⟩ => ?_⟩
    · exact ⟨hrepository.mpr ⟨hr, howner ▸ hid ▸ hother⟩, howner, hid⟩
    · exact ⟨(hrepository.mp hr).1, h⟩

/-- The kind of one project is set to what its bindings say. -/
theorem Sound.setKind {kind : ProjectKind}
    (howned : ∀ r ∈ db.repositories.rows, ∃ p ∈ db.projects.rows,
      p.projectId = r.projectId ∧ p.ownerUserId = r.ownerUserId)
    (hprovider : ∀ r ∈ db.repositories.rows, r.provider = "github")
    (hset : ∀ p : Project, p.projectId = projectId ∧ p.ownerUserId = owner →
      (kind = .github ↔ db.Binds p))
    (hothers : ∀ p ∈ db.projects.rows, ¬(p.projectId = projectId ∧ p.ownerUserId = owner) →
      (p.kind = .github ↔ db.Binds p)) : (db.setKind owner projectId kind now).Sound := by
  refine ⟨fun r hr => ?_, hprovider, fun s hs => ?_⟩
  · obtain ⟨p, hp, hid, howner⟩ := howned r hr
    refine ⟨_, mem_setKind.mpr ⟨p, hp, rfl⟩, ?_⟩
    split
    · exact ⟨hid, howner⟩
    · exact ⟨hid, howner⟩
  · obtain ⟨p, hp, rfl⟩ := mem_setKind.mp hs
    split
    · next hthis => exact hset p hthis
    · next hother => exact hothers p hp hother

theorem Sound.bindGithubRepository (hs : db.Sound)
    (h : db.bindGithubRepository rules owner projectId binding = .ok (row, db')) : db'.Sound := by
  obtain ⟨hrow, ⟨p, hp, hid, howner⟩, hfresh, -, rfl⟩ := bindGithubRepository_eq_ok h
  obtain ⟨rfl, rfl, hprovider, -⟩ := boundRepository_eq_ok hrow
  have hrepository {r : ProjectRepository} :
      r ∈ (db.repositories.insertOrIgnore row).rows ↔ r ∈ db.repositories.rows ∨ r = row := by
    rw [Table.rows_insertOrIgnore hfresh, List.mem_append, List.mem_singleton]
  refine Sound.setKind (fun r hr => ?_) (fun r hr => ?_) (fun q hq => ?_) fun q hq hother => ?_
  · rcases hrepository.mp hr with hr | rfl
    · exact hs.owned r hr
    · exact ⟨p, hp, hid, howner⟩
  · rcases hrepository.mp hr with hr | rfl
    · exact hs.provider r hr
    · exact hprovider
  · exact iff_of_true rfl ⟨row, hrepository.mpr (.inr rfl), hq.2.symm, hq.1.symm⟩
  · rw [hs.kind q hq]
    refine ⟨fun ⟨r, hr, h⟩ => ⟨r, hrepository.mpr (.inl hr), h⟩, fun ⟨r, hr, howns, hids⟩ => ?_⟩
    rcases hrepository.mp hr with hr | rfl
    · exact ⟨r, hr, howns, hids⟩
    · exact absurd ⟨hids.symm, howns.symm⟩ hother

theorem Sound.unbindRepository (hs : db.Sound)
    (h : db.unbindRepository owner projectId repositoryId now = .ok db') : db'.Sound := by
  obtain ⟨⟨removed, hremoved, hid, hproject, howner⟩, hdb'⟩ := unbindRepository_eq_ok h
  have hrepository {r : ProjectRepository} :
      r ∈ (db.withoutRepository repositoryId).repositories.rows ↔
        r ∈ db.repositories.rows ∧ r.repositoryId ≠ repositoryId :=
    List.mem_filter.trans (by rw [decide_eq_true_eq])
  -- only the project that bound the repository has another binding less
  have hothers : ∀ p ∈ db.projects.rows, ¬(p.projectId = projectId ∧ p.ownerUserId = owner) →
      (p.kind = .github ↔ (db.withoutRepository repositoryId).Binds p) := by
    intro p hp hother
    rw [hs.kind p hp]
    refine exists_congr fun r => ⟨fun ⟨hr, h⟩ => ⟨hrepository.mpr ⟨hr, fun hrid => ?_⟩, h⟩,
      fun ⟨hr, h⟩ => ⟨(hrepository.mp hr).1, h⟩⟩
    obtain rfl := db.repositories.eq_of_mem hr hremoved (hrid.trans hid.symm)
    exact hother ⟨h.2.symm.trans hproject, h.1.symm.trans howner⟩
  split at hdb'
  · next hlast =>
    subst hdb'
    refine Sound.setKind (fun r hr => hs.owned r (hrepository.mp hr).1)
      (fun r hr => hs.provider r (hrepository.mp hr).1) (fun p hp => ?_) hothers
    refine iff_of_false ProjectKind.noConfusion fun ⟨r, hr, howns, hids⟩ => ?_
    exact List.filter_eq_nil_iff.mp hlast r hr
      (decide_eq_true ⟨howns.trans hp.2, hids.trans hp.1⟩)
  · next hleft =>
    subst hdb'
    refine ⟨fun r hr => hs.owned r (hrepository.mp hr).1,
      fun r hr => hs.provider r (hrepository.mp hr).1, fun p hp => ?_⟩
    by_cases hthis : p.projectId = projectId ∧ p.ownerUserId = owner
    · obtain ⟨r, hr⟩ := List.exists_mem_of_ne_nil _ hleft
      obtain ⟨hr, hbound⟩ := List.mem_filter.mp hr
      rw [decide_eq_true_eq] at hbound
      rw [hs.kind p hp]
      refine iff_of_true ⟨removed, hremoved, howner.trans hthis.2.symm,
        hproject.trans hthis.1.symm⟩ ?_
      exact ⟨r, hr, hbound.1.trans hthis.2.symm, hbound.2.trans hthis.1.symm⟩
    · exact hothers p hp hthis

/-- Every operation keeps the kinds. -/
theorem Sound.step (hs : db.Sound) (t : ProjectTurn) : (db.step rules t).Sound := by
  refine commit_of hs fun db' h => ?_
  cases t with
  | create owner request =>
    obtain ⟨p, h⟩ := stateOf_eq_ok.mp h
    exact hs.createProject h
  | update owner projectId change =>
    obtain ⟨p, h⟩ := stateOf_eq_ok.mp h
    exact hs.updateProject h
  | delete owner projectId => exact hs.deleteProject h
  | bind owner projectId binding =>
    obtain ⟨row, h⟩ := stateOf_eq_ok.mp h
    exact hs.bindGithubRepository h
  | unbind owner projectId repositoryId now => exact hs.unbindRepository h
  | others userProfiles memories objectives credits =>
    cases h
    exact ⟨hs.owned, hs.provider, hs.kind⟩

theorem Sound.initial : ProjectDb.initial.Sound :=
  ⟨fun _ hr => absurd hr List.not_mem_nil, fun _ hr => absurd hr List.not_mem_nil,
    fun _ hp => absurd hp List.not_mem_nil⟩

/-- Every operation keeps the kinds, whatever the order of operations. -/
theorem Sound.of_run (steps : List ProjectTurn) :
    (run (ProjectDb.step rules) ProjectDb.initial steps).Sound :=
  run_invariant' (I := fun db : ProjectDb => db.Sound) (fun _ t hs => hs.step t) steps Sound.initial

end Soundness

section Distinctness

variable {rules : ProjectRules} {db db' : ProjectDb}

/-- Repositories stay distinct while none is added. -/
theorem Distinct.of_subset (hd : db.Distinct)
    (h : ∀ r ∈ db'.repositories.rows, r ∈ db.repositories.rows) : db'.Distinct :=
  fun r hr r' hr' => hd r (h r hr) r' (h r' hr')

theorem Distinct.step (hs : db.Sound) (hd : db.Distinct) {t : ProjectTurn}
    (ht : db.NoOtherLetters rules t) : (db.step rules t).Distinct := by
  refine commit_of hd fun db' h => ?_
  cases t with
  | create owner request =>
    obtain ⟨p, h⟩ := stateOf_eq_ok.mp h
    obtain ⟨project, -, -, -, hrepositories⟩ := createProject_eq_ok h
    exact hd.of_subset fun r hr => hrepositories ▸ hr
  | update owner projectId change =>
    obtain ⟨p, h⟩ := stateOf_eq_ok.mp h
    exact hd.of_subset fun r hr => (updateProject_eq_ok h).1 ▸ hr
  | delete owner projectId =>
    refine hd.of_subset fun r hr => ?_
    rw [(deleteProject_eq_ok h).2] at hr
    exact List.mem_of_mem_filter hr
  | bind owner projectId binding =>
    obtain ⟨row, h⟩ := stateOf_eq_ok.mp h
    obtain ⟨hrow, -, hfresh, hnew, rfl⟩ := bindGithubRepository_eq_ok h
    obtain ⟨rfl, rfl, hprovider, hname⟩ := boundRepository_eq_ok hrow
    -- a bound repository of this name would be bound under these very letters
    have hother : ∀ r ∈ db.repositories.rows, r.ownerUserId = row.ownerUserId →
        ignoringCase r.fullName ≠ ignoringCase row.fullName := fun r hr howner hletters =>
      hnew r hr howner ((hs.provider r hr).trans hprovider.symm)
        (ht row.fullName (by rw [hname]; rfl) r hr howner hletters)
    intro r hr r' hr' howner hletters
    simp only [ProjectDb.setKind, Table.rows_insertOrIgnore hfresh, List.mem_append,
      List.mem_singleton] at hr hr'
    rcases hr with hr | rfl <;> rcases hr' with hr' | rfl
    · exact hd r hr r' hr' howner hletters
    · exact absurd hletters (hother r hr howner)
    · exact absurd hletters.symm (hother r' hr' howner.symm)
    · rfl
  | unbind owner projectId repositoryId now =>
    obtain ⟨-, hdb'⟩ := unbindRepository_eq_ok h
    refine hd.of_subset fun r hr => ?_
    split at hdb' <;> subst hdb' <;> exact List.mem_of_mem_filter hr
  | others userProfiles memories objectives credits =>
    cases h
    exact hd

/-- In a run that binds no repository under its name in other letters the repositories of each
owner are distinct; a project is one of the forge exactly when it binds one, and an operation that
raises leaves every row. -/
theorem repositories_of_run {steps : List ProjectTurn}
    (h : RunMeets (ProjectDb.step rules) (fun db t => db.NoOtherLetters rules t) initial steps) :
    (run (ProjectDb.step rules) initial steps).Distinct ∧
      (∀ p ∈ (run (ProjectDb.step rules) initial steps).projects.rows, p.kind = .github ↔
        (run (ProjectDb.step rules) initial steps).repositoriesOf p.ownerUserId p.projectId ≠ []) ∧
      ∀ t e, (run (ProjectDb.step rules) initial steps).turn rules t = .error e →
        (run (ProjectDb.step rules) initial steps).step rules t =
          run (ProjectDb.step rules) initial steps := by
  have hs : (run (ProjectDb.step rules) initial steps).Sound := Sound.of_run steps
  refine ⟨?_, fun p hp => ?_, fun t e he => ?_⟩
  · exact (run_invariant (I := fun db : ProjectDb => db.Sound ∧ db.Distinct)
      (fun _ t hdb ht => ⟨hdb.1.step t, hdb.2.step hdb.1 ht⟩) h
      ⟨Sound.initial, fun _ hr => absurd hr List.not_mem_nil⟩).2
  · rw [hs.kind p hp, Binds, repositoriesOf, ne_eq, List.filter_eq_nil_iff]
    simp
  · rw [ProjectDb.step, he, commit_error]

end Distinctness

section Example

/-- Texts of ASCII and URLs of the forge. -/
def asciiProjectRules : ProjectRules where
  isSpace c := c == ' '
  isOther c := decide (c.toNat < 32)
  lower text := String.ofList (text.toList.map Char.toLower)
  urlsplit url :=
    if "https://github.com/".toList.isPrefixOf url.toList then
      some ⟨"https", some "github.com", String.ofList (url.toList.drop 18)⟩
    else some ⟨"", none, url⟩
  workspaceId owner :=
    if owner = "user_1" then "wsp_48c2b45b30fec023f894e1a8d763ae92" else "wsp_" ++ owner

/-- A repository is bound, and bound once more under its name in lower case. -/
def twiceBound : List ProjectTurn :=
  [.others ["user_1"] [] [] [],
    .create "user_1" { name := "Rollout", projectId := "prj_000000000000000000000000", now := 0 },
    .bind "user_1" "prj_000000000000000000000000"
      { fullName := "Org/Repo", htmlUrl := "https://github.com/Org/Repo"
        repositoryId := "repo_000000000000000000000000", now := 1 },
    .bind "user_1" "prj_000000000000000000000000"
      { fullName := "org/repo", htmlUrl := "https://github.com/org/repo"
        repositoryId := "repo_000000000000000000000001", now := 2 }]

/-- The repository is bound twice. -/
theorem twice_bound : ¬(run (ProjectDb.step asciiProjectRules) initial twiceBound).Distinct := by
  have hbound : ((run (ProjectDb.step asciiProjectRules) initial twiceBound).repositories.rows.map
      fun r => (r.repositoryId, r.ownerUserId, r.fullName)) =
        [("repo_000000000000000000000000", "user_1", "Org/Repo"),
          ("repo_000000000000000000000001", "user_1", "org/repo")] := by decide +kernel
  obtain ⟨r, rest, hrows, hr, hrest⟩ := List.map_eq_cons_iff.mp hbound
  obtain ⟨r', rest', rfl, hr', -⟩ := List.map_eq_cons_iff.mp hrest
  simp only [Prod.mk.injEq] at hr hr'
  intro h
  have heq : r = r' := h r (by rw [hrows]; exact List.mem_cons_self)
    r' (by rw [hrows]; exact List.mem_cons_of_mem _ List.mem_cons_self)
    (hr.2.1.trans hr'.2.1.symm) (by rw [hr.2.2, hr'.2.2]; decide)
  exact absurd (hr.1.symm.trans (heq ▸ hr'.1)) (by decide)

/-- A project binds two repositories. -/
def boundOnce : List ProjectTurn :=
  twiceBound.take 3 ++
    [.bind "user_1" "prj_000000000000000000000000"
      { fullName := "Org/Other", htmlUrl := "https://github.com/Org/Other"
        repositoryId := "repo_000000000000000000000001", now := 2 }]

theorem repositories_of_bound_once :
    RunMeets (ProjectDb.step asciiProjectRules) (fun db t => db.NoOtherLetters asciiProjectRules t)
      initial boundOnce ∧
    (run (ProjectDb.step asciiProjectRules) initial boundOnce).Distinct := by
  have h : RunMeets (ProjectDb.step asciiProjectRules)
      (fun db t => db.NoOtherLetters asciiProjectRules t) initial boundOnce := by decide +kernel
  exact ⟨h, (repositories_of_run h).1⟩

end Example

end ProjectDb

end Magistrate
