import Magistrate.Gateway.GitHub.Service

/-!
# Revoked repositories

A delivery that removes repositories makes their rows inactive, and additions
and reconciles make them active again. So does every other delivery of a
repository, also one that is late.
-/

namespace Magistrate

/-- Whether a repository is removed after what was removed before, by what happens. -/
def GitHubEvent.revokes (installationId repositoryId : ℤ) (gone : Bool) : GitHubEvent → Bool
  | .removed id ids => gone || (id = installationId && ids.all (repositoryId ∈ ·))
  | .listed id repository => gone && !(id = installationId && repository = repositoryId)
  | .completed _ => gone

/-- A delivery removed a repository from an installation, and neither an addition nor a reconcile
listed it since. -/
def revoked (installationId repositoryId : ℤ) (history : List GitHubEvent) : Bool :=
  history.foldl (GitHubEvent.revokes installationId repositoryId) false

/-- A task is about to store a repository that is revoked, for a delivery that adds none. -/
def GitHubTask.EditsRevoked (s : GitHubState) (task : GitHubTask) : Prop :=
  match task.calls, task.job with
  | .upsertRepository installationId repo :: _, .finish _ event =>
    event ≠ "installation_repositories" ∧ ∃ repositoryId ∈ (repo.get "id").identifier?,
      revoked installationId repositoryId s.history = true
  | _, _ => False

instance (s : GitHubState) (task : GitHubTask) : Decidable (task.EditsRevoked s) :=
  match task with
  | ⟨.upsertRepository installationId repo :: _, _, .finish _ event⟩ => inferInstanceAs (Decidable
      (event ≠ "installation_repositories" ∧ ∃ repositoryId ∈ (repo.get "id").identifier?,
        revoked installationId repositoryId s.history = true))
  | ⟨.upsertRepository .. :: _, _, .failed ..⟩ | ⟨.upsertRepository .. :: _, _, .bind ..⟩
  | ⟨.upsertRepository .. :: _, _, .check ..⟩ | ⟨.upsertRepository .. :: _, _, .reconcile ..⟩
  | ⟨.upsertRepository .. :: _, _, .pages ..⟩ | ⟨.upsertRepository .. :: _, _, .done⟩ | ⟨[], _, _⟩
  | ⟨.upsertInstallation .. :: _, _, _⟩ | ⟨.setInstallationStatus .. :: _, _, _⟩
  | ⟨.removeRepositories .. :: _, _, _⟩ | ⟨.deactivateOthers .. :: _, _, _⟩
  | ⟨.raise .. :: _, _, _⟩ => .isFalse not_false

/-- A step in which a delivery other than an addition stores a revoked repository. -/
def GitHubStep.EditsRevoked (p : Pool GitHubState GitHubTask) : GitHubStep → Prop
  | .turn i _ _ => ∃ task ∈ p.workers[i]?, task.EditsRevoked p.shared
  | _ => False

instance (p : Pool GitHubState GitHubTask) (step : GitHubStep) :
    Decidable (step.EditsRevoked p) :=
  match step with
  | .turn i _ _ => inferInstanceAs (Decidable
      (∃ task ∈ p.workers[i]?, task.EditsRevoked p.shared))
  | .deliver .. | .bind .. | .reconcile .. | .stop .. => .isFalse not_false

/-- No active row is of a revoked repository. -/
def GitHubState.Unrevoked (s : GitHubState) : Prop :=
  ∀ r ∈ s.tables.repositories.rows, r.active = true →
    revoked r.installationId r.repositoryId s.history = false

section Calls

variable {rules : GitHubRules} {now : ℤ} {s : GitHubState} {tables : GitHubTables}
  {call : StoreCall} {stage : CallStage} {next : Option CallStage} {job : GitHubJob}
  {installationId repositoryId : ℤ} {history events : List GitHubEvent}

theorem revoked_append : revoked installationId repositoryId (history ++ events) =
    events.foldl (GitHubEvent.revokes installationId repositoryId)
      (revoked installationId repositoryId history) := List.foldl_append ..

/-- The completion of a delivery revokes nothing. -/
@[simp] theorem revoked_completes (calls : List StoreCall) :
    revoked installationId repositoryId (history ++ job.completes calls) =
      revoked installationId repositoryId history := by
  rw [revoked_append]
  unfold GitHubJob.completes
  split <;> rfl

/-- Rows of before, with a history that revokes no more. -/
theorem GitHubState.Unrevoked.of_rows {s' : GitHubState} (h : s.Unrevoked)
    (hrows : ∀ r' ∈ s'.tables.repositories.rows, r'.active = true →
      r' ∈ s.tables.repositories.rows ∧
      (revoked r'.installationId r'.repositoryId s.history = false →
        revoked r'.installationId r'.repositoryId s'.history = false)) : s'.Unrevoked :=
  fun r' hr' hactive => (hrows r' hr' hactive).2 (h r' (hrows r' hr' hactive).1 hactive)

/-- A statement of a call that goes on, or of a call on installations, leaves the repositories. -/
theorem StoreCall.repositories_turn (h : call.turn rules now s.tables stage = .ok (tables, next))
    (hother : next ≠ none ∨ ∃ payload userId status,
      call = .upsertInstallation payload userId status) :
    tables.repositories = s.tables.repositories := by
  cases call with
  | upsertInstallation payload userId status =>
    simp only [StoreCall.turn] at h
    split at h
    · cases h
    · split at h
      · simp only [bind_eq_ok] at h
        obtain ⟨_, -, h⟩ := h
        split at h <;>
        · obtain ⟨rfl, -⟩ := Prod.mk.inj (Except.ok.inj h)
          rfl
      · obtain ⟨rfl, -⟩ := Prod.mk.inj (Except.ok.inj h)
        rfl
      · simp only [bind_eq_ok, raiseIf_eq_ok, pure_eq_ok, exists_const, Prod.mk.injEq] at h
        obtain ⟨-, rfl, -⟩ := h
        rfl
  | setInstallationStatus id status =>
    obtain ⟨-, rfl⟩ := Prod.mk.inj (Except.ok.inj h)
    simp at hother
  | upsertRepository id repo =>
    simp only [StoreCall.turn, bind_eq_ok, pure_eq_ok, Prod.mk.injEq] at h
    obtain ⟨-, -, -, rfl⟩ := h
    simp at hother
  | removeRepositories id ids =>
    obtain ⟨-, rfl⟩ := Prod.mk.inj (Except.ok.inj h)
    simp at hother
  | deactivateOthers id seen =>
    obtain ⟨-, rfl⟩ := Prod.mk.inj (Except.ok.inj h)
    simp at hother
  | raise e => cases h

/-- An active row of repositories that were deactivated by a condition does not meet it. -/
theorem mem_deactivated {t : Table GitHubRepository.key} {p : GitHubRepository → Bool}
    {r : GitHubRepository} (h : r ∈ (t.updateWhere p (GitHubRepository.deactivate now)
      (GitHubRepository.key_deactivate now)).rows) (hactive : r.active = true) :
    r ∈ t.rows ∧ p r = false := by
  obtain ⟨old, hold, rfl⟩ := Table.mem_updateWhere.mp h
  split at hactive
  · cases hactive
  · next hp =>
    rw [if_neg hp]
    exact ⟨hold, by simpa using hp⟩

/-- A call that is made leaves no revoked repository active, unless it stores one for a delivery
that adds none. -/
theorem GitHubState.Unrevoked.made (h : s.Unrevoked)
    (hcall : call.turn rules now s.tables stage = .ok (tables, none)) {calls : List StoreCall}
    (hedits : ¬GitHubTask.EditsRevoked s ⟨call :: calls, stage, job⟩) :
    GitHubState.Unrevoked ⟨tables, s.history ++ job.told call ++ job.completes calls⟩ := by
  have kept : ∀ {tables : GitHubTables}, job.told call = [] →
      (∀ r' ∈ tables.repositories.rows, r'.active = true → r' ∈ s.tables.repositories.rows) →
      GitHubState.Unrevoked ⟨tables, s.history ++ job.told call ++ job.completes calls⟩ := by
    intro tables htold hrows
    refine h.of_rows fun r' hr' hactive => ⟨hrows r' hr' hactive, fun hrevoked => ?_⟩
    rw [revoked_completes, htold, List.append_nil]
    exact hrevoked
  cases call with
  | upsertInstallation payload userId status =>
    have hsame := StoreCall.repositories_turn hcall (.inr ⟨_, _, _, rfl⟩)
    exact kept (by cases job <;> rfl) fun r' hr' _ => hsame ▸ hr'
  | setInstallationStatus id status =>
    obtain ⟨rfl, -⟩ := Prod.mk.inj (Except.ok.inj hcall)
    by_cases hremoved : status = .removed
    · subst hremoved
      refine h.of_rows fun r' hr' hactive => ?_
      obtain ⟨hstored, hother⟩ := mem_deactivated hr' hactive
      refine ⟨hstored, fun hrevoked => ?_⟩
      rw [revoked_completes, revoked_append, hrevoked]
      cases job with
      | finish deliveryId event => simpa [GitHubJob.told, GitHubEvent.revokes, eq_comm] using hother
      | _ => rfl
    · refine kept ?_ fun r' hr' _ => ?_
      · cases job <;> cases status <;> first | rfl | exact absurd rfl hremoved
      · rwa [GitHubTables.setInstallationStatus, if_neg hremoved] at hr'
  | upsertRepository id repo =>
    simp only [StoreCall.turn, GitHubTables.upsertRepository] at hcall
    split at hcall
    · cases hcall
    · next repositoryId hid =>
      obtain ⟨rfl, -⟩ := Prod.mk.inj (Except.ok.inj hcall)
      -- What is told lists the repository, or tells nothing where it is not revoked.
      have htold : job.told (.upsertRepository id repo) = [.listed id repositoryId] ∨
          job.told (.upsertRepository id repo) = [] ∧
            revoked id repositoryId s.history = false := by
        cases job with
        | finish deliveryId event =>
          by_cases hadds : event = "installation_repositories"
          · exact .inl (by simp [GitHubJob.told, hadds, hid])
          · refine .inr ⟨by simp [GitHubJob.told, hadds], ?_⟩
            by_contra hrevoked
            exact hedits ⟨hadds, repositoryId, hid, by simpa using hrevoked⟩
        | _ => exact .inl (by simp [GitHubJob.told, hid])
      intro r' hr' hactive
      rw [revoked_completes, revoked_append]
      let row := repositoryRow rules id repositoryId repo now
      have hrow : r' ∈ ((s.tables.repositories.insertOrIgnore row).update row.key row.replaced
        row.key_replaced).rows := hr'
      rcases Table.mem_upsert hrow with ⟨hstored, -⟩ | ⟨hkey, -⟩
      · rcases htold with htold | ⟨htold, -⟩ <;> rw [htold, h r' hstored hactive] <;> rfl
      · obtain ⟨hi, hr⟩ : r'.installationId = id ∧ r'.repositoryId = repositoryId :=
          Prod.mk.inj hkey
        rw [hi, hr]
        rcases htold with htold | ⟨htold, hrevoked⟩
        · rw [htold]
          simp [GitHubEvent.revokes]
        · rw [htold, hrevoked]
          rfl
  | removeRepositories id ids =>
    obtain ⟨rfl, -⟩ := Prod.mk.inj (Except.ok.inj hcall)
    refine h.of_rows fun r' hr' hactive => ?_
    obtain ⟨hstored, hother⟩ := mem_deactivated hr' hactive
    refine ⟨hstored, fun hrevoked => ?_⟩
    rw [revoked_completes, revoked_append, hrevoked]
    cases job with
    | finish deliveryId event =>
      have hnot : ¬(r'.installationId = id ∧ r'.repositoryId ∈ ids) := of_decide_eq_false hother
      simp only [GitHubJob.told, List.foldl_cons, List.foldl_nil, GitHubEvent.revokes,
        Bool.false_or, Option.all_some, Bool.and_eq_false_iff, decide_eq_false_iff_not]
      exact not_and_or.mp fun hboth => hnot ⟨hboth.1.symm, hboth.2⟩
    | _ => rfl
  | deactivateOthers id seen =>
    obtain ⟨rfl, -⟩ := Prod.mk.inj (Except.ok.inj hcall)
    exact kept (by cases job <;> rfl) fun r' hr' hactive => (mem_deactivated hr' hactive).1
  | raise e => cases hcall

end Calls

section Steps

variable {rules : GitHubRules} {p : Pool GitHubState GitHubTask}

/-- A turn leaves no revoked repository active, unless it stores one for a delivery that adds
none. -/
theorem GitHubState.Unrevoked.turn {s : GitHubState} (h : s.Unrevoked) {now : ℤ}
    {answer : Except GitHubAppError Json} {task : GitHubTask} (hedits : ¬task.EditsRevoked s) :
    (task.turn rules now answer s).1.Unrevoked := by
  rcases task.turn_cases rules now answer s with
    ⟨-, hturn⟩ | ⟨call, calls, hcalls, ⟨e, -, hturn⟩ | ⟨tables, stage, hcall, hturn⟩ |
      ⟨tables, hcall, hturn⟩⟩
  · rw [hturn]
    have hsame := (task.job.turn_keeps now answer s.tables).2.1
    exact h.of_rows fun r' hr' _ => ⟨hsame ▸ hr', id⟩
  · rw [hturn]
    exact h
  · rw [hturn]
    have hsame := StoreCall.repositories_turn hcall (.inl (by simp))
    exact h.of_rows fun r' hr' _ => ⟨hsame ▸ hr', id⟩
  · rw [hturn]
    refine h.made hcall fun hnot => hedits ?_
    rwa [← hcalls] at hnot

/-- A step leaves no revoked repository active, unless it stores one for a delivery that adds
none. -/
theorem unrevoked_step (h : p.shared.Unrevoked) (op : GitHubStep) (hedits : ¬op.EditsRevoked p) :
    (githubStep rules p op).shared.Unrevoked := by
  cases op with
  | deliver webhook now =>
    simp only [githubStep]
    split
    · exact h
    · exact h
    · next tables hbegin =>
      have hsame := (GitHubTables.beginDelivery_keeps hbegin).2
      refine h.of_rows fun r' hr' _ => ⟨hsame ▸ hr', fun hrevoked => ?_⟩
      exact (revoked_completes _).trans hrevoked
  | bind userId installationId =>
    simp only [githubStep]
    split <;> exact h
  | reconcile userId installationId => exact h
  | turn i now answer =>
    cases htask : p.workers[i]? with
    | none => rwa [githubStep, Pool.turn_none htask]
    | some task =>
      rw [githubStep, Pool.shared_turn htask]
      exact h.turn fun hnot => hedits ⟨task, htask, hnot⟩
  | stop i =>
    cases htask : p.workers[i]? with
    | none => rwa [githubStep, Pool.turn_none htask]
    | some task =>
      rw [githubStep, Pool.shared_turn htask]
      exact h

end Steps

/-- In a run in which no delivery other than an addition stores a revoked repository, no listing
contains a repository that a delivery removed and neither an addition nor a reconcile listed
since. -/
theorem revoked_repositories_unlisted (rules : GitHubRules) (steps : List GitHubStep)
    (edits : RunMeets (githubStep rules) (fun p op => ¬op.EditsRevoked p) ⟨.initial, []⟩ steps)
    (userId : String) :
    let s := (run (githubStep rules) ⟨.initial, []⟩ steps).shared
    ∀ r ∈ s.tables.listing userId, revoked r.installationId r.repositoryId s.history = false := by
  intro s r hr
  have hunrevoked : s.Unrevoked :=
    run_invariant (I := fun p : Pool GitHubState GitHubTask => p.shared.Unrevoked)
      (fun _ op h hnot => unrevoked_step h op hnot) edits fun r hr => by cases hr
  obtain ⟨hstored, hactive⟩ := List.mem_filter.mp hr
  simp only [Bool.decide_and, Bool.decide_eq_true, Bool.and_eq_true] at hactive
  exact hunrevoked r hstored hactive.1

open GitHubSample

namespace RevocationSample

/-- A repository. -/
def repository : Json := .obj [("id", .int 5), ("name", .str "tool")]

/-- Turns of a task that hears nothing. -/
def turns (n : ℕ) : List GitHubStep := List.replicate n (.turn 0 0 (.ok .null))

/-- A user binds an installation with one repository. -/
def bound : List GitHubStep :=
  [.bind "user" 7, .turn 0 0 (.ok installation)] ++ turns 3 ++ [.turn 0 0 (.ok installation)] ++
    turns 2 ++ [.turn 0 0 (.ok (.obj [("repositories", .arr [repository])]))] ++ turns 3

/-- The repository is removed from the installation. -/
def removed : List GitHubStep :=
  bound ++ .deliver (delivery "first" "installation_repositories" "removed"
    [("repositories_removed", .arr [repository])]) 0 :: turns 5

/-- A change of the repository that was delivered late is processed. -/
def edited : List GitHubStep :=
  removed ++ .deliver (delivery "second" "repository" "edited" [("repository", repository)]) 0 ::
    turns 2

end RevocationSample

open RevocationSample

/-- A repository that is listed for its user is not listed once it is removed. -/
theorem revoked_repositories_unlisted_removed :
    let s := (run (githubStep rules) ⟨.initial, []⟩ removed).shared
    ((run (githubStep rules) ⟨.initial, []⟩ bound).shared.tables.listing "user").map (·.key) =
        [(7, 5)] ∧
      revoked 7 5 s.history = true ∧
      ∀ r ∈ s.tables.listing "user", revoked r.installationId r.repositoryId s.history = false :=
  ⟨by decide, by decide,
    revoked_repositories_unlisted rules removed (by decide) "user"⟩

/-- A late delivery of a removed repository lists it again. -/
theorem revoked_repository_listed :
    let s := (run (githubStep rules) ⟨.initial, []⟩ edited).shared
    ∃ r ∈ s.tables.listing "user", revoked r.installationId r.repositoryId s.history = true := by
  decide

end Magistrate
