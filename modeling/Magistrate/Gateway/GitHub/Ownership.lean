import Magistrate.Gateway.GitHub.Service

/-!
# Who owns an installation

An upsert of an installation writes the owner that it read, or the user that it
binds. It reads and writes in different statements, so an owner that another
upsert wrote in between is overwritten.
-/

namespace Magistrate

/-- The user that an installation belongs to. -/
def GitHubTables.owner (db : GitHubTables) (installationId : ℤ) : Option String :=
  (db.installations.find? installationId).bind (·.userId)

/-- Installations stay with their owners. -/
def OwnersKept (db db' : GitHubTables) : Prop :=
  ∀ installationId userId, db.owner installationId = some userId →
    db'.owner installationId = some userId

/-- A task is about to write an installation whose owner is neither the one that it read nor the
user that it binds. -/
def GitHubTask.Overwrites (db : GitHubTables) (task : GitHubTask) : Prop :=
  match task.calls, task.stage with
  | .upsertInstallation payload userId _ :: _, .ready existing _ =>
    ((payload.get "account").object.get "id").isScalar = true ∧
      ∃ installationId ∈ (payload.get "id").identifier?, ∃ owner ∈ db.owner installationId,
        existing.bind Prod.fst ≠ some owner ∧ userId ≠ some owner
  | _, _ => False

instance (db : GitHubTables) (task : GitHubTask) : Decidable (task.Overwrites db) := by
  unfold GitHubTask.Overwrites
  split <;> infer_instance

/-- A step in which a task overwrites an owner. -/
def GitHubStep.Overwrites (p : Pool GitHubState GitHubTask) : GitHubStep → Prop
  | .turn i _ _ => ∃ task ∈ p.workers[i]?, task.Overwrites p.shared.tables
  | _ => False

instance (p : Pool GitHubState GitHubTask) (step : GitHubStep) : Decidable (step.Overwrites p) :=
  match step with
  | .turn i _ _ => inferInstanceAs (Decidable
      (∃ task ∈ p.workers[i]?, task.Overwrites p.shared.tables))
  | .deliver .. | .bind .. | .reconcile .. | .stop .. => .isFalse not_false

/-- What an upsert read allows the user that it binds. -/
def GitHubTask.Checked (task : GitHubTask) : Prop :=
  match task.calls, task.stage with
  | .upsertInstallation _ userId _ :: _, .owned existing
  | .upsertInstallation _ userId _ :: _, .ready existing _ =>
    ∀ owner ∈ existing.bind Prod.fst, ∀ user ∈ userId, owner = user
  | _, _ => True

section Calls

variable {rules : GitHubRules} {now : ℤ} {db db' : GitHubTables} {call : StoreCall}
  {stage : CallStage} {next : Option CallStage} {installationId : ℤ}

/-- An upsert writes the owner of its installation, and no other. -/
theorem owner_writeInstallation (row : GitHubInstallation) :
    (db.writeInstallation row).owner installationId =
      if installationId = row.installationId then row.userId else db.owner installationId := by
  simp only [GitHubTables.owner, GitHubTables.writeInstallation, Table.find?_upsert]
  split <;> rfl

/-- A change of an installation that keeps its user keeps the owners. -/
theorem owner_update {k : ℤ} (f : GitHubInstallation → GitHubInstallation)
    (hf : ∀ i, (f i).installationId = i.installationId) (huser : ∀ i, (f i).userId = i.userId)
    (hinstallations : db'.installations = db.installations.update k f hf) :
    db'.owner installationId = db.owner installationId := by
  simp only [GitHubTables.owner, hinstallations, Table.find?_update]
  cases db.installations.find? installationId with
  | none => rfl
  | some i =>
    simp only [Option.map_some, Option.bind_some]
    split
    · exact huser i
    · rfl

/-- What a statement does to owners: only the last one of an upsert writes one. -/
theorem StoreCall.owner_turn (h : call.turn rules now db stage = .ok (db', next)) :
    ((∀ id, db'.owner id = db.owner id) ∧ ∀ payload userId status existing status',
      call = .upsertInstallation payload userId status → stage ≠ .ready existing status') ∨
    ∃ payload userId status existing status' id,
      call = .upsertInstallation payload userId status ∧ stage = .ready existing status' ∧
      (payload.get "id").identifier? = some id ∧
      ((payload.get "account").object.get "id").isScalar = true ∧
      ∀ id', db'.owner id' = if id' = id then userId.orElse fun _ => existing.bind Prod.fst
        else db.owner id' := by
  cases call with
  | upsertInstallation payload userId status =>
    simp only [StoreCall.turn] at h
    split at h
    · cases h
    · next id hid =>
      split at h
      · simp only [bind_eq_ok] at h
        obtain ⟨-, -, h⟩ := h
        split at h <;>
        · obtain ⟨rfl, -⟩ := Prod.mk.inj (Except.ok.inj h)
          exact .inl ⟨fun _ => rfl, fun _ _ _ _ _ _ he => by cases he⟩
      · obtain ⟨rfl, -⟩ := Prod.mk.inj (Except.ok.inj h)
        exact .inl ⟨fun _ => rfl, fun _ _ _ _ _ _ he => by cases he⟩
      · next existing status' =>
        simp only [bind_eq_ok, raiseIf_eq_ok, pure_eq_ok, exists_const, Prod.mk.injEq] at h
        obtain ⟨hscalar, rfl, -⟩ := h
        exact .inr ⟨payload, userId, status, existing, status', id, rfl, rfl, hid,
          by simpa using hscalar, fun id' => owner_writeInstallation _⟩
  | setInstallationStatus id status =>
    obtain ⟨rfl, -⟩ := Prod.mk.inj (Except.ok.inj h)
    exact .inl ⟨fun _ => owner_update (GitHubInstallation.withStatus status now) (fun _ => rfl)
      (fun _ => rfl) rfl, fun _ _ _ _ _ he => by cases he⟩
  | upsertRepository id repo =>
    simp only [StoreCall.turn, GitHubTables.upsertRepository] at h
    split at h
    · cases h
    · obtain ⟨rfl, -⟩ := Prod.mk.inj (Except.ok.inj h)
      exact .inl ⟨fun _ => rfl, fun _ _ _ _ _ he => by cases he⟩
  | removeRepositories id ids =>
    obtain ⟨rfl, -⟩ := Prod.mk.inj (Except.ok.inj h)
    exact .inl ⟨fun _ => rfl, fun _ _ _ _ _ he => by cases he⟩
  | deactivateOthers id seen =>
    obtain ⟨rfl, -⟩ := Prod.mk.inj (Except.ok.inj h)
    exact .inl ⟨fun _ => owner_update
      (fun i => { i with lastReconciledAt := some now, updatedAt := now }) (fun _ => rfl)
      (fun _ => rfl) rfl, fun _ _ _ _ _ he => by cases he⟩
  | raise e => cases h

/-- A statement keeps the owners, exactly if it does not overwrite one. -/
theorem GitHubTask.ownersKept_turn {calls : List StoreCall} {job : GitHubJob}
    (hchecked : GitHubTask.Checked ⟨call :: calls, stage, job⟩)
    (h : call.turn rules now db stage = .ok (db', next)) :
    ¬GitHubTask.Overwrites db ⟨call :: calls, stage, job⟩ ↔ OwnersKept db db' := by
  rcases StoreCall.owner_turn h with ⟨hsame, hother⟩ |
    ⟨payload, userId, status, existing, status', id, rfl, rfl, hid, hscalar, howner⟩
  · refine iff_of_true (fun hover => ?_) fun id u hu => (hsame id).trans hu
    unfold GitHubTask.Overwrites at hover
    split at hover
    · next hcalls hstage => exact hother _ _ _ _ _ (List.cons.inj hcalls).1 hstage
    · exact hover
  · have hchecked : ∀ owner ∈ existing.bind Prod.fst, ∀ user ∈ userId, owner = user := hchecked
    constructor
    · intro hnot id' u hu
      rw [howner]
      split
      · next hsame =>
        subst hsame
        by_contra hne
        refine hnot ⟨hscalar, id', hid, u, hu, fun hread => hne ?_, fun hbound => hne ?_⟩
        · cases hbound : userId with
          | none => exact hread
          | some v => rw [hchecked u hread v hbound]; rfl
        · rw [hbound]
          rfl
      · exact hu
    · rintro hkept ⟨-, id', hid', u, hu, hread, hbound⟩
      rw [Option.mem_def, hid] at hid'
      obtain rfl := Option.some.inj hid'
      have hafter := hkept id u hu
      rw [howner, if_pos rfl] at hafter
      cases hu' : userId with
      | none => exact hread (by simpa [hu'] using hafter)
      | some v => exact hbound (by simpa [hu'] using hafter)

/-- A call that has not begun has read nothing. -/
theorem GitHubTask.Checked.of_start {task : GitHubTask} (h : task.stage = .start) :
    task.Checked := by
  unfold GitHubTask.Checked
  split
  · next hstage => rw [h] at hstage; cases hstage
  · next hstage => rw [h] at hstage; cases hstage
  · trivial

/-- An owner that was read allows only itself to be bound. -/
theorem StoreCall.checkOwner_eq_ok {userId : Option String}
    {existing : Option (Option String × ℤ)} {u : Unit} :
    checkOwner userId existing = .ok u ↔
      ∀ owner ∈ existing.bind Prod.fst, ∀ user ∈ userId, owner = user := by
  rw [checkOwner, raiseIf_eq_ok]
  push Not
  rfl

/-- A call that goes on has read what allows the user that it binds. -/
theorem GitHubTask.Checked.turn {calls : List StoreCall} {job : GitHubJob} {stage' : CallStage}
    (hchecked : GitHubTask.Checked ⟨call :: calls, stage, job⟩)
    (h : call.turn rules now db stage = .ok (db', some stage')) :
    GitHubTask.Checked ⟨call :: calls, stage', job⟩ := by
  cases call with
  | upsertInstallation payload userId status =>
    simp only [StoreCall.turn] at h
    split at h
    · cases h
    · next id _ =>
      split at h
      · simp only [bind_eq_ok] at h
        obtain ⟨_, hallowed, h⟩ := h
        rw [StoreCall.checkOwner_eq_ok] at hallowed
        split at h <;>
        · obtain ⟨-, hstage⟩ := Prod.mk.inj (Except.ok.inj h)
          obtain rfl := Option.some.inj hstage
          exact hallowed
      · obtain ⟨-, hstage⟩ := Prod.mk.inj (Except.ok.inj h)
        obtain rfl := Option.some.inj hstage
        exact hchecked
      · simp only [bind_eq_ok, raiseIf_eq_ok, pure_eq_ok, exists_const, Prod.mk.injEq] at h
        cases h.2.2
  | setInstallationStatus id status => cases h
  | upsertRepository id repo =>
    simp only [StoreCall.turn, bind_eq_ok, pure_eq_ok, Prod.mk.injEq] at h
    obtain ⟨-, -, -, hnone⟩ := h
    cases hnone
  | removeRepositories id ids => cases h
  | deactivateOthers id seen => cases h
  | raise e => cases h

end Calls

section Steps

variable {rules : GitHubRules} {p : Pool GitHubState GitHubTask}

theorem OwnersKept.refl (db : GitHubTables) : OwnersKept db db := fun _ _ h => h

theorem OwnersKept.trans {db db' db'' : GitHubTables} (h : OwnersKept db db')
    (h' : OwnersKept db' db'') : OwnersKept db db'' := fun id u hu => h' id u (h id u hu)

/-- Tables with the same installations have the same owners. -/
theorem OwnersKept.of_same {db db' : GitHubTables} (h : db'.installations = db.installations) :
    OwnersKept db db' := fun id u hu => by
  rwa [GitHubTables.owner, h]

/-- A turn keeps tasks checked. -/
theorem GitHubTask.Checked.next {now : ℤ} {answer : Except GitHubAppError Json}
    {task next : GitHubTask}
    {s : GitHubState} (hchecked : task.Checked) (h : (task.turn rules now answer s).2 = some next) :
    next.Checked := by
  rcases task.turn_cases rules now answer s with
    ⟨-, hturn⟩ | ⟨call, calls, hcalls,
      ⟨e, -, hturn⟩ | ⟨tables, stage, hcall, hturn⟩ | ⟨tables, -, hturn⟩⟩
  · rw [hturn] at h
    exact .of_start ((task.job.turn_keeps now answer s.tables).2.2 next h)
  · rw [hturn] at h
    cases hjob : task.job with
    | finish deliveryId event =>
      rw [hjob] at h
      obtain rfl := Option.some.inj h
      exact .of_start rfl
    | _ => rw [hjob] at h; cases h
  · rw [hturn] at h
    obtain rfl := Option.some.inj h
    obtain ⟨calls', stage', job⟩ := task
    obtain rfl : calls' = call :: calls := hcalls
    exact hchecked.turn hcall
  · rw [hturn] at h
    obtain rfl := Option.some.inj h
    exact .of_start rfl

/-- A step keeps tasks checked. -/
theorem checked_step (h : ∀ task ∈ p.workers, task.Checked) (op : GitHubStep) :
    ∀ task ∈ (githubStep rules p op).workers, task.Checked := by
  have spawned : ∀ {q : Pool GitHubState GitHubTask} {task : GitHubTask}, q.workers = p.workers →
      task.stage = .start → ∀ other ∈ (q.spawn task).workers, other.Checked := by
    intro q task hq hstart other hother
    rcases List.mem_append.mp hother with hother | hother
    · exact h other (hq ▸ hother)
    · rw [List.mem_singleton.mp hother]
      exact .of_start hstart
  cases op with
  | deliver webhook now =>
    simp only [githubStep]
    split
    · exact h
    · exact h
    · exact spawned rfl rfl
  | bind userId installationId =>
    simp only [githubStep]
    split
    · exact h
    · exact spawned rfl rfl
  | reconcile userId installationId => exact spawned rfl rfl
  | turn i now answer =>
    intro task htask
    rcases Pool.mem_turn htask with htask | ⟨other, hother, hnext⟩
    · exact h task htask
    · exact (h other (List.mem_of_getElem? hother)).next hnext
  | stop i =>
    intro task htask
    rcases Pool.mem_turn htask with htask | ⟨_, _, hnone⟩
    · exact h task htask
    · cases hnone

/-- A step keeps the owners, exactly if it does not overwrite one. -/
theorem ownersKept_step (h : ∀ task ∈ p.workers, task.Checked) (op : GitHubStep) :
    ¬op.Overwrites p ↔ OwnersKept p.shared.tables (githubStep rules p op).shared.tables := by
  cases op with
  | deliver webhook now =>
    refine iff_of_true not_false ?_
    simp only [githubStep]
    split
    · exact .refl _
    · exact .refl _
    · next hbegin => exact .of_same (GitHubTables.beginDelivery_keeps hbegin).1
  | bind userId installationId =>
    refine iff_of_true not_false ?_
    simp only [githubStep]
    split <;> exact .refl _
  | reconcile userId installationId => exact iff_of_true not_false (.refl _)
  | turn i now answer =>
    cases htask : p.workers[i]? with
    | none =>
      rw [githubStep, Pool.turn_none htask]
      refine iff_of_true ?_ (.refl _)
      rintro ⟨task, hmem, -⟩
      rw [htask] at hmem
      cases hmem
    | some task =>
      rw [githubStep, Pool.shared_turn htask]
      have hoverwrites : GitHubStep.Overwrites p (.turn i now answer) ↔
          task.Overwrites p.shared.tables := by
        simp [GitHubStep.Overwrites, htask]
      rw [hoverwrites]
      have hchecked := h task (List.mem_of_getElem? htask)
      have hidle : ∀ {s' : GitHubState}, (∀ call calls, task.calls = call :: calls →
          ∀ tables next, call.turn rules now p.shared.tables task.stage ≠ .ok (tables, next)) →
          s'.tables.installations = p.shared.tables.installations →
          (¬task.Overwrites p.shared.tables ↔ OwnersKept p.shared.tables s'.tables) := by
        intro s' hraises hsame
        refine iff_of_true (fun hover => ?_) (.of_same hsame)
        unfold GitHubTask.Overwrites at hover
        split at hover
        · next payload userId status calls existing status' hcalls hstage =>
          obtain ⟨hscalar, id, hid, -⟩ := hover
          have hok : (StoreCall.upsertInstallation payload userId status).turn rules now
              p.shared.tables task.stage = .ok (p.shared.tables.writeInstallation
                (upsertedRow rules id payload userId existing status' now), none) := by
            rw [hstage, StoreCall.turn, Option.mem_def.mp hid]
            exact bind_eq_ok.mpr ⟨(), raiseIf_ok (by simp [hscalar]) _, rfl⟩
          exact hraises _ _ hcalls _ none hok
        · exact hover
      rcases task.turn_cases rules now answer p.shared with
        ⟨hcalls, hturn⟩ |
        ⟨call, calls, hcalls, ⟨e, hcall, hturn⟩ | ⟨tables, stage, hcall, hturn⟩ |
          ⟨tables, hcall, hturn⟩⟩
      · rw [hturn]
        exact hidle (fun _ _ he => by rw [hcalls] at he; cases he)
          (task.job.turn_keeps now answer p.shared.tables).1
      · rw [hturn]
        refine hidle (fun call' calls' he tables next hok => ?_) rfl
        obtain ⟨rfl, -⟩ := List.cons.inj (hcalls.symm.trans he)
        rw [hcall] at hok
        cases hok
      · rw [hturn]
        obtain ⟨calls', stage', job⟩ := task
        obtain rfl : calls' = call :: calls := hcalls
        exact GitHubTask.ownersKept_turn hchecked hcall
      · rw [hturn]
        obtain ⟨calls', stage', job⟩ := task
        obtain rfl : calls' = call :: calls := hcalls
        exact GitHubTask.ownersKept_turn hchecked hcall
  | stop i =>
    refine iff_of_true not_false ?_
    cases htask : p.workers[i]? with
    | none =>
      rw [githubStep, Pool.turn_none htask]
      exact .refl _
    | some task =>
      rw [githubStep, Pool.shared_turn htask]
      exact .refl _

end Steps

/-- An installation that belongs to a user belongs to the user in every later state of a run,
exactly if no upsert writes an owner that it neither read nor binds over another one. -/
theorem installation_owners_kept (rules : GitHubRules) (steps : List GitHubStep) :
    RunMeets (githubStep rules) (fun p op => ¬op.Overwrites p) ⟨.initial, []⟩ steps ↔
      ∀ first second third, steps = first ++ second ++ third → ∀ installationId userId,
        (run (githubStep rules) ⟨.initial, []⟩ first).shared.tables.owner installationId =
          some userId →
        (run (githubStep rules) ⟨.initial, []⟩ (first ++ second)).shared.tables.owner
          installationId = some userId :=
  runMeets_iff_related (I := fun p : Pool GitHubState GitHubTask =>
    ∀ task ∈ p.workers, task.Checked)
    (R := fun p q : Pool GitHubState GitHubTask => OwnersKept p.shared.tables q.shared.tables)
    (fun p => .refl _) (fun _ _ _ => .trans) (fun _ op h => checked_step h op)
    (fun _ op h => ownersKept_step h op) (by simp)

open GitHubSample

namespace OwnershipSample

/-- The delivery of the new installation reads that nobody owns it, and then the setup callback
binds it to a user. -/
def bound : List GitHubStep :=
  [.deliver (delivery "first" "installation" "created" []) 0,
    .bind "user" 7, .turn 0 1 (.ok .null), .turn 1 2 (.ok installation), .turn 1 3 (.ok .null),
    .turn 1 4 (.ok .null)]

/-- The delivery writes the owner that it read. -/
def written : List GitHubStep := [.turn 0 5 (.ok .null)]

end OwnershipSample

open OwnershipSample

/-- A delivery that read no owner takes an installation from the user that it was bound to
meanwhile. -/
theorem installation_owner_overwritten :
    (run (githubStep rules) ⟨.initial, []⟩ bound).shared.tables.owner 7 = some "user" ∧
    (run (githubStep rules) ⟨.initial, []⟩ (bound ++ written)).shared.tables.owner 7 = none := by
  decide

end Magistrate
