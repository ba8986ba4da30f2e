import Magistrate.Gateway.GitHub.Service

/-!
# Webhook deliveries

A delivery is marked as being processed before its calls are made, and as
processed or failed after them. A failed delivery is processed again when it is
delivered again. One whose task stops before that keeps its mark.
-/

namespace Magistrate

/-- The deliveries that were completed, oldest first. -/
def completions (history : List GitHubEvent) : List String :=
  history.filterMap fun
    | .completed deliveryId => some deliveryId
    | _ => none

/-- A task that has calls of a delivery to make, or that is to record its failure. -/
def GitHubTask.Unfinished (task : GitHubTask) : Prop :=
  match task.job with
  | .finish _ _ => task.calls ≠ []
  | .failed _ => True
  | _ => False

instance (task : GitHubTask) : Decidable task.Unfinished :=
  match task with
  | ⟨[], _, .finish _ _⟩ => .isFalse fun h => h rfl
  | ⟨_ :: _, _, .finish _ _⟩ => .isTrue (List.cons_ne_nil _ _)
  | ⟨_, _, .failed _⟩ => .isTrue trivial
  | ⟨_, _, .bind ..⟩ | ⟨_, _, .check ..⟩ | ⟨_, _, .reconcile ..⟩ | ⟨_, _, .pages ..⟩
  | ⟨_, _, .done⟩ => .isFalse not_false

/-- A step in which a task stops before its delivery is completed or its failure is recorded. -/
def GitHubStep.Abandons (p : Pool GitHubState GitHubTask) : GitHubStep → Prop
  | .stop i => ∃ task ∈ p.workers[i]?, task.Unfinished
  | _ => False

instance (p : Pool GitHubState GitHubTask) (step : GitHubStep) : Decidable (step.Abandons p) :=
  match step with
  | .stop i => inferInstanceAs (Decidable (∃ task ∈ p.workers[i]?, task.Unfinished))
  | .deliver .. | .bind .. | .reconcile .. | .turn .. => .isFalse not_false

/-- The task that processes a delivery from its beginning. -/
def GitHubWebhook.handler (webhook : GitHubWebhook) : GitHubTask :=
  ⟨webhookCalls webhook.event webhook.payload, .start, .finish webhook.deliveryId webhook.event⟩

/-- A task processes a delivery. -/
def Handled (p : Pool GitHubState GitHubTask) (deliveryId : String) : Prop :=
  ∃ task ∈ p.workers, task.handles = some deliveryId

/-- Delivered once more, a delivery is processed anew, with all its calls. -/
def Redelivers (rules : GitHubRules) (p : Pool GitHubState GitHubTask) (row : GitHubDelivery) :
    Prop :=
  ∀ (webhook : GitHubWebhook) (now : ℤ), webhook.deliveryId = row.deliveryId →
    webhook.payloadSha256 = row.payloadSha256 →
      (githubStep rules p (.deliver webhook now)).workers = p.workers ++
        [webhook.handler]

/-- A delivery that is not completed is being processed, or is processed when it is delivered once
more. -/
def DeliveriesRetried (rules : GitHubRules) (p : Pool GitHubState GitHubTask) : Prop :=
  ∀ row ∈ p.shared.tables.deliveries.rows, row.deliveryId ∉ completions p.shared.history →
    Handled p row.deliveryId ∨ Redelivers rules p row

/-- Each delivery is processed by one task at a time, and its row says how far it is. -/
structure Delivering (p : Pool GitHubState GitHubTask) : Prop where
  single : (p.workers.filterMap GitHubTask.handles).Nodup
  marked : ∀ task ∈ p.workers, ∀ id, task.handles = some id →
    (∃ row ∈ p.shared.tables.deliveries.rows, row.deliveryId = id ∧ row.status = .processing) ∧
      (id ∈ completions p.shared.history ↔ ¬task.Unfinished)
  failing : ∀ task ∈ p.workers, ∀ id, task.job = .failed id → task.calls = []
  processed : ∀ row ∈ p.shared.tables.deliveries.rows, row.status = .processed →
    row.deliveryId ∈ completions p.shared.history
  failed : ∀ row ∈ p.shared.tables.deliveries.rows, row.status = .failed →
    row.deliveryId ∉ completions p.shared.history
  known : ∀ id ∈ completions p.shared.history, ∃ row ∈ p.shared.tables.deliveries.rows,
    row.deliveryId = id
  once : (completions p.shared.history).Nodup

/-- What a turn of a task does to its delivery: nothing; or it completes it; or it ends it. -/
inductive DeliveryMove (s : GitHubState) (task : GitHubTask) (s' : GitHubState) :
    Option GitHubTask → Prop where
  | stay (deliveries : s'.tables.deliveries = s.tables.deliveries)
      (history : completions s'.history = completions s.history) {next : Option GitHubTask}
      (handles : next.bind GitHubTask.handles = task.handles)
      (goesOn : ∀ t ∈ next, (t.Unfinished ↔ task.Unfinished) ∧
        ∀ id, t.job = .failed id → t.calls = []) : DeliveryMove s task s' next
  | complete (deliveries : s'.tables.deliveries = s.tables.deliveries) {id : String}
      (handles : task.handles = some id) (unfinished : task.Unfinished)
      (history : completions s'.history = completions s.history ++ [id]) {next : GitHubTask}
      (handled : next.handles = some id) (finished : ¬next.Unfinished)
      (failing : ∀ id, next.job ≠ .failed id) : DeliveryMove s task s' next
  | ended {id : String} (handles : task.handles = some id) (error : Option String) (now : ℤ)
      (unfinished : error ≠ .none ↔ task.Unfinished) (calls : task.calls = [])
      (deliveries : s'.tables.deliveries = (s.tables.finishDelivery id error now).deliveries)
      (history : completions s'.history = completions s.history) : DeliveryMove s task s' .none

section Turns

variable {rules : GitHubRules} {now : ℤ} {answer : Except GitHubAppError Json}
  {tables : GitHubTables} {history : List GitHubEvent} {next : Option CallStage}

@[simp] theorem completions_append (first second : List GitHubEvent) :
    completions (first ++ second) = completions first ++ completions second :=
  List.filterMap_append ..

/-- What a call tells completes no delivery. -/
@[simp] theorem completions_told (job : GitHubJob) (call : StoreCall) :
    completions (job.told call) = [] := by
  have listed : ∀ (id : ℤ) (repo : Option ℤ),
      completions (repo.toList.map (.listed id ·)) = [] := by
    rintro id (_ | repo) <;> rfl
  unfold GitHubJob.told
  split
  · rfl
  · rfl
  · split
    · exact listed ..
    · rfl
  · exact listed ..
  · rfl

/-- A delivery is completed by the last of its calls. -/
theorem completions_completes (job : GitHubJob) (calls : List StoreCall) :
    completions (job.completes calls) =
      if calls = [] then (match job with | .finish id _ => [id] | _ => []) else [] := by
  cases calls <;> cases job <;> rfl

/-- A statement of a call leaves the deliveries. -/
theorem StoreCall.deliveries_turn {call : StoreCall} {stage : CallStage} {db : GitHubTables}
    (h : call.turn rules now db stage = .ok (tables, next)) :
    tables.deliveries = db.deliveries := by
  cases call with
  | upsertInstallation payload userId status =>
    simp only [StoreCall.turn] at h
    split at h
    · cases h
    · split at h
      · simp only [bind_eq_ok] at h
        obtain ⟨_, -, h⟩ := h
        split at h <;>
        · obtain ⟨rfl, -⟩ := Prod.mk.inj (Except.ok.inj h)
          rfl
      · obtain ⟨rfl, -⟩ := Prod.mk.inj (Except.ok.inj h)
        rfl
      · simp only [bind_eq_ok, raiseIf_eq_ok, pure_eq_ok, exists_const, Prod.mk.injEq] at h
        obtain ⟨-, rfl, -⟩ := h
        rfl
  | setInstallationStatus id status =>
    obtain ⟨rfl, -⟩ := Prod.mk.inj (Except.ok.inj h)
    rfl
  | upsertRepository id repo =>
    simp only [StoreCall.turn, GitHubTables.upsertRepository] at h
    split at h
    · cases h
    · obtain ⟨rfl, -⟩ := Prod.mk.inj (Except.ok.inj h)
      rfl
  | removeRepositories id ids =>
    obtain ⟨rfl, -⟩ := Prod.mk.inj (Except.ok.inj h)
    rfl
  | deactivateOthers id seen =>
    obtain ⟨rfl, -⟩ := Prod.mk.inj (Except.ok.inj h)
    rfl
  | raise e => cases h

/-- A task without a delivery has none to complete, or to record as failed. -/
theorem GitHubTask.not_unfinished {task : GitHubTask} (h : task.handles = none) :
    ¬task.Unfinished ∧ ∀ id, task.job ≠ .failed id := by
  obtain ⟨calls, stage, job⟩ := task
  cases job with
  | finish id event => cases h
  | failed id => cases h
  | bind | check | reconcile | pages | done => exact ⟨id, fun _ h => by cases h⟩

/-- A turn without a delivery before and after it. -/
theorem DeliveryMove.idle {s s' : GitHubState} {task : GitHubTask} {next : Option GitHubTask}
    (hdeliveries : s'.tables.deliveries = s.tables.deliveries)
    (hhistory : completions s'.history = completions s.history) (hhandles : task.handles = none)
    (hnext : next.bind GitHubTask.handles = none) : DeliveryMove s task s' next := by
  refine .stay hdeliveries hhistory (hnext.trans hhandles.symm) fun t ht => ?_
  obtain rfl : next = some t := ht
  have hnone : t.handles = none := hnext
  obtain ⟨hunfinished, hfailed⟩ := GitHubTask.not_unfinished hnone
  exact ⟨iff_of_false hunfinished (GitHubTask.not_unfinished hhandles).1,
    fun id h => absurd h (hfailed id)⟩

/-- A part of a job that ends no delivery leaves the deliveries, and goes on without one. -/
theorem GitHubJob.turn_other (now : ℤ) (answer : Except GitHubAppError Json) (db : GitHubTables)
    (job : GitHubJob) (hother : GitHubTask.handles ⟨[], .start, job⟩ = none) :
    (job.turn now answer db).1.deliveries = db.deliveries ∧
      (job.turn now answer db).2.bind GitHubTask.handles = none := by
  cases job with
  | finish id event => cases hother
  | failed id => cases hother
  | bind userId installationId =>
    simp only [GitHubJob.turn]
    split
    · exact ⟨rfl, rfl⟩
    · split
      · exact ⟨rfl, rfl⟩
      · refine ⟨rfl, ?_⟩
        simp only [Option.bind_some]
        split <;> rfl
  | check userId installationId =>
    simp only [GitHubJob.turn]
    split <;> exact ⟨rfl, rfl⟩
  | reconcile userId installationId =>
    simp only [GitHubJob.turn]
    split
    · split <;> exact ⟨rfl, rfl⟩
    · split
      · exact ⟨rfl, rfl⟩
      · refine ⟨rfl, ?_⟩
        simp only [Option.bind_some]
        split <;> rfl
  | pages installationId repositories page =>
    simp only [GitHubJob.turn]
    split
    · split
      · exact ⟨rfl, rfl⟩
      · split <;> exact ⟨rfl, rfl⟩
    · exact ⟨rfl, rfl⟩
  | done => exact ⟨rfl, rfl⟩

/-- A turn leaves the delivery of its task, completes it or ends it. -/
theorem GitHubTask.turn_move {task : GitHubTask} (s : GitHubState)
    (hfailing : ∀ id, task.job = .failed id → task.calls = []) :
    DeliveryMove s task (task.turn rules now answer s).1 (task.turn rules now answer s).2 := by
  rcases task.turn_cases rules now answer s with
    ⟨hcalls, hturn⟩ | ⟨call, calls, hcalls, hmade⟩
  · rw [hturn]
    obtain ⟨calls, stage, job⟩ := task
    obtain rfl : calls = [] := hcalls
    have hother := GitHubJob.turn_other now answer s.tables job
    cases job with
    | finish id event =>
      exact .ended rfl none now (iff_of_false (· rfl) (· rfl)) rfl rfl rfl
    | failed id =>
      exact .ended rfl (some "processing_failed") now
        (iff_of_true (Option.some_ne_none _) trivial) rfl rfl rfl
    | bind | check | reconcile | pages | done =>
      obtain ⟨hdeliveries, hnext⟩ := hother rfl
      refine .idle ?_ ?_ ?_ ?_
      exacts [hdeliveries, rfl, rfl, hnext]
  · obtain ⟨calls', stage, job⟩ := task
    obtain rfl : calls' = call :: calls := hcalls
    rcases hmade with ⟨e, -, hturn⟩ | ⟨tables, stage', hcall, hturn⟩ | ⟨tables, hcall, hturn⟩
    · rw [hturn]
      cases job with
      | finish id event =>
        refine .stay rfl rfl rfl fun t ht => ?_
        obtain rfl := Option.some.inj ht
        exact ⟨iff_of_true trivial (List.cons_ne_nil _ _), fun _ _ => rfl⟩
      | failed id => cases hfailing id rfl
      | bind | check | reconcile | pages | done => exact .idle rfl rfl rfl rfl
    · rw [hturn]
      have hdeliveries := StoreCall.deliveries_turn hcall
      refine .stay ?_ ?_ ?_ fun t ht => ?_
      · exact hdeliveries
      · rfl
      · rfl
      · obtain rfl := Option.some.inj ht
        exact ⟨by cases job <;> exact iff_of_eq rfl, hfailing⟩
    · rw [hturn]
      have hdeliveries := StoreCall.deliveries_turn hcall
      have htold : completions (s.history ++ job.told call ++ job.completes calls) =
          completions s.history ++ completions (job.completes calls) := by simp
      cases job with
      | finish id event =>
        cases calls with
        | nil =>
          have hunfinished : GitHubTask.Unfinished ⟨[call], stage, .finish id event⟩ :=
            List.cons_ne_nil _ _
          exact .complete hdeliveries rfl hunfinished htold rfl (· rfl) fun _ h => by cases h
        | cons call' calls =>
          refine .stay hdeliveries (htold.trans (List.append_nil _)) rfl fun t ht => ?_
          obtain rfl := Option.some.inj ht
          exact ⟨iff_of_true (List.cons_ne_nil _ _) (List.cons_ne_nil _ _), fun _ h => by cases h⟩
      | failed id => cases hfailing id rfl
      | bind | check | reconcile | pages | done =>
        refine .idle hdeliveries (htold.trans ?_) rfl rfl
        cases calls <;> exact List.append_nil _

end Turns

section Steps

variable {rules : GitHubRules} {p : Pool GitHubState GitHubTask} {task : GitHubTask}
  {before after : List GitHubTask} {s' : GitHubState} {next : Option GitHubTask} {id : String}

/-- The deliveries that the tasks process, where one of them is put in the place of another. -/
theorem handled_split : (before ++ next.toList ++ after).filterMap GitHubTask.handles =
    before.filterMap GitHubTask.handles ++ (next.bind GitHubTask.handles).toList ++
      after.filterMap GitHubTask.handles := by
  rw [List.filterMap_append, List.filterMap_append]
  cases next with
  | none => rfl
  | some task =>
    rw [Option.toList_some, Option.bind_some, List.filterMap_cons]
    cases task.handles <;> rfl

/-- The delivery of a task is processed by none of the others. -/
theorem Delivering.other (h : Delivering p) (hworkers : p.workers = before ++ task :: after)
    (hid : task.handles = some id) : ∀ t ∈ before ++ after, t.handles ≠ some id := by
  have hsingle := h.single
  rw [hworkers, ← List.singleton_append, ← List.append_assoc, ← Option.toList_some, handled_split,
    Option.bind_some, hid, Option.toList_some, List.nodup_append, List.nodup_append] at hsingle
  obtain ⟨⟨-, -, hbefore⟩, -, hafter⟩ := hsingle
  intro t ht hsame
  rcases List.mem_append.mp ht with ht | ht
  · exact hbefore id (List.mem_filterMap.mpr ⟨t, ht, hsame⟩) id List.mem_cons_self rfl
  · exact hafter id (List.mem_append_right _ List.mem_cons_self) id
      (List.mem_filterMap.mpr ⟨t, ht, hsame⟩) rfl

/-- A move of a task on its delivery. -/
theorem Delivering.move (h : Delivering p) (hworkers : p.workers = before ++ task :: after)
    (hmove : DeliveryMove p.shared task s' next) :
    Delivering ⟨s', before ++ next.toList ++ after⟩ := by
  have hsingle := h.single
  have hstay : ∀ t ∈ before ++ after, t ∈ p.workers := by
    intro t ht
    rw [hworkers]
    rcases List.mem_append.mp ht with ht | ht <;> simp [ht]
  have hsplit : ∀ t ∈ before ++ next.toList ++ after, t ∈ before ++ after ∨ next = some t := by
    intro t ht
    rcases List.mem_append.mp ht with ht | ht
    · rcases List.mem_append.mp ht with ht | ht
      · exact .inl (List.mem_append_left _ ht)
      · exact .inr (Option.mem_toList.mp ht)
    · exact .inl (List.mem_append_right _ ht)
  have htask : task ∈ p.workers := by simp [hworkers]
  rw [hworkers, ← List.singleton_append, ← List.append_assoc, ← Option.toList_some, handled_split,
    Option.bind_some] at hsingle
  cases hmove with
  | stay hdeliveries hhistory hhandles hgoesOn =>
    refine ⟨?_, ?_, ?_, ?_, ?_, ?_, ?_⟩
    · rwa [handled_split, hhandles]
    · rw [hdeliveries, hhistory]
      intro t ht id hid
      rcases hsplit t ht with ht | rfl
      · exact h.marked t (hstay t ht) id hid
      · obtain ⟨hrow, hdone⟩ := h.marked task htask id (hhandles ▸ hid)
        exact ⟨hrow, hdone.trans (not_congr (hgoesOn t rfl).1.symm)⟩
    · intro t ht id hid
      rcases hsplit t ht with ht | rfl
      · exact h.failing t (hstay t ht) id hid
      · exact (hgoesOn t rfl).2 id hid
    · rw [hdeliveries, hhistory]
      exact h.processed
    · rw [hdeliveries, hhistory]
      exact h.failed
    · rw [hdeliveries, hhistory]
      exact h.known
    · rw [hhistory]
      exact h.once
  | @complete hdeliveries id hhandles hunfinished hhistory next hnext hfinished hfailing =>
    obtain ⟨⟨row, hrow, hkey, hstatus⟩, hdone⟩ := h.marked task htask id hhandles
    have hnot : id ∉ completions p.shared.history := fun hmem => hdone.mp hmem hunfinished
    refine ⟨?_, fun t ht id' hid => ?_, fun t ht id' hid => ?_, fun r hr hprocessed => ?_,
      fun r hr hfailed => ?_, fun id' hid => ?_, ?_⟩
    · rwa [handled_split, Option.bind_some, hnext, ← hhandles]
    · rw [hdeliveries, hhistory]
      rcases hsplit t ht with ht | hsame
      · have hne : id' ≠ id := fun hsame => h.other hworkers hhandles t ht (hsame ▸ hid)
        rw [List.mem_append, List.mem_singleton, or_iff_left hne]
        exact h.marked t (hstay t ht) id' hid
      · obtain rfl := Option.some.inj hsame
        obtain rfl : id = id' := Option.some.inj (hnext.symm.trans hid)
        exact ⟨⟨row, hrow, hkey, hstatus⟩, iff_of_true (by simp) hfinished⟩
    · rcases hsplit t ht with ht | hsame
      · exact h.failing t (hstay t ht) id' hid
      · obtain rfl := Option.some.inj hsame
        exact absurd hid (hfailing id')
    · rw [hhistory]
      exact List.mem_append_left _ (h.processed r (hdeliveries ▸ hr) hprocessed)
    · have hr : r ∈ p.shared.tables.deliveries.rows := hdeliveries ▸ hr
      rw [hhistory, List.mem_append, List.mem_singleton, not_or]
      refine ⟨h.failed r hr hfailed, fun hsame => ?_⟩
      rw [Table.eq_of_mem hr hrow (hsame.trans hkey.symm), hstatus] at hfailed
      cases hfailed
    · rw [hdeliveries]
      rw [hhistory, List.mem_append, List.mem_singleton] at hid
      rcases hid with hid | rfl
      · exact h.known id' hid
      · exact ⟨row, hrow, hkey⟩
    · rw [hhistory, ← List.concat_eq_append]
      exact h.once.concat hnot
  | @ended id hhandles error now hunfinished hcalls hdeliveries hhistory =>
    have hdone := (h.marked task htask id hhandles).2
    have hrows : ∀ r ∈ s'.tables.deliveries.rows, r ∈ p.shared.tables.deliveries.rows ∧
        r.deliveryId ≠ id ∨ r.deliveryId = id ∧
          r.status = if error = none then .processed else .failed := by
      intro r hr
      rw [hdeliveries] at hr
      obtain ⟨old, hold, rfl⟩ := List.mem_map.mp hr
      split
      · next hkey => exact .inr ⟨hkey, rfl⟩
      · next hkey => exact .inl ⟨hold, hkey⟩
    have hkept : ∀ r ∈ p.shared.tables.deliveries.rows, r.deliveryId ≠ id →
        r ∈ s'.tables.deliveries.rows := by
      intro r hr hne
      rw [hdeliveries]
      exact List.mem_map.mpr ⟨r, hr, if_neg hne⟩
    refine ⟨?_, fun t ht id' hid => ?_, fun t ht id' hid => ?_, fun r hr hprocessed => ?_,
      fun r hr hfailed => ?_, fun id' hid => ?_, by rw [hhistory]; exact h.once⟩
    · rw [handled_split]
      rw [hhandles] at hsingle
      exact hsingle.sublist (by simp)
    · rcases hsplit t ht with ht | hsame
      · have hne : id' ≠ id := fun hsame => h.other hworkers hhandles t ht (hsame ▸ hid)
        obtain ⟨⟨row, hrow, hkey, hstatus⟩, hmark⟩ := h.marked t (hstay t ht) id' hid
        exact ⟨⟨row, hkept row hrow (hkey ▸ hne), hkey, hstatus⟩, hhistory ▸ hmark⟩
      · cases hsame
    · rcases hsplit t ht with ht | hsame
      · exact h.failing t (hstay t ht) id' hid
      · cases hsame
    · rw [hhistory]
      rcases hrows r hr with ⟨hold, -⟩ | ⟨hkey, hstatus⟩
      · exact h.processed r hold hprocessed
      · rw [hkey]
        refine hdone.mpr fun hopen => ?_
        rw [hstatus, if_neg (hunfinished.mpr hopen)] at hprocessed
        cases hprocessed
    · rw [hhistory]
      rcases hrows r hr with ⟨hold, -⟩ | ⟨hkey, hstatus⟩
      · exact h.failed r hold hfailed
      · rw [hkey]
        refine fun hmem => hdone.mp hmem (hunfinished.mp fun hnone => ?_)
        rw [hstatus, if_pos hnone] at hfailed
        cases hfailed
    · rw [hhistory] at hid
      obtain ⟨r, hr, hkey⟩ := h.known id' hid
      rw [hdeliveries]
      exact ⟨_, List.mem_map.mpr ⟨r, hr, rfl⟩, by split <;> exact hkey⟩

/-- A task that processes no delivery begins. -/
theorem Delivering.spawn (h : Delivering p) (htask : task.handles = none) :
    Delivering (p.spawn task) := by
  have hsplit : ∀ t ∈ (p.spawn task).workers, t ∈ p.workers ∨ t = task := by
    intro t ht
    rcases List.mem_append.mp ht with ht | ht
    · exact .inl ht
    · exact .inr (List.mem_singleton.mp ht)
  refine ⟨?_, fun t ht id hid => ?_, fun t ht id hid => ?_, h.processed, h.failed, h.known, h.once⟩
  · rw [Pool.spawn, List.filterMap_append, List.filterMap_cons_none htask, List.filterMap_nil,
      List.append_nil]
    exact h.single
  · rcases hsplit t ht with ht | rfl
    · exact h.marked t ht id hid
    · rw [htask] at hid
      cases hid
  · rcases hsplit t ht with ht | rfl
    · exact h.failing t ht id hid
    · exact absurd hid ((GitHubTask.not_unfinished htask).2 id)

/-- A task stops. -/
theorem Delivering.drop (h : Delivering p) (hworkers : p.workers = before ++ task :: after) :
    Delivering ⟨p.shared, before ++ after⟩ := by
  have hsublist : (before ++ after).Sublist p.workers := by
    rw [hworkers]
    exact (List.sublist_cons_self task after).append_left before
  exact ⟨h.single.sublist (hsublist.filterMap _),
    fun t ht id hid => h.marked t (hsublist.subset ht) id hid,
    fun t ht id hid => h.failing t (hsublist.subset ht) id hid,
    h.processed, h.failed, h.known, h.once⟩

/-- A delivery begins that no task processes and that was not completed. -/
theorem Delivering.begin (h : Delivering p) {webhook : GitHubWebhook} {tables : GitHubTables}
    (hnot : webhook.deliveryId ∉ completions p.shared.history)
    (hfree : ¬Handled p webhook.deliveryId)
    (hrow : ∃ row ∈ tables.deliveries.rows, row.deliveryId = webhook.deliveryId ∧
      row.status = .processing)
    (hkept : ∀ row ∈ p.shared.tables.deliveries.rows, row.deliveryId ≠ webhook.deliveryId →
      row ∈ tables.deliveries.rows)
    (hrows : ∀ row ∈ tables.deliveries.rows, row.status ≠ .processing →
      row ∈ p.shared.tables.deliveries.rows ∧ row.deliveryId ≠ webhook.deliveryId) :
    Delivering ((p.write ⟨tables, p.shared.history ++
      webhook.handler.job.completes webhook.handler.calls⟩).spawn webhook.handler) := by
  have hhistory : completions (p.shared.history ++
      webhook.handler.job.completes webhook.handler.calls) = completions p.shared.history ++
        if webhook.handler.calls = [] then [webhook.deliveryId] else [] := by
    rw [completions_append, completions_completes]
    rfl
  have hlast : ∀ id ∈ (if webhook.handler.calls = [] then [webhook.deliveryId] else []),
      id = webhook.deliveryId := by
    intro id hid
    split at hid
    · exact List.mem_singleton.mp hid
    · cases hid
  refine ⟨?_, fun t ht id hid => ?_, fun t ht id hid => ?_, fun row hr hprocessed => ?_,
    fun row hr hfailed => ?_, fun id hid => ?_, ?_⟩
  · have hsingle : (p.workers.filterMap GitHubTask.handles ++ [webhook.deliveryId]).Nodup := by
      rw [← List.concat_eq_append]
      refine h.single.concat fun hmem => ?_
      obtain ⟨t, ht, hid⟩ := List.mem_filterMap.mp hmem
      exact hfree ⟨t, ht, hid⟩
    rwa [Pool.spawn, List.filterMap_append]
  · rw [Pool.spawn, List.mem_append, List.mem_singleton] at ht
    change (∃ row ∈ tables.deliveries.rows, row.deliveryId = id ∧ row.status = .processing) ∧
      (id ∈ completions (p.shared.history ++
        webhook.handler.job.completes webhook.handler.calls) ↔ ¬t.Unfinished)
    rw [hhistory, List.mem_append]
    rcases ht with ht | rfl
    · have hne : id ≠ webhook.deliveryId := fun hsame => hfree ⟨t, ht, hsame ▸ hid⟩
      obtain ⟨⟨row, hr, hkey, hstatus⟩, hdone⟩ := h.marked t ht id hid
      refine ⟨⟨row, hkept row hr (hkey ▸ hne), hkey, hstatus⟩, ?_⟩
      rw [or_iff_left fun hmem => hne (hlast id hmem)]
      exact hdone
    · obtain rfl := Option.some.inj hid
      refine ⟨hrow, ?_⟩
      rw [or_iff_right hnot]
      change _ ↔ ¬(webhook.handler.calls ≠ [])
      rw [not_not]
      split
      · next hcalls => exact iff_of_true List.mem_cons_self hcalls
      · next hcalls => exact iff_of_false List.not_mem_nil hcalls
  · rw [Pool.spawn, List.mem_append, List.mem_singleton] at ht
    rcases ht with ht | rfl
    · exact h.failing t ht id hid
    · cases hid
  · obtain ⟨hold, -⟩ := hrows row hr (by rw [hprocessed]; decide)
    exact hhistory ▸ List.mem_append_left _ (h.processed row hold hprocessed)
  · obtain ⟨hold, hne⟩ := hrows row hr (by rw [hfailed]; decide)
    intro hmem
    rcases List.mem_append.mp (hhistory ▸ hmem) with hmem | hmem
    · exact h.failed row hold hfailed hmem
    · exact hne (hlast _ hmem)
  · rcases List.mem_append.mp (hhistory ▸ hid) with hmem | hmem
    · obtain ⟨row, hr, rfl⟩ := h.known id hmem
      exact ⟨row, hkept row hr fun hsame => hnot (hsame ▸ hmem), rfl⟩
    · obtain ⟨row, hr, hkey, -⟩ := hrow
      exact ⟨row, hr, hkey.trans (hlast id hmem).symm⟩
  · change (completions (p.shared.history ++
      webhook.handler.job.completes webhook.handler.calls)).Nodup
    rw [hhistory]
    split
    · rw [← List.concat_eq_append]
      exact h.once.concat hnot
    · rw [List.append_nil]
      exact h.once

/-- A step keeps it that each delivery is processed by one task at a time. -/
theorem Delivering.step (h : Delivering p) (op : GitHubStep) :
    Delivering (githubStep rules p op) := by
  cases op with
  | deliver webhook now =>
    simp only [githubStep]
    split
    · exact h
    · exact h
    · next tables hbegin =>
      rcases GitHubTables.beginDelivery_eq_ok hbegin with ⟨hfalse, -⟩ |
        ⟨-, row, deliveries, hrow, hfailed, rfl, rfl⟩ | ⟨-, hnone, row, hkey, hprocessing, rfl⟩
      · cases hfalse
      · obtain ⟨hstored, hkey⟩ := Table.mem_of_find? hrow
        have hnot : webhook.deliveryId ∉ completions p.shared.history :=
          hkey ▸ h.failed row hstored hfailed
        refine h.begin hnot (fun ⟨t, ht, hid⟩ => ?_) ?_ (fun r hr hne => ?_) fun r hr hother => ?_
        · obtain ⟨⟨other, hother, hsame, hprocessing⟩, -⟩ := h.marked t ht _ hid
          rw [Table.eq_of_mem hother hstored (hsame.trans hkey.symm), hfailed] at hprocessing
          cases hprocessing
        · exact ⟨_, List.mem_map.mpr ⟨row, hstored, if_pos hkey⟩, hkey, rfl⟩
        · exact List.mem_map.mpr ⟨r, hr, if_neg hne⟩
        · obtain ⟨old, hold, rfl⟩ := List.mem_map.mp hr
          split at hother
          · exact absurd rfl hother
          · next hne => simpa [hne] using hold
      · have hstored := Table.find?_eq_none_iff.mp hnone
        refine h.begin (fun hmem => ?_) (fun ⟨t, ht, hid⟩ => ?_) ?_ (fun r hr _ => ?_)
          fun r hr hother => ?_
        · obtain ⟨r, hr, hsame⟩ := h.known _ hmem
          exact hstored r hr hsame
        · obtain ⟨⟨r, hr, hsame, -⟩, -⟩ := h.marked t ht _ hid
          exact hstored r hr hsame
        · exact ⟨row, Table.mem_insertOrIgnore_self (hkey ▸ hnone), hkey, hprocessing⟩
        · exact Table.mem_insertOrIgnore_of_mem hr
        · rcases Table.mem_insertOrIgnore hr with hold | ⟨-, rfl⟩
          · exact ⟨hold, hstored r hold⟩
          · exact absurd hprocessing hother
  | bind userId installationId =>
    simp only [githubStep]
    split
    · exact h
    · exact h.spawn rfl
  | reconcile userId installationId => exact h.spawn rfl
  | turn i now answer =>
    rcases p.turn_cases i (GitHubTask.turn rules now answer) with
      hturn | ⟨before, task, after, hworkers, htask, hturn⟩
    · rwa [githubStep, hturn]
    · rw [githubStep, hturn]
      exact h.move hworkers
        (GitHubTask.turn_move p.shared (h.failing task (by simp [hworkers])))
  | stop i =>
    rcases p.turn_cases i (fun (_ : GitHubTask) s => (s, none)) with
      hturn | ⟨before, task, after, hworkers, htask, hturn⟩
    · rwa [githubStep, hturn]
    · rw [githubStep, hturn, Option.toList_none, List.append_nil]
      exact h.drop hworkers

/-- A delivery is processed anew exactly when it failed. -/
theorem redelivers_iff {row : GitHubDelivery} (hrow : row ∈ p.shared.tables.deliveries.rows) :
    Redelivers rules p row ↔ row.status = .failed := by
  have hagain := GitHubTables.beginDelivery_again (Table.find?_of_mem hrow)
  constructor
  · intro hanew
    by_contra hother
    have hworkers := hanew ⟨row.deliveryId, "", .null, row.payloadSha256⟩ 0 rfl rfl
    have hsame : (githubStep rules p
        (.deliver ⟨row.deliveryId, "", .null, row.payloadSha256⟩ 0)).workers = p.workers := by
      simp only [githubStep, hagain]
      cases hstatus : row.status with
      | processing => rfl
      | processed => rfl
      | failed => exact absurd hstatus hother
    rw [hsame, List.self_eq_append_right] at hworkers
    cases hworkers
  · intro hfailed webhook now hid hdigest
    simp only [githubStep, hid, hdigest, hagain, hfailed]
    rw [← hid]
    rfl

/-- What is marked as being processed is completed, or a task processes it. -/
def Attended (p : Pool GitHubState GitHubTask) : Prop :=
  ∀ row ∈ p.shared.tables.deliveries.rows, row.status = .processing →
    row.deliveryId ∈ completions p.shared.history ∨ Handled p row.deliveryId

/-- A delivery that is not completed can be retried exactly when those that are marked as being
processed are. -/
theorem Delivering.retried_iff (h : Delivering p) : DeliveriesRetried rules p ↔ Attended p := by
  constructor
  · intro hretried row hrow hprocessing
    by_cases hdone : row.deliveryId ∈ completions p.shared.history
    · exact .inl hdone
    · rcases hretried row hrow hdone with hhandled | hanew
      · exact .inr hhandled
      · rw [(redelivers_iff hrow).mp hanew] at hprocessing
        cases hprocessing
  · intro hattended row hrow hopen
    cases hstatus : row.status with
    | processing => exact .inl ((hattended row hrow hstatus).resolve_left hopen)
    | processed => exact absurd (h.processed row hrow hstatus) hopen
    | failed => exact .inr ((redelivers_iff hrow).mpr hstatus)

/-- A turn leaves what is marked as being processed attended. -/
theorem Attended.move (hattended : Attended p) (hworkers : p.workers = before ++ task :: after)
    (hmove : DeliveryMove p.shared task s' next) :
    Attended ⟨s', before ++ next.toList ++ after⟩ := by
  have hhandled : ∀ {id}, Handled p id → task.handles = some id ∨
      Handled ⟨s', before ++ next.toList ++ after⟩ id := by
    rintro id ⟨t, ht, hid⟩
    rw [hworkers, List.mem_append, List.mem_cons] at ht
    rcases ht with ht | rfl | ht
    · exact .inr ⟨t, by simp [ht], hid⟩
    · exact .inl hid
    · exact .inr ⟨t, by simp [ht], hid⟩
  have hnext : ∀ {id}, next.bind GitHubTask.handles = some id →
      Handled ⟨s', before ++ next.toList ++ after⟩ id := by
    intro id hid
    obtain ⟨t, rfl, ht⟩ := Option.bind_eq_some_iff.mp hid
    exact ⟨t, by simp, ht⟩
  intro row hrow hprocessing
  cases hmove with
  | stay hdeliveries hhistory hhandles hgoesOn =>
    rw [hhistory]
    refine (hattended row (hdeliveries ▸ hrow) hprocessing).imp_right fun hmarked => ?_
    exact (hhandled hmarked).elim (fun hid => hnext (hhandles.trans hid)) id
  | @complete hdeliveries id hhandles hunfinished hhistory t ht hfinished hfailing =>
    rw [hhistory]
    refine (hattended row (hdeliveries ▸ hrow) hprocessing).imp (List.mem_append_left _)
      fun hmarked => ?_
    refine (hhandled hmarked).elim (fun hid => hnext ?_) fun hstays => hstays
    exact ht.trans (hhandles.symm.trans hid)
  | @ended id hhandles error now hunfinished hcalls hdeliveries hhistory =>
    rw [hhistory]
    rw [hdeliveries] at hrow
    obtain ⟨old, hold, rfl⟩ := List.mem_map.mp hrow
    by_cases hkey : old.deliveryId = id
    · rw [if_pos hkey] at hprocessing
      have hnot : (if error = none then DeliveryStatus.processed else .failed) ≠ .processing := by
        split <;> simp
      exact absurd hprocessing hnot
    · rw [if_neg hkey] at hprocessing ⊢
      refine (hattended old hold hprocessing).imp_right fun hmarked => ?_
      refine (hhandled hmarked).resolve_left fun hid => hkey ?_
      exact Option.some.inj (hid.symm.trans hhandles)

/-- A task that stops leaves what is marked as being processed attended, unless it is unfinished. -/
theorem Delivering.attended_drop (h : Delivering p) (hattended : Attended p)
    (hworkers : p.workers = before ++ task :: after) :
    Attended ⟨p.shared, before ++ after⟩ ↔ ¬task.Unfinished := by
  have htask : task ∈ p.workers := by simp [hworkers]
  constructor
  · intro hrest hunfinished
    have hhandles : task.handles ≠ none :=
      fun hnone => (GitHubTask.not_unfinished hnone).1 hunfinished
    obtain ⟨id, hid⟩ := Option.ne_none_iff_exists'.mp hhandles
    obtain ⟨⟨row, hrow, rfl, hprocessing⟩, hdone⟩ := h.marked task htask id hid
    rcases hrest row hrow hprocessing with hmem | ⟨t, ht, hsame⟩
    · exact hdone.mp hmem hunfinished
    · exact h.other hworkers hid t ht hsame
  · intro hfinished row hrow hprocessing
    rcases hattended row hrow hprocessing with hmem | ⟨t, ht, hid⟩
    · exact .inl hmem
    · rw [hworkers, List.mem_append, List.mem_cons] at ht
      rcases ht with ht | rfl | ht
      · exact .inr ⟨t, List.mem_append_left _ ht, hid⟩
      · exact .inl ((h.marked t htask _ hid).2.mpr hfinished)
      · exact .inr ⟨t, List.mem_append_right _ ht, hid⟩

/-- A task begins. -/
theorem Attended.spawn (hattended : Attended p) (s' : GitHubState)
    (hhistory : completions p.shared.history ⊆ completions s'.history)
    (hrows : ∀ row ∈ s'.tables.deliveries.rows, row.status = .processing →
      row ∈ p.shared.tables.deliveries.rows ∨ task.handles = some row.deliveryId) :
    Attended ((p.write s').spawn task) := by
  intro row hrow hprocessing
  rcases hrows row hrow hprocessing with hold | hid
  · refine (hattended row hold hprocessing).imp (fun hmem => hhistory hmem) fun ⟨t, ht, hid⟩ => ?_
    exact ⟨t, List.mem_append_left _ ht, hid⟩
  · exact .inr ⟨task, by simp [Pool.spawn], hid⟩

/-- A step leaves what is marked as being processed attended exactly when it abandons nothing. -/
theorem attended_step (h : Delivering p) (hattended : Attended p) (op : GitHubStep) :
    ¬op.Abandons p ↔ Attended (githubStep rules p op) := by
  cases op with
  | deliver webhook now =>
    refine iff_of_true id ?_
    simp only [githubStep]
    split
    · exact hattended
    · exact hattended
    · next tables hbegin =>
      refine hattended.spawn _ ?_ fun row hrow hprocessing => ?_
      · rw [completions_append]
        exact List.subset_append_left _ _
      rcases GitHubTables.beginDelivery_eq_ok hbegin with ⟨hfalse, -⟩ |
        ⟨-, _, deliveries, -, -, rfl, rfl⟩ | ⟨-, -, inserted, hkey, -, rfl⟩
      · cases hfalse
      · obtain ⟨old, hold, rfl⟩ := List.mem_map.mp hrow
        by_cases hkey : old.deliveryId = webhook.deliveryId
        · rw [if_pos hkey]
          exact .inr (congrArg some hkey.symm)
        · rw [if_neg hkey]
          exact .inl hold
      · rcases Table.mem_insertOrIgnore hrow with hold | ⟨-, rfl⟩
        · exact .inl hold
        · exact .inr (congrArg some hkey.symm)
  | bind userId installationId =>
    refine iff_of_true id ?_
    simp only [githubStep]
    split
    · exact hattended
    · exact hattended.spawn p.shared (List.Subset.refl _) fun row hrow _ => .inl hrow
  | reconcile userId installationId =>
    refine iff_of_true id ?_
    exact hattended.spawn p.shared (List.Subset.refl _) fun row hrow _ => .inl hrow
  | turn i now answer =>
    refine iff_of_true id ?_
    rcases p.turn_cases i (GitHubTask.turn rules now answer) with
      hturn | ⟨before, task, after, hworkers, htask, hturn⟩
    · rwa [githubStep, hturn]
    · rw [githubStep, hturn]
      exact hattended.move hworkers
        (GitHubTask.turn_move p.shared (h.failing task (by simp [hworkers])))
  | stop i =>
    cases htask : p.workers[i]? with
    | none =>
      rw [githubStep, Pool.turn_none htask]
      exact iff_of_true (by simp [GitHubStep.Abandons, htask]) hattended
    | some task =>
      obtain ⟨before, after, hworkers, hturn⟩ := Pool.turn_split htask fun _ s => (s, none)
      rw [githubStep, hturn, Option.toList_none, List.append_nil,
        h.attended_drop hattended hworkers]
      simp [GitHubStep.Abandons, htask]

/-- How many more statements a call can be before it is made. -/
def CallStage.left : CallStage → ℕ
  | .start => 2
  | .owned _ => 1
  | .ready _ _ => 0

/-- A call that goes on has fewer statements left. -/
theorem StoreCall.left_turn {call : StoreCall} {stage stage' : CallStage} {now : ℤ}
    {db tables : GitHubTables} (h : call.turn rules now db stage = .ok (tables, some stage')) :
    stage'.left < stage.left := by
  cases call with
  | upsertInstallation payload userId status =>
    simp only [StoreCall.turn] at h
    split at h
    · cases h
    · split at h
      · simp only [bind_eq_ok] at h
        obtain ⟨_, -, h⟩ := h
        split at h <;>
        · obtain ⟨-, hstage⟩ := Prod.mk.inj (Except.ok.inj h)
          obtain rfl := Option.some.inj hstage
          simp [CallStage.left]
      · obtain ⟨-, hstage⟩ := Prod.mk.inj (Except.ok.inj h)
        obtain rfl := Option.some.inj hstage
        simp [CallStage.left]
      · simp only [bind_eq_ok, pure_eq_ok, Prod.mk.injEq] at h
        obtain ⟨-, -, -, hstage⟩ := h
        cases hstage
  | setInstallationStatus id status => cases h
  | upsertRepository id repo =>
    simp only [StoreCall.turn, bind_eq_ok, pure_eq_ok, Prod.mk.injEq] at h
    obtain ⟨-, -, -, hstage⟩ := h
    cases hstage
  | removeRepositories id ids => cases h
  | deactivateOthers id seen => cases h
  | raise e => cases h

/-- A task that processes a delivery and goes on ends: its delivery is complete and processed, or
failed. -/
theorem Delivering.ends (h : Delivering p) {i : ℕ} (htask : p.workers[i]? = some task)
    (hid : task.handles = some id) (now : ℤ) (answer : Except GitHubAppError Json) :
    ∃ n, let s := (run (githubStep rules) p (List.replicate n (.turn i now answer))).shared
      ∃ row ∈ s.tables.deliveries.rows, row.deliveryId = id ∧
        (row.status = .processed ∧ id ∈ completions s.history ∨ row.status = .failed) := by
  induction hleft : 3 * task.calls.length + task.stage.left using Nat.strong_induction_on
    generalizing p task with
  | _ left ih =>
    have hmem := List.mem_of_getElem? htask
    have hnext : Delivering (githubStep rules p (.turn i now answer)) :=
      h.step (.turn i now answer)
    -- One turn, and then those of the task that goes on.
    have goOn : ∀ {next : GitHubTask}, (task.turn rules now answer p.shared).2 = some next →
        next.handles = some id → 3 * next.calls.length + next.stage.left < left →
        ∃ n, let s := (run (githubStep rules) p (List.replicate n (.turn i now answer))).shared
          ∃ row ∈ s.tables.deliveries.rows, row.deliveryId = id ∧
            (row.status = .processed ∧ id ∈ completions s.history ∨ row.status = .failed) := by
      intro next hgoes hsame hless
      obtain ⟨n, hn⟩ := ih _ hless hnext (Pool.getElem?_turn htask hgoes) hsame rfl
      exact ⟨n + 1, hn⟩
    rcases task.turn_cases rules now answer p.shared with
      ⟨hcalls, hturn⟩ | ⟨call, calls, hcalls, ⟨e, -, hturn⟩ | ⟨tables, stage, hcall, hturn⟩ |
        ⟨tables, -, hturn⟩⟩
    · obtain ⟨⟨row, hrow, hkey, -⟩, hdone⟩ := h.marked task hmem id hid
      refine ⟨1, ?_⟩
      simp only [List.replicate_one, run_cons, run_nil, githubStep, Pool.shared_turn htask, hturn]
      obtain ⟨calls, stage, job⟩ := task
      cases job with
      | finish deliveryId event =>
        obtain rfl : deliveryId = id := Option.some.inj hid
        refine ⟨_, List.mem_map.mpr ⟨row, hrow, if_pos hkey⟩, hkey, .inl ⟨rfl, ?_⟩⟩
        exact hdone.mpr fun hopen => hopen hcalls
      | failed deliveryId =>
        obtain rfl : deliveryId = id := Option.some.inj hid
        exact ⟨_, List.mem_map.mpr ⟨row, hrow, if_pos hkey⟩, hkey, .inr rfl⟩
      | bind | check | reconcile | pages | done => cases hid
    · have hfailing := h.failing task hmem
      obtain ⟨calls', stage, job⟩ := task
      obtain rfl : calls' = call :: calls := hcalls
      cases job with
      | finish deliveryId event =>
        refine goOn (congrArg Prod.snd hturn) hid ?_
        simp only [CallStage.left, List.length_cons, List.length_nil] at hleft ⊢
        omega
      | failed deliveryId => cases hfailing deliveryId rfl
      | bind | check | reconcile | pages | done => cases hid
    · refine goOn (congrArg Prod.snd hturn) hid ?_
      have hless := StoreCall.left_turn hcall
      dsimp only
      omega
    · refine goOn (congrArg Prod.snd hturn) hid ?_
      rw [hcalls] at hleft
      simp only [CallStage.left, List.length_cons] at hleft ⊢
      omega

end Steps

/-- In every run each delivery is completed at most once, and a task that processes one and goes on
ends. A delivery that was not completed is being processed, or is processed when it is delivered
once more, throughout a run exactly when no task stops before its delivery is completed or its
failure is recorded. -/
theorem webhook_deliveries_settled (rules : GitHubRules) (steps : List GitHubStep) :
    let p := run (githubStep rules) ⟨.initial, []⟩ steps
    (completions p.shared.history).Nodup ∧
      (∀ (i : ℕ) (task : GitHubTask) (id : String), p.workers[i]? = some task →
        task.handles = some id → ∀ (now : ℤ) (answer : Except GitHubAppError Json), ∃ n,
          let s := (run (githubStep rules) p (List.replicate n (.turn i now answer))).shared
          ∃ row ∈ s.tables.deliveries.rows, row.deliveryId = id ∧
            (row.status = .processed ∧ id ∈ completions s.history ∨ row.status = .failed)) ∧
      (RunMeets (githubStep rules) (fun p op => ¬op.Abandons p) ⟨.initial, []⟩ steps ↔
        ∀ before after, steps = before ++ after →
          DeliveriesRetried rules (run (githubStep rules) ⟨.initial, []⟩ before)) := by
  have hinitial : Delivering ⟨.initial, []⟩ := by
    refine ⟨List.nodup_nil, ?_, ?_, ?_, ?_, ?_, List.nodup_nil⟩ <;> · intro _ h; cases h
  have hreached : ∀ steps, Delivering (run (githubStep rules) ⟨.initial, []⟩ steps) :=
    fun steps => run_invariant' (fun p op h => h.step op) steps hinitial
  refine ⟨(hreached steps).once, fun i task id htask hid now answer =>
    (hreached steps).ends htask hid now answer, ?_⟩
  have hiff := @runMeets_iff_reached _ _ (githubStep rules) (fun _ _ => True)
    (fun p op => ¬op.Abandons p) Delivering Attended
    (fun p op h _ => h.step op) (fun p op h _ hattended => attended_step h hattended op) _ _
    (runMeets_of_forall (fun _ _ => trivial) _ steps) hinitial fun _ h => by cases h
  rw [hiff]
  exact forall₃_congr fun before _ _ => (hreached before).retried_iff.symm

open GitHubSample

namespace DeliverySample

/-- An installation was deleted. -/
def deleted : GitHubWebhook := delivery "first" "installation" "deleted" []

/-- The delivery begins, and its task stops before it makes its call. -/
def abandoned : Pool GitHubState GitHubTask :=
  run (githubStep rules) ⟨.initial, []⟩ [.deliver deleted 0, .stop 0]

end DeliverySample

open DeliverySample

/-- A delivery whose task stopped is not completed, no task processes it, and it is refused whenever
it is delivered again. -/
theorem abandoned_delivery_refused :
    (∃ row ∈ abandoned.shared.tables.deliveries.rows, row.deliveryId = deleted.deliveryId) ∧
      completions abandoned.shared.history = [] ∧ abandoned.workers = [] ∧
      ∀ now, githubStep rules abandoned (.deliver deleted now) = abandoned := by
  exact ⟨by decide, rfl, rfl, fun _ => rfl⟩

end Magistrate
