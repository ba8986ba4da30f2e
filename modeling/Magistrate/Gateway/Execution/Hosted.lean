import Magistrate.Gateway.Execution.State
import Mathlib.Data.List.Sort

/-!
# Hosted runs

Controllers claim queued runs under a lease, launch them, and requeue what
failed to launch; a claim also requeues every run whose lease has expired. Any
number of controllers share the runs, each of their transactions is one step.
-/

namespace Magistrate

/-- `HostedExecutionConfig`, with the identities and run ids that it hashes. -/
structure HostedExecutionConfig where
  maxGlobal : ℕ
  maxPerTenant : ℕ
  leaseMs : ℕ
  identities : String → String → String → String × String × String
  runId : String → String → String

/-- What a claim draws at random: a worker token for each run it creates, hashed and encrypted, and
its lease. -/
structure ClaimDraws where
  workerToken : String → String × String
  leaseId : String

namespace HostedRun

/-- Runs that count against the capacity. -/
def active (r : HostedRun) : Bool := r.state = .launching ∨ r.state = .running

/-- Active runs of a tenant. -/
def activeFor (tenant : String) (r : HostedRun) : Bool := r.tenantKey = tenant ∧ r.active

/-- Two runs that a unique key keeps apart. -/
def collides (r s : HostedRun) : Bool :=
  s.taskId = r.taskId ∨ s.runId = r.runId ∨ s.backendExecutionId = r.backendExecutionId ∨
    s.workerTokenHash = r.workerTokenHash

/-- A launching run whose lease has expired. -/
def expired (now : ℤ) (r : HostedRun) : Bool :=
  r.state = .launching ∧ r.leaseExpiresAt.any (· < now)

/-- A run that waits for a claim. -/
abbrev requeued (now : ℤ) (r : HostedRun) : HostedRun :=
  { r with
    state := .queued
    leaseId := none
    leaseExpiresAt := none
    updatedAt := now }

/-- A run that a claim leased. -/
abbrev leased (leaseId : String) (expires now : ℤ) (r : HostedRun) : HostedRun :=
  { r with
    state := .launching
    attemptCount := r.attemptCount + 1
    leaseId := some leaseId
    leaseExpiresAt := some expires
    lastErrorCode := none
    updatedAt := now }

/-- A run that was launched. -/
abbrev started (now : ℤ) (r : HostedRun) : HostedRun :=
  { r with
    state := .running
    leaseId := none
    leaseExpiresAt := none
    updatedAt := now }

/-- A run that is over. -/
abbrev retired (now : ℤ) (r : HostedRun) : HostedRun :=
  { r with
    state := .terminal
    leaseId := none
    leaseExpiresAt := none
    workerTokenHash := "retired:" ++ r.objectiveId
    workerTokenEnc := ""
    updatedAt := now }

end HostedRun

namespace HostedExecutionStore

/-- The run of an accepted submission. -/
def newRun (config : HostedExecutionConfig) (draws : ClaimDraws) (now : ℤ)
    (s : ObjectiveSubmission) : HostedRun :=
  let (tenant, isolation, execution) := config.identities s.ownerUserId s.project s.objectiveId
  { ownerUserId := s.ownerUserId
    objectiveId := s.objectiveId
    taskId := s.taskId
    runId := config.runId s.ownerUserId s.objectiveId
    project := s.project
    tenantKey := tenant
    isolationKey := isolation
    backendExecutionId := execution
    workerTokenHash := (draws.workerToken s.objectiveId).1
    workerTokenEnc := (draws.workerToken s.objectiveId).2
    state := .queued
    attemptCount := 0
    leaseId := none
    leaseExpiresAt := none
    lastErrorCode := none
    terminalObservedAt := none
    cleanedAt := none
    createdAt := now
    updatedAt := now }

/-- `INSERT OR IGNORE INTO hosted_execution_runs` -/
def offerRun (runs : Table HostedRun.objectiveId) (r : HostedRun) : Table HostedRun.objectiveId :=
  if runs.rows.any r.collides then runs else runs.insertOrIgnore r

/-- The accepted submissions without a run, oldest first. -/
def unclaimed (db : Execution) : List ObjectiveSubmission :=
  ((db.submissions.rows.filter fun s =>
    s.status = .accepted ∧ db.runs.find? s.objectiveId = none).insertionSort fun s t =>
      if s.acceptedAt = t.acceptedAt then s.createdAt ≤ t.createdAt
      else s.acceptedAt.all fun a => t.acceptedAt.any (a ≤ ·)).take 200

/-- The runs with those of new submissions, and without expired leases. -/
def openedRuns (config : HostedExecutionConfig) (draws : ClaimDraws) (now : ℤ) (db : Execution) :
    Table HostedRun.objectiveId :=
  ((unclaimed db).foldl (fun runs s => offerRun runs (newRun config draws now s))
    db.runs).updateWhere (HostedRun.expired now) (HostedRun.requeued now)

/-- The queued runs that no cancellation holds back, oldest first. -/
def launchable (db : Execution) (runs : Table HostedRun.objectiveId) : List HostedRun :=
  ((runs.rows.filter fun r => r.state = .queued ∧ db.submissions.find? r.objectiveId ≠ none ∧
    ¬db.cancellationRequested r.ownerUserId r.objectiveId).insertionSort fun r s =>
      r.createdAt ≤ s.createdAt).take 200

/-- Lease a run. -/
def leaseRun (config : HostedExecutionConfig) (draws : ClaimDraws) (now : ℤ) (r : HostedRun)
    (runs : Table HostedRun.objectiveId) : Table HostedRun.objectiveId :=
  runs.update r.objectiveId (HostedRun.leased draws.leaseId (now + config.leaseMs) now)

/-- `claim`: lease the oldest launchable run within the capacity. -/
def claim (config : HostedExecutionConfig) (draws : ClaimDraws) (now : ℤ) (db : Execution) :
    Option HostedRun × Execution :=
  let runs := openedRuns config draws now db
  if config.maxGlobal ≤ runs.rows.countP HostedRun.active then (none, { db with runs })
  else
    match (launchable db runs).find? fun r =>
        runs.rows.countP (HostedRun.activeFor r.tenantKey) < config.maxPerTenant with
    | none => (none, { db with runs })
    | some r =>
      (some { r with leaseId := some draws.leaseId, attemptCount := r.attemptCount + 1 },
        { db with runs := leaseRun config draws now r runs })

/-- The launching run that a lease is of. -/
def leasedRun (objectiveId leaseId : String) (db : Execution) : Option HostedRun :=
  (db.runs.find? objectiveId).filter fun r => r.state = .launching ∧ r.leaseId = some leaseId

/-- `launched` -/
def launched (objectiveId leaseId : String) (now : ℤ) (db : Execution) :
    Except ExecutionFailure Execution :=
  match leasedRun objectiveId leaseId db with
  | none => .error (.runtimeError "Hosted execution launch lease was lost")
  | some _ => .ok { db with runs := db.runs.update objectiveId (HostedRun.started now) }

/-- `launch_failed` -/
def launchFailed (objectiveId leaseId : String) (now : ℤ) (db : Execution) : Execution :=
  match leasedRun objectiveId leaseId db with
  | none => db
  | some _ => { db with runs := db.runs.update objectiveId fun r =>
      { r.requeued now with lastErrorCode := some "launch_failed" } }

/-- `terminal_timestamp`: the first time at which an end was observed. -/
def terminalTimestamp (objectiveId : String) (now : ℤ) (db : Execution) : Execution :=
  { db with runs := db.runs.update objectiveId fun r =>
      { r with terminalObservedAt := some (r.terminalObservedAt.getD now) } }

/-- `mark_terminal` -/
def markTerminal (owner objectiveId : String) (now : ℤ) (db : Execution) : Execution :=
  let runs := db.runs.updateWhere
    (fun r => r.ownerUserId = owner ∧ r.objectiveId = objectiveId) (HostedRun.retired now)
  { db with runs }

/-- `retire_owner`: end every run of an owner that is not cleaned up. -/
def retireOwner (owner : String) (now : ℤ) (db : Execution) : Execution :=
  let runs := db.runs.updateWhere
    (fun r => r.ownerUserId = owner ∧ r.cleanedAt = none) (HostedRun.retired now)
  { db with runs }

/-- `cleaned` -/
def cleaned (objectiveId : String) (now : ℤ) (db : Execution) : Execution :=
  { db with runs := db.runs.update objectiveId fun r =>
      { r with cleanedAt := some now, updatedAt := now } }

end HostedExecutionStore

/-- A transaction of a controller, or a write of others to the tables that controllers read. -/
inductive HostedStep where
  | claim (draws : ClaimDraws) (now : ℤ)
  | launched (objectiveId leaseId : String) (now : ℤ)
  | launchFailed (objectiveId leaseId : String) (now : ℤ)
  | terminalTimestamp (objectiveId : String) (now : ℤ)
  | markTerminal (owner objectiveId : String) (now : ℤ)
  | retireOwner (owner : String) (now : ℤ)
  | cleaned (objectiveId : String) (now : ℤ)
  | submissions (submissions : Table ObjectiveSubmission.objectiveId)
  | cancellations (cancellations : Table CancellationRequest.requestId)

open HostedExecutionStore

/-- The tables after a step. -/
def hostedStep (config : HostedExecutionConfig) (db : Execution) : HostedStep → Execution
  | .claim draws now => (claim config draws now db).2
  | .launched objectiveId leaseId now => commit (launched objectiveId leaseId now db) db
  | .launchFailed objectiveId leaseId now => launchFailed objectiveId leaseId now db
  | .terminalTimestamp objectiveId now => terminalTimestamp objectiveId now db
  | .markTerminal owner objectiveId now => markTerminal owner objectiveId now db
  | .retireOwner owner now => retireOwner owner now db
  | .cleaned objectiveId now => cleaned objectiveId now db
  | .submissions submissions => { db with submissions }
  | .cancellations cancellations => { db with cancellations }

namespace HostedExecutionStore

variable {config : HostedExecutionConfig} {draws : ClaimDraws} {now : ℤ} {db : Execution}

/-- An offered run leaves the others. -/
theorem find?_offerRun {runs : Table HostedRun.objectiveId} {id : String} {r : HostedRun}
    (h : runs.find? id = some r) (new : HostedRun) : (offerRun runs new).find? id = some r := by
  unfold offerRun
  split
  · exact h
  · rw [Table.find?_insertOrIgnore, h, Option.some_or]

/-- An offered queued run does not count. -/
theorem countP_offerRun_le {p : HostedRun → Bool} {new : HostedRun} (hp : p new = false)
    (runs : Table HostedRun.objectiveId) :
    (offerRun runs new).rows.countP p ≤ runs.rows.countP p := by
  unfold offerRun
  split
  · exact le_refl _
  · by_cases h : runs.find? new.objectiveId = none
    · rw [Table.rows_insertOrIgnore h, List.countP_append, List.countP_singleton, hp]
      simp
    · rw [Table.insertOrIgnore_of_ne_none h]

/-- Opening the runs keeps them, but for expired leases. -/
theorem find?_openedRuns (config : HostedExecutionConfig) (draws : ClaimDraws) (now : ℤ)
    {id : String} {r : HostedRun} (h : db.runs.find? id = some r) :
    (openedRuns config draws now db).find? id =
      some (if r.expired now then r.requeued now else r) := by
  have hoffered : (run (fun runs s => offerRun runs (newRun config draws now s)) db.runs
      (unclaimed db)).find? id = some r :=
    run_invariant' (I := fun runs : Table HostedRun.objectiveId => runs.find? id = some r)
      (fun _ _ hr => find?_offerRun hr _) (unclaimed db) h
  rw [openedRuns, Table.find?_updateWhere]
  exact congrArg (Option.map _) hoffered

/-- Opening the runs adds none to the active ones. -/
theorem countP_openedRuns_le {p : HostedRun → Bool} (hp : ∀ r, p r = true → r.active = true) :
    (openedRuns config draws now db).rows.countP p ≤ db.runs.rows.countP p := by
  have hqueued : ∀ r : HostedRun, r.state = .queued → p r = false := by
    intro r hr
    refine Bool.eq_false_iff.mpr fun h => ?_
    simpa [HostedRun.active, hr] using hp r h
  have hoffered : (run (fun runs s => offerRun runs (newRun config draws now s)) db.runs
      (unclaimed db)).rows.countP p ≤ db.runs.rows.countP p :=
    run_invariant'
      (I := fun runs : Table HostedRun.objectiveId => runs.rows.countP p ≤ db.runs.rows.countP p)
      (fun runs s hle => (countP_offerRun_le (hqueued _ rfl) runs).trans hle) (unclaimed db) le_rfl
  refine (Table.countP_updateWhere_le fun r _ _ h => ?_).trans hoffered
  rw [hqueued (r.requeued now) rfl] at h
  exact absurd h Bool.false_ne_true

/-- A claim opens the runs, and may lease one that is launchable within the capacity. -/
theorem claim_cases (config : HostedExecutionConfig) (draws : ClaimDraws) (now : ℤ)
    (db : Execution) :
    let runs := openedRuns config draws now db
    claim config draws now db = (none, { db with runs }) ∨
      ∃ r ∈ runs.rows, r.state = .queued ∧
        ¬db.cancellationRequested r.ownerUserId r.objectiveId ∧
        runs.rows.countP HostedRun.active < config.maxGlobal ∧
        runs.rows.countP (HostedRun.activeFor r.tenantKey) < config.maxPerTenant ∧
        claim config draws now db =
          (some { r with leaseId := some draws.leaseId, attemptCount := r.attemptCount + 1 },
            { db with runs := leaseRun config draws now r runs }) := by
  intro runs
  unfold claim
  simp only
  split
  · exact .inl rfl
  · next hglobal =>
    split
    · exact .inl rfl
    · next r hfound =>
      have htenant := List.find?_some hfound
      have hmem := List.mem_of_find?_eq_some hfound
      have hlaunchable := (List.mem_insertionSort _).mp (List.mem_of_mem_take hmem)
      obtain ⟨hr, hstate⟩ := List.mem_filter.mp hlaunchable
      obtain ⟨hqueued, -, hheld⟩ := of_decide_eq_true hstate
      exact .inr ⟨r, hr, hqueued, hheld, not_le.mp hglobal, of_decide_eq_true htenant, rfl⟩

end HostedExecutionStore

namespace HostedRun

/-- What a step does to a run: nothing to its state and lease, or one of the transitions, with who
may make it. -/
inductive Follows (op : HostedStep) (r r' : HostedRun) : Prop
  | kept (state : r'.state = r.state) (lease : r'.leaseId = r.leaseId)
      (expires : r'.leaseExpiresAt = r.leaseExpiresAt)
  | reclaimed (draws : ClaimDraws) (now : ℤ) (step : op = .claim draws now)
      (expired : r.expired now = true) (state : r'.state = .queued) (lease : r'.leaseId = none)
  | leased (draws : ClaimDraws) (now : ℤ) (step : op = .claim draws now)
      (free : r.state = .queued ∨ r.expired now = true) (state : r'.state = .launching)
      (lease : r'.leaseId = some draws.leaseId)
  | started (leaseId : String) (now : ℤ) (step : op = .launched r.objectiveId leaseId now)
      (launching : r.state = .launching) (holder : r.leaseId = some leaseId)
      (state : r'.state = .running) (lease : r'.leaseId = none)
  | failed (leaseId : String) (now : ℤ) (step : op = .launchFailed r.objectiveId leaseId now)
      (launching : r.state = .launching) (holder : r.leaseId = some leaseId)
      (state : r'.state = .queued) (lease : r'.leaseId = none)
  | retired (state : r'.state = .terminal) (lease : r'.leaseId = none)

/-- A step of its own keeps a run as it is. -/
theorem Follows.refl (op : HostedStep) (r : HostedRun) : Follows op r r := .kept rfl rfl rfl

end HostedRun

namespace HostedExecutionStore

variable {config : HostedExecutionConfig} {db : Execution} {id : String} {r : HostedRun}

/-- The run that a lease is of. -/
theorem leasedRun_eq_some {objectiveId leaseId : String}
    (h : leasedRun objectiveId leaseId db = some r) :
    db.runs.find? objectiveId = some r ∧ r.state = .launching ∧ r.leaseId = some leaseId := by
  obtain ⟨hfind, hr⟩ := Option.filter_eq_some_iff.mp h
  exact ⟨hfind, of_decide_eq_true hr⟩

/-- A claim follows on every run. -/
theorem claim_follows (draws : ClaimDraws) (now : ℤ) (h : db.runs.find? id = some r) :
    ∃ r', (claim config draws now db).2.runs.find? id = some r' ∧
      r'.tenantKey = r.tenantKey ∧ r'.ownerUserId = r.ownerUserId ∧
      HostedRun.Follows (.claim draws now) r r' := by
  have hopened := find?_openedRuns config draws now h
  have hreclaim : ∃ r', (openedRuns config draws now db).find? id = some r' ∧
      r'.tenantKey = r.tenantKey ∧ r'.ownerUserId = r.ownerUserId ∧
      HostedRun.Follows (.claim draws now) r r' ∧
      (r'.state = .queued → r.state = .queued ∨ r.expired now = true) := by
    by_cases hexpired : r.expired now = true
    · rw [if_pos hexpired] at hopened
      exact ⟨_, hopened, rfl, rfl, .reclaimed draws now rfl hexpired rfl rfl,
        fun _ => .inr hexpired⟩
    · rw [if_neg hexpired] at hopened
      exact ⟨r, hopened, rfl, rfl, .refl _ r, .inl⟩
  obtain ⟨opened, hfind, htenant, howner, hfollows, hfree⟩ := hreclaim
  rcases claim_cases config draws now db with hnone | ⟨s, hs, hqueued, -, -, -, hclaim⟩
  · rw [hnone]
    exact ⟨opened, hfind, htenant, howner, hfollows⟩
  · rw [hclaim]
    simp only [leaseRun]
    rw [Table.find?_update, hfind, Option.map_some]
    by_cases hid : id = s.objectiveId
    · obtain rfl : opened = s := by
        have hfound := Table.find?_of_mem hs
        rw [← hid, hfind] at hfound
        exact Option.some.inj hfound
      rw [if_pos hid]
      exact ⟨_, rfl, htenant, howner, .leased draws now rfl (hfree hqueued) rfl rfl⟩
    · rw [if_neg hid]
      exact ⟨opened, rfl, htenant, howner, hfollows⟩

/-- Every step follows on every run. -/
theorem step_follows (config : HostedExecutionConfig) (op : HostedStep)
    (h : db.runs.find? id = some r) :
    ∃ r', (hostedStep config db op).runs.find? id = some r' ∧
      r'.tenantKey = r.tenantKey ∧ r'.ownerUserId = r.ownerUserId ∧ HostedRun.Follows op r r' := by
  obtain ⟨-, rfl⟩ := Table.mem_of_find? h
  cases op with
  | claim draws now => exact claim_follows draws now h
  | launched objectiveId leaseId now =>
    simp only [hostedStep, launched]
    cases hleased : leasedRun objectiveId leaseId db with
    | none => exact ⟨r, h, rfl, rfl, .refl _ r⟩
    | some s =>
      obtain ⟨hfind, hlaunching, hholder⟩ := leasedRun_eq_some hleased
      simp only [commit_ok]
      rw [Table.find?_update, h, Option.map_some]
      by_cases hid : r.objectiveId = objectiveId
      · obtain rfl : r = s := Option.some.inj (h.symm.trans (hid ▸ hfind))
        rw [if_pos hid]
        exact ⟨_, rfl, rfl, rfl, .started leaseId now (hid ▸ rfl) hlaunching hholder rfl rfl⟩
      · rw [if_neg hid]
        exact ⟨r, rfl, rfl, rfl, .refl _ r⟩
  | launchFailed objectiveId leaseId now =>
    simp only [hostedStep, launchFailed]
    cases hleased : leasedRun objectiveId leaseId db with
    | none => exact ⟨r, h, rfl, rfl, .refl _ r⟩
    | some s =>
      obtain ⟨hfind, hlaunching, hholder⟩ := leasedRun_eq_some hleased
      simp only
      rw [Table.find?_update, h, Option.map_some]
      by_cases hid : r.objectiveId = objectiveId
      · obtain rfl : r = s := Option.some.inj (h.symm.trans (hid ▸ hfind))
        rw [if_pos hid]
        exact ⟨_, rfl, rfl, rfl, .failed leaseId now (hid ▸ rfl) hlaunching hholder rfl rfl⟩
      · rw [if_neg hid]
        exact ⟨r, rfl, rfl, rfl, .refl _ r⟩
  | terminalTimestamp objectiveId now =>
    simp only [hostedStep, terminalTimestamp]
    rw [Table.find?_update, h, Option.map_some]
    refine ⟨_, rfl, ?_⟩
    split
    · exact ⟨rfl, rfl, .kept rfl rfl rfl⟩
    · exact ⟨rfl, rfl, .refl _ r⟩
  | markTerminal owner objectiveId now =>
    simp only [hostedStep, markTerminal]
    rw [Table.find?_updateWhere, h, Option.map_some]
    refine ⟨_, rfl, ?_⟩
    split
    · exact ⟨rfl, rfl, .retired rfl rfl⟩
    · exact ⟨rfl, rfl, .refl _ r⟩
  | retireOwner owner now =>
    simp only [hostedStep, retireOwner]
    rw [Table.find?_updateWhere, h, Option.map_some]
    refine ⟨_, rfl, ?_⟩
    split
    · exact ⟨rfl, rfl, .retired rfl rfl⟩
    · exact ⟨rfl, rfl, .refl _ r⟩
  | cleaned objectiveId now =>
    simp only [hostedStep, cleaned]
    rw [Table.find?_update, h, Option.map_some]
    refine ⟨_, rfl, ?_⟩
    split
    · exact ⟨rfl, rfl, .kept rfl rfl rfl⟩
    · exact ⟨rfl, rfl, .refl _ r⟩
  | submissions submissions => exact ⟨r, h, rfl, rfl, .refl _ r⟩
  | cancellations cancellations => exact ⟨r, h, rfl, rfl, .refl _ r⟩

/-- A lease adds at most one run to those that meet a condition. -/
theorem countP_leaseRun_le (p : HostedRun → Bool) (draws : ClaimDraws) (now : ℤ)
    (runs : Table HostedRun.objectiveId) :
    (leaseRun config draws now r runs).rows.countP p ≤ runs.rows.countP p + 1 :=
  Table.countP_update_le p runs r.objectiveId

/-- The active runs are within the capacity, over all and of every tenant. -/
def WithinCapacity (config : HostedExecutionConfig) (db : Execution) : Prop :=
  db.runs.rows.countP HostedRun.active ≤ config.maxGlobal ∧
    ∀ tenant, db.runs.rows.countP (HostedRun.activeFor tenant) ≤ config.maxPerTenant

/-- Steps that add to the active runs of no tenant keep within the capacity. -/
theorem WithinCapacity.of_le (h : WithinCapacity config db) {runs : Table HostedRun.objectiveId}
    (hle : ∀ p : HostedRun → Bool, (p = HostedRun.active ∨
      ∃ tenant, p = HostedRun.activeFor tenant) →
      runs.rows.countP p ≤ db.runs.rows.countP p) : WithinCapacity config { db with runs } :=
  ⟨(hle _ (.inl rfl)).trans h.1, fun tenant => (hle _ (.inr ⟨tenant, rfl⟩)).trans (h.2 tenant)⟩

/-- What counts for a tenant is active. -/
theorem active_of_counts {p : HostedRun → Bool}
    (hp : p = HostedRun.active ∨ ∃ tenant, p = HostedRun.activeFor tenant) {s : HostedRun}
    (h : p s = true) : s.active = true := by
  rcases hp with rfl | ⟨tenant, rfl⟩
  · exact h
  · exact (of_decide_eq_true h).2

/-- A row that is active after a write counts as before, if it was active and kept its tenant. -/
theorem counts_of_active {p : HostedRun → Bool}
    (hp : p = HostedRun.active ∨ ∃ tenant, p = HostedRun.activeFor tenant) {s s' : HostedRun}
    (h : p s' = true) (htenant : s'.tenantKey = s.tenantKey) (hactive : s.active = true) :
    p s = true := by
  rcases hp with rfl | ⟨tenant, rfl⟩
  · exact hactive
  · exact decide_eq_true ⟨htenant ▸ (of_decide_eq_true h).1, hactive⟩

/-- A claim keeps within the capacity. -/
theorem WithinCapacity.claim (h : WithinCapacity config db) (draws : ClaimDraws) (now : ℤ) :
    WithinCapacity config (claim config draws now db).2 := by
  have hopened : ∀ p : HostedRun → Bool,
      (p = HostedRun.active ∨ ∃ tenant, p = HostedRun.activeFor tenant) →
      (openedRuns config draws now db).rows.countP p ≤ db.runs.rows.countP p := fun p hp =>
    countP_openedRuns_le fun s => active_of_counts hp
  rcases claim_cases config draws now db with hnone | ⟨r, hr, hqueued, -, hglobal, htenant, hclaim⟩
  · rw [hnone]
    exact h.of_le hopened
  · rw [hclaim]
    refine ⟨(countP_leaseRun_le _ draws now _).trans hglobal, fun tenant => ?_⟩
    by_cases hsame : tenant = r.tenantKey
    · subst hsame
      exact (countP_leaseRun_le _ draws now _).trans htenant
    · have hle := (hopened _ (.inr ⟨tenant, rfl⟩)).trans (h.2 tenant)
      refine le_trans (Table.countP_update_le_of fun s hs hactive => ?_) hle
      obtain rfl : s = r := Option.some.inj (hs.symm.trans (Table.find?_of_mem hr))
      exact absurd (of_decide_eq_true hactive).1 (Ne.symm hsame)

/-- Every step keeps within the capacity. -/
theorem WithinCapacity.step (h : WithinCapacity config db) (op : HostedStep) :
    WithinCapacity config (hostedStep config db op) := by
  cases op with
  | claim draws now => exact h.claim draws now
  | launched objectiveId leaseId now =>
    simp only [hostedStep, launched]
    cases hleased : leasedRun objectiveId leaseId db with
    | none => exact h
    | some s =>
      obtain ⟨hfind, hlaunching, -⟩ := leasedRun_eq_some hleased
      refine h.of_le fun p hp => Table.countP_update_le_of fun r hr hcounts => ?_
      obtain rfl : s = r := Option.some.inj (hfind.symm.trans hr)
      exact counts_of_active hp hcounts rfl (by simp [HostedRun.active, hlaunching])
  | launchFailed objectiveId leaseId now =>
    simp only [hostedStep, launchFailed]
    cases leasedRun objectiveId leaseId db with
    | none => exact h
    | some s =>
      refine h.of_le fun p hp => Table.countP_update_le_of fun r hr hcounts => ?_
      exact absurd (active_of_counts hp hcounts) (by simp [HostedRun.active])
  | terminalTimestamp objectiveId now =>
    refine h.of_le fun p hp => Table.countP_update_le_of fun r _ hcounts => ?_
    have hactive := active_of_counts hp hcounts
    exact counts_of_active hp hcounts rfl hactive
  | markTerminal owner objectiveId now =>
    exact h.of_le fun p hp => Table.countP_updateWhere_le fun r _ _ hcounts =>
      absurd (active_of_counts hp hcounts) (by simp [HostedRun.active])
  | retireOwner owner now =>
    exact h.of_le fun p hp => Table.countP_updateWhere_le fun r _ _ hcounts =>
      absurd (active_of_counts hp hcounts) (by simp [HostedRun.active])
  | cleaned objectiveId now =>
    refine h.of_le fun p hp => Table.countP_update_le_of fun r _ hcounts => ?_
    have hactive := active_of_counts hp hcounts
    exact counts_of_active hp hcounts rfl hactive
  | submissions submissions => exact h
  | cancellations cancellations => exact h

/-- A lease is a run's only after a claim that drew it. -/
theorem lease_of_step (config : HostedExecutionConfig) {op : HostedStep} {leaseId : String}
    (hdrawn : ∀ draws now, op = .claim draws now → draws.leaseId ≠ leaseId)
    (h : db.runs.find? id = some r) (hr : r.leaseId ≠ some leaseId) :
    ∃ r', (hostedStep config db op).runs.find? id = some r' ∧ r'.leaseId ≠ some leaseId := by
  obtain ⟨r', hr', -, -, hfollows⟩ := step_follows config op h
  refine ⟨r', hr', ?_⟩
  cases hfollows with
  | kept _ lease _ => rwa [lease]
  | leased draws now step _ _ lease =>
    rw [lease]
    exact fun he => hdrawn draws now step (Option.some.inj he)
  | reclaimed _ _ _ _ _ lease => simp [lease]
  | started _ _ _ _ _ _ lease => simp [lease]
  | failed _ _ _ _ _ _ lease => simp [lease]
  | retired _ lease => simp [lease]

/-- A lease that a run has lost stays lost while no claim draws it again. -/
theorem lease_lost (config : HostedExecutionConfig) {leaseId : String} (steps : List HostedStep)
    (hdrawn : ∀ draws now, .claim draws now ∈ steps → draws.leaseId ≠ leaseId)
    (h : db.runs.find? id = some r) (hr : r.leaseId ≠ some leaseId) :
    ∃ r', (run (hostedStep config) db steps).runs.find? id = some r' ∧
      r'.leaseId ≠ some leaseId := by
  induction steps generalizing db r with
  | nil => exact ⟨r, h, hr⟩
  | cons op steps ih =>
    obtain ⟨r', hr', hlost⟩ := lease_of_step config
      (fun draws now (he : op = .claim draws now) =>
        hdrawn draws now (he ▸ List.mem_cons_self)) h hr
    exact ih (fun draws now hmem => hdrawn draws now (List.mem_cons_of_mem op hmem)) hr' hlost

/-- Who presents no current lease of a run changes nothing. -/
theorem stale_lease {leaseId : String}
    (h : ∀ r, db.runs.find? id = some r → r.state = .launching → r.leaseId ≠ some leaseId)
    (now : ℤ) :
    launched id leaseId now db = .error (.runtimeError "Hosted execution launch lease was lost") ∧
      launchFailed id leaseId now db = db := by
  have hnone : leasedRun id leaseId db = none := by
    refine Option.eq_none_iff_forall_ne_some.mpr fun r hr => ?_
    obtain ⟨hfind, hlaunching, hholder⟩ := leasedRun_eq_some hr
    exact h r hfind hlaunching hholder
  rw [launched, launchFailed, hnone]
  exact ⟨rfl, rfl⟩

/-- A claim returns a run with its lease. -/
theorem claim_returns {draws : ClaimDraws} {now : ℤ} {claimed : HostedRun}
    (h : (claim config draws now db).1 = some claimed) :
    ∃ r', (claim config draws now db).2.runs.find? claimed.objectiveId = some r' ∧
      r'.state = .launching ∧ r'.leaseId = some draws.leaseId ∧
      claimed.leaseId = some draws.leaseId := by
  rcases claim_cases config draws now db with hnone | ⟨r, hr, -, -, -, -, hclaim⟩
  · rw [hnone] at h
    simp at h
  · rw [hclaim] at h ⊢
    obtain rfl := Option.some.inj h
    refine ⟨r.leased draws.leaseId (now + config.leaseMs) now, ?_, rfl, rfl, rfl⟩
    simp only [leaseRun]
    rw [Table.find?_update_self, Table.find?_of_mem hr, Option.map_some]

end HostedExecutionStore

/-- Hosted capacity and lease fencing. In every run of the controllers the active runs are within
the capacity, over all and of every tenant; a claim returns the current lease of its run; a
launching run is started only by who presents its current lease, and is requeued only so or by a
claim after its lease expired; an ended run stays ended; and who presents a lease that its run has
lost gets an error and changes nothing. -/
theorem hosted_capacity_and_fencing (config : HostedExecutionConfig) (steps : List HostedStep) :
    let state := fun steps => run (hostedStep config) .initial steps
    ((state steps).runs.rows.countP HostedRun.active ≤ config.maxGlobal ∧ ∀ tenant,
      (state steps).runs.rows.countP (HostedRun.activeFor tenant) ≤ config.maxPerTenant) ∧
    (∀ draws now claimed, (claim config draws now (state steps)).1 = some claimed →
      claimed.leaseId = some draws.leaseId ∧ ∃ r',
        (claim config draws now (state steps)).2.runs.find? claimed.objectiveId = some r' ∧
        r'.state = .launching ∧ r'.leaseId = some draws.leaseId) ∧
    (∀ op id r, (state steps).runs.find? id = some r →
      ∃ r', (hostedStep config (state steps) op).runs.find? id = some r' ∧
        (r.state = .launching → r'.state = .running →
          ∃ leaseId now, op = .launched id leaseId now ∧ r.leaseId = some leaseId) ∧
        (r.state = .launching → r'.state = .queued →
          (∃ leaseId now, op = .launchFailed id leaseId now ∧ r.leaseId = some leaseId) ∨
          ∃ draws now expires, op = .claim draws now ∧ r.leaseExpiresAt = some expires ∧
            expires < now) ∧
        (r.state = .terminal → r'.state = .terminal)) ∧
    ∀ before after, steps = before ++ after → ∀ leaseId,
      (∀ draws now, .claim draws now ∈ after → draws.leaseId ≠ leaseId) →
      ∀ id r, (state before).runs.find? id = some r → r.leaseId ≠ some leaseId → ∀ now,
        launched id leaseId now (state steps) =
          .error (.runtimeError "Hosted execution launch lease was lost") ∧
        launchFailed id leaseId now (state steps) = state steps := by
  intro state
  refine ⟨?_, fun draws now claimed hclaimed => ?_, fun op id r hr => ?_, ?_⟩
  · have hinitial : WithinCapacity config .initial := by
      simp [WithinCapacity, Execution.initial]
    exact run_invariant' (I := WithinCapacity config) (fun _ op h => h.step op) steps hinitial
  · obtain ⟨r', hr', hlaunching, hlease, hreturned⟩ := claim_returns hclaimed
    exact ⟨hreturned, r', hr', hlaunching, hlease⟩
  · obtain ⟨r', hr', -, -, hfollows⟩ := step_follows config op hr
    obtain ⟨-, rfl⟩ := Table.mem_of_find? hr
    refine ⟨r', hr', ?_⟩
    cases hfollows with
    | kept hstate _ _ =>
      rw [hstate]
      exact ⟨fun h h' => by simp [h] at h', fun h h' => by simp [h] at h', id⟩
    | reclaimed draws now hstep hexpired hstate _ =>
      rw [hstate]
      obtain ⟨hlaunching, hlease⟩ := of_decide_eq_true hexpired
      obtain ⟨expires, hexpires, hlt⟩ := Option.any_eq_true _ _ |>.mp hlease
      refine ⟨by simp, fun _ _ => .inr ⟨draws, now, expires, hstep, hexpires,
        of_decide_eq_true hlt⟩, by simp [hlaunching]⟩
    | leased draws now hstep hfree hstate _ =>
      rw [hstate]
      refine ⟨by simp, by simp, fun h => ?_⟩
      rcases hfree with hqueued | hexpired
      · simp [hqueued] at h
      · simp [(of_decide_eq_true hexpired).1] at h
    | started leaseId now hstep hlaunching hholder hstate _ =>
      rw [hstate]
      exact ⟨fun _ _ => ⟨leaseId, now, hstep, hholder⟩, by simp, by simp [hlaunching]⟩
    | failed leaseId now hstep hlaunching hholder hstate _ =>
      rw [hstate]
      exact ⟨by simp, fun _ _ => .inl ⟨leaseId, now, hstep, hholder⟩, by simp [hlaunching]⟩
    | retired hstate _ =>
      rw [hstate]
      exact ⟨by simp, by simp, fun _ => rfl⟩
  · rintro before after rfl leaseId hdrawn id r hr hlost now
    refine stale_lease (fun last hlast _ => ?_) now
    obtain ⟨r', hr', hlost'⟩ := lease_lost config after hdrawn hr hlost
    have hrun : state (before ++ after) = run (hostedStep config) (state before) after :=
      run_append _ _ _ _
    rw [hrun] at hlast
    obtain rfl := Option.some.inj (hlast.symm.trans hr')
    exact hlost'

/-- Room for one run of every tenant. -/
def smallConfig : HostedExecutionConfig where
  maxGlobal := 1
  maxPerTenant := 1
  leaseMs := 60000
  identities owner project objectiveId := (owner, owner ++ project, owner ++ objectiveId)
  runId owner objectiveId := owner ++ objectiveId

/-- One accepted objective. -/
def acceptedSubmission : ObjectiveSubmission where
  objectiveId := "objective"
  taskId := "task"
  ownerUserId := "owner"
  invocationKey := "key"
  contractJson := "{}"
  project := "project"
  status := .accepted
  attemptCount := 1
  lastErrorCode := none
  acceptedAt := some 0
  createdAt := 0
  updatedAt := 0

/-- A requested cancellation of it. -/
def requestedCancellation : CancellationRequest where
  requestId := "request"
  ownerUserId := "owner"
  objectiveId := "objective"
  taskId := "task"
  actorSessionId := "session"
  idempotencyKey := "key"
  status := .requested
  errorCode := none
  notificationStatus := .pending
  notificationAttemptCount := 0
  notifiedAt := none
  createdAt := 0
  updatedAt := 0

/-- The objective is claimed, and cancelled before its lease expires. -/
def reclaimedRun : List HostedStep :=
  [.submissions (Table.empty.insertOrIgnore acceptedSubmission),
    .claim ⟨fun _ => ("hash", "token"), "first"⟩ 0,
    .cancellations (Table.empty.insertOrIgnore requestedCancellation)]

/-- A claim of another controller requeues a run whose lease has expired, and the first controller
gets an error from `launched`. -/
theorem hosted_lease_reclaimed_by_other :
    (¬∀ (config : HostedExecutionConfig) (steps : List HostedStep) (op : HostedStep) (id : String)
      (r r' : HostedRun), (run (hostedStep config) .initial steps).runs.find? id = some r →
        (run (hostedStep config) .initial (steps ++ [op])).runs.find? id = some r' →
        r.state = .launching → r'.state = .queued →
        ∃ leaseId now, op = .launchFailed id leaseId now ∧ r.leaseId = some leaseId) ∧
      launched "objective" "first" 60002 (run (hostedStep smallConfig) .initial
          (reclaimedRun ++ [.claim ⟨fun _ => ("other", "token"), "second"⟩ 60001])) =
        .error (.runtimeError "Hosted execution launch lease was lost") := by
  refine ⟨fun hall => ?_, by decide⟩
  have hlaunching : ((run (hostedStep smallConfig) .initial reclaimedRun).runs.find?
      "objective").map (·.state) = some .launching := by decide
  have hqueued : ((run (hostedStep smallConfig) .initial (reclaimedRun ++
      [.claim ⟨fun _ => ("other", "token"), "second"⟩ 60001])).runs.find? "objective").map
        (·.state) = some .queued := by decide
  obtain ⟨r, hr, hrstate⟩ := Option.map_eq_some_iff.mp hlaunching
  obtain ⟨r', hr', hrstate'⟩ := Option.map_eq_some_iff.mp hqueued
  obtain ⟨leaseId, now, hstep, -⟩ := hall smallConfig reclaimedRun _ "objective" r r' hr hr'
    hrstate hrstate'
  simp at hstep

end Magistrate
