import Magistrate.Gateway.Execution.Controller

/-!
# What the transactions keep

Any number of tasks take turns between two transactions of one of them, so what
a task read must hold of all later tables. Here is what every transaction keeps
of the runs, the objectives and the events, and which transactions end an
objective or a run.
-/

namespace Magistrate

namespace HostedRun

/-- A run that was launched, or is over. -/
def begun (r : HostedRun) : Bool := r.state = .running ∨ r.state = .terminal

/-- A run that was launched or is over stays so. -/
theorem Follows.begun {op : HostedStep} {r r' : HostedRun} (h : Follows op r r')
    (hr : r.begun = true) : r'.begun = true := by
  have hstate := of_decide_eq_true hr
  have hexpired : ∀ now, r.expired now ≠ true := by
    intro now hexpired
    rw [(of_decide_eq_true hexpired).1] at hstate
    simp at hstate
  cases h with
  | kept state => simpa [HostedRun.begun, state] using hstate
  | reclaimed draws now step expired => exact absurd expired (hexpired now)
  | leased draws now step free =>
    rcases free with hqueued | hfree
    · simp [hqueued] at hstate
    · exact absurd hfree (hexpired now)
  | started leaseId now step launching => simp [launching] at hstate
  | failed leaseId now step launching => simp [launching] at hstate
  | retired state => simp [HostedRun.begun, state]

end HostedRun

namespace Execution

/-- Whether an objective is over. -/
def Over (db : Execution) (owner objectiveId : String) : Prop :=
  db.terminalPhase owner objectiveId ≠ none

instance (db : Execution) (owner objectiveId : String) : Decidable (db.Over owner objectiveId) :=
  inferInstanceAs (Decidable (_ ≠ none))

/-- Whether a claim can come to launch an objective: its run is not launched yet, or is still to be
created from its submission. -/
def Launchable (db : Execution) (owner objectiveId : String) : Prop :=
  match db.runs.find? objectiveId with
  | some r => r.ownerUserId = owner ∧ r.begun = false
  | none => (db.submissions.find? objectiveId).any fun s => s.ownerUserId = owner

instance (db : Execution) (owner objectiveId : String) :
    Decidable (db.Launchable owner objectiveId) := by
  unfold Launchable
  split <;> infer_instance

/-- The run that was read is still there. -/
def HasRun (db : Execution) (r : HostedRun) : Prop :=
  ∃ r', db.runs.find? r.objectiveId = some r' ∧ r'.ownerUserId = r.ownerUserId

/-- The run that was read is launched or over. -/
def HasBegun (db : Execution) (r : HostedRun) : Prop :=
  ∃ r', db.runs.find? r.objectiveId = some r' ∧ r'.ownerUserId = r.ownerUserId ∧ r'.begun = true

/-- The columns of the stored events are those of their payloads. -/
def EventColumns (db : Execution) : Prop :=
  ∀ e ∈ db.events.rows, e.objectiveId = e.payload.objectiveId ∧ e.phase = e.payload.phase

/-- What every transaction keeps: runs, also launched, ends of objectives, and events. -/
structure Onward (rules : ActivityRules) (db db' : Execution) : Prop where
  runs : ∀ id r, db.runs.find? id = some r → ∃ r', db'.runs.find? id = some r' ∧
    r'.ownerUserId = r.ownerUserId ∧ (r.begun = true → r'.begun = true)
  staysOver : ∀ owner objectiveId, db.Over owner objectiveId → db'.Over owner objectiveId
  streams : EventStreams rules db → EventStreams rules db'
  columns : db.EventColumns → db'.EventColumns

/-- A transaction that makes nothing launchable, and ends only some objectives and some runs. -/
structure Moved (rules : ActivityRules) (ended retired : String → String → Prop)
    (db db' : Execution) : Prop extends Onward rules db db' where
  ends : ∀ owner objectiveId, db'.Over owner objectiveId →
    db.Over owner objectiveId ∨ ended owner objectiveId
  launchable : ∀ owner objectiveId, db'.Launchable owner objectiveId →
    db.Launchable owner objectiveId
  unended : ∀ r' ∈ db'.runs.rows, r'.state = .terminal → (∃ r ∈ db.runs.rows,
    r.ownerUserId = r'.ownerUserId ∧ r.objectiveId = r'.objectiveId ∧ r.state = .terminal) ∨
      retired r'.ownerUserId r'.objectiveId

/-- A transaction that ends nothing and makes nothing launchable. -/
abbrev Idle (rules : ActivityRules) (db db' : Execution) : Prop :=
  Moved rules (fun _ _ => False) (fun _ _ => False) db db'

variable {rules : ActivityRules} {db db' : Execution} {r : HostedRun}

theorem HasRun.onward (h : db.HasRun r) (later : Onward rules db db') : db'.HasRun r := by
  obtain ⟨r', hr', howner⟩ := h
  obtain ⟨r'', hr'', howner', -⟩ := later.runs _ r' hr'
  exact ⟨r'', hr'', howner'.trans howner⟩

theorem HasBegun.onward (h : db.HasBegun r) (later : Onward rules db db') : db'.HasBegun r := by
  obtain ⟨r', hr', howner, hbegun⟩ := h
  obtain ⟨r'', hr'', howner', hkept⟩ := later.runs _ r' hr'
  exact ⟨r'', hr'', howner'.trans howner, hkept hbegun⟩

/-- The objective of a run that was launched is not launchable. -/
theorem HasBegun.not_launchable (h : db.HasBegun r) :
    ¬db.Launchable r.ownerUserId r.objectiveId := by
  obtain ⟨r', hr', -, hbegun⟩ := h
  simp [Launchable, hr', hbegun]

/-- A stored run is there. -/
theorem HasRun.of_mem (h : r ∈ db.runs.rows) : db.HasRun r := ⟨r, Table.find?_of_mem h, rfl⟩

/-- What holds of all events holds after writes of others. -/
theorem EventColumns.congr (h : db.EventColumns) (hevents : db'.events = db.events) :
    db'.EventColumns := by
  rwa [EventColumns, hevents]

/-- A transaction that ends nothing ends what any other would. -/
theorem Idle.moved (h : Idle rules db db') (ended retired : String → String → Prop) :
    Moved rules ended retired db db' where
  toOnward := h.toOnward
  ends owner objectiveId hover := .inl ((h.ends owner objectiveId hover).resolve_right id)
  launchable := h.launchable
  unended r' hr' hstate := .inl ((h.unended r' hr' hstate).resolve_right id)

/-- Writes of others leave the runs and the objectives. -/
theorem Idle.of_same (hruns : db'.runs = db.runs) (hsubmissions : db'.submissions = db.submissions)
    (hobjectives : db'.objectives = db.objectives) (hevents : db'.events = db.events) :
    Idle rules db db' where
  runs _ r hr := ⟨r, hruns ▸ hr, rfl, fun hbegun => hbegun⟩
  staysOver owner objectiveId h := by
    rwa [Over, terminalPhase, hobjectives]
  streams h := h.congr hevents hobjectives
  columns h := h.congr hevents
  ends owner objectiveId h := by
    rw [Over, terminalPhase, hobjectives] at h
    exact .inl h
  launchable owner objectiveId h := by
    rwa [Launchable, hruns, hsubmissions] at h
  unended r' hr' hstate := .inl ⟨r', hruns ▸ hr', rfl, rfl, hstate⟩

theorem Idle.refl (rules : ActivityRules) (db : Execution) : Idle rules db db :=
  .of_same rfl rfl rfl rfl

end Execution

namespace HostedExecutionStore

open Execution

variable {rules : ActivityRules} {config : HostedExecutionConfig} {db db' : Execution}

/-- A transaction on the runs leaves the events and the objectives. -/
theorem hostedStep_others (config : HostedExecutionConfig) (db : Execution) (op : HostedStep) :
    (hostedStep config db op).objectives = db.objectives ∧
      (hostedStep config db op).events = db.events := by
  cases op with
  | claim draws now =>
    rw [hostedStep]
    rcases claim_cases config draws now db with h | ⟨_, -, -, -, -, -, h⟩ <;> rw [h] <;>
      exact ⟨rfl, rfl⟩
  | launched objectiveId leaseId now =>
    simp only [hostedStep, launched]
    split <;> exact ⟨rfl, rfl⟩
  | launchFailed objectiveId leaseId now =>
    simp only [hostedStep, launchFailed]
    split <;> exact ⟨rfl, rfl⟩
  | _ => exact ⟨rfl, rfl⟩

/-- A transaction on the runs keeps what every transaction keeps. -/
theorem hostedStep_onward (rules : ActivityRules) (config : HostedExecutionConfig) (db : Execution)
    (op : HostedStep) : Onward rules db (hostedStep config db op) := by
  obtain ⟨hobjectives, hevents⟩ := hostedStep_others config db op
  refine ⟨fun id r hr => ?_, fun owner objectiveId h => ?_, fun h => h.congr hevents hobjectives,
    fun h => h.congr hevents⟩
  · obtain ⟨r', hr', -, howner, hfollows⟩ := step_follows config op hr
    exact ⟨r', hr', howner, hfollows.begun⟩
  · rwa [Over, terminalPhase, hobjectives]

/-- An opened run was there before, perhaps with an expired lease, or is created queued from an
accepted submission. -/
theorem of_find?_openedRuns {draws : ClaimDraws} {now : ℤ} {id : String} {r' : HostedRun}
    (h : (openedRuns config draws now db).find? id = some r') :
    (∃ r, db.runs.find? id = some r ∧ r' = if r.expired now then r.requeued now else r) ∨
      db.runs.find? id = none ∧ r'.state = .queued ∧
        ∃ s ∈ db.submissions.rows, s.objectiveId = id ∧ s.ownerUserId = r'.ownerUserId := by
  cases hr : db.runs.find? id with
  | some r =>
    rw [find?_openedRuns config draws now hr] at h
    exact .inl ⟨r, rfl, (Option.some.inj h).symm⟩
  | none =>
    refine .inr ⟨rfl, ?_⟩
    have hoffered : ∀ new, (run (fun runs s => offerRun runs (newRun config draws now s)) db.runs
        (unclaimed db)).find? id = some new → new.state = .queued ∧
          ∃ s ∈ db.submissions.rows, s.objectiveId = id ∧ s.ownerUserId = new.ownerUserId := by
      have hmem : ∀ s ∈ unclaimed db, s ∈ db.submissions.rows := fun s hs =>
        (List.mem_filter.mp ((List.mem_insertionSort _).mp (List.mem_of_mem_take hs))).1
      refine run_invariant (C := fun _ s => s ∈ unclaimed db)
        (I := fun runs : Table HostedRun.objectiveId => ∀ new, runs.find? id = some new →
          new.state = .queued ∧
            ∃ s ∈ db.submissions.rows, s.objectiveId = id ∧ s.ownerUserId = new.ownerUserId)
        (fun runs s hruns hs new hnew => ?_) (runMeets_of_mem (fun _ hs => hs) _)
        (fun new hnew => absurd (hr.symm.trans hnew) (by simp))
      unfold offerRun at hnew
      split at hnew
      · exact hruns new hnew
      · rw [Table.find?_insertOrIgnore, Option.or_eq_some_iff] at hnew
        rcases hnew with hnew | ⟨-, hnew⟩
        · exact hruns new hnew
        · split at hnew
          · next hid =>
            obtain rfl := Option.some.inj hnew
            exact ⟨rfl, s, hmem s hs, hid, rfl⟩
          · cases hnew
    rw [openedRuns, Table.find?_updateWhere] at h
    obtain ⟨new, hnew, rfl⟩ := Option.map_eq_some_iff.mp h
    obtain ⟨hqueued, hsubmission⟩ := hoffered new hnew
    split
    · exact ⟨rfl, hsubmission⟩
    · exact ⟨hqueued, hsubmission⟩

/-- What is launchable with the opened runs was launchable before. -/
theorem launchable_openedRuns {draws : ClaimDraws} {now : ℤ} {r : HostedRun}
    (h : (openedRuns config draws now db).find? r.objectiveId = some r)
    (hopen : r.begun = false) : db.Launchable r.ownerUserId r.objectiveId := by
  unfold Launchable
  rcases of_find?_openedRuns h with ⟨s, hs, hr⟩ | ⟨hnone, -, s, hs, hid, howner⟩
  · rw [hs]
    split at hr
    · next hexpired =>
      have hlaunching := (of_decide_eq_true hexpired).1
      exact ⟨by rw [hr], by simp [HostedRun.begun, hlaunching]⟩
    · subst hr
      exact ⟨rfl, hopen⟩
  · rw [hnone, ← hid, Table.find?_of_mem hs]
    exact decide_eq_true howner

section Runs

variable {draws : ClaimDraws} {now : ℤ}

/-- A run after a claim was opened so, or is the queued one that the claim leased. -/
theorem of_find?_claim {id : String} {r' : HostedRun}
    (h : (claim config draws now db).2.runs.find? id = some r') :
    ∃ r, (openedRuns config draws now db).find? id = some r ∧
      (r' = r ∨ r.state = .queued ∧ r'.state = .launching ∧ r'.ownerUserId = r.ownerUserId) := by
  rcases claim_cases config draws now db with hclaim | ⟨r, hr, hqueued, -, -, -, hclaim⟩
  · rw [hclaim] at h
    exact ⟨r', h, .inl rfl⟩
  · rw [hclaim] at h
    simp only [leaseRun] at h
    rw [Table.find?_update] at h
    obtain ⟨s, hs, rfl⟩ := Option.map_eq_some_iff.mp h
    refine ⟨s, hs, ?_⟩
    split
    · next hid =>
      obtain rfl : s = r := Option.some.inj (hs.symm.trans (hid ▸ Table.find?_of_mem hr))
      exact .inr ⟨hqueued, rfl, rfl⟩
    · exact .inl rfl

/-- What is launchable without a new run was launchable before. -/
theorem launchable_of_runs (later : Onward rules db db')
    (hsubmissions : db'.submissions = db.submissions)
    (hruns : ∀ id, db.runs.find? id = none → db'.runs.find? id = none) (owner objectiveId : String)
    (h : db'.Launchable owner objectiveId) : db.Launchable owner objectiveId := by
  unfold Launchable at h ⊢
  cases hr : db.runs.find? objectiveId with
  | none => simpa only [hruns _ hr, hsubmissions] using h
  | some r =>
    obtain ⟨r', hr', howner, hkept⟩ := later.runs _ r hr
    rw [hr'] at h
    refine ⟨howner.symm.trans h.1, Bool.eq_false_iff.mpr fun hbegun => ?_⟩
    exact absurd (hkept hbegun) (by simp [h.2])

/-- A claim ends nothing, and launches only what was launchable. -/
theorem claim_idle (rules : ActivityRules) (config : HostedExecutionConfig) (draws : ClaimDraws)
    (now : ℤ) (db : Execution) : Idle rules db (claim config draws now db).2 where
  toOnward := hostedStep_onward rules config db (.claim draws now)
  ends owner objectiveId h := by
    have hobjectives : (claim config draws now db).2.objectives = db.objectives :=
      (hostedStep_others config db (.claim draws now)).1
    rw [Over, terminalPhase, hobjectives] at h
    exact .inl h
  launchable owner objectiveId h := by
    have hsubmissions : (claim config draws now db).2.submissions = db.submissions := by
      rcases claim_cases config draws now db
        with hclaim | ⟨_, -, -, -, -, -, hclaim⟩ <;> rw [hclaim]
    cases hr' : (claim config draws now db).2.runs.find? objectiveId with
    | none =>
      have hnone : db.runs.find? objectiveId = none := by
        refine Option.eq_none_iff_forall_ne_some.mpr fun r hr => ?_
        obtain ⟨r', hfound, -⟩ := (hostedStep_onward rules config db (.claim draws now)).runs _ r hr
        exact absurd (hr'.symm.trans hfound) (by simp)
      unfold Launchable at h ⊢
      simpa only [hr', hnone, hsubmissions] using h
    | some r' =>
      simp only [Launchable, hr'] at h
      obtain ⟨rfl, hopen⟩ := h
      obtain ⟨r, hr, hsame⟩ := of_find?_claim hr'
      obtain ⟨-, rfl⟩ := Table.mem_of_find? hr
      rcases hsame with rfl | ⟨hqueued, -, howner⟩
      · exact launchable_openedRuns hr hopen
      · rw [howner]
        exact launchable_openedRuns hr (by simp [HostedRun.begun, hqueued])
  unended r' hr' hstate := by
    obtain ⟨r, hr, hsame⟩ := of_find?_claim (Table.find?_of_mem hr')
    rcases hsame with rfl | ⟨-, hlaunching, -⟩
    · rcases of_find?_openedRuns hr with ⟨s, hs, hopened⟩ | ⟨-, hqueued, -⟩
      · split at hopened
        · simp [hopened] at hstate
        · subst hopened
          exact .inl ⟨r', (Table.mem_of_find? hs).1, rfl, rfl, hstate⟩
      · simp [hqueued] at hstate
    · simp [hlaunching] at hstate

/-- A claim launches what was launchable. -/
theorem claim_launchable {r : HostedRun} (h : (claim config draws now db).1 = some r) :
    db.Launchable r.ownerUserId r.objectiveId := by
  rcases claim_cases config draws now db with hclaim | ⟨s, hs, hqueued, -, -, -, hclaim⟩
  · rw [hclaim] at h
    exact nomatch h
  · rw [hclaim] at h
    obtain rfl := Option.some.inj h
    have hrun : db.Launchable s.ownerUserId s.objectiveId :=
      launchable_openedRuns (Table.find?_of_mem hs) (by simp [HostedRun.begun, hqueued])
    exact hrun

/-- A write to a run that ends none. -/
theorem update_idle {objectiveId : String} {f : HostedRun → HostedRun}
    {hf : ∀ r, (f r).objectiveId = r.objectiveId}
    (later : Onward rules db { db with runs := db.runs.update objectiveId f hf })
    (howner : ∀ r, (f r).ownerUserId = r.ownerUserId)
    (hstate : ∀ r, (f r).state = .terminal → r.state = .terminal) :
    Idle rules db { db with runs := db.runs.update objectiveId f hf } where
  toOnward := later
  ends _ _ h := .inl h
  launchable := launchable_of_runs later rfl fun id hnone => by rw [Table.find?_update, hnone]; rfl
  unended r' hr' hterminal := by
    have hmem : r' ∈ (db.runs.update objectiveId f hf).rows := hr'
    obtain ⟨r, hr, rfl⟩ := Table.mem_update.mp hmem
    refine .inl ⟨r, hr, ?_⟩
    split at hterminal
    · next hid =>
      rw [if_pos hid]
      exact ⟨(howner r).symm, (hf r).symm, hstate r hterminal⟩
    · next hid =>
      rw [if_neg hid]
      exact ⟨rfl, rfl, hterminal⟩

/-- Runs that are retired, and no others, are ended. -/
theorem retire_moved {p : HostedRun → Bool} {retired : String → String → Prop}
    (later : Onward rules db { db with runs := db.runs.updateWhere p (HostedRun.retired now) })
    (hp : ∀ r, p r = true → retired r.ownerUserId r.objectiveId) :
    Moved rules (fun _ _ => False) retired db
      { db with runs := db.runs.updateWhere p (HostedRun.retired now) } where
  toOnward := later
  ends _ _ h := .inl h
  launchable := launchable_of_runs later rfl fun id hnone => by
    rw [Table.find?_updateWhere, hnone]; rfl
  unended r' hr' hterminal := by
    have hmem : r' ∈ (db.runs.updateWhere p (HostedRun.retired now)).rows := hr'
    obtain ⟨r, hr, rfl⟩ := Table.mem_updateWhere.mp hmem
    split at hterminal
    · next hretired =>
      rw [if_pos hretired]
      exact .inr (hp r hretired)
    · next hother =>
      rw [if_neg hother]
      exact .inl ⟨r, hr, rfl, rfl, hterminal⟩

theorem launched_idle (config : HostedExecutionConfig) {objectiveId leaseId : String}
    (h : launched objectiveId leaseId now db = .ok db') : Idle rules db db' := by
  have later := hostedStep_onward rules config db (.launched objectiveId leaseId now)
  rw [hostedStep, h, commit_ok] at later
  unfold launched at h
  split at h
  · cases h
  · obtain rfl := Except.ok.inj h
    exact update_idle later (fun _ => rfl) fun _ h => by cases h

theorem launchFailed_idle (rules : ActivityRules) (config : HostedExecutionConfig)
    (objectiveId leaseId : String) (now : ℤ) (db : Execution) :
    Idle rules db (launchFailed objectiveId leaseId now db) := by
  have later := hostedStep_onward rules config db (.launchFailed objectiveId leaseId now)
  rw [hostedStep] at later
  unfold launchFailed at later ⊢
  split at later
  · exact .refl rules db
  · exact update_idle later (fun _ => rfl) fun _ h => by cases h

theorem terminalTimestamp_idle (rules : ActivityRules) (config : HostedExecutionConfig)
    (objectiveId : String) (now : ℤ) (db : Execution) :
    Idle rules db (terminalTimestamp objectiveId now db) :=
  update_idle (hostedStep_onward rules config db (.terminalTimestamp objectiveId now))
    (fun _ => rfl) fun _ h => h

theorem cleaned_idle (rules : ActivityRules) (config : HostedExecutionConfig)
    (objectiveId : String) (now : ℤ) (db : Execution) :
    Idle rules db (cleaned objectiveId now db) :=
  update_idle (hostedStep_onward rules config db (.cleaned objectiveId now))
    (fun _ => rfl) fun _ h => h

theorem markTerminal_moved (rules : ActivityRules) (config : HostedExecutionConfig)
    (owner objectiveId : String) (now : ℤ) (db : Execution) :
    Moved rules (fun _ _ => False) (fun o id => (o, id) = (owner, objectiveId)) db
      (markTerminal owner objectiveId now db) :=
  retire_moved (hostedStep_onward rules config db (.markTerminal owner objectiveId now))
    fun _ hr => Prod.ext_iff.mpr (of_decide_eq_true hr)

theorem retireOwner_moved (rules : ActivityRules) (config : HostedExecutionConfig)
    (owner : String) (now : ℤ) (db : Execution) :
    Moved rules (fun _ _ => False) (fun o _ => o = owner) db (retireOwner owner now db) :=
  retire_moved (hostedStep_onward rules config db (.retireOwner owner now))
    fun _ hr => (of_decide_eq_true hr).1

/-- A run that was read is ended by its mark. -/
theorem markTerminal_ended {r : HostedRun} (h : db.HasRun r) (now : ℤ) :
    ∃ r' ∈ (markTerminal r.ownerUserId r.objectiveId now db).runs.rows, r'.state = .terminal ∧
      r'.ownerUserId = r.ownerUserId ∧ r'.objectiveId = r.objectiveId := by
  obtain ⟨s, hs, howner⟩ := h
  obtain ⟨hmem, hid⟩ := Table.mem_of_find? hs
  refine ⟨s.retired now, ?_, rfl, howner, hid⟩
  simp only [markTerminal]
  rw [Table.mem_updateWhere]
  exact ⟨s, hmem, if_pos (decide_eq_true ⟨howner, hid⟩)⟩

/-- A run that was read begins nothing after its mark. -/
theorem markTerminal_not_launchable {r : HostedRun} (h : db.HasRun r) (now : ℤ) :
    ¬(markTerminal r.ownerUserId r.objectiveId now db).Launchable r.ownerUserId r.objectiveId := by
  obtain ⟨r', hr', hstate, howner, hid⟩ := markTerminal_ended h now
  have hbegun : (markTerminal r.ownerUserId r.objectiveId now db).HasBegun r' :=
    ⟨r', Table.find?_of_mem hr', rfl, decide_eq_true (.inr hstate)⟩
  rw [← howner, ← hid]
  exact fun hlaunch => hbegun.not_launchable (by rwa [howner, hid] at hlaunch ⊢)

end Runs

end HostedExecutionStore

namespace FirstmateExecutionService

open Execution FirstmateExecutionStore

variable {rules : ControllerRules} {owner : String} {event : FirstmateExecutionEvent} {now : ℤ}
  {projected : Bool} {db db' : Execution}

/-- An event is stored already, or is new. -/
theorem store_cases (h : store rules owner event now projected db = .ok db') :
    rules.activity.boundedPrincipal owner = true ∧
      ((∃ stored, db.events.find? (owner, event.eventId) = some stored ∧ stored.payload = event ∧
          db' = db) ∨
        ∃ stored objective objectives,
          Stored rules.activity owner event now db db' stored objective objectives) := by
  simp only [store, bind_eq_ok, raiseIf_eq_ok, exists_const, stateOf_eq_ok] at h
  obtain ⟨-, ⟨stored, duplicate⟩, hingest⟩ := h
  refine ⟨(ingest_cases hingest).1, ?_⟩
  rcases ingest_stored hingest with hsame | ⟨objective, objectives, hstored⟩
  · exact .inl ⟨stored, hsame⟩
  · exact .inr ⟨stored, objective, objectives, hstored⟩

/-- Storing an event ends its objective at most. -/
theorem store_moved (h : store rules owner event now projected db = .ok db') :
    Moved rules.activity
      (fun o id => event.phase.terminal = true ∧ (o, id) = (owner, event.objectiveId))
      (fun _ _ => False) db db' := by
  obtain ⟨hprincipal, ⟨_, -, -, rfl⟩ | ⟨stored, objective, objectives, hstored⟩⟩ := store_cases h
  · exact (Idle.refl _ _).moved _ _
  obtain ⟨hsubmissions, hruns, -⟩ := hstored.others
  have hphase := EventStreams.terminalPhase_stored hstored
  refine ⟨⟨fun id r hr => ⟨r, hruns ▸ hr, rfl, fun hbegun => hbegun⟩, fun o id hover => ?_,
    fun hstreams => hstreams.store hprincipal hstored,
    fun hcolumns e he => ?_⟩, fun o id hover => ?_,
    fun o id hlaunch => ?_, fun r' hr' hstate => .inl ⟨r', hruns ▸ hr', rfl, rfl, hstate⟩⟩
  · rw [Over, hphase]
    split
    · exact Option.some_ne_none _
    · exact hover
  · rw [hstored.events] at he
    rcases List.mem_append.mp he with he | he
    · exact hcolumns e he
    · obtain ⟨recordId, hrow⟩ := hstored.row
      rw [List.mem_singleton.mp he, hrow]
      exact ⟨rfl, rfl⟩
  · rw [Over, hphase] at hover
    split at hover
    · next hended => exact .inr hended
    · exact .inl hover
  · rwa [Launchable, hruns, hsubmissions] at hlaunch

/-- Storing an event that ends nothing. -/
theorem store_idle (h : store rules owner event now projected db = .ok db')
    (hopen : event.phase.terminal = false) : Idle rules.activity db db' :=
  { store_moved h with
    ends := fun o id hover => ((store_moved h).ends o id hover).imp_right fun hended =>
      absurd hended.1 (by simp [hopen]) }

/-- A stored terminal event has ended its objective, also when it was stored before. -/
theorem store_over (hstreams : EventStreams rules.activity db) (hcolumns : db.EventColumns)
    (h : store rules owner event now projected db = .ok db')
    (hterminal : event.phase.terminal = true) : db'.Over owner event.objectiveId := by
  obtain ⟨-, ⟨stored, hfound, hpayload, rfl⟩ | ⟨stored, objective, objectives, hstored⟩⟩ :=
    store_cases h
  · obtain ⟨hmem, hkey⟩ := Table.mem_of_find? hfound
    obtain ⟨hid, hphase⟩ := hcolumns stored hmem
    obtain ⟨o, ho, -, -, -, hended⟩ := hstreams.known stored hmem
    rw [hpayload] at hid hphase
    rw [(Prod.mk.inj hkey).1, hid] at ho
    rw [Over, terminalPhase, ho, Option.bind_some, (hended (hphase ▸ hterminal)).2]
    exact Option.some_ne_none _
  · rw [Over, EventStreams.terminalPhase_stored hstored, if_pos ⟨hterminal, rfl⟩]
    exact Option.some_ne_none _

end FirstmateExecutionService

namespace ObjectiveCancellationService

open Execution

variable {requestId : String → String → String} {owner actor objectiveId key : String} {now : ℤ}
  {reserved projected : Bool} {pick : ℕ} {db db' : Execution}

/-- A request ends nothing. -/
theorem request_idle (rules : ActivityRules) {row : CancellationRequest} {duplicate notify : Bool}
    (h : request requestId owner actor objectiveId key now reserved projected pick db =
      .ok ((row, duplicate, notify), db')) : Idle rules db db' := by
  rcases request_cases h with rfl | ⟨existing, -, -, -, rfl⟩ | ⟨-, -, -, -, rfl⟩
  · exact .refl rules db'
  · exact .of_same rfl rfl rfl rfl
  · exact .of_same rfl rfl rfl rfl

/-- The turns of a cancellation end nothing. -/
theorem turn_idle (rules : ActivityRules) (reserved delivered : Bool) (task : CancellationTask)
    (now : ℤ) (db : Execution) : Idle rules db (task.turn now reserved delivered db).1 := by
  cases task with
  | sweep rest =>
    cases rest with
    | nil => exact .refl rules db
    | cons row rest =>
      simp only [CancellationTask.turn]
      split <;> exact .refl rules db
  | checked row rest =>
    simp only [CancellationTask.turn]
    split
    · exact .of_same rfl rfl rfl rfl
    · split
      · exact .refl rules db
      · exact .of_same rfl rfl rfl rfl
  | notify requestId rest => exact .of_same rfl rfl rfl rfl
  | delivering requestId rest => exact .of_same rfl rfl rfl rfl

end ObjectiveCancellationService

end Magistrate
