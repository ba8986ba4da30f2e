import Magistrate.Core.History
import Magistrate.Gateway.Attention.Actions

/-!
# Attention actions are executed once

An execution that loses its claim of the action key looks for the outcome of its
own user. Where another user holds the key there is none, and the executor runs
again; where the user chose otherwise before, that choice is returned. Nor does
an execution look whether it was the one to use its confirmation up. Apart from
these, the executor runs once for a key, after its confirmation.
-/

namespace Magistrate

/-- A confirmation of an attempt was used up: it was unused and not expired. -/
def ActionAttempt.Confirmed (rules : AttentionRules) (a : ActionAttempt)
    (history : List ActionEvent) : Prop :=
  ∃ row now, .consumed a row now ∈ history ∧
    rules.confirmationHash a.confirmationToken = some row.confirmationHash ∧ row.Matches a ∧
    row.usedAt = none ∧ now ≤ row.expiresAt

/-- An outcome is the one that an attempt asks for. -/
def ActionOutcome.Answers (row : ActionOutcome) (a : ActionAttempt) : Prop :=
  row.userId = a.userId ∧ row.action = a.selectedAction ∧ row.targetId = a.targetId

instance (row : ActionOutcome) (a : ActionAttempt) : Decidable (row.Answers a) :=
  inferInstanceAs (Decidable (_ ∧ _))

/-- Whether a task is about to let the executor run for a key. -/
def AttemptTask.executes (key : String) : AttemptTask → Bool
  | .execute a _ => a.actionKey = key
  | _ => false

/-- Whether the executor ran for a key. -/
def ActionEvent.ranFor (key : String) : ActionEvent → Bool
  | .ran a => a.actionKey = key
  | _ => false

/-- Whether an outcome holds a key. -/
def AttentionActions.claimed (db : AttentionActions) (key : String) : Bool :=
  (db.outcomes.find? key).isSome

/-- A turn that meets no other execution: it uses up a confirmation that is unused, and an outcome
that holds its key is the one that it asks for. -/
def AttemptTask.Uncontested (db : AttentionActions) : AttemptTask → Prop
  | .consume _ _ confirmationHash _ => (db.confirmations.find? confirmationHash).all
      (fun row => row.usedAt = none) = true
  | .claim a live => (db.outcomes.find? live.2.actionKey).all (fun row => row.Answers a) = true
  | _ => True

/-- A step that meets no other execution. -/
def AttentionStep.Uncontested (p : Pool AttentionActions AttemptTask) : AttentionStep → Prop
  | .turn i _ _ => ∀ task, p.workers[i]? = some task → task.Uncontested p.shared
  | _ => True

instance (db : AttentionActions) (task : AttemptTask) : Decidable (task.Uncontested db) := by
  unfold AttemptTask.Uncontested
  split <;> infer_instance

instance (p : Pool AttentionActions AttemptTask) (step : AttentionStep) :
    Decidable (step.Uncontested p) := by
  unfold AttentionStep.Uncontested
  split <;> infer_instance

/-- What later tables keep of confirmations and outcomes. -/
structure AttentionActions.Later (db db' : AttentionActions) : Prop where
  confirmations : ∀ hash row, db.confirmations.find? hash = some row →
    ∃ row', db'.confirmations.find? hash = some row' ∧ row'.expiresAt = row.expiresAt ∧
      ∀ a, row.Matches a → row'.Matches a
  outcomes : ∀ key row, db.outcomes.find? key = some row →
    ∃ row', db'.outcomes.find? key = some row' ∧ ∀ a, row.Answers a → row'.Answers a
  history : db.history <+: db'.history

/-- What an execution did before. -/
def AttemptTask.Sound (rules : AttentionRules) (db : AttentionActions) : AttemptTask → Prop
  | .verify a live confirmationHash => live.2.actionKey = a.actionKey ∧
      rules.confirmationHash a.confirmationToken = some confirmationHash
  | .consume a live confirmationHash now => live.2.actionKey = a.actionKey ∧
      rules.confirmationHash a.confirmationToken = some confirmationHash ∧
      ∃ row, db.confirmations.find? confirmationHash = some row ∧ row.Matches a ∧
        now ≤ row.expiresAt
  | .claim a live => live.2.actionKey = a.actionKey ∧ a.Confirmed rules db.history
  | .reread a live => live.2.actionKey = a.actionKey ∧ a.Confirmed rules db.history ∧
      ∃ row, db.outcomes.find? a.actionKey = some row ∧ row.Answers a
  | .execute a live => live.2.actionKey = a.actionKey ∧ a.Confirmed rules db.history
  | _ => True

section Later

variable {rules : AttentionRules} {db db' : AttentionActions}

theorem AttentionActions.Later.refl (db : AttentionActions) : db.Later db :=
  ⟨fun _ row h => ⟨row, h, rfl, fun _ ha => ha⟩, fun _ row h => ⟨row, h, fun _ ha => ha⟩,
    List.prefix_rfl⟩

/-- An event is the latest. -/
theorem AttentionActions.Later.happens (db : AttentionActions) (event : ActionEvent) :
    db.Later { db with history := db.history ++ [event] } :=
  ⟨(Later.refl db).confirmations, (Later.refl db).outcomes, List.prefix_append _ _⟩

theorem ActionAttempt.Confirmed.later {a : ActionAttempt} {history history' : List ActionEvent}
    (h : a.Confirmed rules history) (hearlier : history <+: history') :
    a.Confirmed rules history' := by
  obtain ⟨row, now, hmem, hrow⟩ := h
  exact ⟨row, now, hearlier.mem hmem, hrow⟩

/-- What an execution did stays done. -/
theorem AttemptTask.Sound.later {task : AttemptTask} (h : task.Sound rules db)
    (later : db.Later db') : task.Sound rules db' := by
  cases task with
  | lookup | record | report => trivial
  | verify => exact h
  | consume a live confirmationHash now =>
    obtain ⟨hkey, hhash, row, hrow, hmatches, hexpires⟩ := h
    obtain ⟨row', hrow', hsame, hkept⟩ := later.confirmations _ row hrow
    exact ⟨hkey, hhash, row', hrow', hkept a hmatches, hsame ▸ hexpires⟩
  | claim a live => exact ⟨h.1, h.2.later later.history⟩
  | reread a live =>
    obtain ⟨hkey, hconfirmed, row, hrow, hanswers⟩ := h
    obtain ⟨row', hrow', hkept⟩ := later.outcomes _ row hrow
    exact ⟨hkey, hconfirmed.later later.history, row', hrow', hkept a hanswers⟩
  | execute a live => exact ⟨h.1, h.2.later later.history⟩

end Later

section Items

variable {rules : AttentionRules} {items : List Json} {actionKey selectedAction targetId : String}
  {live : Json × AttentionAction}

/-- A live item is found under its action key. -/
theorem findLiveItem_key (h : findLiveItem rules items actionKey targetId = .ok live) :
    live.2.actionKey = actionKey := by
  induction items with
  | nil => cases h
  | cons item items ih =>
    simp only [findLiveItem] at h
    split at h
    · exact ih h
    · next action haction =>
      split at h
      · exact ih h
      · next hkey =>
        simp only [bind_eq_ok, raiseIf_eq_ok, exists_const] at h
        obtain ⟨-, h⟩ := h
        split at h
        · cases h
        · obtain rfl := Except.ok.inj h
          exact not_not.mp hkey

theorem liveAction_key (h : liveAction rules items actionKey selectedAction targetId = .ok live) :
    live.2.actionKey = actionKey := by
  simp only [liveAction, bind_eq_ok, raiseIf_eq_ok, pure_eq_ok, exists_const] at h
  obtain ⟨found, hfound, -, rfl⟩ := h
  exact findLiveItem_key hfound

theorem confirmationOf_ok {a : ActionAttempt} {confirmationHash : String}
    (h : confirmationOf rules a = .ok (live, confirmationHash)) :
    live.2.actionKey = a.actionKey ∧
      rules.confirmationHash a.confirmationToken = some confirmationHash := by
  simp only [confirmationOf, bind_eq_ok, raiseIf_eq_ok, exists_const] at h
  obtain ⟨found, hfound, -, h⟩ := h
  split at h
  · cases h
  · next hash hhash =>
    obtain ⟨rfl, rfl⟩ := Prod.mk.inj (Except.ok.inj h)
    exact ⟨liveAction_key hfound, hhash⟩

end Items

/-- What an event says of the events before it. -/
def ActionEvent.Fair (rules : AttentionRules) (history : List ActionEvent) : ActionEvent → Prop
  | .ran a => a.Confirmed rules history
  | .replied a (.outcome row true) => row.action = a.selectedAction ∧ row.targetId = a.targetId
  | _ => True

/-- What a turn does: it keeps what was done, goes on with what is done, lets the executor run only
for a key that it holds, and makes at most one event happen. -/
structure TurnSound (rules : AttentionRules) (task : AttemptTask) (db db' : AttentionActions)
    (next : Option AttemptTask) : Prop where
  later : db.Later db'
  sound : ∀ task' ∈ next, task'.Sound rules db'
  once : ∀ key, db'.history.countP (ActionEvent.ranFor key) +
      next.toList.countP (AttemptTask.executes key) + (db.claimed key).toNat ≤
    db.history.countP (ActionEvent.ranFor key) + [task].countP (AttemptTask.executes key) +
      (db'.claimed key).toNat
  fair : db'.history = db.history ∨
    ∃ event, db'.history = db.history ++ [event] ∧ event.Fair rules db.history

namespace TurnSound

variable {rules : AttentionRules} {task : AttemptTask} {db : AttentionActions}

/-- A turn that writes nothing and goes on without the executor. -/
theorem still {next : Option AttemptTask} (hsound : ∀ task' ∈ next, task'.Sound rules db)
    (hnext : ∀ key, ∀ task' ∈ next, task'.executes key = false) :
    TurnSound rules task db db next where
  later := .refl db
  sound := hsound
  once key := by
    have hzero : next.toList.countP (AttemptTask.executes key) = 0 := by
      rw [List.countP_eq_zero]
      intro task' htask'
      simp [hnext key task' (Option.mem_toList.mp htask')]
    omega
  fair := .inl rfl

/-- A turn that only makes an event other than a run of the executor happen. -/
theorem event {next : Option AttemptTask} {event : ActionEvent}
    (hsound : ∀ task' ∈ next, task'.Sound rules { db with history := db.history ++ [event] })
    (hnext : ∀ key, ∀ task' ∈ next, task'.executes key = false)
    (hevent : ∀ key, event.ranFor key = false) (hfair : event.Fair rules db.history) :
    TurnSound rules task db { db with history := db.history ++ [event] } next where
  later := .happens db event
  sound := hsound
  once key := by
    have hzero : next.toList.countP (AttemptTask.executes key) = 0 := by
      rw [List.countP_eq_zero]
      intro task' htask'
      simp [hnext key task' (Option.mem_toList.mp htask')]
    simp only [List.countP_append, List.countP_singleton, hevent key, AttentionActions.claimed]
    simp only [Bool.false_eq_true, if_false]
    omega
  fair := .inr ⟨event, rfl, hfair⟩

end TurnSound

/-- An uncontested turn is sound. -/
theorem AttemptTask.turn_sound {rules : AttentionRules} {task : AttemptTask} {db : AttentionActions}
    (now : ℤ) (executed : Option Bool) (h : task.Sound rules db) (hfree : task.Uncontested db) :
    TurnSound rules task db (task.turn rules now executed db).1
      (task.turn rules now executed db).2 := by
  have hstop : TurnSound rules task db db none :=
    .still (fun _ ht => by cases ht) fun _ _ ht => by cases ht
  cases task with
  | lookup a =>
    simp only [turn]
    split
    · exact hstop
    · split
      · next row hrow =>
        split
        · exact hstop
        · next hsame =>
          obtain ⟨haction, htarget⟩ := not_or.mp hsame
          exact .event (fun _ ht => by cases ht) (fun _ _ ht => by cases ht) (fun _ => rfl)
            ⟨not_not.mp haction, not_not.mp htarget⟩
      · split
        · exact hstop
        · next live confirmationHash hconfirmation =>
          refine .still (fun _ ht => ?_) fun _ _ ht => ?_ <;>
            obtain rfl := Option.mem_some.mp ht
          · exact confirmationOf_ok hconfirmation
          · rfl
  | verify a live confirmationHash =>
    simp only [turn]
    split
    · exact hstop
    · next row hrow =>
      split
      · exact hstop
      · next hvalid =>
        simp only [not_or, not_not, Int.not_lt] at hvalid
        refine .still (fun _ ht => ?_) fun _ _ ht => ?_ <;>
          obtain rfl := Option.mem_some.mp ht
        · exact ⟨h.1, h.2, row, hrow, hvalid.1, hvalid.2.1⟩
        · rfl
  | consume a live confirmationHash readAt =>
    obtain ⟨hkey, hhash, row, hrow, hmatches, hexpires⟩ := h
    have hunused : row.usedAt = none := by
      simpa [Uncontested, hrow] using hfree
    have hid := (Table.mem_of_find? hrow).2
    simp only [turn, hrow, Option.filter_some, hunused, decide_true, if_true]
    refine ⟨⟨fun hash s hs => ?_, fun _ s hs => ⟨s, hs, fun _ ha => ha⟩, List.prefix_append _ _⟩,
      fun _ ht => ?_, fun key => ?_, .inr ⟨_, rfl, trivial⟩⟩
    · rw [Table.find?_update, hs]
      refine ⟨_, rfl, ?_⟩
      split
      · exact ⟨rfl, fun _ hs => hs⟩
      · exact ⟨rfl, fun _ hs => hs⟩
    · obtain rfl := Option.mem_some.mp ht
      exact ⟨hkey, row, readAt, List.mem_append_right _ (List.mem_singleton_self _),
        hid ▸ hhash, hmatches, hunused, hexpires⟩
    · simp [ActionEvent.ranFor, executes, AttentionActions.claimed]
  | claim a live =>
    simp only [turn]
    split
    · next row hrow =>
      have hanswers : row.Answers a := by
        simpa [Uncontested, hrow] using hfree
      refine .still (fun _ ht => ?_) fun _ _ ht => ?_ <;> obtain rfl := Option.mem_some.mp ht
      · exact ⟨h.1, h.2, row, h.1 ▸ hrow, hanswers⟩
      · rfl
    · next hnone =>
      refine ⟨⟨fun _ s hs => ⟨s, hs, rfl, fun _ ha => ha⟩, fun key s hs => ⟨s, ?_, fun _ ha => ha⟩,
        List.prefix_rfl⟩, fun _ ht => ?_, fun key => ?_, .inl rfl⟩
      · rw [Table.find?_insertOrIgnore, hs, Option.some_or]
      · obtain rfl := Option.mem_some.mp ht
        exact h
      · simp only [AttentionActions.claimed, Table.find?_insertOrIgnore, pendingOutcome, executes,
          Option.toList_some, List.countP_singleton, h.1]
        rw [h.1] at hnone
        by_cases hthis : a.actionKey = key
        · subst hthis
          simp [hnone]
        · simp [hthis]
  | reread a live =>
    obtain ⟨hkey, hconfirmed, row, hrow, huser, haction, htarget⟩ := h
    have hfound : outcomeRow live.2.actionKey a.userId db = some row := by
      simp [outcomeRow, hkey, hrow, huser]
    simp only [turn, hfound]
    exact .event (fun _ ht => by cases ht) (fun _ _ ht => by cases ht) (fun _ => rfl)
      ⟨haction, htarget⟩
  | execute a live =>
    simp only [turn]
    refine ⟨.happens db _, fun _ ht => ?_, fun key => ?_, .inr ⟨_, rfl, h.2⟩⟩
    · obtain ⟨ok, -, rfl⟩ := Option.map_eq_some_iff.mp ht
      trivial
    · have hzero : (executed.map (AttemptTask.record a live)).toList.countP
          (AttemptTask.executes key) = 0 := by
        cases executed <;> simp [executes]
      rw [hzero]
      by_cases hthis : a.actionKey = key <;>
        simp [ActionEvent.ranFor, executes, AttentionActions.claimed, hthis]
  | record a live ok =>
    simp only [turn]
    refine ⟨⟨fun _ s hs => ⟨s, hs, rfl, fun _ ha => ha⟩, fun key s hs => ?_, List.prefix_rfl⟩,
      fun _ ht => ?_, fun key => ?_, .inl rfl⟩
    · rw [Table.find?_updateWhere, hs]
      refine ⟨_, rfl, ?_⟩
      dsimp only
      split
      · exact fun _ ha => ha
      · exact fun _ ha => ha
    · obtain rfl := Option.mem_some.mp ht
      trivial
    · simp [executes, AttentionActions.claimed, Table.find?_updateWhere]
  | report a live ok =>
    simp only [turn]
    split
    · exact .event (fun _ ht => by cases ht) (fun _ _ ht => by cases ht) (fun _ => rfl) trivial
    · exact .event (fun _ ht => by cases ht) (fun _ _ ht => by cases ht) (fun _ => rfl) trivial

/-- The executor runs at most once for a held key and not without one, and the executions did what
their tasks and the history say. -/
structure AttentionInvariant (rules : AttentionRules) (p : Pool AttentionActions AttemptTask) :
    Prop where
  once : ∀ key, p.shared.history.countP (ActionEvent.ranFor key) +
    p.workers.countP (AttemptTask.executes key) ≤ (p.shared.claimed key).toNat
  sound : ∀ task ∈ p.workers, task.Sound rules p.shared
  fair : Justified (ActionEvent.Fair rules) p.shared.history

namespace AttentionInvariant

variable {rules : AttentionRules} {p : Pool AttentionActions AttemptTask}

theorem initial (rules : AttentionRules) : AttentionInvariant rules ⟨.initial, []⟩ where
  once key := by simp [AttentionActions.initial]
  sound task h := by simp at h
  fair := .nil

/-- A prepared confirmation leaves the others. -/
theorem prepare_later {items : List Json} {actionKey selectedAction targetId userId sessionId
    token : String} {now : ℤ} {db db' : AttentionActions} {prepared : PreparedAction}
    (h : AttentionActions.prepareConfirmation rules items actionKey selectedAction targetId userId
      sessionId token now db = .ok (prepared, db')) :
    db.Later db' ∧ db'.outcomes = db.outcomes ∧ db'.history = db.history := by
  simp only [AttentionActions.prepareConfirmation, bind_eq_ok, raiseIf_eq_ok, exists_const] at h
  obtain ⟨-, found, -, h⟩ := h
  split at h
  · exact nomatch h
  · simp only [bind_eq_ok, raiseIf_eq_ok, pure_eq_ok, exists_const, Prod.mk.injEq] at h
    obtain ⟨-, -, rfl⟩ := h
    refine ⟨⟨fun hash row hrow => ⟨row, ?_, rfl, fun _ ha => ha⟩,
      fun _ row hrow => ⟨row, hrow, fun _ ha => ha⟩, List.prefix_rfl⟩, rfl, rfl⟩
    rw [Table.find?_insertOrIgnore, hrow, Option.some_or]

/-- An uncontested step keeps the invariant. -/
theorem step (h : AttentionInvariant rules p) (op : AttentionStep) (hfree : op.Uncontested p) :
    AttentionInvariant rules (attentionStep rules p op) := by
  cases op with
  | prepare items actionKey selectedAction targetId userId sessionId token now =>
    refine commit_of (P := fun db => AttentionInvariant rules (p.write db)) h fun db' hok => ?_
    obtain ⟨prepared, hprepare⟩ := stateOf_eq_ok.mp hok
    obtain ⟨later, houtcomes, hhistory⟩ := prepare_later hprepare
    refine ⟨fun key => ?_, fun task htask => (h.sound task htask).later later, ?_⟩
    · simpa only [Pool.write, hhistory, AttentionActions.claimed, houtcomes] using h.once key
    · simpa only [Pool.write, hhistory] using h.fair
  | execute a =>
    refine ⟨fun key => ?_, fun task htask => ?_, h.fair⟩
    · simpa [attentionStep, Pool.spawn, AttemptTask.executes] using h.once key
    · rcases List.mem_append.mp htask with htask | htask
      · exact h.sound task htask
      · rw [List.mem_singleton.mp htask]
        trivial
  | turn i now executed =>
    rcases p.turn_cases i (AttemptTask.turn rules now executed) with hsame |
      ⟨before, task, after, hworkers, htask, hturn⟩
    · rwa [attentionStep, hsame]
    have hturned := task.turn_sound now executed (h.sound task (List.mem_of_getElem? htask))
      (hfree task htask)
    rw [attentionStep, hturn]
    refine ⟨fun key => ?_, fun t ht => ?_, ?_⟩
    · have honce := h.once key
      have hnext := hturned.once key
      rw [hworkers] at honce
      simp only [List.countP_append, List.countP_cons, List.countP_nil] at honce hnext ⊢
      omega
    · rw [List.append_assoc, List.mem_append, List.mem_append, Option.mem_toList] at ht
      rcases ht with ht | ht | ht
      · exact (h.sound t (by simp [hworkers, ht])).later hturned.later
      · exact hturned.sound t ht
      · exact (h.sound t (by simp [hworkers, ht])).later hturned.later
    · rcases hturned.fair with hsame | ⟨event, hevent, hfair⟩
      · simpa only [hsame] using h.fair
      · simpa only [hevent] using h.fair.concat hfair
  | stop i =>
    rcases p.turn_cases i fun _ db => (db, none)
      with hsame | ⟨before, task, after, hworkers, -, hturn⟩
    · rwa [attentionStep, hsame]
    · rw [attentionStep, hturn]
      refine ⟨fun key => ?_, fun t ht => h.sound t ?_, h.fair⟩
      · have honce := h.once key
        rw [hworkers] at honce
        simp only [List.countP_append, List.countP_cons, List.countP_nil,
          Option.toList_none] at honce ⊢
        omega
      · rw [hworkers]
        simp only [Option.toList_none, List.append_nil, List.mem_append] at ht
        rcases ht with ht | ht <;> simp [ht]

end AttentionInvariant

/-- In every run in which no turn meets another execution, the executor runs at most once for an
action key, it runs only after a matching confirmation was used up that was unused and not expired,
and an idempotent reply is what the attempt asks for. -/
theorem attention_actions_once (rules : AttentionRules) (steps : List AttentionStep)
    (uncontested : RunMeets (attentionStep rules) (fun p step => step.Uncontested p) ⟨.initial, []⟩
      steps) :
    let history := (run (attentionStep rules) ⟨.initial, []⟩ steps).shared.history
    (∀ key, history.countP (ActionEvent.ranFor key) ≤ 1) ∧
    (∀ before a after, history = before ++ .ran a :: after → a.Confirmed rules before) ∧
    ∀ a row, .replied a (.outcome row true) ∈ history →
      row.action = a.selectedAction ∧ row.targetId = a.targetId := by
  intro history
  have hinvariant : AttentionInvariant rules (run (attentionStep rules) ⟨.initial, []⟩ steps) :=
    run_invariant (fun _ op h hfree => h.step op hfree) uncontested (.initial rules)
  refine ⟨fun key => ?_, fun before a after hsplit => hinvariant.fair before (.ran a) after hsplit,
    fun a row hmem => ?_⟩
  · exact (Nat.le_add_right _ _).trans ((hinvariant.once key).trans (Bool.toNat_le _))
  · obtain ⟨before, after, hsplit⟩ := List.append_of_mem hmem
    exact hinvariant.fair before _ after hsplit

namespace AttentionSample

/-- Rules that take texts as they are. -/
def rules : AttentionRules where
  strip text := text
  hmacSha256 text := text
  riskPattern _ := false
  confirmationHash token := some token

/-- A live captain question. -/
def item : Json :=
  .obj [("provider", .str "firstmate"), ("notification_kind", .str "captain_question"),
    ("status", .str "needs-decision"), ("id", .str "item"), ("revision", .str "1"),
    ("context", .obj [("task_id", .str "task"), ("decision_key", .str "decision")])]

/-- A choice on it. -/
def choice (selectedAction userId token : String) : ActionAttempt where
  items := [item]
  actionKey := actionKeyFor rules item
  selectedAction
  targetId := "task"
  confirmationToken := token
  userId
  sessionId := "session"

/-- The preparation of a choice. -/
def prepare (a : ActionAttempt) : AttentionStep :=
  .prepare a.items a.actionKey a.selectedAction a.targetId a.userId a.sessionId
    a.confirmationToken 0

/-- The next turn of an execution; its executor succeeds. -/
def next (task : ℕ) : AttentionStep := .turn task 1 (some true)

/-- A choice that is prepared and executed as far as its executor. -/
def chosen (a : ActionAttempt) : List AttentionStep :=
  [prepare a, .execute a, next 0, next 0, next 0, next 0, next 0]

end AttentionSample

open AttentionSample

/-- A choice runs the executor once and is replied to. -/
theorem attention_actions_once_chosen :
    let a := choice "approve" "owner" "token"
    let history :=
      (run (attentionStep rules) ⟨.initial, []⟩ (chosen a ++ [next 0, next 0])).shared.history
    history.countP (ActionEvent.ranFor a.actionKey) = 1 ∧
    (∀ key, history.countP (ActionEvent.ranFor key) ≤ 1) ∧
    (∀ before a after, history = before ++ .ran a :: after → a.Confirmed rules before) ∧
    ∀ a row, .replied a (.outcome row true) ∈ history →
      row.action = a.selectedAction ∧ row.targetId = a.targetId :=
  ⟨by decide, attention_actions_once rules _ (by decide)⟩

/-- The executor runs for a second user whose choice is on the same action key, and a rejection that
loses the race against an approval is told that it was approved. -/
theorem attention_actions_twice :
    let approve := choice "approve" "owner" "first"
    let other := choice "reject" "other" "second"
    let reject := choice "reject" "owner" "second"
    let history := fun steps => (run (attentionStep rules) ⟨.initial, []⟩ steps).shared.history
    (history (chosen approve ++ [.stop 0] ++ chosen other ++ [next 0])).countP
        (ActionEvent.ranFor approve.actionKey) = 2 ∧
      ((history ([prepare approve, prepare reject, .execute approve,
        .execute reject, next 0, next 1, next 0, next 0, next 0, next 1, next 1, next 1,
          next 1])).any fun
          | .replied a (.outcome row true) =>
            a.selectedAction = "reject" ∧ row.action = "approve"
          | _ => false) = true := by
  decide

end Magistrate
