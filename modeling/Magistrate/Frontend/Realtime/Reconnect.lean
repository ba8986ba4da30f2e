import Magistrate.Frontend.Realtime.Attachment

/-!
# A client that reconnects

A step that leaves a wanted client unattended is one of a few kinds, and they are
conditions on the state before it. Every other step keeps the client attached.
Where the platform raises instead of closing a socket, a step may let go of a
live one; every other step keeps at most one live.
-/

namespace Magistrate.Frontend

namespace RealtimeState

variable {rules : RealtimeRules} {s : RealtimeState}

/-- A stopped client is not to be connected. -/
theorem not_adrift_of_stopped (h : s.stopped = true) : ¬s.Adrift := by
  rintro ⟨⟨hstopped, -⟩, -⟩
  rw [h] at hstopped
  cases hstopped

/-- A client that holds a socket is attended. -/
theorem not_adrift_of_socket {i : ℕ} (h : s.socket = some i) : ¬s.Adrift := by
  rintro ⟨-, hsocket, -⟩
  rw [h] at hsocket
  cases hsocket

/-- A client that was asked to open a socket is attended. -/
theorem beginOpen_not_adrift (s : RealtimeState) : ¬(s.beginOpen s.lifecycle).1.Adrift := by
  rintro ⟨⟨hstopped, -⟩, hsocket, hopening, -⟩
  unfold beginOpen at hstopped hsocket hopening
  split at hopening
  · next hbusy =>
    rw [if_pos hbusy] at hstopped hsocket
    rcases hbusy with h | h | h | h
    · rw [h] at hstopped
      cases hstopped
    · exact h rfl
    · exact h hsocket
    · cases h.symm.trans hopening
  · cases hopening

/-- A client that was connected is attended. -/
theorem connect_not_adrift (s : RealtimeState) : ¬s.connect.1.Adrift := by
  unfold connect
  dsimp only
  exact beginOpen_not_adrift _

/-- A client that was disconnected is stopped. -/
theorem disconnect_stopped (s : RealtimeState) : s.disconnect.stopped = true := by
  unfold disconnect
  split
  · next h => exact h
  · rfl

/-- The timer leaves no client unattended. -/
theorem fireTimer_not_adrift (h : ¬s.Adrift) : ¬s.fireTimer.1.Adrift := by
  unfold fireTimer
  split
  · exact h
  · next epoch htimer =>
    dsimp only
    split
    · next hopens =>
      have hlifecycle : epoch = s.lifecycle := hopens.2
      rw [hlifecycle]
      exact beginOpen_not_adrift { s with reconnectTimer := none }
    · -- The timer was of another lifecycle.
      next hother =>
      rintro ⟨hwanted, hsocket, hopening, -⟩
      refine h ⟨hwanted, hsocket, hopening, fun hown => hother ⟨hwanted.1, ?_⟩⟩
      exact Option.some.inj (htimer.symm.trans hown)

/-- A socket that is opened attends to nothing else. -/
theorem onOpen_adrift (i : ℕ) (ws : EventSocket) : (s.onOpen i ws).Adrift ↔ s.Adrift := by
  unfold onOpen
  dsimp only
  split <;> rfl

/-- A client that stops on an event is stopped, at its cursor. -/
theorem stopOnEvent_stopped (s : RealtimeState) (i epoch : ℕ) (message : Option String) :
    (s.stopOnEvent rules i epoch message).stopped = true ∧
      (s.stopOnEvent rules i epoch message).activityAfter = s.activityAfter := by
  unfold stopOnEvent
  dsimp only
  split
  · exact ⟨rfl, rfl⟩
  · split <;> exact ⟨rfl, rfl⟩

/-- An acknowledged client is stopped, or holds its socket. -/
theorem acknowledge_attended (s : RealtimeState) (i : ℕ) (ws : EventSocket)
    (answer : Handler → HandlerAnswer) : (s.acknowledge rules i ws answer).stopped = true ∨
      (s.acknowledge rules i ws answer).socket = s.socket := by
  unfold acknowledge
  dsimp only
  split
  · exact .inl (stopOnEvent_stopped _ _ _ _).1
  · split
    · split
      · exact .inl (stopOnEvent_stopped _ _ _ _).1
      · exact .inr rfl
    · exact .inr rfl

/-- A message leaves no client unattended. -/
theorem onMessage_not_adrift (h : ¬s.Adrift) (rules : RealtimeRules) (i : ℕ) (ws : EventSocket)
    (data : EventData) (answer : Handler → HandlerAnswer) :
    ¬(s.onMessage rules i ws data answer).Adrift := by
  unfold onMessage
  split
  · exact h
  · next hfresh =>
    rw [Stale, not_or, not_or, not_not, not_not] at hfresh
    obtain ⟨-, -, hheld⟩ := hfresh
    have hstop : ∀ t : RealtimeState, ∀ message,
        ¬(t.stopOnEvent rules i ws.epoch message).Adrift := fun t message =>
      not_adrift_of_stopped (t.stopOnEvent_stopped i ws.epoch message).1
    split
    · dsimp only
      split <;> exact not_adrift_of_stopped rfl
    · split
      · exact hstop _ _
      · exact hstop _ _
      · rcases s.acknowledge_attended i ws answer with hstopped | hsocket
        · exact not_adrift_of_stopped hstopped
        · exact not_adrift_of_socket (hsocket.trans hheld)
      · dsimp only
        split
        · exact not_adrift_of_socket hheld
        · exact hstop _ _
        · exact hstop _ _
      · dsimp only
        split
        · exact not_adrift_of_socket hheld
        · exact hstop _ _
        · exact hstop _ _

/-- An error attends to nothing else. -/
theorem onError_adrift (i : ℕ) (ws : EventSocket) : (s.onError i ws).Adrift ↔ s.Adrift := by
  unfold onError
  split <;> rfl

/-- A reconnect that is scheduled in the lifecycle of a client leaves it unattended, where it could
be connected, exactly if an outlived timer is armed. -/
theorem scheduleReconnect_adrift (hsocket : s.socket = none) (hopening : s.openingEpoch = none) :
    (s.scheduleReconnect s.lifecycle).Adrift ↔ s.Wanted ∧ s.TimerOutlived := by
  unfold scheduleReconnect
  split
  · next hkept =>
    constructor
    · rintro ⟨hwanted, -, -, htimer⟩
      refine ⟨hwanted, ?_, htimer⟩
      rcases hkept with h | h | h
      · cases hwanted.1.symm.trans h
      · exact absurd rfl h
      · exact h
    · rintro ⟨hwanted, -, htimer⟩
      exact ⟨hwanted, hsocket, hopening, htimer⟩
  · next hfree =>
    rw [not_or, not_or] at hfree
    refine iff_of_false ?_ fun h => hfree.2.2 h.2.1
    rintro ⟨-, -, -, hnone⟩
    exact hnone rfl

/-- What was heard of a socket leaves no client unattended that its callback does not. -/
theorem hear_not_adrift (h : ¬s.Adrift) {i : ℕ}
    {callback : EventSocket → RealtimeState → RealtimeState}
    (hcallback : ∀ ws, ¬(callback ws s).Adrift) : ¬(s.hear i callback).Adrift := by
  unfold hear
  split
  · exact h
  · split
    · exact h
    · exact hcallback _

end RealtimeState

namespace OpenAttempt

variable {s : RealtimeState} {attempt : OpenAttempt}

/-- A failed attempt of the lifecycle leaves a client that could be connected unattended exactly
where an outlived timer is armed. -/
theorem fail_adrift (hepoch : attempt.epoch = s.lifecycle) (hopening : s.openingEpoch = none) :
    (attempt.fail s).Adrift ↔ s.Wanted ∧ s.TimerOutlived := by
  unfold fail
  rw [if_neg (not_not.mpr hepoch), hepoch]
  exact RealtimeState.scheduleReconnect_adrift
    (s := RealtimeState.called .onError s.lifecycle none { s with socket := none }) rfl hopening

/-- An attempt of the lifecycle leaves a client unattended that could be connected where it gets no
token and no timer is armed, or an exception and an outlived timer is. -/
theorem finish_adrift (hepoch : attempt.epoch = s.lifecycle) (hsocket : s.socket = none)
    (hopening : s.openingEpoch = none) (hstopped : s.stopped = false) (result : OpenResult) :
    (attempt.finish result s).Adrift ↔ s.Wanted ∧
      (result.Absent ∧ s.reconnectTimer ≠ some s.lifecycle ∨
        result.Raises attempt s ∧ s.TimerOutlived) := by
  have hidle : s.Adrift ↔ s.Wanted ∧ s.reconnectTimer ≠ some s.lifecycle :=
    and_congr_right fun _ => ⟨fun h => h.2.2, fun h => ⟨hsocket, hopening, h⟩⟩
  cases result with
  | absent => simpa [finish, OpenResult.Absent, OpenResult.Raises] using hidle
  | raised => simpa [finish, OpenResult.Absent, OpenResult.Raises] using fail_adrift hepoch hopening
  | token value constructs =>
    by_cases hvalue : value = ""
    · simpa [finish, OpenResult.Absent, OpenResult.Raises, hvalue] using hidle
    · simp only [finish, OpenResult.Absent, OpenResult.Raises, hvalue, hstopped, hepoch, false_and,
        false_or, ne_eq, not_true_eq_false, or_self, if_false, not_false_eq_true, true_and,
        Bool.false_eq_true]
      by_cases hsession : attempt.sessionRevision = some s.sessionRevision
      · cases constructs with
        | true =>
          simp only [hsession, not_true_eq_false, if_false, if_true, reduceCtorEq, and_false,
            false_and, iff_false]
          exact RealtimeState.not_adrift_of_socket rfl
        | false =>
          simpa only [hsession, not_true_eq_false, if_false, Bool.false_eq_true, and_true, true_and]
            using fail_adrift hepoch hopening
      · simp only [hsession, not_false_eq_true, if_true, false_and, and_false, iff_false]
        exact RealtimeState.not_adrift_of_stopped rfl

end OpenAttempt

namespace Attaching

variable {kept : Prop} {s : RealtimeState} {w : List OpenAttempt}

/-- An attempt that goes on leaves a client unattended under the conditions of its step. -/
theorem resume_adrift (h : Attaching kept ⟨s, w⟩) (hattended : ¬s.Adrift) {attempt : OpenAttempt}
    (hmem : attempt ∈ w) (result : OpenResult) :
    (attempt.resume result s).1.Adrift ↔ s.Wanted ∧ attempt.epoch = s.lifecycle ∧
      (result.Absent ∧ s.reconnectTimer ≠ some s.lifecycle ∨
        result.Raises attempt s ∧ s.TimerOutlived) := by
  rw [OpenAttempt.resume]
  dsimp only
  by_cases hepoch : attempt.epoch = s.lifecycle
  · obtain ⟨hopening, hsocket, hstopped⟩ := h.attempt_opening hmem hepoch
    rw [finish_openingEpoch, if_pos hopening, ← finish_ended, and_iff_right hepoch]
    exact OpenAttempt.finish_adrift (s := { s with openingEpoch := none }) hepoch
      hsocket rfl hstopped
      result
  · rw [finish_outlived hepoch, if_neg fun hsame => hepoch (h.opening _ hsame).1]
    exact iff_of_false hattended fun hstep => hepoch hstep.2.1

/-- A socket that is closed leaves a client unattended under the conditions of its step. -/
theorem onClose_adrift (h : Attaching kept ⟨s, w⟩) (hattended : ¬s.Adrift) {i : ℕ}
    {ws : EventSocket}
    (hws : s.sockets[i]? = some ws) (hopen : ws.readyState ≠ .closed) (code : ℕ) :
    (s.onClose i ws code).Adrift ↔ s.Wanted ∧ s.socket = some i ∧
      (ws.epoch ≠ s.lifecycle ∧ s.reconnectTimer ≠ some s.lifecycle ∨
        ws.epoch = s.lifecycle ∧ code ≠ 1008 ∧ code ≠ 1009 ∧ s.TimerOutlived) := by
  have hkept : ∀ f, (s.withSocket i f).socket = s.socket := fun _ => rfl
  unfold RealtimeState.onClose
  dsimp only
  simp only [hkept]
  by_cases hsocket : s.socket = some i
  · have hopening : s.openingEpoch = none := h.opening_none (by simp [hsocket])
    simp only [hsocket, if_true, true_and]
    by_cases hstopped : s.stopped = true
    · rw [if_pos (.inl hstopped)]
      exact iff_of_false (RealtimeState.not_adrift_of_stopped hstopped) fun hstep => by
        rw [hstep.1.1] at hstopped
        cases hstopped
    · by_cases hepoch : ws.epoch = s.lifecycle
      · rw [if_neg (by simp [RealtimeState.withSocket, hstopped, hepoch])]
        by_cases hcode : code = 1008 ∨ code = 1009
        · rw [if_pos hcode]
          refine iff_of_false (RealtimeState.not_adrift_of_stopped rfl) ?_
          rintro ⟨-, ⟨hother, -⟩ | ⟨-, hnot, hnot', -⟩⟩
          · exact hother hepoch
          · exact hcode.elim hnot hnot'
        · rw [if_neg hcode, hepoch]
          rw [not_or] at hcode
          rw [and_iff_right rfl, and_iff_right hcode.1, and_iff_right hcode.2,
            or_iff_right fun hother => hother.1 rfl]
          exact RealtimeState.scheduleReconnect_adrift
            (s := RealtimeState.called .onClose s.lifecycle
            none { s.withSocket i fun ws => { ws with readyState := .closed } with socket := none })
            rfl hopening
      · rw [if_pos (.inr hepoch)]
        constructor
        · rintro ⟨hwanted, -, -, htimer⟩
          exact ⟨hwanted, .inl ⟨hepoch, htimer⟩⟩
        · rintro ⟨hwanted, ⟨-, htimer⟩ | ⟨hsame, -⟩⟩
          · exact ⟨hwanted, rfl, hopening, htimer⟩
          · exact absurd hsame hepoch
  · -- The socket that is held is another one, and so this one is out of date.
    have hstale : s.stopped = true ∨ ws.epoch ≠ s.lifecycle := by
      by_contra hfresh
      rw [not_or, not_not] at hfresh
      exact hsocket (h.current i ws hws hfresh.2 (eq_false_of_ne_true hfresh.1) hopen)
    rw [if_neg hsocket]
    split
    · exact iff_of_false hattended fun hstep => hsocket hstep.2.1
    · next hfresh => exact absurd hstale hfresh

end Attaching

/-- A valid cursor is not below the one that the client is at. -/
theorem activityCursor?_le {rules : RealtimeRules} {activityAfter cursor : ℤ} {payload : Json}
    (h : activityCursor? rules activityAfter payload = some cursor) : activityAfter ≤ cursor := by
  simp only [activityCursor?, Option.bind_eq_bind, Option.bind_eq_some_iff, Option.guard_eq_some',
    Option.pure_def, Option.some.injEq] at h
  obtain ⟨_, -, _, -, _, -, _, ⟨-, hle⟩, _, -, _, -, rfl⟩ := h
  exact hle

/-- So is the cursor of every event that a client reads. -/
theorem readEvent_cursor_le {rules : RealtimeRules} {authenticated : Bool}
    {activityAfter cursor : ℤ}
    {data : EventData} (h : readEvent rules authenticated activityAfter data = .activity cursor) :
    activityAfter ≤ cursor := by
  cases data with
  | oversized => cases h
  | malformed => cases h
  | value payload =>
    unfold readEvent at h
    dsimp only at h
    split at h
    · cases h
    · split at h
      · split at h <;> cases h
      · split at h
        · cases h
        · split at h
          · split at h <;> cases h
          · split at h
            · split at h
              · next hcursor =>
                cases h
                exact activityCursor?_le hcursor
              · cases h
            · cases h

namespace RealtimeState

variable {s : RealtimeState}

/-- The client is at the same cursor when it was asked to open a socket. -/
theorem beginOpen_activityAfter (s : RealtimeState) (epoch : ℕ) :
    (s.beginOpen epoch).1.activityAfter = s.activityAfter := by
  unfold beginOpen
  split <;> rfl

theorem connect_activityAfter (s : RealtimeState) :
    s.connect.1.activityAfter = s.activityAfter := by
  have hdisconnect : s.disconnect.activityAfter = s.activityAfter := by
    unfold disconnect
    split <;> rfl
  have hrestart : ∀ t : RealtimeState, t.restart.activityAfter = t.activityAfter := by
    intro t
    unfold restart
    split <;> rfl
  unfold connect
  dsimp only
  rw [beginOpen_activityAfter, hrestart]
  split
  · exact hdisconnect
  · rfl

theorem fireTimer_activityAfter (s : RealtimeState) :
    s.fireTimer.1.activityAfter = s.activityAfter := by
  unfold fireTimer
  split
  · rfl
  · dsimp only
    split
    · exact beginOpen_activityAfter _ _
    · rfl

theorem scheduleReconnect_activityAfter (s : RealtimeState) (epoch : ℕ) :
    (s.scheduleReconnect epoch).activityAfter = s.activityAfter := by
  unfold scheduleReconnect
  split <;> rfl

/-- A message moves the cursor on, or leaves it. -/
theorem onMessage_activityAfter (s : RealtimeState) (rules : RealtimeRules) (i : ℕ)
    (ws : EventSocket) (data : EventData) (answer : Handler → HandlerAnswer) :
    s.activityAfter ≤ (s.onMessage rules i ws data answer).activityAfter := by
  unfold onMessage
  split
  · rfl
  · split
    · dsimp only
      split <;> rfl
    · have hstop : ∀ t : RealtimeState, ∀ message, t.activityAfter ≤
          (t.stopOnEvent rules i ws.epoch message).activityAfter := fun t message =>
        (t.stopOnEvent_stopped i ws.epoch message).2.ge
      split
      · exact hstop _ _
      · exact hstop _ _
      · unfold acknowledge
        dsimp only
        split
        · exact hstop _ _
        · split
          · split
            · exact hstop _ _
            · rfl
          · rfl
      · dsimp only
        split
        · rfl
        · exact hstop _ _
        · exact hstop _ _
      · next cursor hread =>
        dsimp only
        split
        · exact readEvent_cursor_le hread
        · exact hstop _ _
        · exact hstop _ _

/-- What was heard of a socket keeps what its callback keeps. -/
theorem hear_activityAfter {i : ℕ} {callback : EventSocket → RealtimeState → RealtimeState}
    (hcallback : ∀ ws, s.activityAfter ≤ (callback ws s).activityAfter) :
    s.activityAfter ≤ (s.hear i callback).activityAfter := by
  unfold hear
  split
  · rfl
  · split
    · rfl
    · exact hcallback _

end RealtimeState

/-- An open attempt leaves the cursor. -/
theorem OpenAttempt.resume_activityAfter (attempt : OpenAttempt) (result : OpenResult)
    (s : RealtimeState) : (attempt.resume result s).1.activityAfter = s.activityAfter := by
  have hfail : (attempt.fail s).activityAfter = s.activityAfter := by
    unfold fail
    split
    · rfl
    · exact RealtimeState.scheduleReconnect_activityAfter _ _
  change (attempt.finish result s).activityAfter = s.activityAfter
  cases result with
  | absent => rfl
  | raised => exact hfail
  | token value constructs =>
    simp only [finish]
    split
    · rfl
    · split
      · rfl
      · split
        · rfl
        · exact hfail

section Steps

variable {kept : Prop} {rules : RealtimeRules} {p : Realtime}

/-- The cursor of a client never decreases. -/
theorem activityAfter_le_step (p : Realtime) (op : RealtimeStep) :
    p.shared.activityAfter ≤ (realtimeStep rules p op).shared.activityAfter := by
  cases op with
  | connect => exact p.shared.connect_activityAfter.ge
  | disconnect =>
    change p.shared.activityAfter ≤ p.shared.disconnect.activityAfter
    unfold RealtimeState.disconnect
    split <;> rfl
  | session revision token => rfl
  | resume i result =>
    cases hattempt : p.workers[i]? with
    | none => rw [realtimeStep, Pool.turn_none hattempt]
    | some attempt =>
      rw [realtimeStep, Pool.shared_turn hattempt]
      exact (attempt.resume_activityAfter result p.shared).ge
  | opened i =>
    refine RealtimeState.hear_activityAfter fun ws => ?_
    unfold RealtimeState.onOpen
    dsimp only
    split <;> rfl
  | message i data answer =>
    exact RealtimeState.hear_activityAfter fun ws =>
      p.shared.onMessage_activityAfter rules i ws data answer
  | error i =>
    refine RealtimeState.hear_activityAfter fun ws => ?_
    unfold RealtimeState.onError
    split <;> rfl
  | closed i code =>
    refine RealtimeState.hear_activityAfter fun ws => ?_
    unfold RealtimeState.onClose
    dsimp only
    split
    · rfl
    · split
      · rfl
      · exact (RealtimeState.scheduleReconnect_activityAfter _ _).ge
  | timer => exact p.shared.fireTimer_activityAfter.ge

/-- What a step keeps of the sockets, attempts and calls of a client. -/
theorem Attaching.step (h : Attaching kept p) (op : RealtimeStep)
    (hkeeps : kept → ¬op.Abandons rules p) : Attaching kept (realtimeStep rules p op) := by
  cases op with
  | connect => exact h.connect
  | disconnect => exact h.disconnect
  | session revision token =>
    exact ⟨h.opening, h.attempts, h.begun, h.held, h.live, h.made, h.current, h.fair⟩
  | resume i result =>
    rcases p.turn_cases i (OpenAttempt.resume result) with
      hturn | ⟨before, attempt, after, hworkers, -, hturn⟩
    · rw [realtimeStep, hturn]
      exact h
    · rw [realtimeStep, hturn]
      have hended := h.resume hworkers result
      rwa [OpenAttempt.resume, Option.toList_none, List.append_nil]
  | opened i => exact h.hear fun ws _ _ => h.onOpen i ws
  | message i data answer =>
    refine h.hear fun ws hws _ =>
      h.onMessage rules hws data answer fun hkept hl hfresh hsession => ?_
    by_contra hraises
    exact hkeeps hkept ⟨eq_false_of_ne_true hraises, hsession, ws, hws, hl, hfresh⟩
  | error i => exact h.hear fun ws _ _ => h.onError i ws
  | closed i code => exact h.hear fun ws hws hopen => h.onClose hws hopen code
  | timer => exact h.fireTimer

/-- A step leaves a client unattended exactly under its condition. -/
theorem Attaching.strands_iff (h : Attaching kept p) (hattended : ¬p.shared.Adrift)
    (op : RealtimeStep) :
    ¬op.Strands p ↔ ¬(realtimeStep rules p op).shared.Adrift := by
  cases op with
  | connect => exact iff_of_true not_false p.shared.connect_not_adrift
  | disconnect =>
    exact iff_of_true not_false (RealtimeState.not_adrift_of_stopped p.shared.disconnect_stopped)
  | session revision token => exact not_congr (and_assoc (a := p.shared.stopped = false)).symm
  | resume i result =>
    refine not_congr ?_
    cases hattempt : p.workers[i]? with
    | none =>
      rw [realtimeStep, Pool.turn_none hattempt]
      refine iff_of_false ?_ hattended
      rintro ⟨-, attempt, hmem, -⟩
      rw [hattempt] at hmem
      cases hmem
    | some attempt =>
      rw [realtimeStep, Pool.shared_turn hattempt,
        h.resume_adrift hattended (List.mem_of_getElem? hattempt) result,
        RealtimeStep.Strands, hattempt]
      simp
  | opened i =>
    exact iff_of_true not_false (RealtimeState.hear_not_adrift hattended fun ws =>
      mt (RealtimeState.onOpen_adrift i ws).mp hattended)
  | message i data answer =>
    exact iff_of_true not_false (RealtimeState.hear_not_adrift hattended fun ws =>
      RealtimeState.onMessage_not_adrift hattended rules i ws data answer)
  | error i =>
    exact iff_of_true not_false (RealtimeState.hear_not_adrift hattended fun ws =>
      mt (RealtimeState.onError_adrift i ws).mp hattended)
  | closed i code =>
    refine not_congr ?_
    rw [realtimeStep, Pool.write, RealtimeState.hear, RealtimeStep.Strands]
    cases hws : p.shared.sockets[i]? with
    | none => simpa using hattended
    | some ws =>
      dsimp only
      split
      · -- A socket that is held is not closed.
        next hclosed =>
        refine iff_of_false ?_ hattended
        rintro ⟨-, hsocket, -⟩
        obtain ⟨held, hheld, hopen⟩ := h.held i hsocket
        rw [hws] at hheld
        exact hopen (Option.some.inj hheld ▸ hclosed)
      · next hopen =>
        rw [h.onClose_adrift hattended hws hopen code]
        simp
  | timer => exact iff_of_true not_false (RealtimeState.fireTimer_not_adrift hattended)

/-- A new client has no socket, no attempt and no call. -/
theorem Attaching.initial (activityAfter : ℤ) (revision : ℕ) (token : Option String) :
    Attaching kept (.initial activityAfter revision token) :=
  ⟨fun _ h => (by cases h), rfl, fun _ h => (by cases h), fun _ h => (by cases h),
    fun _ _ _ h => (by cases h), fun _ _ h => (by cases h), fun _ _ h => (by cases h),
    fun _ h => (by cases h)⟩

end Steps

/-- At most one socket is live in a run without a step that lets go of a live one. In every run the
handlers are called in the lifecycle that they are called for, and the cursor of the activity never
decreases; and the client is attached in every state of a run exactly when no step of it leaves a
wanted client unattended. -/
theorem realtime_client_attached (rules : RealtimeRules) (activityAfter : ℤ) (revision : ℕ)
    (token : Option String) (steps : List RealtimeStep) :
    let reached := run (realtimeStep rules) (.initial activityAfter revision token)
    (RunMeets (realtimeStep rules) (fun p op => ¬op.Abandons rules p)
        (.initial activityAfter revision token) steps →
      ∀ (i j : ℕ), ∀ first ∈ (reached steps).shared.sockets[i]?,
        ∀ second ∈ (reached steps).shared.sockets[j]?,
          first.readyState.live = true → second.readyState.live = true → i = j) ∧
      (∀ call ∈ (reached steps).shared.calls, call.epoch = call.lifecycle) ∧
      (∀ before after, steps = before ++ after →
        (reached before).shared.activityAfter ≤ (reached steps).shared.activityAfter) ∧
      (RunMeets (realtimeStep rules) (fun p op => ¬op.Strands p)
          (.initial activityAfter revision token) steps ↔
        ∀ before after, steps = before ++ after → Attached (reached before)) := by
  intro reached
  have hreached : ∀ steps, Attaching False (reached steps) := fun steps =>
    run_invariant' (fun p op h => h.step op False.elim) steps
      (.initial activityAfter revision token)
  refine ⟨fun hkeeps i j first hfirst second hsecond hlive hlive' => ?_, (hreached steps).fair,
    ?_, ?_⟩
  · have hkept : Attaching True (reached steps) :=
      run_invariant (fun p op h hop => h.step op fun _ => hop) hkeeps
        (.initial activityAfter revision token)
    have hheld := hkept.live trivial i first hfirst hlive
    exact Option.some.inj (hheld.symm.trans (hkept.live trivial j second hsecond hlive'))
  · rintro before after rfl
    simp only [reached, run_append]
    exact run_monotone
      (R := fun p q : Realtime => p.shared.activityAfter ≤ q.shared.activityAfter)
      (fun _ => le_rfl) (fun _ _ _ => le_trans) activityAfter_le_step _ after
  · have hiff := @runMeets_iff_reached _ _ (realtimeStep rules) (fun _ _ => True)
      (fun p op => ¬op.Strands p) (Attaching False) (fun p => ¬p.shared.Adrift)
      (fun p op h _ => h.step op False.elim) (fun p op h _ hattended => h.strands_iff hattended op)
      _ _ (runMeets_of_forall (fun _ _ => trivial) _ steps) (.initial activityAfter revision token)
      (RealtimeState.not_adrift_of_stopped rfl)
    rw [hiff]
    exact forall₃_congr fun before _ _ => (hreached before).attached_iff.symm

namespace ClientSample

/-- Rules that know no activity record, on a platform that closes a socket with every code. -/
def rules : RealtimeRules := ⟨fun _ => false, true⟩

/-- An event is too long, so the client stops and asks its socket to close; it is connected again,
and the socket is closed only then. -/
def reconnected : List RealtimeStep :=
  [.connect, .resume 0 (.token "token" true), .opened 0, .message 0 .oversized fun _ => .accepted,
    .connect, .closed 0 1008]

/-- The client after that. -/
def unattended : Realtime := run (realtimeStep rules) (.initial 0 0 (some "token")) reconnected

/-- The session changes, the socket gets a message and is let go of, and the client is connected
again. -/
def replaced : List RealtimeStep :=
  [.connect, .resume 0 (.token "token" true), .opened 0, .session 1 (some "other"),
    .message 0 .oversized fun _ => .accepted, .connect, .resume 0 (.token "other" true)]

/-- A client in a browser after that. -/
def abandoned : Realtime :=
  run (realtimeStep { rules with closesForPolicy := false }) (.initial 0 0 (some "token")) replaced

end ClientSample

open ClientSample

/-- The client is not stopped and has a token, and no socket of it is left to be closed; but it
holds none, no attempt is under way and no timer is armed. In a browser two sockets may be live. -/
theorem reconnected_client_unattended :
    unattended.shared.stopped = false ∧ unattended.shared.sessionToken = some "token" ∧
      unattended.shared.socket = none ∧ unattended.workers = [] ∧
      unattended.shared.reconnectTimer = none ∧
      (∀ ws ∈ unattended.shared.sockets, ws.readyState = .closed) ∧ ¬Attached unattended ∧
      abandoned.shared.sockets.map (·.readyState.live) = [true, true] := by
  refine ⟨rfl, rfl, rfl, rfl, rfl, by decide, fun hattached => ?_, rfl⟩
  rcases hattached rfl (by simp [show unattended.shared.sessionToken = some "token" from rfl])
    (fun i hi => by cases hi) with ⟨i, hi, -⟩ | ⟨attempt, hmem, -⟩ | htimer
  · cases hi
  · cases hmem
  · cases htimer

end Magistrate.Frontend
