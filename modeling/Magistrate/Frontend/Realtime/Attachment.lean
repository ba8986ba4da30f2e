import Magistrate.Frontend.Realtime.Socket

/-!
# A client that is connected

A client that is not stopped holds a socket, opens one, or waits for its timer.
It is left without all three where a socket or a timer of an earlier lifecycle is
in the way of its own, or where an open attempt finds no token.
-/

namespace Magistrate.Frontend

namespace RealtimeState

/-- A timer is armed that belongs to an earlier lifecycle. -/
def TimerOutlived (s : RealtimeState) : Prop :=
  s.reconnectTimer ≠ none ∧ s.reconnectTimer ≠ some s.lifecycle

/-- A client that is to be connected, and could be. -/
def Wanted (s : RealtimeState) : Prop := s.stopped = false ∧ s.sessionToken ≠ none

/-- A client that holds no socket, opens none and waits for no timer. -/
def Unattended (s : RealtimeState) : Prop :=
  s.socket = none ∧ s.openingEpoch = none ∧ s.reconnectTimer ≠ some s.lifecycle

/-- A client that is to be connected and waits for nothing that would connect it. -/
def Adrift (s : RealtimeState) : Prop := s.Wanted ∧ s.Unattended

end RealtimeState

/-- An open attempt gets no token. -/
def OpenResult.Absent : OpenResult → Prop
  | .absent => True
  | .token value _ => value = ""
  | .raised => False

/-- An open attempt gets an exception. -/
def OpenResult.Raises (attempt : OpenAttempt) (s : RealtimeState) : OpenResult → Prop
  | .absent => False
  | .token value constructs =>
    value ≠ "" ∧ attempt.sessionRevision = some s.sessionRevision ∧ constructs = false
  | .raised => True

/-- A step that leaves a wanted client unattended: an attempt of the lifecycle ends without a token,
or with an exception while an outlived timer is armed; the held socket is closed and belongs to an
earlier lifecycle, or is closed while an outlived timer is armed; or the session gets a token that
the last attempt did not find. -/
def RealtimeStep.Strands (p : Realtime) : RealtimeStep → Prop
  | .resume i result => p.shared.Wanted ∧ ∃ attempt ∈ p.workers[i]?,
    attempt.epoch = p.shared.lifecycle ∧
      (result.Absent ∧ p.shared.reconnectTimer ≠ some p.shared.lifecycle ∨
        result.Raises attempt p.shared ∧ p.shared.TimerOutlived)
  | .closed i code => p.shared.Wanted ∧ p.shared.socket = some i ∧
    ∃ ws ∈ p.shared.sockets[i]?,
      ws.epoch ≠ p.shared.lifecycle ∧ p.shared.reconnectTimer ≠ some p.shared.lifecycle ∨
        ws.epoch = p.shared.lifecycle ∧ code ≠ 1008 ∧ code ≠ 1009 ∧ p.shared.TimerOutlived
  | .session _ token => p.shared.stopped = false ∧ token ≠ none ∧ p.shared.Unattended
  | _ => False

/-- A step that lets go of a live socket: a message of the socket that is held arrives after the
session has changed, where the platform does not close the socket. -/
def RealtimeStep.Abandons (rules : RealtimeRules) (p : Realtime) : RealtimeStep → Prop
  | .message i _ _ => rules.closesForPolicy = false ∧
    p.shared.protectedSessionRevision ≠ some p.shared.sessionRevision ∧
    ∃ ws ∈ p.shared.sockets[i]?, ws.readyState.live = true ∧ ¬p.shared.Stale i ws
  | _ => False

/-- A wanted client whose socket is not about to be closed has a live socket, an open attempt of its
lifecycle, or an armed timer of its lifecycle. -/
def Attached (p : Realtime) : Prop :=
  p.shared.stopped = false → p.shared.sessionToken ≠ none →
    (∀ i ∈ p.shared.socket, ∀ ws ∈ p.shared.sockets[i]?, ws.readyState ≠ .closing) →
      (∃ i ∈ p.shared.socket, ∃ ws ∈ p.shared.sockets[i]?, ws.readyState.live = true) ∨
        (∃ attempt ∈ p.workers, attempt.epoch = p.shared.lifecycle) ∨
        p.shared.reconnectTimer = some p.shared.lifecycle

/-- A client opens at most one socket at a time, holds the one that is live where it never let go of
a live one, and calls its handlers in the lifecycle that they are called for. -/
structure Attaching (kept : Prop) (p : Realtime) : Prop where
  opening : ∀ e, p.shared.openingEpoch = some e →
    e = p.shared.lifecycle ∧ p.shared.socket = none ∧ p.shared.stopped = false
  attempts : p.workers.countP (·.epoch = p.shared.lifecycle) =
    if p.shared.openingEpoch = none then 0 else 1
  begun : ∀ attempt ∈ p.workers, attempt.epoch ≤ p.shared.lifecycle
  held : ∀ i, p.shared.socket = some i →
    ∃ ws, p.shared.sockets[i]? = some ws ∧ ws.readyState ≠ .closed
  live : kept → ∀ (i : ℕ) (ws : EventSocket), p.shared.sockets[i]? = some ws →
    ws.readyState.live = true → p.shared.socket = some i
  made : ∀ (i : ℕ) (ws : EventSocket), p.shared.sockets[i]? = some ws →
    ws.epoch ≤ p.shared.lifecycle
  current : ∀ (i : ℕ) (ws : EventSocket), p.shared.sockets[i]? = some ws →
    ws.epoch = p.shared.lifecycle → p.shared.stopped = false → ws.readyState ≠ .closed →
      p.shared.socket = some i
  fair : ∀ call ∈ p.shared.calls, call.epoch = call.lifecycle

section Steps

variable {kept : Prop} {p : Realtime}

/-- A client is attached unless it is wanted and unattended. -/
theorem Attaching.attached_iff (h : Attaching kept p) : Attached p ↔ ¬p.shared.Adrift := by
  have hattempt : (∃ attempt ∈ p.workers, attempt.epoch = p.shared.lifecycle) ↔
      p.shared.openingEpoch ≠ none := by
    have hcount := h.attempts
    constructor
    · rintro ⟨attempt, hmem, hepoch⟩ hnone
      rw [if_pos hnone, List.countP_eq_zero] at hcount
      exact hcount attempt hmem (by simpa using hepoch)
    · intro hsome
      rw [if_neg hsome] at hcount
      obtain ⟨attempt, hmem, hepoch⟩ := List.countP_pos_iff.mp (hcount.symm ▸ Nat.one_pos)
      exact ⟨attempt, hmem, by simpa using hepoch⟩
  constructor
  · rintro hattached ⟨⟨hstopped, htoken⟩, hsocket, hopening, htimer⟩
    rcases hattached hstopped htoken (by simp [hsocket]) with ⟨i, hi, -⟩ | hsome | hsome
    · rw [hsocket] at hi
      cases hi
    · exact hattempt.mp hsome hopening
    · exact htimer hsome
  · intro hnot hstopped htoken hquiet
    by_cases hsocket : p.shared.socket = none
    · right
      by_contra hneither
      rw [not_or, hattempt, not_not] at hneither
      exact hnot ⟨⟨hstopped, htoken⟩, hsocket, hneither⟩
    · obtain ⟨i, hi⟩ := Option.ne_none_iff_exists'.mp hsocket
      obtain ⟨ws, hws, hopen⟩ := h.held i hi
      have hclosing := hquiet i hi ws hws
      refine .inl ⟨i, hi, ws, hws, ?_⟩
      cases hstate : ws.readyState with
      | connecting => rfl
      | opened => rfl
      | closing => exact absurd hstate hclosing
      | closed => exact absurd hstate hopen

end Steps

/-- A socket that was asked to close is not live. -/
theorem EventSocket.not_live_close (ws : EventSocket) : ¬ws.close.readyState.live = true := by
  unfold EventSocket.close
  split
  · simp [ReadyState.live]
  · next hnot => exact hnot

namespace Attaching

variable {kept : Prop} {rules : RealtimeRules} {s : RealtimeState} {w : List OpenAttempt}

/-- A socket changes, but for its epoch: it is not opened again, and not closed. -/
theorem withSocket (h : Attaching kept ⟨s, w⟩) (i : ℕ) {f : EventSocket → EventSocket}
    (hepoch : ∀ ws, (f ws).epoch = ws.epoch)
    (hlive : ∀ ws, (f ws).readyState.live = true → ws.readyState.live = true)
    (hclosed : ∀ ws, (f ws).readyState = .closed ↔ ws.readyState = .closed) :
    Attaching kept ⟨s.withSocket i f, w⟩ := by
  have hold : ∀ {j : ℕ} {ws' : EventSocket}, (s.withSocket i f).sockets[j]? = some ws' →
      ∃ ws, s.sockets[j]? = some ws ∧ (ws' = ws ∨ ws' = f ws) := by
    intro j ws' hws'
    rw [RealtimeState.withSocket, List.getElem?_modify] at hws'
    obtain ⟨ws, hws, rfl⟩ := Option.map_eq_some_iff.mp hws'
    refine ⟨ws, hws, ?_⟩
    split
    · exact .inr rfl
    · exact .inl rfl
  refine ⟨h.opening, h.attempts, h.begun, fun j hj => ?_, fun hkept j ws' hws' hl => ?_,
    fun j ws' hws' => ?_, fun j ws' hws' he hs hc => ?_, h.fair⟩
  · obtain ⟨ws, hws, hopen⟩ := h.held j hj
    by_cases hij : i = j
    · exact ⟨f ws, by simp [RealtimeState.withSocket, hij, hws], mt (hclosed ws).mp hopen⟩
    · exact ⟨ws, by simp [RealtimeState.withSocket, hij, hws], hopen⟩
  · obtain ⟨ws, hws, rfl | rfl⟩ := hold hws'
    · exact h.live hkept j ws' hws hl
    · exact h.live hkept j ws hws (hlive ws hl)
  · obtain ⟨ws, hws, rfl | rfl⟩ := hold hws'
    · exact h.made j ws' hws
    · exact (hepoch ws).symm ▸ h.made j ws hws
  · obtain ⟨ws, hws, rfl | rfl⟩ := hold hws'
    · exact h.current j ws' hws he hs hc
    · exact h.current j ws hws ((hepoch ws).symm.trans he) hs (mt (hclosed ws).mpr hc)

/-- A handler is called in the lifecycle that it is called for. -/
theorem called (h : Attaching kept ⟨s, w⟩) (handler : Handler) {epoch : ℕ}
    (hepoch : epoch = s.lifecycle)
    (message : Option String) : Attaching kept ⟨s.called handler epoch message, w⟩ := by
  refine ⟨h.opening, h.attempts, h.begun, h.held, h.live, h.made, h.current, fun call hcall => ?_⟩
  rcases List.mem_append.mp hcall with hcall | hcall
  · exact h.fair call hcall
  · rw [List.mem_singleton.mp hcall]
    exact hepoch

/-- A client stops that opens no socket. -/
theorem stop (h : Attaching kept ⟨s, w⟩) (hopening : s.openingEpoch = none) :
    Attaching kept ⟨{ s with stopped := true }, w⟩ := by
  refine ⟨fun e he => ?_, h.attempts, h.begun, h.held, h.live, h.made, fun _ _ _ _ hs => ?_, h.fair⟩
  · cases hopening.symm.trans he
  · cases hs

/-- A client that holds a socket opens none. -/
theorem opening_none (h : Attaching kept ⟨s, w⟩) (hsocket : s.socket ≠ none) :
    s.openingEpoch = none := by
  by_contra hsome
  obtain ⟨e, he⟩ := Option.ne_none_iff_exists'.mp hsome
  exact hsocket (h.opening e he).2.1

theorem close (h : Attaching kept ⟨s, w⟩) (i : ℕ) :
    Attaching kept ⟨s.withSocket i EventSocket.close, w⟩ := by
  refine h.withSocket i (fun ws => ?_) (fun ws => ?_) fun ws => ?_
  · unfold EventSocket.close
    split <;> rfl
  · unfold EventSocket.close
    split
    · intro hl
      cases hl
    · exact id
  · unfold EventSocket.close
    split
    · next hlive =>
      refine iff_of_false (fun hc => by cases hc) fun hc => ?_
      rw [hc] at hlive
      cases hlive
    · rfl

/-- The client stops on an event of the socket that it holds. -/
theorem stopOnEvent (h : Attaching kept ⟨s, w⟩) {i epoch : ℕ} (hsocket : s.socket ≠ none)
    (hepoch : epoch = s.lifecycle) (message : Option String) :
    Attaching kept ⟨s.stopOnEvent rules i epoch message, w⟩ := by
  have hstop : Attaching kept ⟨{ s with stopped := true }, w⟩ := h.stop (h.opening_none hsocket)
  have hcalled := hstop.called .onError hepoch message
  unfold RealtimeState.stopOnEvent
  dsimp only
  split
  · exact hcalled.close i
  · split
    · exact hcalled.called .onError hepoch none
    · exact hcalled

/-- Open attempts of the lifecycle after this one are not there yet. -/
theorem attempts_later (h : Attaching kept ⟨s, w⟩) :
    w.countP (·.epoch = s.lifecycle + 1) = 0 := by
  rw [List.countP_eq_zero]
  intro attempt hmem hlater
  have hbegun := h.begun attempt hmem
  simp only [decide_eq_true_eq] at hlater hbegun
  omega

/-- An open attempt of the lifecycle begins. -/
theorem beginOpen (h : Attaching kept ⟨s, w⟩) {epoch : ℕ} (hepoch : epoch = s.lifecycle) :
    Attaching kept ⟨(s.beginOpen epoch).1, w ++ (s.beginOpen epoch).2.toList⟩ := by
  unfold RealtimeState.beginOpen
  split
  · rw [Option.toList_none, List.append_nil]
    exact h
  · next hfree =>
    rw [not_or, not_or, not_or] at hfree
    obtain ⟨hstopped, -, hsocket, hopening⟩ := hfree
    have hnone : s.openingEpoch = none := by
      by_contra hsome
      obtain ⟨e, he⟩ := Option.ne_none_iff_exists'.mp hsome
      have hlifecycle : e = s.lifecycle := (h.opening e he).1
      exact hopening (he.trans (congrArg some (hlifecycle.trans hepoch.symm)))
    have hattempts := h.attempts
    simp only [hnone] at hattempts
    refine ⟨fun e he => ⟨?_, not_not.mp hsocket, eq_false_of_ne_true hstopped⟩, ?_,
      fun attempt hmem => ?_, h.held, h.live, h.made, h.current, h.fair⟩
    · exact (Option.some.inj he).symm.trans hepoch
    · simp [hattempts, hepoch]
    · rcases List.mem_append.mp hmem with hmem | hmem
      · exact h.begun attempt hmem
      · obtain rfl := List.mem_singleton.mp hmem
        exact hepoch.le

/-- The client is disconnected. -/
theorem disconnect (h : Attaching kept ⟨s, w⟩) : Attaching kept ⟨s.disconnect, w⟩ := by
  unfold RealtimeState.disconnect
  split
  · exact h
  · refine ⟨fun e he => (by cases he), h.attempts_later, fun attempt hmem => ?_,
      fun i hi => (by cases hi), fun hkept i ws hws hl => ?_, fun i ws hws => ?_,
      fun _ _ _ _ hs => (by cases hs), h.fair⟩
    · exact (h.begun attempt hmem).trans (Nat.le_succ _)
    · -- The socket that is live is the one that was held, and that was closed.
      exfalso
      cases hsocket : s.socket with
      | none =>
        rw [hsocket] at hws
        cases hsocket.symm.trans (h.live hkept i ws hws hl)
      | some j =>
        rw [hsocket] at hws
        rw [List.getElem?_modify] at hws
        obtain ⟨old, hold, rfl⟩ := Option.map_eq_some_iff.mp hws
        split at hl
        · exact old.not_live_close hl
        · next hne => exact hne (Option.some.inj (hsocket.symm.trans (h.live hkept i old hold hl)))
    · cases hsocket : s.socket with
      | none =>
        rw [hsocket] at hws
        exact (h.made i ws hws).trans (Nat.le_succ _)
      | some j =>
        simp only [hsocket] at hws
        exact ((h.close j).made i ws hws).trans (Nat.le_succ _)

/-- A stopped client begins its next lifecycle. -/
theorem restart (h : Attaching kept ⟨s, w⟩) : Attaching kept ⟨s.restart, w⟩ := by
  unfold RealtimeState.restart
  split
  · next hstopped =>
    have hnone : s.openingEpoch = none := by
      by_contra hsome
      obtain ⟨e, he⟩ := Option.ne_none_iff_exists'.mp hsome
      have hnot : s.stopped = false := (h.opening e he).2.2
      rw [hstopped] at hnot
      cases hnot
    refine ⟨fun e he => (by cases hnone.symm.trans he), ?_, fun attempt hmem => ?_, h.held, h.live,
      fun i ws hws => ?_, fun i ws hws hepoch => ?_, h.fair⟩
    · rw [if_pos hnone]
      exact h.attempts_later
    · exact (h.begun attempt hmem).trans (Nat.le_succ _)
    · exact (h.made i ws hws).trans (Nat.le_succ _)
    · have hmade := h.made i ws hws
      simp only at hmade hepoch
      omega
  · exact h

/-- The client is connected. -/
theorem connect (h : Attaching kept ⟨s, w⟩) :
    Attaching kept ⟨s.connect.1, w ++ s.connect.2.toList⟩ := by
  unfold RealtimeState.connect
  split
  · exact h.disconnect.restart.beginOpen rfl
  · exact h.restart.beginOpen rfl

/-- The timer fires. -/
theorem fireTimer (h : Attaching kept ⟨s, w⟩) :
    Attaching kept ⟨s.fireTimer.1, w ++ s.fireTimer.2.toList⟩ := by
  have hfired : Attaching kept ⟨{ s with reconnectTimer := none }, w⟩ :=
    ⟨h.opening, h.attempts, h.begun, h.held, h.live, h.made, h.current, h.fair⟩
  unfold RealtimeState.fireTimer
  split
  · rw [Option.toList_none, List.append_nil]
    exact h
  · dsimp only
    split
    · next hopens => exact hfired.beginOpen hopens.2
    · rw [Option.toList_none, List.append_nil]
      exact hfired

/-- A socket is opened. -/
theorem onOpen (h : Attaching kept ⟨s, w⟩) (i : ℕ) (ws : EventSocket) :
    Attaching kept ⟨s.onOpen i ws, w⟩ := by
  have hopened : Attaching kept ⟨s.withSocket i fun ws =>
      { ws with readyState := if ws.readyState = .connecting then .opened else ws.readyState },
      w⟩ := by
    refine h.withSocket i (fun _ => rfl) (fun ws hl => ?_) fun ws => ?_
    · cases hstate : ws.readyState <;> simp_all [ReadyState.live]
    · cases hstate : ws.readyState <;> simp
  unfold RealtimeState.onOpen
  dsimp only
  split
  · exact hopened.close i
  · exact hopened.withSocket i (fun _ => rfl) (fun _ => id) fun _ => Iff.rfl

/-- A connection is acknowledged. -/
theorem acknowledge (h : Attaching kept ⟨s, w⟩) {i : ℕ} {ws : EventSocket}
    (hsocket : s.socket ≠ none)
    (hepoch : ws.epoch = s.lifecycle) (answer : Handler → HandlerAnswer) :
    Attaching kept ⟨s.acknowledge rules i ws answer, w⟩ := by
  have hauth := h.withSocket i (f := fun ws => { ws with authenticated := true }) (fun _ => rfl)
    (fun _ => id) fun _ => Iff.rfl
  have hconnected : Attaching kept
    ⟨{ s.withSocket i fun ws => { ws with authenticated := true } with
      connectedOnce := true, reconnectMs := 1000 }, w⟩ :=
    ⟨hauth.opening, hauth.attempts, hauth.begun, hauth.held, hauth.live, hauth.made, hauth.current,
      hauth.fair⟩
  have hopen := hconnected.called .onOpen hepoch none
  unfold RealtimeState.acknowledge
  dsimp only
  split
  · exact hopen.stopOnEvent hsocket hepoch none
  · split
    · split
      · exact (hopen.called .onMagiMessages hepoch none).stopOnEvent hsocket hepoch none
      · exact hopen.called .onMagiMessages hepoch none
    · exact hopen

/-- A message arrives; where no live socket was let go of, this one is closed before that. -/
theorem onMessage (h : Attaching kept ⟨s, w⟩) (rules : RealtimeRules) {i : ℕ} {ws : EventSocket}
    (hws : s.sockets[i]? = some ws) (data : EventData) (answer : Handler → HandlerAnswer)
    (hcloses : kept → ws.readyState.live = true → ¬s.Stale i ws →
      s.protectedSessionRevision ≠ some s.sessionRevision → rules.closesForPolicy = true) :
    Attaching kept ⟨s.onMessage rules i ws data answer, w⟩ := by
  unfold RealtimeState.onMessage
  split
  · exact h
  · next hstale =>
    have hfresh := hstale
    rw [RealtimeState.Stale, not_or, not_or, not_not, not_not] at hfresh
    obtain ⟨hstopped, hepoch, hheld⟩ := hfresh
    have hsocket : s.socket ≠ none := by simp [hheld]
    split
    · next hsession =>
      dsimp only
      split
      · -- The socket is let go of and closed; no other one is live.
        have hclosed := (h.stop (h.opening_none hsocket)).close i
        refine ⟨fun e he => ?_, hclosed.attempts, h.begun, fun j hj => (by cases hj),
          fun hkept j ws' hws' hl => ?_, hclosed.made, fun _ _ _ _ hs => (by cases hs), h.fair⟩
        · cases (h.opening_none hsocket).symm.trans he
        · exfalso
          have hsame : i = j :=
            Option.some.inj (hheld.symm.trans (hclosed.live hkept j ws' hws' hl))
          subst hsame
          rw [RealtimeState.withSocket, List.getElem?_modify] at hws'
          obtain ⟨old, -, rfl⟩ := Option.map_eq_some_iff.mp hws'
          rw [if_pos rfl] at hl
          exact old.not_live_close hl
      · -- The socket is let go of as it is, so it was not live.
        next hraises =>
        refine ⟨fun e he => ?_, h.attempts, h.begun, fun j hj => (by cases hj),
          fun hkept j ws' hws' hl => ?_, h.made, fun _ _ _ _ hs => (by cases hs), h.fair⟩
        · cases (h.opening_none hsocket).symm.trans he
        · exfalso
          have hsame : i = j := Option.some.inj (hheld.symm.trans (h.live hkept j ws' hws' hl))
          subst hsame
          obtain rfl := Option.some.inj (hws.symm.trans hws')
          exact hraises (hcloses hkept hl hstale hsession)
    · split
      · exact h.stopOnEvent hsocket hepoch _
      · exact h.stopOnEvent hsocket hepoch _
      · exact h.acknowledge hsocket hepoch answer
      · have hcalled := h.called .onMagiMessages hepoch none
        dsimp only
        split
        · exact hcalled
        · exact hcalled.stopOnEvent hsocket hepoch _
        · exact hcalled.stopOnEvent hsocket hepoch _
      · have hcalled := h.called .onActivity hepoch none
        dsimp only
        split
        · exact ⟨hcalled.opening, hcalled.attempts, hcalled.begun, hcalled.held, hcalled.live,
            hcalled.made, hcalled.current, hcalled.fair⟩
        · exact hcalled.stopOnEvent hsocket hepoch _
        · exact hcalled.stopOnEvent hsocket hepoch _

/-- A socket fails. -/
theorem onError (h : Attaching kept ⟨s, w⟩) (i : ℕ) (ws : EventSocket) :
    Attaching kept ⟨s.onError i ws, w⟩ := by
  unfold RealtimeState.onError
  split
  · exact h
  · next hfresh =>
    rw [RealtimeState.Stale, not_or, not_or, not_not] at hfresh
    exact h.called .onError hfresh.2.1 none

/-- A reconnect is scheduled. -/
theorem scheduleReconnect (h : Attaching kept ⟨s, w⟩) (epoch : ℕ) :
    Attaching kept ⟨s.scheduleReconnect epoch, w⟩ := by
  unfold RealtimeState.scheduleReconnect
  split
  · exact h
  · exact ⟨h.opening, h.attempts, h.begun, h.held, h.live, h.made, h.current, h.fair⟩

/-- A socket is closed. -/
theorem onClose (h : Attaching kept ⟨s, w⟩) {i : ℕ} {ws : EventSocket}
    (hws : s.sockets[i]? = some ws)
    (hopen : ws.readyState ≠ .closed) (code : ℕ) : Attaching kept ⟨s.onClose i ws code, w⟩ := by
  let s' : RealtimeState := { s.withSocket i fun ws => { ws with readyState := .closed } with
    socket := if s.socket = some i then none else s.socket }
  have hold : ∀ {j : ℕ} {ws' : EventSocket}, s'.sockets[j]? = some ws' →
      ∃ old, s.sockets[j]? = some old ∧ ws'.epoch = old.epoch ∧
        (i = j ∧ ws'.readyState = .closed ∨ i ≠ j ∧ ws' = old) := by
    intro j ws' hws'
    have hmodified : (s.sockets.modify i fun ws => { ws with readyState := .closed })[j]? =
      some ws' := hws'
    rw [List.getElem?_modify] at hmodified
    obtain ⟨old, hold, rfl⟩ := Option.map_eq_some_iff.mp hmodified
    refine ⟨old, hold, ?_⟩
    split
    · next hij => exact ⟨rfl, .inl ⟨hij, rfl⟩⟩
    · next hij => exact ⟨rfl, .inr ⟨hij, rfl⟩⟩
  have hlet : ∀ {j : ℕ}, s.socket = some j → i ≠ j → s'.socket = some j := by
    intro j hj hij
    have hne : s.socket ≠ some i := fun hi => hij (Option.some.inj (hi.symm.trans hj))
    exact (if_neg hne).trans hj
  have hclosed : Attaching kept ⟨s', w⟩ := by
    refine ⟨fun e he => ?_, h.attempts, h.begun, fun j hj => ?_,
      fun hkept j ws' hws' hl => ?_, fun j ws' hws' => ?_, fun j ws' hws' he hs hc => ?_, h.fair⟩
    · obtain ⟨hlifecycle, hsocket, hstopped⟩ := h.opening e he
      have hsocket : s.socket = none := hsocket
      exact ⟨hlifecycle, by simp [s', hsocket], hstopped⟩
    · have hj : (if s.socket = some i then none else s.socket) = some j := hj
      split at hj
      · cases hj
      · next hne =>
        obtain ⟨old, hold, hopen⟩ := h.held j hj
        have hij : i ≠ j := fun hij => hne (hij ▸ hj)
        exact ⟨old, by simp [s', RealtimeState.withSocket, hij, hold], hopen⟩
    · obtain ⟨old, hj, -, ⟨-, hstate⟩ | ⟨hij, rfl⟩⟩ := hold hws'
      · rw [hstate] at hl
        cases hl
      · exact hlet (h.live hkept j ws' hj hl) hij
    · obtain ⟨old, hj, hepoch, -⟩ := hold hws'
      exact hepoch ▸ h.made j old hj
    · obtain ⟨old, hj, -, ⟨-, hstate⟩ | ⟨hij, rfl⟩⟩ := hold hws'
      · exact absurd hstate hc
      · exact hlet (h.current j ws' hj he hs hc) hij
  unfold RealtimeState.onClose
  dsimp only
  split
  · exact hclosed
  · next hfresh =>
    rw [not_or, not_not] at hfresh
    obtain ⟨hstopped, hepoch⟩ := hfresh
    have hsocket : s.socket = some i :=
      h.current i ws hws hepoch (eq_false_of_ne_true hstopped) hopen
    have hcalled := hclosed.called .onClose hepoch none
    split
    · exact hcalled.stop (h.opening_none (by simp [hsocket]))
    · exact hcalled.scheduleReconnect _

/-- What is heard of a socket that is not closed. -/
theorem hear (h : Attaching kept ⟨s, w⟩) {i : ℕ}
    {callback : EventSocket → RealtimeState → RealtimeState}
    (hcallback : ∀ ws, s.sockets[i]? = some ws → ws.readyState ≠ .closed →
      Attaching kept ⟨callback ws s, w⟩) : Attaching kept ⟨s.hear i callback, w⟩ := by
  unfold RealtimeState.hear
  split
  · exact h
  · next ws hws =>
    split
    · exact h
    · next hopen => exact hcallback ws hws hopen

/-- An attempt of the lifecycle is the one that is open, and no socket is held. -/
theorem attempt_opening (h : Attaching kept ⟨s, w⟩) {attempt : OpenAttempt} (hmem : attempt ∈ w)
    (hepoch : attempt.epoch = s.lifecycle) :
    s.openingEpoch = some attempt.epoch ∧ s.socket = none ∧ s.stopped = false := by
  have hsome : s.openingEpoch ≠ none := by
    intro hnone
    have hcount := h.attempts
    simp only [hnone, if_true] at hcount
    exact List.countP_eq_zero.mp hcount attempt hmem (by simpa using hepoch)
  obtain ⟨e, he⟩ := Option.ne_none_iff_exists'.mp hsome
  obtain ⟨hlifecycle, hsocket, hstopped⟩ := h.opening e he
  exact ⟨he.trans (congrArg some (hlifecycle.trans hepoch.symm)), hsocket, hstopped⟩

/-- An open attempt of an earlier lifecycle does nothing. -/
theorem finish_outlived {attempt : OpenAttempt} (hepoch : attempt.epoch ≠ s.lifecycle)
    (result : OpenResult) : attempt.finish result s = s := by
  cases result with
  | absent => rfl
  | raised => simp [OpenAttempt.finish, OpenAttempt.fail, hepoch]
  | token value constructs => simp [OpenAttempt.finish, hepoch]

/-- What a failed attempt does is the same when none is open, and which one is open stays. -/
theorem fail_ended (attempt : OpenAttempt) (s : RealtimeState) :
    attempt.fail { s with openingEpoch := none } =
        { attempt.fail s with openingEpoch := none } ∧
      (attempt.fail s).openingEpoch = s.openingEpoch := by
  simp only [OpenAttempt.fail]
  by_cases hepoch : attempt.epoch = s.lifecycle
  · simp only [hepoch, ne_eq, not_true_eq_false, if_false, RealtimeState.called,
      RealtimeState.scheduleReconnect]
    by_cases hfree : s.stopped = true ∨ ¬s.reconnectTimer = none
    · simp only [false_or, if_pos hfree, and_self]
    · simp only [false_or, if_neg hfree, and_self]
  · simp only [hepoch, ne_eq, not_false_eq_true, if_true, and_self]

/-- An attempt does not read which one is open. -/
theorem finish_ended (attempt : OpenAttempt) (result : OpenResult) (s : RealtimeState) :
    attempt.finish result { s with openingEpoch := none } =
      { attempt.finish result s with openingEpoch := none } := by
  have hfail := (fail_ended attempt s).1
  cases result with
  | absent => rfl
  | raised => exact hfail
  | token value constructs =>
    simp only [OpenAttempt.finish, hfail]
    split
    · rfl
    · split
      · rfl
      · split <;> rfl

/-- An attempt does not change which one is open. -/
theorem finish_openingEpoch (attempt : OpenAttempt) (result : OpenResult) (s : RealtimeState) :
    (attempt.finish result s).openingEpoch = s.openingEpoch := by
  have hfail := (fail_ended attempt s).2
  cases result with
  | absent => rfl
  | raised => exact hfail
  | token value constructs =>
    simp only [OpenAttempt.finish]
    split
    · rfl
    · split
      · rfl
      · split
        · rfl
        · exact hfail

/-- What an attempt gets, for a client that opens no other socket. -/
theorem finish (h : Attaching kept ⟨s, w⟩) {attempt : OpenAttempt}
    (hepoch : attempt.epoch = s.lifecycle)
    (hsocket : s.socket = none) (hopening : s.openingEpoch = none) (result : OpenResult) :
    Attaching kept ⟨attempt.finish result s, w⟩ := by
  have hfail : Attaching kept ⟨attempt.fail s, w⟩ := by
    unfold OpenAttempt.fail
    split
    · exact h
    · have hsame : { s with socket := none } = s := by rw [← hsocket]
      rw [hsame]
      exact (h.called .onError hepoch none).scheduleReconnect _
  cases result with
  | absent => exact h
  | raised => exact hfail
  | token value constructs =>
    simp only [OpenAttempt.finish]
    split
    · exact h
    · split
      · exact h.stop hopening
      · split
        · have hold : ∀ {j : ℕ} {ws : EventSocket},
              (s.sockets ++ [⟨attempt.epoch, value, false, .connecting, none⟩])[j]? = some ws →
                s.sockets[j]? = some ws ∨ j = s.sockets.length ∧ ws.epoch = attempt.epoch := by
            intro j ws hws
            rcases Nat.lt_trichotomy j s.sockets.length with hj | rfl | hj
            · rw [List.getElem?_append_left hj] at hws
              exact .inl hws
            · rw [List.getElem?_concat_length] at hws
              exact .inr ⟨rfl, by rw [← Option.some.inj hws]⟩
            · rw [List.getElem?_eq_none (by simp; omega)] at hws
              cases hws
          refine ⟨fun e he => (by cases hopening.symm.trans he), h.attempts,
            h.begun, fun j hj => ?_, fun hkept j ws hws hl => ?_,
              fun j ws hws => ?_, fun j ws hws he hs hc => ?_, h.fair⟩
          · obtain rfl := Option.some.inj hj
            exact ⟨_, List.getElem?_concat_length, by simp⟩
          · rcases hold hws with hws | ⟨rfl, -⟩
            · cases hsocket.symm.trans (h.live hkept j ws hws hl)
            · rfl
          · rcases hold hws with hws | ⟨-, hsame⟩
            · exact h.made j ws hws
            · exact (hsame.trans hepoch).le
          · rcases hold hws with hws | ⟨rfl, -⟩
            · cases hsocket.symm.trans (h.current j ws hws he hs hc)
            · rfl
        · exact hfail

/-- An open attempt goes on and ends. -/
theorem resume (h : Attaching kept ⟨s, w⟩) {before after : List OpenAttempt} {attempt : OpenAttempt}
    (hworkers : w = before ++ attempt :: after) (result : OpenResult) :
    Attaching kept ⟨(attempt.resume result s).1, before ++ after⟩ := by
  have hsublist : (before ++ after).Sublist w := by
    rw [hworkers]
    exact (List.sublist_cons_self attempt after).append_left before
  have hmem : attempt ∈ w := by simp [hworkers]
  have hcount : w.countP (·.epoch = s.lifecycle) =
      (before ++ after).countP (·.epoch = s.lifecycle) +
        if attempt.epoch = s.lifecycle then 1 else 0 := by
    rw [hworkers, List.countP_append, List.countP_append, List.countP_cons]
    simp only [decide_eq_true_eq]
    omega
  have hattempts := h.attempts
  simp only [hcount] at hattempts
  by_cases hepoch : attempt.epoch = s.lifecycle
  · obtain ⟨hopening, hsocket, hstopped⟩ := h.attempt_opening hmem hepoch
    simp only [hopening, hepoch, if_true, reduceCtorEq, if_false] at hattempts
    have hnone : (before ++ after).countP (·.epoch = s.lifecycle) = 0 := by omega
    have hended : Attaching kept ⟨{ s with openingEpoch := none }, before ++ after⟩ :=
      ⟨fun e he => (by cases he), hnone, fun a ha => h.begun a (hsublist.subset ha), h.held, h.live,
        h.made, h.current, h.fair⟩
    rw [OpenAttempt.resume]
    dsimp only
    rw [finish_openingEpoch, if_pos hopening, ← finish_ended]
    exact hended.finish hepoch hsocket rfl result
  · rw [OpenAttempt.resume, finish_outlived hepoch]
    have hne : s.openingEpoch ≠ some attempt.epoch := fun hsame => hepoch (h.opening _ hsame).1
    rw [if_neg hne]
    rw [if_neg hepoch, Nat.add_zero] at hattempts
    exact ⟨h.opening, hattempts, fun a ha => h.begun a (hsublist.subset ha), h.held, h.live, h.made,
      h.current, h.fair⟩

end Attaching

end Magistrate.Frontend
