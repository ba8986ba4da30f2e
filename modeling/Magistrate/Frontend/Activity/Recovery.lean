import Mathlib.Data.List.Induction
import Magistrate.Core.History
import Magistrate.Core.Run

/-!
# The recovery coordinator

Requests for a recovery are coalesced: while a drain is in flight, a request leaves its
strength and its runner behind, and the loop of the drain takes them after the run
under way. The loop ends in one turn of the event loop, and the promise in flight is
cleared in a later one.
-/

namespace Magistrate

variable {ρ : Type*}

/-- What the coordinator is asked for, and what it starts. -/
inductive RecoveryEvent (ρ : Type*) where
  | requested (authoritativeSnapshot : Bool) (runner : ρ)
  | started (authoritativeSnapshot : Bool) (runner : ρ)
  deriving DecidableEq

/-- Where a drain stands. -/
inductive DrainPhase where
  /-- The synchronous part of its runner is being executed. -/
  | running
  /-- It awaits the promise of its runner. -/
  | awaiting
  /-- Its loop has ended, and the callback of `finally` is to come. -/
  | exited
  | settled
  deriving DecidableEq, Repr

/-- A drain, and whether one of its runs has failed. -/
structure RecoveryDrain where
  phase : DrainPhase
  failed : Bool
  deriving DecidableEq, Repr

/-- The loop of the drain has not ended. -/
def RecoveryDrain.Live (drain : RecoveryDrain) : Prop :=
  drain.phase = .running ∨ drain.phase = .awaiting

instance (drain : RecoveryDrain) : Decidable drain.Live := inferInstanceAs (Decidable (_ ∨ _))

/-- `CanonicalActivityRecoveryCoordinator`, with the drains that it has made, the calls of runners
that are being executed (with a mark if the request that made the drain has not returned), and what
happened so far. -/
structure RecoveryCoordinator (ρ : Type*) where
  requestedStrength : ℕ
  pendingRunner : Option ρ
  inFlight : Option ℕ
  drains : List RecoveryDrain
  stack : List (ℕ × Bool)
  events : List (RecoveryEvent ρ)
  deriving DecidableEq

/-- The strength of a request. -/
def recoveryStrength (authoritativeSnapshot : Bool) : ℕ := if authoritativeSnapshot then 2 else 1

namespace RecoveryCoordinator

/-- A drain leaves its loop. -/
def leave (c : RecoveryCoordinator ρ) (drain : ℕ) (failed inRequest : Bool) :
    RecoveryCoordinator ρ :=
  { c with
    drains := c.drains.set drain ⟨.exited, failed⟩
    inFlight := if inRequest then some drain else c.inFlight }

/-- The loop of `drain`, up to the call of a runner or to its end. -/
def loop (c : RecoveryCoordinator ρ) (drain : ℕ) (failed inRequest : Bool) :
    RecoveryCoordinator ρ :=
  if 0 < c.requestedStrength then
    match c.pendingRunner with
    | some requestedRunner =>
      { c with
        requestedStrength := 0
        pendingRunner := none
        drains := c.drains.set drain ⟨.running, failed⟩
        stack := (drain, inRequest) :: c.stack
        events := c.events ++ [.started (c.requestedStrength == 2) requestedRunner] }
    | none => { c with requestedStrength := 0 }.leave drain failed inRequest
  else c.leave drain failed inRequest

/-- A request leaves its strength and its runner. -/
def leaveRequest (c : RecoveryCoordinator ρ) (authoritativeSnapshot : Bool) (runner : ρ) :
    RecoveryCoordinator ρ :=
  { c with
    requestedStrength := max c.requestedStrength (recoveryStrength authoritativeSnapshot)
    pendingRunner := some runner
    events := c.events ++ [.requested authoritativeSnapshot runner] }

/-- `request` -/
def request (c : RecoveryCoordinator ρ) (authoritativeSnapshot : Bool) (runner : ρ) :
    RecoveryCoordinator ρ :=
  let c := c.leaveRequest authoritativeSnapshot runner
  if c.inFlight.isSome then c
  else
    let called : RecoveryCoordinator ρ := { c with drains := c.drains ++ [⟨.running, false⟩] }
    called.loop c.drains.length false true

/-- The runner that is being executed returns its promise. -/
def runnerReturns (c : RecoveryCoordinator ρ) : RecoveryCoordinator ρ :=
  match c.stack with
  | [] => c
  | (drain, inRequest) :: stack =>
    { c with
      stack
      drains := c.drains.modify drain ({ · with phase := .awaiting })
      inFlight := if inRequest then some drain else c.inFlight }

/-- The runner that is being executed throws. -/
def runnerThrows (c : RecoveryCoordinator ρ) : RecoveryCoordinator ρ :=
  match c.stack with
  | [] => c
  | (drain, inRequest) :: stack => { c with stack }.loop drain true inRequest

/-- A drain goes on after the promise of its runner. -/
def runnerCompletes (c : RecoveryCoordinator ρ) (drain : ℕ) (failed : Bool) :
    RecoveryCoordinator ρ :=
  match c.stack, c.drains[drain]? with
  | [], some ⟨.awaiting, failedBefore⟩ => c.loop drain (failedBefore || failed) false
  | _, _ => c

/-- The callback of `finally`. -/
def clear (c : RecoveryCoordinator ρ) (drain : ℕ) : RecoveryCoordinator ρ :=
  match c.stack, c.drains[drain]? with
  | [], some ⟨.exited, failed⟩ =>
    { c with
      drains := c.drains.set drain ⟨.settled, failed⟩
      inFlight := if c.inFlight = some drain then none else c.inFlight }
  | _, _ => c

/-- Nothing was asked for. -/
def initial : RecoveryCoordinator ρ := ⟨0, none, none, [], [], []⟩

end RecoveryCoordinator

/-- What happens to the coordinator; while a runner is being executed, requests are its own. -/
inductive RecoveryStep (ρ : Type*) where
  | request (authoritativeSnapshot : Bool) (runner : ρ)
  | runnerReturns
  | runnerThrows
  | runnerCompletes (drain : ℕ) (failed : Bool)
  | clear (drain : ℕ)
  deriving DecidableEq

namespace RecoveryCoordinator

/-- The coordinator after a step. -/
def step (c : RecoveryCoordinator ρ) : RecoveryStep ρ → RecoveryCoordinator ρ
  | .request authoritativeSnapshot runner => c.request authoritativeSnapshot runner
  | .runnerReturns => c.runnerReturns
  | .runnerThrows => c.runnerThrows
  | .runnerCompletes drain failed => c.runnerCompletes drain failed
  | .clear drain => c.clear drain

/-- The loop of some drain has not ended. -/
def Live (c : RecoveryCoordinator ρ) : Prop := ∃ drain ∈ c.drains, drain.Live

instance (c : RecoveryCoordinator ρ) : Decidable c.Live :=
  inferInstanceAs (Decidable (∃ drain ∈ c.drains, drain.Live))

/-- Nothing is being executed, and no turn is to come. -/
def Quiescent (c : RecoveryCoordinator ρ) : Prop :=
  c.stack = [] ∧ ∀ drain ∈ c.drains, drain.phase = .settled

end RecoveryCoordinator

/-- A request finds no promise in flight, or a drain whose loop has not ended. -/
def RecoveryStep.Timely (c : RecoveryCoordinator ρ) : RecoveryStep ρ → Prop
  | .request _ _ => c.inFlight = none ∨ c.Live
  | _ => True

/-- The runner of the last request of a list, or the given one. -/
def latestRunner (runner : ρ) (events : List (RecoveryEvent ρ)) : ρ :=
  events.foldl (fun latest event => match event with
    | .requested _ runner => runner
    | .started .. => latest) runner

/-- After a request a run was started with at least its strength; its runner is that of the last
request before it. -/
def RecoveryEvent.Followed (authoritativeSnapshot : Bool) (runner : ρ)
    (later : List (RecoveryEvent ρ)) : Prop :=
  ∃ between strong after,
    later = between ++ .started strong (latestRunner runner between) :: after ∧
      recoveryStrength authoritativeSnapshot ≤ recoveryStrength strong

namespace RecoveryCoordinator

/-- Every request was followed by a run. -/
def Served (c : RecoveryCoordinator ρ) : Prop :=
  ∀ earlier authoritativeSnapshot runner later,
    c.events = earlier ++ .requested authoritativeSnapshot runner :: later →
      RecoveryEvent.Followed authoritativeSnapshot runner later

/-- Every request was followed by a run, or is kept with its strength for a drain to take. -/
def ServedOrDue (c : RecoveryCoordinator ρ) : Prop :=
  ∀ earlier authoritativeSnapshot runner later,
    c.events = earlier ++ .requested authoritativeSnapshot runner :: later →
      RecoveryEvent.Followed authoritativeSnapshot runner later ∨
        recoveryStrength authoritativeSnapshot ≤ c.requestedStrength ∧ c.Live

end RecoveryCoordinator

section Events

variable {events : List (RecoveryEvent ρ)}

/-- What is asked for after an event. -/
def RecoveryEvent.owe (owed : ℕ × Option ρ) : RecoveryEvent ρ → ℕ × Option ρ
  | .requested authoritativeSnapshot runner =>
    (max owed.1 (recoveryStrength authoritativeSnapshot), some runner)
  | .started .. => (0, none)

/-- What was asked for since the last start. -/
def owed (events : List (RecoveryEvent ρ)) : ℕ × Option ρ :=
  events.foldl RecoveryEvent.owe (0, none)

/-- A start takes what was asked for. -/
def RecoveryEvent.Takes (before : List (RecoveryEvent ρ)) : RecoveryEvent ρ → Prop
  | .requested .. => True
  | .started strong runner =>
    0 < (owed before).1 ∧ (owed before).2 = some runner ∧ strong = ((owed before).1 == 2)

/-- An event is a start. -/
def RecoveryEvent.isStart : RecoveryEvent ρ → Bool
  | .requested .. => false
  | .started .. => true

theorem owed_concat (events : List (RecoveryEvent ρ)) (event : RecoveryEvent ρ) :
    owed (events ++ [event]) = event.owe (owed events) := by
  rw [owed, List.foldl_append, List.foldl_cons, List.foldl_nil, ← owed]

theorem one_le_recoveryStrength (authoritativeSnapshot : Bool) :
    1 ≤ recoveryStrength authoritativeSnapshot := by
  cases authoritativeSnapshot <;> decide

theorem recoveryStrength_le_two (authoritativeSnapshot : Bool) :
    recoveryStrength authoritativeSnapshot ≤ 2 := by
  cases authoritativeSnapshot <;> decide

/-- Nothing stronger than an authoritative snapshot is asked for. -/
theorem owed_le_two (events : List (RecoveryEvent ρ)) : (owed events).1 ≤ 2 := by
  induction events using List.reverseRecOn with
  | nil => exact Nat.zero_le 2
  | append_singleton events event ih =>
    rw [owed_concat]
    cases event with
    | requested authoritativeSnapshot runner =>
      exact Nat.max_le.mpr ⟨ih, recoveryStrength_le_two _⟩
    | started strong runner => exact Nat.zero_le 2

/-- Something is asked for exactly if a runner is left. -/
theorem owed_pos_iff (events : List (RecoveryEvent ρ)) :
    0 < (owed events).1 ↔ (owed events).2.isSome := by
  induction events using List.reverseRecOn with
  | nil => simp [owed]
  | append_singleton events event ih =>
    rw [owed_concat]
    cases event with
    | requested authoritativeSnapshot runner =>
      refine iff_of_true ?_ rfl
      exact Nat.lt_of_lt_of_le (one_le_recoveryStrength authoritativeSnapshot) (Nat.le_max_right ..)
    | started strong runner => exact iff_of_false (Nat.lt_irrefl 0) (by simp [RecoveryEvent.owe])

/-- A request is asked for, with its strength, until a start. -/
theorem owed_unstarted (earlier : List (RecoveryEvent ρ)) (authoritativeSnapshot : Bool)
    (runner : ρ) {later : List (RecoveryEvent ρ)} (h : ∀ event ∈ later, event.isStart = false) :
    recoveryStrength authoritativeSnapshot ≤
        (owed (earlier ++ .requested authoritativeSnapshot runner :: later)).1 ∧
      (owed (earlier ++ .requested authoritativeSnapshot runner :: later)).2 =
        some (latestRunner runner later) := by
  induction later using List.reverseRecOn with
  | nil =>
    rw [owed_concat]
    exact ⟨Nat.le_max_right .., rfl⟩
  | append_singleton later event ih =>
    obtain ⟨hstrength, hrunner⟩ := ih fun event hevent => h event (List.mem_append_left _ hevent)
    rw [← List.cons_append, ← List.append_assoc, owed_concat]
    cases event with
    | requested strong next =>
      refine ⟨Nat.le_trans hstrength (Nat.le_max_left ..), ?_⟩
      rw [latestRunner, List.foldl_append]
      rfl
    | started strong next =>
      cases h _ (List.mem_append_right _ (List.mem_singleton_self _))

/-- A list has no start, or a first one. -/
theorem exists_first_start (later : List (RecoveryEvent ρ)) :
    (∀ event ∈ later, event.isStart = false) ∨
      ∃ between strong runner after, later = between ++ .started strong runner :: after ∧
        ∀ event ∈ between, event.isStart = false := by
  induction later with
  | nil => exact .inl fun _ h => absurd h List.not_mem_nil
  | cons event later ih =>
    cases event with
    | started strong runner =>
      exact .inr ⟨[], strong, runner, later, rfl, fun _ h => absurd h List.not_mem_nil⟩
    | requested authoritativeSnapshot runner =>
      rcases ih with hnone | ⟨between, strong, next, after, rfl, hbetween⟩
      · exact .inl (List.forall_mem_cons.mpr ⟨rfl, hnone⟩)
      · exact .inr ⟨.requested authoritativeSnapshot runner :: between, strong, next, after, rfl,
          List.forall_mem_cons.mpr ⟨rfl, hbetween⟩⟩

/-- Where starts take what was asked for, a request is followed as soon as a run is started. -/
theorem followed_of_start (h : Justified RecoveryEvent.Takes events)
    {earlier later : List (RecoveryEvent ρ)} {authoritativeSnapshot : Bool} {runner : ρ}
    (hevents : events = earlier ++ .requested authoritativeSnapshot runner :: later) :
    (∀ event ∈ later, event.isStart = false) ∨
      RecoveryEvent.Followed authoritativeSnapshot runner later := by
  refine (exists_first_start later).imp_right ?_
  rintro ⟨between, strong, taken, after, rfl, hbetween⟩
  obtain ⟨hstrength, hrunner⟩ := owed_unstarted earlier authoritativeSnapshot runner hbetween
  have htakes : RecoveryEvent.Takes (earlier ++ .requested authoritativeSnapshot runner :: between)
      (.started strong taken) := h _ _ after (by rw [hevents, List.append_assoc, List.cons_append])
  obtain ⟨-, htaken, rfl⟩ := htakes
  obtain rfl := Option.some.inj (htaken.symm.trans hrunner)
  refine ⟨between, _, after, rfl, ?_⟩
  cases authoritativeSnapshot with
  | false => exact one_le_recoveryStrength _
  | true =>
    have htwo := Nat.le_antisymm (owed_le_two _) hstrength
    rw [htwo]
    exact Nat.le_refl 2

/-- Something is asked for exactly if a request is followed by no start. -/
theorem exists_unstarted (h : 0 < (owed events).1) :
    ∃ earlier authoritativeSnapshot runner later,
      events = earlier ++ .requested authoritativeSnapshot runner :: later ∧
        ∀ event ∈ later, event.isStart = false := by
  induction events using List.reverseRecOn with
  | nil => cases h
  | append_singleton events event _ =>
    cases event with
    | requested authoritativeSnapshot runner =>
      exact ⟨events, authoritativeSnapshot, runner, [], rfl, fun _ h => absurd h List.not_mem_nil⟩
    | started strong runner =>
      rw [owed_concat] at h
      exact absurd h (Nat.lt_irrefl 0)

end Events

namespace RecoveryCoordinator

variable {c : RecoveryCoordinator ρ}

/-- The callback of a drain is to come. -/
def Pending (drains : List RecoveryDrain) (d : ℕ) : Prop :=
  ∃ drain ∈ drains[d]?, drain.phase ≠ .settled

/-- What is asked for is what the requests since the last start left, starts took what was asked
for, and the drains that are named are there. -/
structure Coordinated (c : RecoveryCoordinator ρ) : Prop where
  owed : (c.requestedStrength, c.pendingRunner) = owed c.events
  justified : Justified RecoveryEvent.Takes c.events
  stacked : ∀ frame ∈ c.stack, frame.1 < c.drains.length
  held : ∀ d ∈ c.inFlight, Pending c.drains d

/-- Where something is asked for, the loop of a drain has not ended. -/
def Attended (c : RecoveryCoordinator ρ) : Prop := 0 < c.requestedStrength → c.Live

section Drains

variable {drains : List RecoveryDrain} {d e : ℕ} {drain : RecoveryDrain}

theorem pending_set_self (hd : d < drains.length) (h : drain.phase ≠ .settled) :
    Pending (drains.set d drain) d := by
  refine ⟨drain, ?_, h⟩
  rw [List.getElem?_set_self hd]
  rfl

theorem Pending.set (he : Pending drains e) (h : drain.phase ≠ .settled) :
    Pending (drains.set d drain) e := by
  obtain ⟨other, hother, hpending⟩ := he
  by_cases hsame : d = e
  · subst hsame
    exact pending_set_self (List.getElem?_eq_some_iff.mp hother).1 h
  · exact ⟨other, by rwa [List.getElem?_set_ne hsame], hpending⟩

theorem Pending.set_ne (he : Pending drains e) (h : d ≠ e) : Pending (drains.set d drain) e := by
  obtain ⟨other, hother, hpending⟩ := he
  exact ⟨other, by rwa [List.getElem?_set_ne h], hpending⟩

theorem pending_modify_self (hd : d < drains.length) :
    Pending (drains.modify d ({ · with phase := .awaiting })) d := by
  refine ⟨{ drains[d] with phase := .awaiting }, ?_, nofun⟩
  rw [List.getElem?_modify_eq, List.getElem?_eq_getElem hd]
  rfl

theorem Pending.modify (he : Pending drains e) :
    Pending (drains.modify d ({ · with phase := .awaiting })) e := by
  obtain ⟨other, hother, hpending⟩ := he
  by_cases hsame : d = e
  · subst hsame
    exact pending_modify_self (List.getElem?_eq_some_iff.mp hother).1
  · exact ⟨other, by rwa [List.getElem?_modify_ne _ _ hsame], hpending⟩

end Drains

theorem Coordinated.initial : (initial : RecoveryCoordinator ρ).Coordinated where
  owed := rfl
  justified := .nil
  stacked _ h := absurd h List.not_mem_nil
  held _ h := nomatch h

/-- The loop of a drain starts a run with what is asked for, or leaves where nothing is. -/
theorem loop_cases (h : (c.requestedStrength, c.pendingRunner) = Magistrate.owed c.events)
    (d : ℕ) (failed inRequest : Bool) :
    (∃ runner, 0 < c.requestedStrength ∧ c.pendingRunner = some runner ∧
      c.loop d failed inRequest =
        { c with
          requestedStrength := 0
          pendingRunner := none
          drains := c.drains.set d ⟨.running, failed⟩
          stack := (d, inRequest) :: c.stack
          events := c.events ++ [.started (c.requestedStrength == 2) runner] }) ∨
    c.requestedStrength = 0 ∧ c.loop d failed inRequest = c.leave d failed inRequest := by
  obtain ⟨hstrength, hrunner⟩ := Prod.ext_iff.mp h
  by_cases hpos : 0 < c.requestedStrength
  · obtain ⟨runner, hpending⟩ := Option.isSome_iff_exists.mp
      ((owed_pos_iff c.events).mp (hstrength ▸ hpos))
    have hpending : c.pendingRunner = some runner := hrunner.trans hpending
    refine .inl ⟨runner, hpos, hpending, ?_⟩
    rw [loop, if_pos hpos, hpending]
  · exact .inr ⟨Nat.eq_zero_of_not_pos hpos, by rw [loop, if_neg hpos]⟩

/-- After the loop of a drain nothing is asked for. -/
theorem requestedStrength_loop
    (h : (c.requestedStrength, c.pendingRunner) = Magistrate.owed c.events)
    (d : ℕ) (failed inRequest : Bool) : (c.loop d failed inRequest).requestedStrength = 0 := by
  rcases loop_cases h d failed inRequest with ⟨runner, -, -, hloop⟩ | ⟨hzero, hloop⟩
  · rw [hloop]
  · rw [hloop]
    exact hzero

theorem Coordinated.leave (h : c.Coordinated) {d : ℕ} (hd : d < c.drains.length)
    (failed inRequest : Bool) : (c.leave d failed inRequest).Coordinated where
  owed := h.owed
  justified := h.justified
  stacked frame hframe := by
    rw [RecoveryCoordinator.leave, List.length_set]
    exact h.stacked frame hframe
  held e he := by
    cases inRequest with
    | false => exact (h.held e he).set nofun
    | true =>
      obtain rfl := Option.some.inj he
      exact pending_set_self hd nofun

theorem Coordinated.loop (h : c.Coordinated) {d : ℕ} (hd : d < c.drains.length)
    (failed inRequest : Bool) : (c.loop d failed inRequest).Coordinated := by
  rcases loop_cases h.owed d failed inRequest with ⟨runner, hpos, hrunner, hloop⟩ | ⟨-, hloop⟩
  · rw [hloop]
    exact {
      owed := by
        rw [owed_concat]
        rfl
      justified := by
        refine h.justified.concat ?_
        rw [RecoveryEvent.Takes, ← h.owed]
        exact ⟨hpos, hrunner, rfl⟩
      stacked := by
        rw [List.forall_mem_cons, List.length_set]
        exact ⟨hd, h.stacked⟩
      held := fun e he => (h.held e he).set nofun }
  · rw [hloop]
    exact h.leave hd failed inRequest

theorem Coordinated.leaveRequest (h : c.Coordinated) (authoritativeSnapshot : Bool) (runner : ρ) :
    (c.leaveRequest authoritativeSnapshot runner).Coordinated where
  owed := by
    rw [RecoveryCoordinator.leaveRequest, owed_concat, ← h.owed]
    rfl
  justified := h.justified.concat trivial
  stacked := h.stacked
  held := h.held

/-- A drain is made where none is in flight. -/
theorem Coordinated.called (h : c.Coordinated) (hnone : ¬c.inFlight.isSome = true) :
    Coordinated { c with drains := c.drains ++ [⟨.running, false⟩] } where
  owed := h.owed
  justified := h.justified
  stacked frame hframe := by
    rw [List.length_append]
    exact Nat.lt_add_right _ (h.stacked frame hframe)
  held _ hd := absurd (Option.isSome_of_mem hd) hnone

/-- The runner that was executed is left. -/
theorem Coordinated.popped (h : c.Coordinated) {frame : ℕ × Bool} {stack : List (ℕ × Bool)}
    (hstack : c.stack = frame :: stack) :
    Coordinated { c with stack } ∧ frame.1 < c.drains.length := by
  have hall : ∀ frame' ∈ frame :: stack, frame'.1 < c.drains.length := hstack ▸ h.stacked
  obtain ⟨hframe, hrest⟩ := List.forall_mem_cons.mp hall
  exact ⟨⟨h.owed, h.justified, hrest, h.held⟩, hframe⟩

theorem Coordinated.request (h : c.Coordinated) (authoritativeSnapshot : Bool) (runner : ρ) :
    (c.request authoritativeSnapshot runner).Coordinated := by
  have hleft := h.leaveRequest authoritativeSnapshot runner
  rw [RecoveryCoordinator.request]
  split
  · exact hleft
  · next hnone =>
    refine (hleft.called hnone).loop ?_ false true
    rw [List.length_append]
    exact Nat.lt_succ_self _

theorem Coordinated.runnerReturns (h : c.Coordinated) : c.runnerReturns.Coordinated := by
  rw [RecoveryCoordinator.runnerReturns]
  split
  · exact h
  · next d inRequest stack hstack =>
    obtain ⟨hpopped, hd⟩ := h.popped hstack
    refine ⟨h.owed, h.justified, fun frame hframe => ?_, fun e he => ?_⟩
    · rw [List.length_modify]
      exact hpopped.stacked frame hframe
    · cases inRequest with
      | false => exact (h.held e he).modify
      | true =>
        obtain rfl := Option.some.inj he
        exact pending_modify_self hd

theorem Coordinated.runnerThrows (h : c.Coordinated) : c.runnerThrows.Coordinated := by
  rw [RecoveryCoordinator.runnerThrows]
  split
  · exact h
  · next d inRequest stack hstack =>
    obtain ⟨hpopped, hd⟩ := h.popped hstack
    exact hpopped.loop hd true inRequest

theorem Coordinated.runnerCompletes (h : c.Coordinated) (d : ℕ) (failed : Bool) :
    (c.runnerCompletes d failed).Coordinated := by
  rw [RecoveryCoordinator.runnerCompletes]
  split
  · next hdrain => exact h.loop (List.getElem?_eq_some_iff.mp hdrain).1 _ false
  · exact h

theorem Coordinated.clear (h : c.Coordinated) (d : ℕ) : (c.clear d).Coordinated := by
  rw [RecoveryCoordinator.clear]
  split
  · refine ⟨h.owed, h.justified, fun frame hframe => ?_, fun e he => ?_⟩
    · rw [List.length_set]
      exact h.stacked frame hframe
    · dsimp only at he
      split at he
      · cases he
      · next hother =>
        refine (h.held e he).set_ne ?_
        rintro rfl
        exact hother he
  · exact h

theorem Coordinated.step (h : c.Coordinated) (s : RecoveryStep ρ) : (c.step s).Coordinated := by
  cases s with
  | request authoritativeSnapshot runner => exact h.request authoritativeSnapshot runner
  | runnerReturns => exact h.runnerReturns
  | runnerThrows => exact h.runnerThrows
  | runnerCompletes d failed => exact h.runnerCompletes d failed
  | clear d => exact h.clear d

/-- A step keeps what is asked for attended exactly if it is timely. -/
theorem timely_iff (h : c.Coordinated) (hattended : c.Attended) (s : RecoveryStep ρ) :
    s.Timely c ↔ (c.step s).Attended := by
  have hloop {c : RecoveryCoordinator ρ} (h : c.Coordinated) (d : ℕ) (failed inRequest : Bool) :
      (c.loop d failed inRequest).Attended := by
    intro hpos
    rw [requestedStrength_loop h.owed] at hpos
    cases hpos
  cases s with
  | request authoritativeSnapshot runner =>
    have hleft := h.leaveRequest authoritativeSnapshot runner
    rw [step, request]
    split
    · -- The request is left behind, and only a drain that goes on takes it.
      next hsome =>
      have hflight : c.inFlight ≠ none := fun hnone => by
        rw [leaveRequest, hnone] at hsome
        cases hsome
      have hpos : 0 < (c.leaveRequest authoritativeSnapshot runner).requestedStrength :=
        Nat.lt_of_lt_of_le (one_le_recoveryStrength _) (Nat.le_max_right ..)
      constructor
      · intro htimely _
        exact htimely.resolve_left hflight
      · intro hkept
        exact .inr (hkept hpos)
    · next hnone =>
      refine iff_of_true (.inl ?_) (hloop (hleft.called hnone) _ _ _)
      exact Option.not_isSome_iff_eq_none.mp hnone
  | runnerReturns =>
    refine iff_of_true trivial ?_
    rw [step, runnerReturns]
    split
    · exact hattended
    · next d inRequest stack hstack =>
      intro _
      obtain ⟨drain, hdrain⟩ : ∃ drain, c.drains[d]? = some drain :=
        ⟨_, List.getElem?_eq_getElem (h.popped hstack).2⟩
      refine ⟨{ drain with phase := .awaiting }, ?_, .inr rfl⟩
      refine List.mem_of_getElem? (i := d) ?_
      rw [List.getElem?_modify_eq, hdrain]
      rfl
  | runnerThrows =>
    refine iff_of_true trivial ?_
    rw [step, runnerThrows]
    split
    · exact hattended
    · next hstack => exact hloop (h.popped hstack).1 _ _ _
  | runnerCompletes d failed =>
    refine iff_of_true trivial ?_
    rw [step, runnerCompletes]
    split
    · exact hloop h _ _ _
    · exact hattended
  | clear d =>
    refine iff_of_true trivial ?_
    rw [step, clear]
    split
    · next failed _ hexited =>
      intro hpos
      obtain ⟨drain, hdrain, hlive⟩ := hattended hpos
      obtain ⟨e, he⟩ := List.mem_iff_getElem?.mp hdrain
      refine ⟨drain, List.mem_of_getElem? (i := e) ?_, hlive⟩
      rw [List.getElem?_set_ne, he]
      rintro rfl
      obtain rfl := Option.some.inj (he.symm.trans hexited)
      rcases hlive with hlive | hlive <;> cases hlive
    · exact hattended

/-- Requests are followed or due, and followed when nothing is to come, exactly where what is asked
for is attended. -/
theorem attended_iff (h : c.Coordinated) : c.Attended ↔
    c.ServedOrDue ∧ (c.Quiescent → c.inFlight = none ∧ c.requestedStrength = 0 ∧ c.Served) := by
  have hstrength := (Prod.ext_iff.mp h.owed).1
  constructor
  · intro hattended
    have hdue : c.ServedOrDue := by
      intro earlier authoritativeSnapshot runner later hevents
      rcases followed_of_start h.justified hevents with hnone | hfollowed
      · have howed := (owed_unstarted earlier authoritativeSnapshot runner hnone).1
        rw [← hevents, ← hstrength] at howed
        exact .inr ⟨howed, hattended (Nat.lt_of_lt_of_le (one_le_recoveryStrength _) howed)⟩
      · exact .inl hfollowed
    refine ⟨hdue, fun hquiescent => ?_⟩
    have hdead : ¬c.Live := by
      rintro ⟨drain, hdrain, hlive⟩
      have hsettled := hquiescent.2 drain hdrain
      rcases hlive with hlive | hlive
      · cases hsettled.symm.trans hlive
      · cases hsettled.symm.trans hlive
    refine ⟨?_, ?_, fun earlier authoritativeSnapshot runner later hevents => ?_⟩
    · by_contra hflight
      obtain ⟨d, hd⟩ := Option.ne_none_iff_exists'.mp hflight
      obtain ⟨drain, hdrain, hpending⟩ := h.held d hd
      exact hpending (hquiescent.2 drain (List.mem_of_getElem? hdrain))
    · exact Nat.eq_zero_of_not_pos fun hpos => hdead (hattended hpos)
    · exact (hdue earlier authoritativeSnapshot runner later hevents).resolve_right
        fun hlive => hdead hlive.2
  · rintro ⟨hdue, -⟩ hpos
    obtain ⟨earlier, authoritativeSnapshot, runner, later, hevents, hnone⟩ :=
      exists_unstarted (Nat.lt_of_lt_of_eq hpos hstrength)
    refine ((hdue earlier authoritativeSnapshot runner later hevents).resolve_left ?_).2
    rintro ⟨between, strong, after, rfl, -⟩
    cases hnone _ (List.mem_append_right _ List.mem_cons_self)

end RecoveryCoordinator

open RecoveryCoordinator in
/-- Requests find no promise in flight, or a drain whose loop has not ended, exactly if in every
state of the run each request was followed by a run with at least its strength or is kept for a
drain to take; where nothing is to come, no promise is in flight, nothing is asked for and every
request was followed. -/
theorem recoveries_follow_iff (steps : List (RecoveryStep ρ)) :
    RunMeets step (fun c s => s.Timely c) initial steps ↔
      ∀ before after, steps = before ++ after →
        let c := run step initial before
        c.ServedOrDue ∧ (c.Quiescent → c.inFlight = none ∧ c.requestedStrength = 0 ∧ c.Served) := by
  have hunguarded : RunMeets step (fun _ _ => True) (initial : RecoveryCoordinator ρ) steps :=
    runMeets_of_forall (fun _ _ => trivial) _ _
  have hreached : RunMeets step (fun c s => s.Timely c) (initial : RecoveryCoordinator ρ) steps ↔
      ∀ before after, steps = before ++ after → (run step initial before).Attended :=
    runMeets_iff_reached (fun c s (h : Coordinated c) _ => h.step s)
      (fun c s h _ hattended => timely_iff h hattended s) hunguarded .initial
      (fun hpos => nomatch hpos)
  rw [hreached]
  refine forall₃_congr fun before after _ => attended_iff ?_
  exact run_invariant' (fun c s h => h.step s) before .initial

section Example

/-- A request arrives after the loop of the drain has ended, before its promise is cleared. -/
def requestedLate : List (RecoveryStep String) :=
  [.request false "recover", .runnerReturns, .runnerCompletes 0 false, .request true "recover",
    .clear 0]

/-- The late request is lost: nothing is in flight or to come, and it was followed by no run. -/
theorem late_request_lost :
    let c := run RecoveryCoordinator.step RecoveryCoordinator.initial requestedLate
    c.Quiescent ∧ c.inFlight = none ∧ c.requestedStrength = 2 ∧ ¬c.Served := by
  refine ⟨⟨rfl, by decide⟩, rfl, rfl, fun hserved => ?_⟩
  obtain ⟨between, strong, after, hlater, -⟩ := hserved
    [.requested false "recover", .started false "recover"] true "recover" [] rfl
  simp at hlater

end Example

end Magistrate
