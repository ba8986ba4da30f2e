import Magistrate.Gateway.Chat.Service
import Magistrate.Gateway.Chat.Submission

/-!
# Turn routes and messages

The route of a turn is written after the message, in a transaction that does not
look at it. While every route write still finds the message as its writer left
it, the route of a finished turn agrees with the message; a cancellation before
a late write makes them disagree.
-/

namespace Magistrate

open MagiChatStore

/-- A route outcome that agrees with the status of its message. -/
def MessageStatus.agrees : MessageStatus → RouteOutcome → Bool
  | pending, _ => true
  | completed, outcome => decide (outcome ≠ .failed ∧ outcome ≠ .cancelled)
  | failed, outcome => decide (outcome = .failed)
  | cancelled, outcome => decide (outcome = .cancelled)

namespace TurnTask

/-- A turn between its store write and its route write. -/
def betweenWrites (task : TurnTask) : Bool :=
  match task.phase with
  | .answered _ _ _ | .failed _ => true
  | _ => false

/-- The message of a turn is at the turn's attempt with a status. -/
def finds (task : TurnTask) (status : MessageStatus) (chat : Chat) : Bool :=
  (chat.messages.find? task.assistantMessageId).any fun m =>
    decide (m.status = status ∧ m.attemptCount = task.attempt)

end TurnTask

/-- Turns that are not between their writes have a route that agrees with their message. -/
def TurnRoutesAgree (service : MagiChatService) : Prop :=
  ∀ m ∈ service.shared.messages.rows,
    (∀ task ∈ service.workers, task.assistantMessageId = m.id → task.betweenWrites = false) →
    ∀ route ∈ service.shared.turnRoutes.rows, route.assistantMessageId = m.id →
      m.status.agrees route.outcome = true

/-- A route write finds the message as the writer's last transaction left it: still pending,
completed or failed at the writer's attempt. No turn is dropped between the failure it stored
and its route. -/
def RouteCurrent (service : MagiChatService) : ServiceStep → Prop
  | .start i _ => ∀ task ∈ service.workers[i]?, task.phase = .claimed →
      task.finds .pending service.shared = true
  | .close i _ => ∀ task ∈ service.workers[i]?,
      match task.phase with
      | .answered _ _ _ => task.finds .completed service.shared = true
      | .failed _ => task.finds .failed service.shared = true
      | _ => True
  | .drop i => ∀ task ∈ service.workers[i]?, task.phase = .failed true →
      task.finds .failed service.shared = false
  | _ => True

/-- What holds of one message, its route and its turns. -/
structure TurnFit (message : Option MagiMessage) (route : Option TurnRoute)
    (tasks : List TurnTask) : Prop where
  routeOwner : ∀ r ∈ route, ∃ m ∈ message, m.ownerUserId = r.ownerUserId
  known : ∀ t ∈ tasks, ∃ m ∈ message, m.role = .assistant ∧ m.ownerUserId = t.ownerUserId ∧
    t.attempt ≤ m.attemptCount
  routed : ∀ m ∈ message, m.status = .pending → ∀ t ∈ tasks, t.attempt = m.attemptCount →
    t.phase ≠ .claimed → ∀ r ∈ route, r.outcome = .routing
  agree : ∀ m ∈ message, ∀ r ∈ route, m.status.agrees r.outcome = true ∨
    m.status = .failed ∧ ∃ t ∈ tasks, t.attempt = m.attemptCount ∧ t.phase = .failed true

namespace TurnFit

variable {message : Option MagiMessage} {route : Option TurnRoute} {m m' : MagiMessage}
  {r : TurnRoute} {tasks before after : List TurnTask} {task : TurnTask} {next : Option TurnTask}

/-- A turn's next phase belongs to the same attempt. -/
structure Follows (task : TurnTask) (next : Option TurnTask) : Prop where
  owner : ∀ t ∈ next, t.ownerUserId = task.ownerUserId
  attempt : ∀ t ∈ next, t.attempt = task.attempt

theorem Follows.none (task : TurnTask) : Follows task none := ⟨by simp, by simp⟩

theorem Follows.phase (task : TurnTask) (phase : TurnPhase) :
    Follows task (some { task with phase }) := ⟨by simp, by simp⟩

/-- The turns after one of them went on are the others and its next phase. -/
theorem mem_follow (task : TurnTask) {t : TurnTask} (ht : t ∈ before ++ next.toList ++ after) :
    t ∈ before ++ task :: after ∨ t ∈ next := by
  simp only [List.mem_append, Option.mem_toList, List.mem_cons, Option.mem_def] at ht ⊢
  tauto

/-- The other turns are still there after one of them went on. -/
theorem mem_other {t : TurnTask} (ht : t ∈ before ++ task :: after) (hne : t ≠ task) :
    t ∈ before ++ next.toList ++ after := by
  simp only [List.mem_append, Option.mem_toList, List.mem_cons] at ht ⊢
  tauto

/-- Following turns are turns of the message, too. -/
theorem known_follow (h : TurnFit message route (before ++ task :: after))
    (hnext : Follows task next) : ∀ t ∈ before ++ next.toList ++ after, ∃ m ∈ message,
      m.role = .assistant ∧ m.ownerUserId = t.ownerUserId ∧ t.attempt ≤ m.attemptCount := by
  intro t ht
  rcases mem_follow task ht with ht | ht
  · exact h.known t ht
  · rw [hnext.owner t ht, hnext.attempt t ht]
    exact h.known task (by simp)

/-- A route is of the owner of its turns. -/
theorem route_owner (h : TurnFit message route (before ++ task :: after)) (hr : r ∈ route) :
    r.ownerUserId = task.ownerUserId := by
  obtain ⟨m, hm, howner⟩ := h.routeOwner r hr
  obtain ⟨m', hm', -, howner', -⟩ := h.known task (by simp)
  obtain rfl : m = m' := Option.some.inj (hm.symm.trans hm')
  exact howner.symm.trans howner'

/-- A turn goes on without a write. -/
theorem advance (h : TurnFit message route (before ++ task :: after)) (hnext : Follows task next)
    (hphase : ∀ t ∈ next, t.phase ≠ .claimed → task.phase ≠ .claimed)
    (hkept : task.phase = .failed true → ∀ m ∈ message, m.status = .failed →
      task.attempt ≠ m.attemptCount) :
    TurnFit message route (before ++ next.toList ++ after) where
  routeOwner := h.routeOwner
  known := h.known_follow hnext
  routed m hm pending t ht hattempt hclaimed := by
    rcases mem_follow task ht with ht | ht
    · exact h.routed m hm pending t ht hattempt hclaimed
    · exact h.routed m hm pending task (by simp) ((hnext.attempt t ht).symm.trans hattempt)
        (hphase t ht hclaimed)
  agree m hm r hr := by
    rcases h.agree m hm r hr with hagrees | ⟨hfailed, t, ht, hattempt, htook⟩
    · exact .inl hagrees
    · have hne : t ≠ task := fun he => hkept (he ▸ htook) m hm hfailed (he ▸ hattempt)
      exact .inr ⟨hfailed, t, mem_other ht hne, hattempt, htook⟩

/-- A route write whose outcome agrees with the message. -/
theorem record (h : TurnFit (some m) route (before ++ task :: after)) (hnext : Follows task next)
    {route' : Option TurnRoute} (howner : ∀ r ∈ route', m.ownerUserId = r.ownerUserId)
    (hagrees : ∀ r ∈ route', m.status.agrees r.outcome = true)
    (hpending : m.status = .pending → ∀ r ∈ route', r.outcome = .routing) :
    TurnFit (some m) route' (before ++ next.toList ++ after) where
  routeOwner r hr := ⟨m, rfl, howner r hr⟩
  known := h.known_follow hnext
  routed _ hm pending _ _ _ _ r hr := by
    obtain rfl := Option.some.inj hm
    exact hpending pending r hr
  agree _ hm r hr := by
    obtain rfl := Option.some.inj hm
    exact .inl (hagrees r hr)

/-- An answer or a failure is stored for a pending attempt. -/
theorem finish (h : TurnFit (some m) route (before ++ task :: after)) (hnext : Follows task next)
    (pending : m.status = .pending) (current : m.attemptCount = task.attempt)
    (hphase : task.phase ≠ .claimed) (same : m.SameIdentity m')
    (hattempt : m'.attemptCount = m.attemptCount)
    (hstatus : m'.status = .completed ∨
      m'.status = .failed ∧ ∃ t ∈ next, t.attempt = task.attempt ∧ t.phase = .failed true) :
    TurnFit (some m') route (before ++ next.toList ++ after) where
  routeOwner r hr := by
    obtain ⟨_, hm, hr⟩ := h.routeOwner r hr
    obtain rfl := Option.some.inj hm
    exact ⟨m', rfl, same.ownerUserId.trans hr⟩
  known t ht := by
    obtain ⟨_, hm, hrole, hown, hle⟩ := h.known_follow hnext t ht
    obtain rfl := Option.some.inj hm
    exact ⟨m', rfl, same.role.trans hrole, same.ownerUserId.trans hown, hattempt ▸ hle⟩
  routed _ hm' pending' := by
    obtain rfl := Option.some.inj hm'
    rcases hstatus with hstatus | ⟨hstatus, -⟩
    · exact absurd (hstatus.symm.trans pending') (by simp)
    · exact absurd (hstatus.symm.trans pending') (by simp)
  agree _ hm' r hr := by
    obtain rfl := Option.some.inj hm'
    rcases hstatus with hstatus | ⟨hstatus, t, ht, hcurrent, htook⟩
    · have hrouting := h.routed m rfl pending task (by simp) current.symm hphase r hr
      exact .inl (by simp [hstatus, hrouting, MessageStatus.agrees])
    · have hmem : t ∈ before ++ next.toList ++ after := by
        simp [Option.mem_def.mp ht]
      exact .inr ⟨hstatus, t, hmem, hcurrent.trans (current.symm.trans hattempt.symm), htook⟩

/-- A message and its route are closed together. -/
theorem closed (h : TurnFit (some m) route tasks) (same : m.SameIdentity m')
    (hattempt : m'.attemptCount = m.attemptCount) (hstatus : m'.status ≠ .pending)
    {route' : Option TurnRoute} (hroute : ∀ r' ∈ route', m'.ownerUserId = r'.ownerUserId ∧
      m'.status.agrees r'.outcome = true) : TurnFit (some m') route' tasks where
  routeOwner r' hr' := ⟨m', rfl, (hroute r' hr').1⟩
  known t ht := by
    obtain ⟨_, hm, hrole, hown, hle⟩ := h.known t ht
    obtain rfl := Option.some.inj hm
    exact ⟨m', rfl, same.role.trans hrole, same.ownerUserId.trans hown, hattempt ▸ hle⟩
  routed _ hm' pending := by
    obtain rfl := Option.some.inj hm'
    exact absurd pending hstatus
  agree _ hm' r' hr' := by
    obtain rfl := Option.some.inj hm'
    exact .inl (hroute r' hr').2

/-- The next attempt of a failed message is claimed. -/
theorem retry (h : TurnFit (some m) route tasks) (same : m.SameIdentity m')
    (hattempt : m'.attemptCount = m.attemptCount + 1) (hstatus : m'.status = .pending)
    (htask : task.phase = .claimed) (hrole : m.role = .assistant)
    (hown : m.ownerUserId = task.ownerUserId) (hcurrent : task.attempt = m'.attemptCount) :
    TurnFit (some m') route (tasks ++ [task]) where
  routeOwner r hr := by
    obtain ⟨_, hm, hr⟩ := h.routeOwner r hr
    obtain rfl := Option.some.inj hm
    exact ⟨m', rfl, same.ownerUserId.trans hr⟩
  known t ht := by
    rcases List.mem_append.mp ht with ht | ht
    · obtain ⟨_, hm, hrole', hown', hle⟩ := h.known t ht
      obtain rfl := Option.some.inj hm
      exact ⟨m', rfl, same.role.trans hrole', same.ownerUserId.trans hown', by omega⟩
    · obtain rfl := List.mem_singleton.mp ht
      exact ⟨m', rfl, same.role.trans hrole, same.ownerUserId.trans hown, hcurrent.le⟩
  routed _ hm' _ t ht hsame hclaimed := by
    obtain rfl := Option.some.inj hm'
    rcases List.mem_append.mp ht with ht | ht
    · obtain ⟨_, hm, -, -, hle⟩ := h.known t ht
      obtain rfl := Option.some.inj hm
      omega
    · obtain rfl := List.mem_singleton.mp ht
      exact absurd htask hclaimed
  agree _ hm' r _ := by
    obtain rfl := Option.some.inj hm'
    exact .inl (by simp [hstatus, MessageStatus.agrees])

/-- A new message has no route yet, and its first turn at most. -/
theorem opened (h : TurnFit none route tasks) {started : List TurnTask}
    (hstarted : ∀ t ∈ started, m.role = .assistant ∧ m.ownerUserId = t.ownerUserId ∧
      t.attempt = m.attemptCount) :
    TurnFit (some m) route (tasks ++ started) := by
  have hroute : route = none := by
    rw [Option.eq_none_iff_forall_not_mem]
    intro r hr
    obtain ⟨_, hm, -⟩ := h.routeOwner r hr
    simp at hm
  have htasks : tasks = [] := by
    rw [List.eq_nil_iff_forall_not_mem]
    intro t ht
    obtain ⟨_, hm, -⟩ := h.known t ht
    simp at hm
  subst hroute htasks
  refine ⟨by simp, fun t ht => ?_, by simp, by simp⟩
  obtain ⟨hrole, howner, hattempt⟩ := hstarted t (by simpa using ht)
  exact ⟨m, rfl, hrole, howner, hattempt.le⟩

end TurnFit

/-- The message and the route under an id are as they were. -/
def Chat.SameAt (chat chat' : Chat) (id : String) : Prop :=
  chat'.messages.find? id = chat.messages.find? id ∧
    chat'.turnRoutes.find? id = chat.turnRoutes.find? id

/-- Every message, its route and its turns fit together. -/
def RoutesFit (service : MagiChatService) : Prop :=
  ∀ id, TurnFit (service.shared.messages.find? id) (service.shared.turnRoutes.find? id)
    (service.workers.filter fun t => t.assistantMessageId = id)

namespace RoutesFit

variable {service : MagiChatService} {chat' : Chat} {task : TurnTask}

/-- Fitting turns that are not between their writes have a route that agrees. -/
theorem agree (h : RoutesFit service) : TurnRoutesAgree service := by
  intro m hm hquiet r hr hid
  have hfind : service.shared.turnRoutes.find? m.id = some r := hid ▸ Table.find?_of_mem hr
  rcases (h m.id).agree m (Table.find?_of_mem hm) r hfind with hagrees | ⟨-, t, ht, -, htook⟩
  · exact hagrees
  · obtain ⟨ht, hturn⟩ := List.mem_filter.mp ht
    have hbetween := hquiet t ht (of_decide_eq_true hturn)
    simp [TurnTask.betweenWrites, htook] at hbetween

/-- A write that no turn makes fits when it fits under every id. -/
theorem write (h : RoutesFit service)
    (hids : ∀ id, (service.shared.SameAt chat' id) ∨ ∀ tasks,
      TurnFit (service.shared.messages.find? id) (service.shared.turnRoutes.find? id) tasks →
        TurnFit (chat'.messages.find? id) (chat'.turnRoutes.find? id) tasks) :
    RoutesFit (service.write chat') := by
  intro id
  rcases hids id with ⟨hmessage, hroute⟩ | hfit
  · simp only [Pool.write, hmessage, hroute]
    exact h id
  · exact hfit _ (h id)

/-- A turn fits when its own message, route and next phase do. -/
theorem turn (h : RoutesFit service) (i : ℕ) {f : TurnTask → Chat → Chat × Option TurnTask}
    (hother : ∀ task, service.workers[i]? = some task →
      (∀ t ∈ (f task service.shared).2, t.assistantMessageId = task.assistantMessageId) ∧
      ∀ id ≠ task.assistantMessageId, service.shared.SameAt (f task service.shared).1 id)
    (hfit : ∀ task, service.workers[i]? = some task → ∀ before after,
      TurnFit (service.shared.messages.find? task.assistantMessageId)
        (service.shared.turnRoutes.find? task.assistantMessageId) (before ++ task :: after) →
      TurnFit ((f task service.shared).1.messages.find? task.assistantMessageId)
        ((f task service.shared).1.turnRoutes.find? task.assistantMessageId)
        (before ++ (f task service.shared).2.toList ++ after)) :
    RoutesFit (service.turn i f) := by
  rcases service.turn_cases i f with heq | ⟨before, task, after, hworkers, htask, heq⟩
  · rwa [heq]
  · obtain ⟨hnext, hsame⟩ := hother task htask
    intro id
    have hid := h id
    rw [heq]
    rw [hworkers] at hid
    by_cases he : id = task.assistantMessageId
    · subst he
      have hkeep : ((f task service.shared).2.toList.filter fun t =>
          t.assistantMessageId = task.assistantMessageId) = (f task service.shared).2.toList := by
        rw [List.filter_eq_self]
        intro t ht
        exact decide_eq_true (hnext t (Option.mem_toList.mp ht))
      simp only [List.filter_append, List.filter_cons, decide_true, if_true, hkeep] at hid ⊢
      exact hfit task htask _ _ hid
    · have hdrop : ((f task service.shared).2.toList.filter fun t => t.assistantMessageId = id) =
          [] := by
        rw [List.filter_eq_nil_iff]
        intro t ht
        simp [hnext t (Option.mem_toList.mp ht), Ne.symm he]
      have hskip : decide (task.assistantMessageId = id) = false := decide_eq_false (Ne.symm he)
      simp only [List.filter_append, List.filter_cons, hskip, hdrop, Bool.false_eq_true, if_false,
        List.append_nil] at hid ⊢
      obtain ⟨hmessage, hroute⟩ := hsame id he
      rw [hmessage, hroute]
      exact hid

/-- A recorded route has the written outcome, unless another owner holds it. -/
theorem recordRoute_cases {chat : Chat} {outcome : RouteOutcome} {now : ℤ}
    (h : task.recordRoute outcome now chat = .ok chat') :
    chat'.messages = chat.messages ∧
      (∀ id ≠ task.assistantMessageId, chat'.turnRoutes.find? id = chat.turnRoutes.find? id) ∧
      ∀ r ∈ chat'.turnRoutes.find? task.assistantMessageId,
        r.ownerUserId = task.ownerUserId ∧ r.outcome = outcome ∨
          r ∈ chat.turnRoutes.find? task.assistantMessageId ∧
            r.ownerUserId ≠ task.ownerUserId := by
  unfold TurnTask.recordRoute recordTurnRoute at h
  split at h
  · simp at h
  · split at h
    · next free =>
      obtain rfl := Except.ok.inj h
      refine ⟨rfl, fun id hid => ?_, fun r hr => ?_⟩
      · rw [Table.find?_insertOrIgnore, if_neg (Ne.symm hid), Option.or_none]
      · rw [Table.find?_insertOrIgnore, free, if_pos rfl, Option.none_or] at hr
        obtain rfl := Option.some.inj hr
        exact .inl ⟨rfl, rfl⟩
    · next old found =>
      obtain rfl := Except.ok.inj h
      refine ⟨rfl, fun id hid => by rw [Table.find?_update_ne _ hid], fun r hr => ?_⟩
      rw [Table.find?_update_self, found] at hr
      obtain rfl := Option.some.inj hr
      by_cases howner : old.ownerUserId = task.ownerUserId
      · simp [howner]
      · simp [howner, found]

/-- A turn's route write returns. -/
theorem recordRoute_returns {chat : Chat} {before after : List TurnTask}
    (h : TurnFit (chat.messages.find? task.assistantMessageId)
      (chat.turnRoutes.find? task.assistantMessageId) (before ++ task :: after))
    (outcome : RouteOutcome) (now : ℤ) :
    ∃ chat', task.recordRoute outcome now chat = .ok chat' := by
  obtain ⟨m, hm, hrole, howner, -⟩ := h.known task (by simp)
  have hfound : chat.assistantMessage task.ownerUserId task.assistantMessageId = some m := by
    simp [Chat.assistantMessage, Option.mem_def.mp hm, hrole, howner]
  unfold TurnTask.recordRoute recordTurnRoute
  simp only [hfound]
  split <;> exact ⟨_, rfl⟩

/-- A route write that finds its message as it should keeps the turns fitting. -/
theorem recorded {chat : Chat} {outcome : RouteOutcome} {now : ℤ} {status : MessageStatus}
    {before after : List TurnTask} {next : Option TurnTask}
    (h : TurnFit (chat.messages.find? task.assistantMessageId)
      (chat.turnRoutes.find? task.assistantMessageId) (before ++ task :: after))
    (hrecord : task.recordRoute outcome now chat = .ok chat')
    (hfinds : task.finds status chat = true) (hagrees : status.agrees outcome = true)
    (hpending : status = .pending → outcome = .routing) (hnext : TurnFit.Follows task next) :
    TurnFit (chat'.messages.find? task.assistantMessageId)
      (chat'.turnRoutes.find? task.assistantMessageId) (before ++ next.toList ++ after) := by
  obtain ⟨hmessages, -, hroute⟩ := recordRoute_cases hrecord
  have hwritten : ∀ r ∈ chat'.turnRoutes.find? task.assistantMessageId,
      r.ownerUserId = task.ownerUserId ∧ r.outcome = outcome := by
    intro r hr
    rcases hroute r hr with hwritten | ⟨hold, hforeign⟩
    · exact hwritten
    · exact absurd (h.route_owner hold) hforeign
  obtain ⟨m, hm, hstatus⟩ := (Option.any_eq_true _ _).mp hfinds
  obtain ⟨rfl, -⟩ := of_decide_eq_true hstatus
  obtain ⟨_, hm', -, howner, -⟩ := h.known task (by simp)
  obtain rfl := Option.some.inj (hm.symm.trans hm')
  rw [hmessages, hm]
  rw [hm] at h
  refine h.record hnext (fun r hr => ?_) (fun r hr => ?_) (fun pending r hr => ?_)
  · exact howner.trans (hwritten r hr).1.symm
  · rw [(hwritten r hr).2]
    exact hagrees
  · rw [(hwritten r hr).2]
    exact hpending pending

/-- Starting a turn whose attempt is still pending keeps the turns fitting. -/
theorem start (h : RoutesFit service) {i : ℕ} {now : ℤ}
    (hcurrent : RouteCurrent service (.start i now)) :
    RoutesFit (service.turn i (TurnTask.start now)) := by
  refine h.turn i (fun task _ => ?_) (fun task htask before after hfit => ?_)
  · unfold TurnTask.start
    split
    · split
      · next chat' hrecord =>
        obtain ⟨hmessages, hroutes, -⟩ := recordRoute_cases hrecord
        exact ⟨by simp, fun id hid => ⟨congrArg (·.find? id) hmessages, hroutes id hid⟩⟩
      · exact ⟨by simp, fun _ _ => ⟨rfl, rfl⟩⟩
    · exact ⟨by simp, fun _ _ => ⟨rfl, rfl⟩⟩
  · unfold TurnTask.start
    split
    · next hclaimed =>
      split
      · next chat' hrecord =>
        exact recorded hfit hrecord (hcurrent task htask hclaimed) rfl (fun _ => rfl)
          (.phase task .running)
      · exact hfit.advance (.none task) (by simp) (by simp [hclaimed])
    · simpa using hfit

/-- A stored answer or failure fits: it ends the pending attempt of a turn that is running. -/
theorem finished {chat : Chat} {status : MessageStatus} {content : String}
    {errorCode : Option String} {now : ℤ} {before after : List TurnTask} {phase : TurnPhase}
    (h : TurnFit (chat.messages.find? task.assistantMessageId)
      (chat.turnRoutes.find? task.assistantMessageId) (before ++ task :: after))
    {m : MagiMessage} (hm : m ∈ chat.messages.rows) (hid : m.id = task.assistantMessageId)
    (pending : m.status = .pending) (current : m.attemptCount = task.attempt)
    (hmessages : chat'.messages = chat.messages.update task.assistantMessageId
      (MagiMessage.closed status content errorCode now))
    (hroutes : chat'.turnRoutes = chat.turnRoutes) (hphase : task.phase ≠ .claimed)
    (hstatus : status = .completed ∨ status = .failed ∧ phase = .failed true) :
    TurnFit (chat'.messages.find? task.assistantMessageId)
      (chat'.turnRoutes.find? task.assistantMessageId)
      (before ++ (some { task with phase }).toList ++ after) := by
  have hfind : chat.messages.find? task.assistantMessageId = some m :=
    hid ▸ Table.find?_of_mem hm
  rw [hfind] at h
  rw [hmessages, hroutes, Table.find?_update_self, hfind]
  refine h.finish (.phase task phase) pending current hphase
    (m.sameIdentity_closed status content errorCode now) rfl ?_
  rcases hstatus with hstatus | ⟨hstatus, hphase⟩
  · exact .inl hstatus
  · exact .inr ⟨hstatus, _, rfl, rfl, hphase⟩

/-- Completing a turn keeps the turns fitting. -/
theorem complete (h : RoutesFit service) (i : ℕ) (content : String) (latencyMs toolCalls : ℕ)
    (answer : Answer) (now : ℤ) :
    RoutesFit (service.turn i (TurnTask.complete content latencyMs toolCalls answer now)) := by
  refine h.turn i (fun task _ => ?_) (fun task _ before after hfit => ?_)
  · unfold TurnTask.complete
    split
    · split
      · next took chat' hcomplete =>
        refine ⟨by simp, fun id hid => ?_⟩
        rcases completeSubmission_cases hcomplete with ⟨-, rfl⟩ | ⟨-, -, _, -, -, -, -, -, -,
          hmessages, hroutes⟩
        · exact ⟨rfl, rfl⟩
        · refine ⟨?_, congrArg (·.find? id) hroutes⟩
          rw [hmessages, Table.find?_update_ne _ hid]
      · exact ⟨by simp, fun _ _ => ⟨rfl, rfl⟩⟩
    · exact ⟨by simp, fun _ _ => ⟨rfl, rfl⟩⟩
  · unfold TurnTask.complete
    split
    · next hrunning =>
      split
      · next took chat' hcomplete =>
        rcases completeSubmission_cases hcomplete with ⟨-, rfl⟩ | ⟨-, -, m, hm, hid, -, -, pending,
          current, hmessages, hroutes⟩
        · exact hfit.advance (.phase task _) (by simp [hrunning]) (by simp [hrunning])
        · exact finished hfit hm hid pending current hmessages hroutes (by simp [hrunning])
            (.inl rfl)
      · exact hfit.advance (.phase task _) (by simp [hrunning]) (by simp [hrunning])
    · simpa using hfit

/-- Raising in a turn keeps the turns fitting. -/
theorem raise (h : RoutesFit service) (i : ℕ) (errorCode : String) (toolCalls : ℕ) :
    RoutesFit (service.turn i (TurnTask.raise errorCode toolCalls)) := by
  refine h.turn i (fun task _ => ?_) (fun task _ before after hfit => ?_)
  · unfold TurnTask.raise
    split <;> exact ⟨by simp, fun _ _ => ⟨rfl, rfl⟩⟩
  · unfold TurnTask.raise
    split
    · next hrunning => exact hfit.advance (.phase task _) (by simp [hrunning]) (by simp [hrunning])
    · next hanswered =>
      exact hfit.advance (.phase task _) (by simp [hanswered]) (by simp [hanswered])
    · simpa using hfit

/-- Failing a turn keeps the turns fitting. -/
theorem fail (h : RoutesFit service) (i : ℕ) (now : ℤ) :
    RoutesFit (service.turn i (TurnTask.fail now)) := by
  refine h.turn i (fun task _ => ?_) (fun task _ before after hfit => ?_)
  · unfold TurnTask.fail
    split
    · split
      · next took chat' hfail =>
        refine ⟨by simp, fun id hid => ?_⟩
        rcases failSubmission_cases hfail with ⟨-, rfl⟩ | ⟨-, -, _, -, -, -, -, -, -, hmessages,
          hroutes⟩
        · exact ⟨rfl, rfl⟩
        · refine ⟨?_, congrArg (·.find? id) hroutes⟩
          rw [hmessages, Table.find?_update_ne _ hid]
      · exact ⟨by simp, fun _ _ => ⟨rfl, rfl⟩⟩
    · exact ⟨by simp, fun _ _ => ⟨rfl, rfl⟩⟩
  · unfold TurnTask.fail
    split
    · next hfailing =>
      split
      · next took chat' hfail =>
        rcases failSubmission_cases hfail with ⟨-, rfl⟩ | ⟨rfl, -, m, hm, hid, -, -, pending,
          current, hmessages, hroutes⟩
        · exact hfit.advance (.phase task _) (by simp [hfailing]) (by simp [hfailing])
        · exact finished hfit hm hid pending current hmessages hroutes (by simp [hfailing])
            (.inr ⟨rfl, rfl⟩)
      · exact hfit.advance (.none task) (by simp) (by simp [hfailing])
    · simpa using hfit

/-- Writing the route of a turn whose store write still stands keeps the turns fitting. -/
theorem close (h : RoutesFit service) {i : ℕ} {now : ℤ}
    (hcurrent : RouteCurrent service (.close i now)) :
    RoutesFit (service.turn i (TurnTask.close now)) := by
  refine h.turn i (fun task _ => ?_) (fun task htask before after hfit => ?_)
  · unfold TurnTask.close
    split
    · split
      · next chat' hrecord =>
        obtain ⟨hmessages, hroutes, -⟩ := recordRoute_cases hrecord
        exact ⟨by simp, fun id hid => ⟨congrArg (·.find? id) hmessages, hroutes id hid⟩⟩
      · exact ⟨by simp, fun _ _ => ⟨rfl, rfl⟩⟩
    · refine ⟨by simp, fun id hid => ?_⟩
      refine commit_of (P := fun chat => service.shared.SameAt chat id) ⟨rfl, rfl⟩
        fun chat' hrecord => ?_
      obtain ⟨hmessages, hroutes, -⟩ := recordRoute_cases hrecord
      exact ⟨congrArg (·.find? id) hmessages, hroutes id hid⟩
    · exact ⟨by simp, fun _ _ => ⟨rfl, rfl⟩⟩
  · have hfinds := hcurrent task htask
    unfold TurnTask.close
    split
    · next answer toolCalls took hanswered =>
      simp only [hanswered] at hfinds
      split
      · next chat' hrecord =>
        exact recorded hfit hrecord hfinds (by cases answer <;> rfl) (by simp) (.none task)
      · exact hfit.advance (.phase task _) (by simp [hanswered]) (by simp [hanswered])
    · next took hfailed =>
      simp only [hfailed] at hfinds
      obtain ⟨chat', hrecord⟩ := recordRoute_returns hfit .failed now
      simp only [hrecord, commit_ok]
      exact recorded hfit hrecord hfinds rfl (by simp) (.none task)
    · simpa using hfit

/-- Dropping a turn that owes no route keeps the turns fitting. -/
theorem drop (h : RoutesFit service) {i : ℕ} (hcurrent : RouteCurrent service (.drop i)) :
    RoutesFit (service.turn i TurnTask.drop) := by
  refine h.turn i (fun task _ => ⟨by simp [TurnTask.drop], fun _ _ => ⟨rfl, rfl⟩⟩)
    (fun task htask before after hfit => ?_)
  refine hfit.advance (.none task) (by simp [TurnTask.drop])
    fun htook m hm hfailed hattempt => ?_
  have hfinds := hcurrent task htask htook
  simp [TurnTask.finds, Option.mem_def.mp hm, hfailed, hattempt] at hfinds

/-- Claiming the next attempt of a failed message keeps the turns fitting. -/
theorem claim (h : RoutesFit service) {m : MagiMessage} {now : ℤ}
    (hm : m ∈ service.shared.messages.rows) (hrole : m.role = .assistant)
    (howner : m.ownerUserId = task.ownerUserId) (hid : task.assistantMessageId = m.id)
    (hattempt : task.attempt = m.attemptCount + 1) (hphase : task.phase = .claimed)
    (hmessages : chat'.messages = service.shared.messages.update m.id (MagiMessage.retried now))
    (hroutes : chat'.turnRoutes = service.shared.turnRoutes) :
    RoutesFit ((service.write chat').spawn task) := by
  intro id
  have hfit := h id
  simp only [Pool.spawn, Pool.write, hmessages, hroutes, List.filter_append, List.filter_singleton]
  by_cases he : id = m.id
  · subst he
    rw [Table.find?_of_mem hm] at hfit
    rw [Table.find?_update_self, Table.find?_of_mem hm]
    simp only [hid, decide_true, cond_true]
    exact hfit.retry (m.sameIdentity_retried now) rfl rfl hphase hrole howner hattempt
  · have hskip : decide (task.assistantMessageId = id) = false :=
      decide_eq_false fun hsame => he (hsame.symm.trans hid)
    rw [Table.find?_update_ne _ he, hskip]
    simpa using hfit

/-- Reserving a pair keeps the turns fitting. -/
theorem reserve (h : RoutesFit service) {user assistant : MagiMessage} {owner client : String}
    (hpair : ReservedPair service.shared.messages owner client user assistant)
    (howner : task.ownerUserId = owner) (hid : assistant.id = task.assistantMessageId)
    (hattempt : task.attempt = 1)
    (hmessages : chat'.messages =
      (service.shared.messages.insertOrIgnore user).insertOrIgnore assistant)
    (hroutes : chat'.turnRoutes = service.shared.turnRoutes) :
    RoutesFit ((service.write chat').spawn task) := by
  have hfree := hpair.insertAssistant.freeId
  rw [Table.find?_insertOrIgnore, Option.or_eq_none_iff] at hfree
  obtain ⟨hfree, hapart⟩ := hfree
  have hne : user.id ≠ assistant.id := fun he => by simp [he] at hapart
  intro id
  have hfit := h id
  simp only [Pool.spawn, Pool.write, hmessages, hroutes, List.filter_append, List.filter_singleton,
    Table.find?_insertOrIgnore]
  by_cases he : assistant.id = id
  · subst he
    rw [hfree] at hfit ⊢
    simp only [hne, hid.symm, if_true, if_false, decide_true, cond_true, Option.or_self,
      Option.none_or]
    refine hfit.opened fun t ht => ?_
    obtain rfl := List.mem_singleton.mp ht
    exact ⟨hpair.assistantRole, hpair.assistantOwner.trans howner.symm,
      hattempt.trans hpair.attempt.symm⟩
  · have hskip : decide (task.assistantMessageId = id) = false :=
      decide_eq_false fun hsame => he (hid.trans hsame)
    simp only [he, hskip, if_false, Option.or_none, cond_false]
    by_cases hu : user.id = id
    · subst hu
      rw [hpair.insertUser.freeId] at hfit ⊢
      simpa using hfit.opened (m := user) (fun t (ht : t ∈ ([] : List TurnTask)) =>
        absurd ht (by simp))
    · simpa [hu] using hfit

/-- Submitting keeps the turns fitting. -/
theorem submit (h : RoutesFit service) (owner clientMessageId content : String)
    (conversationId : Option String) (source : String)
    (attachments : Except ChatFailure (List AttachmentRecord)) (wantsRetry : Bool)
    (fresh : FreshIds) (now : ℤ) (category : RouteCategory)
    (allowTools explicitConfirmation : Bool) :
    RoutesFit (MagiChatService.submit owner clientMessageId content conversationId source
      attachments wantsRetry fresh now category allowTools explicitConfirmation service) := by
  unfold MagiChatService.submit
  split
  · exact h
  · next prepared chat' hprepare =>
    obtain ⟨hroutes, ⟨hunclaimed, hmessages⟩ | ⟨hclaimed, m, hm, hrole, howner, -, hid, hattempt,
      hmessages⟩ | ⟨hclaimed, hattempt, user, assistant, hpair, hid, hmessages⟩⟩ :=
      prepareSubmission_writes hprepare
    · rw [if_neg (by simp [hunclaimed])]
      exact h.write fun id => .inl
        ⟨congrArg (·.find? id) hmessages, congrArg (·.find? id) hroutes⟩
    · rw [if_pos hclaimed]
      exact h.claim hm hrole howner hid hattempt rfl hmessages hroutes
    · rw [if_pos hclaimed]
      exact h.reserve hpair rfl hid hattempt hmessages hroutes

/-- A closed route has the written outcome, unless another owner holds it. -/
theorem closeRoute_cases {chat : Chat} {owner id : String} {outcome : RouteOutcome} {now : ℤ} :
    (∀ other ≠ id, (closeRoute owner id outcome now chat).turnRoutes.find? other =
      chat.turnRoutes.find? other) ∧
    ∀ r ∈ (closeRoute owner id outcome now chat).turnRoutes.find? id,
      ∃ old ∈ chat.turnRoutes.find? id, r.ownerUserId = old.ownerUserId ∧
        (old.ownerUserId = owner → r.outcome = outcome) := by
  refine ⟨fun other hne => ?_, fun r hr => ?_⟩
  · simp only [closeRoute]
    rw [Table.find?_update_ne _ hne]
  · simp only [closeRoute] at hr
    rw [Table.find?_update_self, Option.mem_def, Option.map_eq_some_iff] at hr
    obtain ⟨old, hold, rfl⟩ := hr
    refine ⟨old, hold, ?_, fun howner => ?_⟩
    · split <;> rfl
    · rw [if_pos howner]

/-- Closing a message and its route together keeps the turns fitting. -/
theorem closeBoth (h : RoutesFit service) {m m' : MagiMessage} {status : MessageStatus}
    {outcome : RouteOutcome} {now : ℤ} (found : service.shared.messages.find? m.id = some m)
    (same : m.SameIdentity m') (hattempt : m'.attemptCount = m.attemptCount)
    (hstatus : m'.status = status) (hended : status ≠ .pending)
    (hagrees : status.agrees outcome = true)
    (hmessage : chat'.messages.find? m.id = some m')
    (hother : ∀ id ≠ m.id, chat'.messages.find? id = service.shared.messages.find? id)
    (hroutes : chat'.turnRoutes =
      (closeRoute m.ownerUserId m.id outcome now service.shared).turnRoutes) :
    RoutesFit (service.write chat') := by
  obtain ⟨hkeep, hclosed⟩ := @closeRoute_cases service.shared m.ownerUserId m.id outcome now
  refine h.write fun id => ?_
  by_cases he : id = m.id
  · subst he
    refine .inr fun tasks hfit => ?_
    rw [found] at hfit
    rw [hmessage, hroutes]
    refine hfit.closed same hattempt (hstatus ▸ hended) fun r hr => ?_
    obtain ⟨old, hold, howner, houtcome⟩ := hclosed r hr
    obtain ⟨_, hm, hown⟩ := hfit.routeOwner old hold
    obtain rfl := Option.some.inj hm
    refine ⟨same.ownerUserId.trans (hown.trans howner.symm), ?_⟩
    rw [hstatus, houtcome hown.symm]
    exact hagrees
  · exact .inl ⟨hother id he, by rw [hroutes, hkeep id he]⟩

/-- Cancelling a submission keeps the turns fitting. -/
theorem cancel (h : RoutesFit service) (owner clientMessageId : String) (now : ℤ) :
    RoutesFit (service.write (commit (cancelSubmission owner clientMessageId now service.shared)
      service.shared)) := by
  refine commit_of (P := fun chat => RoutesFit (service.write chat)) h fun chat' hcancel => ?_
  rcases cancelSubmission_cases hcancel with rfl | ⟨m, hm, rfl, -, hmessages, hroutes⟩
  · exact h
  · have hfind := Table.find?_of_mem hm
    refine h.closeBoth hfind
      (m.sameIdentity_closed .cancelled "" none now) rfl rfl (by simp) rfl ?_ (fun id hne => ?_)
      hroutes
    · rw [hmessages, Table.find?_update_self, hfind, Option.map_some]
    · rw [hmessages, Table.find?_update_ne _ hne]

/-- A message that a recovery closes. -/
def Recoverable (chat : Chat) (row : MagiMessage) : Prop :=
  ∃ m, chat.messages.find? row.id = some m ∧ m.ownerUserId = row.ownerUserId ∧
    (m.status = .pending ∨ m.status = .failed)

/-- Recovering one message keeps the turns fitting. -/
theorem recoverOne (h : RoutesFit service) {row : MagiMessage} {now : ℤ}
    (hrow : Recoverable service.shared row)
    (hrecover : recoverMessage now service.shared row = .ok chat') :
    RoutesFit (service.write chat') := by
  obtain ⟨m, hfind, howner, hstatus⟩ := hrow
  obtain ⟨hmessages, hroutes⟩ := recoverMessage_cases hrecover
  obtain ⟨-, hid⟩ := Table.mem_of_find? hfind
  rw [← hid] at hfind hmessages hroutes
  rw [← howner] at hroutes
  have hmessage : chat'.messages.find? m.id = some (m.recovered now) := by
    rw [hmessages, Table.find?_update_self, hfind, Option.map_some]
  have hother : ∀ id ≠ m.id, chat'.messages.find? id = service.shared.messages.find? id := by
    intro id hne
    rw [hmessages, Table.find?_update_ne _ hne]
  rcases hstatus with hstatus | hstatus
  · rw [MagiMessage.recovered, if_pos hstatus] at hmessage
    exact h.closeBoth hfind (m.sameIdentity_closed _ _ _ now) rfl rfl (by simp) rfl hmessage
      hother hroutes
  · rw [MagiMessage.recovered, if_neg (by simp [hstatus])] at hmessage
    exact h.closeBoth hfind (.refl m) rfl hstatus (by simp) rfl hmessage hother hroutes

/-- What a recovery closes is still there after it closed another message. -/
theorem Recoverable.after {chat : Chat} {row other : MagiMessage} {now : ℤ}
    (h : Recoverable chat row) (hrecover : recoverMessage now chat other = .ok chat') :
    Recoverable chat' row := by
  obtain ⟨m, hfind, howner, hstatus⟩ := h
  obtain ⟨hmessages, -⟩ := recoverMessage_cases hrecover
  refine ⟨if row.id = other.id then m.recovered now else m, ?_, ?_, ?_⟩
  · rw [hmessages, Table.find?_update, hfind, Option.map_some]
  · split
    · unfold MagiMessage.recovered
      split <;> exact howner
    · exact howner
  · split
    · unfold MagiMessage.recovered
      split
      · exact .inr rfl
      · exact hstatus
    · exact hstatus

/-- Recovering a list of messages keeps the turns fitting. -/
theorem recoverAll (h : RoutesFit service) {rows : List MagiMessage} {now : ℤ}
    (hrows : ∀ row ∈ rows, Recoverable service.shared row)
    (hrecover : rows.foldlM (recoverMessage now) service.shared = .ok chat') :
    RoutesFit (service.write chat') := by
  induction rows generalizing service with
  | nil =>
    obtain rfl : service.shared = chat' := by simpa [pure, Except.pure] using hrecover
    exact h
  | cons row rows ih =>
    simp only [List.foldlM_cons, bind_eq_ok] at hrecover
    obtain ⟨mid, hone, hrest⟩ := hrecover
    have hmid := h.recoverOne (hrows row List.mem_cons_self) hone
    have hrecovered : RoutesFit ((service.write mid).write chat') := ih hmid
      (fun other hother => (hrows other (List.mem_cons_of_mem row hother)).after hone) hrest
    exact hrecovered

/-- Recovering at startup keeps the turns fitting. -/
theorem recover (h : RoutesFit service) (now : ℤ) :
    RoutesFit (service.write (commit (stateOf (recoverOrphanedPending now service.shared))
      service.shared)) := by
  refine commit_of (P := fun chat => RoutesFit (service.write chat)) h fun chat' hrecover => ?_
  simp only [stateOf_eq_ok, recoverOrphanedPending, bind_eq_ok, pure_eq_ok, Prod.mk.injEq]
    at hrecover
  obtain ⟨_, mid, hrows, -, rfl⟩ := hrecover
  have hmid : RoutesFit (service.write mid) := by
    refine h.recoverAll (fun row hrow => ?_) hrows
    obtain ⟨hrow, hpending⟩ := List.mem_filter.mp hrow
    exact ⟨row, Table.find?_of_mem hrow, rfl, .inl (of_decide_eq_true hpending).2⟩
  refine hmid.write fun id => .inl ⟨?_, ?_⟩
  · exact congrArg (·.find? id) (countEach_same _ now _ _ mid).1
  · exact congrArg (·.find? id) (countEach_same _ now _ _ mid).2

/-- Every step whose route write is current keeps the turns fitting. -/
theorem step (h : RoutesFit service) (op : ServiceStep) (hcurrent : RouteCurrent service op) :
    RoutesFit (serviceStep service op) := by
  cases op with
  | submit owner clientMessageId content conversationId source attachments wantsRetry fresh now
      category allowTools explicitConfirmation =>
    exact h.submit owner clientMessageId content conversationId source attachments wantsRetry fresh
      now category allowTools explicitConfirmation
  | start i now => exact h.start hcurrent
  | complete i content latencyMs toolCalls answer now =>
    exact h.complete i content latencyMs toolCalls answer now
  | raise i errorCode toolCalls => exact h.raise i errorCode toolCalls
  | fail i now => exact h.fail i now
  | close i now => exact h.close hcurrent
  | drop i => exact h.drop hcurrent
  | cancel owner clientMessageId now => exact h.cancel owner clientMessageId now
  | recover now => exact h.recover now

theorem initial : RoutesFit .initial := fun id => ⟨by simp [MagiChatService.initial, Chat.initial],
  by simp [MagiChatService.initial], by simp [MagiChatService.initial],
  by simp [MagiChatService.initial, Chat.initial]⟩

end RoutesFit

instance (service : MagiChatService) (op : ServiceStep) : Decidable (RouteCurrent service op) :=
  match op with
  | .start i _ => inferInstanceAs (Decidable (∀ task ∈ service.workers[i]?,
      task.phase = .claimed → task.finds .pending service.shared = true))
  | .close i _ =>
    have : ∀ task : TurnTask, Decidable (match task.phase with
        | .answered _ _ _ => task.finds .completed service.shared = true
        | .failed _ => task.finds .failed service.shared = true
        | _ => True) := fun task =>
      match task.phase with
      | .answered _ _ _ | .failed _ => inferInstance
      | .claimed | .running | .failing _ _ => .isTrue trivial
    inferInstanceAs (Decidable (∀ task ∈ service.workers[i]?, match task.phase with
      | .answered _ _ _ => task.finds .completed service.shared = true
      | .failed _ => task.finds .failed service.shared = true
      | _ => True))
  | .drop i => inferInstanceAs (Decidable (∀ task ∈ service.workers[i]?,
      task.phase = .failed true → task.finds .failed service.shared = false))
  | .submit .. | .complete .. | .raise .. | .fail .. | .cancel .. | .recover .. => .isTrue trivial

instance (service : MagiChatService) : Decidable (TurnRoutesAgree service) :=
  inferInstanceAs (Decidable (∀ m ∈ service.shared.messages.rows, _ → _))

/-- In every run whose route writes find the message as their writer left it, the route of a
turn that is not between its writes agrees with its message. -/
theorem turn_routes_agree (steps : List ServiceStep)
    (h : RunMeets serviceStep RouteCurrent .initial steps) :
    TurnRoutesAgree (run serviceStep .initial steps) :=
  (run_invariant (fun _ op hfit hcurrent => RoutesFit.step hfit op hcurrent) h
    RoutesFit.initial).agree

/-- A submission of one owner. -/
def submitHello (now : ℤ) : ServiceStep :=
  .submit "owner" "client" "hello" none "text" (.ok []) false
    ⟨"conversation", "turn", "user", "assistant"⟩ now .directConversation false false

/-- A turn that is answered while nobody else touches its message. -/
theorem turn_routes_agree_answered : TurnRoutesAgree (run serviceStep .initial
    [submitHello 1, .start 0 2, .complete 0 "hi" 5 0 .directResponse 3, .close 0 4]) :=
  turn_routes_agree _ (by decide)

/-- A cancellation between a route's first write and its last: the cancelled message has the
route of the answer that was not stored. -/
theorem turn_route_late : ¬TurnRoutesAgree (run serviceStep .initial
    [submitHello 1, .start 0 2, .cancel "owner" "client" 3,
      .complete 0 "hi" 5 0 .directResponse 4, .close 0 5]) := by
  decide

end Magistrate
