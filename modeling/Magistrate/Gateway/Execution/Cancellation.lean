import Magistrate.Gateway.Execution.Ingest
import Magistrate.Core.Pool
import Mathlib.Data.List.Sort

/-!
# Cancellation of objectives

A cancellation is requested in one transaction, and Firstmate is notified of it
in others. Recovery reads the requests whose notification is not delivered and
handles them one by one, with what it read; meanwhile an execution event can
end the objective.
-/

namespace Magistrate

/-- `MAX_CANCELLATION_DELIVERY_ATTEMPTS` -/
def maxCancellationDeliveryAttempts : ℕ := 8

/-- A lower-case hexadecimal digit. -/
def hexDigit (c : Char) : Bool := c.isDigit ∨ 'a' ≤ c ∧ c ≤ 'f'

/-- `_SAFE_OBJECTIVE_ID` -/
def safeObjectiveId (id : String) : Bool :=
  id.toList.take 4 = "mgo_".toList ∧ id.toList.length = 36 ∧ (id.toList.drop 4).all hexDigit

/-- An ASCII letter or digit. -/
def asciiAlphanumeric (c : Char) : Bool := c.isDigit ∨ 'a' ≤ c ∧ c ≤ 'z' ∨ 'A' ≤ c ∧ c ≤ 'Z'

/-- `_SAFE_IDEMPOTENCY` -/
def safeIdempotencyKey (key : String) : Bool :=
  8 ≤ key.toList.length ∧ key.toList.length ≤ 128 ∧ key.toList.head?.any asciiAlphanumeric ∧
    key.toList.all fun c => asciiAlphanumeric c ∨ c ∈ ['.', '_', ':', '-']

/-- A request that a recovery read, with the end of its objective at that time. -/
structure SweptRequest where
  requestId : String
  ownerUserId : String
  objectiveId : String
  terminalPhase : Option ExecutionPhase
  deriving DecidableEq, Repr

namespace CancellationRequest

/-- A failed request that is requested again. -/
abbrev resumed (now : ℤ) (c : CancellationRequest) : CancellationRequest :=
  { c with
    status := .requested
    errorCode := none
    notificationStatus := .failed
    updatedAt := now }

/-- A request whose notification is tried. -/
def notifying (now : ℤ) (c : CancellationRequest) : CancellationRequest :=
  if c.status = .requested then
    { c with
      notificationStatus := .pending
      errorCode := none
      notificationAttemptCount := c.notificationAttemptCount + 1
      updatedAt := now }
  else c

/-- A request whose notification failed. -/
def unnotified (now : ℤ) (c : CancellationRequest) : CancellationRequest :=
  if c.status = .requested then
    { c with
      errorCode := some "intake_unavailable"
      notificationStatus := .failed
      updatedAt := now }
  else c

/-- A request whose notification is delivered. -/
def notified (now : ℤ) (c : CancellationRequest) : CancellationRequest :=
  { c with
    notificationStatus := .delivered
    notifiedAt := some now
    updatedAt := now }

/-- A request of an objective that was over when a recovery read it. -/
def settled (phase : ExecutionPhase) (now : ℤ) (c : CancellationRequest) : CancellationRequest :=
  { c with
    status := if phase = .cancelled then .observed else .failed
    errorCode := if phase = .cancelled then none else some "objective_terminal"
    notificationStatus := .delivered
    updatedAt := now }

/-- A request that a recovery takes up again. -/
def recovered (c : CancellationRequest) : CancellationRequest :=
  if c.status = .failed then
    { c with
      status := .requested
      errorCode := none }
  else c

theorem requestId_notifying (now : ℤ) (c : CancellationRequest) :
    (c.notifying now).requestId = c.requestId := by
  unfold notifying
  split <;> rfl

theorem requestId_unnotified (now : ℤ) (c : CancellationRequest) :
    (c.unnotified now).requestId = c.requestId := by
  unfold unnotified
  split <;> rfl

theorem requestId_recovered (c : CancellationRequest) : c.recovered.requestId = c.requestId := by
  unfold recovered
  split <;> rfl

/-- What a request is of. -/
def target (c : CancellationRequest) : String × String := (c.ownerUserId, c.objectiveId)

end CancellationRequest

namespace ObjectiveCancellationService

/-- The pending request of an objective, which is unique. -/
def activeRequest (owner objectiveId : String) (db : Execution) : Option CancellationRequest :=
  db.cancellations.rows.find? fun c =>
    c.ownerUserId = owner ∧ c.objectiveId = objectiveId ∧ c.status = .requested

/-- The request of an owner under an idempotency key. -/
def existingRequest (owner key : String) (db : Execution) : Option CancellationRequest :=
  db.cancellations.rows.find? fun c => c.ownerUserId = owner ∧ c.idempotencyKey = key

/-- The execution objective that is joined to a submission by its objective or by its task; which
of several is read first is up to the database. -/
def joinedObjective (s : ObjectiveSubmission) (pick : ℕ) (db : Execution) :
    Option ExecutionObjective :=
  let joined := db.objectives.rows.filter fun o =>
    o.ownerUserId = s.ownerUserId ∧ (o.objectiveId = s.objectiveId ∨ o.taskId = s.taskId)
  joined[pick % joined.length]?

/-- The submission of an owner. -/
def ownSubmission (owner objectiveId : String) (db : Execution) : Option ObjectiveSubmission :=
  (db.submissions.find? objectiveId).filter fun s => s.ownerUserId = owner

/-- The task and the terminal phase of the objective that a cancellation targets. -/
def cancellationTarget (owner objectiveId : String) (pick : ℕ) (db : Execution) :
    Option (String × Option ExecutionPhase) :=
  match ownSubmission owner objectiveId db with
  | some s => some (s.taskId, (joinedObjective s pick db).bind (·.terminalPhase))
  | none => (db.objectives.find? (owner, objectiveId)).map fun o => (o.taskId, o.terminalPhase)

/-- The first transaction of `request`: the request, whether it is a duplicate, and whether
Firstmate is to be notified. -/
def request (requestId : String → String → String) (owner actor objectiveId key : String) (now : ℤ)
    (reserved projected : Bool) (pick : ℕ) (db : Execution) :
    Except ExecutionFailure ((CancellationRequest × Bool × Bool) × Execution) := do
  raiseIf (safeObjectiveId objectiveId = false) (.cancellation "invalid_target" 404)
  raiseIf (safeIdempotencyKey key = false) (.cancellation "invalid_idempotency" 422)
  raiseIf (reserved = true ∧ db.objectives.find? (owner, objectiveId) = none)
    (.cancellation "dispatch_unobserved" 409)
  match existingRequest owner key db with
  | some existing =>
    raiseIf (existing.objectiveId ≠ objectiveId) (.cancellation "idempotency_conflict" 409)
    if existing.status = .failed then
      raiseIf (db.terminalPhase owner objectiveId ≠ none) (.cancellation "already_terminal" 409)
      raiseIf (activeRequest owner objectiveId db ≠ none) (.cancellation "request_conflict" 409)
      let cancellations := db.cancellations.update existing.requestId (.resumed now)
      return ((existing.resumed now, true, true), { db with cancellations })
    else
      return ((existing, true,
        existing.status = .requested ∧ existing.notificationStatus = .failed), db)
  | none =>
    match activeRequest owner objectiveId db with
    | some active => return ((active, true, false), db)
    | none =>
      match cancellationTarget owner objectiveId pick db with
      | none => .error (.cancellation "not_found" 404)
      | some (taskId, terminalPhase) =>
        raiseIf (terminalPhase ≠ none) (.cancellation "already_terminal" 409)
        let row : CancellationRequest :=
          { requestId := requestId owner key
            ownerUserId := owner
            objectiveId
            taskId
            actorSessionId := actor
            idempotencyKey := key
            status := .requested
            errorCode := none
            notificationStatus := .pending
            notificationAttemptCount := 0
            notifiedAt := none
            createdAt := now
            updatedAt := now }
        raiseIf (db.cancellations.find? row.requestId ≠ none) (.cancellation "request_conflict" 409)
        raiseIf (projected = false) (.runtimeError "objective_state")
        return ((row, false, true),
          { db with cancellations := db.cancellations.insertOrIgnore row })

/-- The requests that `recover_pending` reads, oldest first. -/
def recoverPending (maximum : ℕ) (cutoff : ℤ) (db : Execution) :
    Except ExecutionFailure (List SweptRequest) := do
  raiseIf (maximum < 1 ∨ 500 < maximum) (.valueError "maximum must be between 1 and 500")
  raiseIf (cutoff < 0) (.valueError "updated_before_ms must be a non-negative integer")
  let undelivered := db.cancellations.rows.filter fun c =>
    (c.notificationStatus = .pending ∨ c.notificationStatus = .failed) ∧
      c.notificationAttemptCount < maxCancellationDeliveryAttempts ∧ c.updatedAt < cutoff
  let ordered := undelivered.insertionSort fun c d =>
    c.createdAt < d.createdAt ∨ c.createdAt = d.createdAt ∧ c.requestId ≤ d.requestId
  return (ordered.take maximum).map fun c =>
    { requestId := c.requestId
      ownerUserId := c.ownerUserId
      objectiveId := c.objectiveId
      terminalPhase := db.terminalPhase c.ownerUserId c.objectiveId }

end ObjectiveCancellationService

/-- Where a request or a recovery is after its first transaction; `rest` is what a recovery has
still to handle. -/
inductive CancellationTask where
  | sweep (rest : List SweptRequest)
  | checked (swept : SweptRequest) (rest : List SweptRequest)
  | notify (requestId : String) (rest : List SweptRequest)
  | delivering (requestId : String) (rest : List SweptRequest)
  deriving DecidableEq, Repr

namespace CancellationTask

open ObjectiveCancellationService

/-- The requests that a task has still to handle. -/
def swept : CancellationTask → List SweptRequest
  | .sweep rest => rest
  | .checked swept rest => swept :: rest
  | .notify _ rest => rest
  | .delivering _ rest => rest

/-- The next transaction of `recover_pending` or `_notify`. -/
def turn (now : ℤ) (reserved delivered : Bool) (task : CancellationTask) (db : Execution) :
    Execution × Option CancellationTask :=
  match task with
  | .sweep [] => (db, none)
  | .sweep (row :: rest) =>
    if reserved = true ∧ db.objectives.find? (row.ownerUserId, row.objectiveId) = none then
      (db, some (.sweep rest))
    else (db, some (.checked row rest))
  | .checked row rest =>
    match row.terminalPhase with
    | some phase =>
      let cancellations := db.cancellations.update row.requestId (.settled phase now)
      ({ db with cancellations }, some (.sweep rest))
    | none =>
      -- The partial unique index on pending requests stops the recovery.
      if (db.cancellations.find? row.requestId).any fun c => c.status = .failed ∧
          (activeRequest c.ownerUserId c.objectiveId db).isSome then (db, none)
      else
        let cancellations := db.cancellations.update row.requestId CancellationRequest.recovered
          CancellationRequest.requestId_recovered
        ({ db with cancellations }, some (.notify row.requestId rest))
  | .notify requestId rest =>
    let cancellations := db.cancellations.update requestId (.notifying now)
      (CancellationRequest.requestId_notifying now)
    let pending := (cancellations.find? requestId).any fun c => c.status = .requested
    ({ db with cancellations },
      some (if pending then .delivering requestId rest else .sweep rest))
  | .delivering requestId rest =>
    let cancellations := if delivered = true then
        db.cancellations.update requestId (.notified now)
      else db.cancellations.update requestId (.unnotified now)
        (CancellationRequest.requestId_unnotified now)
    ({ db with cancellations }, some (.sweep rest))

end CancellationTask

/-- A step of the requests, recoveries and ingests, or a write of others to the tables that they
read. A task can stop at any point. -/
inductive CancellationStep where
  | ingest (owner : String) (event : FirstmateExecutionEvent) (now : ℤ) (projected : Bool)
  | request (owner actor objectiveId key : String) (now : ℤ) (reserved projected : Bool) (pick : ℕ)
  | recover (maximum : ℕ) (cutoff : ℤ)
  | turn (task : ℕ) (now : ℤ) (reserved delivered : Bool)
  | stop (task : ℕ)
  | chat (chat : Chat)
  | submissions (submissions : Table ObjectiveSubmission.objectiveId)

open ObjectiveCancellationService

/-- The tables and the tasks after a step. -/
def cancellationStep (rules : ActivityRules) (requestId : String → String → String)
    (p : Pool Execution CancellationTask) : CancellationStep → Pool Execution CancellationTask
  | .ingest owner event now projected =>
    p.write (commit (stateOf (FirstmateExecutionStore.ingest rules owner event now projected
      p.shared)) p.shared)
  | .request owner actor objectiveId key now reserved projected pick =>
    match request requestId owner actor objectiveId key now reserved projected pick p.shared with
    | .error _ => p
    | .ok ((row, _, notify), db) =>
      if notify = true then (p.write db).spawn (.notify row.requestId []) else p.write db
  | .recover maximum cutoff =>
    match recoverPending maximum cutoff p.shared with
    | .error _ => p
    | .ok rows => p.spawn (.sweep rows)
  | .turn task now reserved delivered => p.turn task (CancellationTask.turn now reserved delivered)
  | .stop task => p.turn task fun _ db => (db, none)
  | .chat chat => p.write { p.shared with chat }
  | .submissions submissions => p.write { p.shared with submissions }

namespace ObjectiveCancellationService

variable {requestId : String → String → String} {owner actor objectiveId key : String} {now : ℤ}
  {reserved projected : Bool} {pick : ℕ} {db db' : Execution}

/-- A request is inserted for an objective that is over: nothing refuses it, and the execution
objective that it reads is another one of the same task, without an end. -/
def misread (requestId : String → String → String) (owner objectiveId key : String)
    (projected : Bool) (pick : ℕ) (db : Execution) : Bool :=
  safeObjectiveId objectiveId ∧ safeIdempotencyKey key ∧ (existingRequest owner key db).isNone ∧
    (db.terminalPhase owner objectiveId).isSome ∧
    ((ownSubmission owner objectiveId db).any fun s =>
      (joinedObjective s pick db).all fun o => o.terminalPhase.isNone) ∧
    (db.cancellations.find? (requestId owner key)).isNone ∧ projected

/-- The request under an idempotency key is stored. -/
theorem existingRequest_eq_some {c : CancellationRequest}
    (h : existingRequest owner key db = some c) :
    c ∈ db.cancellations.rows ∧ c.ownerUserId = owner ∧ c.idempotencyKey = key := by
  unfold existingRequest at h
  have hmatch := List.find?_some h
  exact ⟨List.mem_of_find?_eq_some h, of_decide_eq_true hmatch⟩

/-- A request returns a stored one, takes up a failed one, or is inserted. -/
theorem request_cases {row : CancellationRequest} {duplicate notify : Bool}
    (h : request requestId owner actor objectiveId key now reserved projected pick db =
      .ok ((row, duplicate, notify), db')) :
    db' = db ∨
    (∃ existing, existingRequest owner key db = some existing ∧
      existing.objectiveId = objectiveId ∧ db.terminalPhase owner objectiveId = none ∧
      db' = { db with cancellations := db.cancellations.update existing.requestId (.resumed
        now) }) ∨
    (row.target = (owner, objectiveId) ∧ row.status = .requested ∧
      db.cancellations.find? row.requestId = none ∧
      (db.terminalPhase owner objectiveId ≠ none →
        misread requestId owner objectiveId key projected pick db = true) ∧
      db' = { db with cancellations := db.cancellations.insertOrIgnore row }) := by
  simp only [request, bind_eq_ok, raiseIf_eq_ok, exists_const, Bool.not_eq_false] at h
  obtain ⟨hid, hkey, -, h⟩ := h
  split at h
  · next existing hexisting =>
    simp only [bind_eq_ok, raiseIf_eq_ok, exists_const, not_not] at h
    obtain ⟨hsame, h⟩ := h
    split at h
    · simp only [bind_eq_ok, raiseIf_eq_ok, pure_eq_ok, exists_const, not_not, Prod.mk.injEq] at h
      obtain ⟨hopen, -, -, rfl⟩ := h
      exact .inr (.inl ⟨existing, hexisting, hsame, hopen, rfl⟩)
    · simp only [pure_eq_ok, Prod.mk.injEq] at h
      exact .inl h.2.symm
  · next hnone =>
    split at h
    · simp only [pure_eq_ok, Prod.mk.injEq] at h
      exact .inl h.2.symm
    · split at h
      · exact absurd h (by simp)
      · next taskId terminalPhase htarget =>
        simp only [bind_eq_ok, raiseIf_eq_ok, pure_eq_ok, exists_const, not_not, Prod.mk.injEq,
          Bool.not_eq_false] at h
        obtain ⟨rfl, hfree, hprojected, ⟨rfl, -⟩, rfl⟩ := h
        refine .inr (.inr ⟨rfl, rfl, hfree, fun hended => ?_, rfl⟩)
        unfold cancellationTarget at htarget
        split at htarget
        · next s hs =>
          obtain ⟨-, hjoined⟩ := Prod.mk.inj (Option.some.inj htarget)
          have hall : (joinedObjective s pick db).all fun o => o.terminalPhase.isNone := by
            cases ho : joinedObjective s pick db with
            | none => rfl
            | some o =>
              rw [ho, Option.bind_some] at hjoined
              simp [hjoined]
          exact decide_eq_true ⟨hid, hkey, by simp [hnone], Option.isSome_iff_ne_none.mpr hended,
            by rw [hs]; exact hall, by simp [hfree], hprojected⟩
        · obtain ⟨o, ho, hjoined⟩ := Option.map_eq_some_iff.mp htarget
          rw [Execution.terminalPhase, ho, Option.bind_some] at hended
          exact absurd (Prod.mk.inj hjoined).2 hended

end ObjectiveCancellationService

/-- The status that a request has under an end of its objective. -/
def CancellationStatus.Agrees (status : CancellationStatus) : Option ExecutionPhase → Prop
  | none => status ≠ .observed
  | some phase => status = if phase = .cancelled then .observed else .failed

/-- What later tables keep of earlier ones: ends of objectives, and what requests are of. -/
structure Execution.Later (db db' : Execution) : Prop where
  ended : ∀ owner id phase, db.terminalPhase owner id = some phase →
    db'.terminalPhase owner id = some phase
  requests : ∀ id c, db.cancellations.find? id = some c →
    ∃ c', db'.cancellations.find? id = some c' ∧ c'.target = c.target

/-- The tables are later than themselves. -/
theorem Execution.Later.refl (db : Execution) : db.Later db :=
  ⟨fun _ _ _ h => h, fun _ c h => ⟨c, h, rfl⟩⟩

/-- The requests agree with the ends of their objectives. -/
structure CancellationsAgree (rules : ActivityRules) (db : Execution) : Prop where
  streams : EventStreams rules db
  agree : ∀ c ∈ db.cancellations.rows,
    c.status.Agrees (db.terminalPhase c.ownerUserId c.objectiveId)

namespace CancellationsAgree

open FirstmateExecutionStore

variable {rules : ActivityRules} {db db' : Execution} {owner : String}
  {event : FirstmateExecutionEvent} {now : ℤ} {projected : Bool}

theorem initial : CancellationsAgree rules .initial :=
  ⟨.initial, fun _ hc => by simp [Execution.initial] at hc⟩

/-- Requests that are changed one by one, each to agree with the end of its objective. -/
theorem change {g : String → CancellationRequest → CancellationRequest}
    (hstreams : EventStreams rules db')
    (hended : ∀ owner id phase, db.terminalPhase owner id = some phase →
      db'.terminalPhase owner id = some phase)
    (hfind : ∀ id, db'.cancellations.find? id = (db.cancellations.find? id).map (g id))
    (htarget : ∀ id c, (g id c).target = c.target)
    (hagree : ∀ id c, db.cancellations.find? id = some c →
      (g id c).status.Agrees (db'.terminalPhase c.ownerUserId c.objectiveId)) :
    CancellationsAgree rules db' ∧ db.Later db' := by
  refine ⟨⟨hstreams, fun c' hc' => ?_⟩, hended, fun id c hc => ⟨g id c, ?_, htarget id c⟩⟩
  · have hfound := Table.find?_of_mem hc'
    rw [hfind] at hfound
    obtain ⟨c, hc, hchanged⟩ := Option.map_eq_some_iff.mp hfound
    have hthis := hagree _ c hc
    obtain ⟨howner, hid⟩ := Prod.mk.inj (htarget c'.requestId c)
    rw [hchanged] at hthis howner hid
    rwa [howner, hid]
  · rw [hfind, hc, Option.map_some]

/-- One request is changed to agree with the end of its objective. -/
theorem update (h : CancellationsAgree rules db) (id : String)
    (f : CancellationRequest → CancellationRequest) (hf : ∀ c, (f c).requestId = c.requestId)
    (htarget : ∀ c, (f c).target = c.target)
    (hagree : ∀ c, db.cancellations.find? id = some c →
      (f c).status.Agrees (db.terminalPhase c.ownerUserId c.objectiveId)) :
    CancellationsAgree rules { db with cancellations := db.cancellations.update id f hf } ∧
      db.Later { db with cancellations := db.cancellations.update id f hf } := by
  refine change (g := fun l c => if l = id then f c else c) (h.streams.congr rfl rfl)
    (fun _ _ _ hended => hended) (fun l => by rw [Table.find?_update]) (fun l c => ?_)
    fun l c hc => ?_
  · split
    · exact htarget c
    · rfl
  · split
    · next hl => exact hagree c (hl ▸ hc)
    · exact h.agree c (Table.mem_of_find? hc).1

/-- An update that keeps the status of a request. -/
theorem update_kept (h : CancellationsAgree rules db) (id : String)
    (f : CancellationRequest → CancellationRequest) (hf : ∀ c, (f c).requestId = c.requestId)
    (htarget : ∀ c, (f c).target = c.target) (hstatus : ∀ c, (f c).status = c.status) :
    CancellationsAgree rules { db with cancellations := db.cancellations.update id f hf } ∧
      db.Later { db with cancellations := db.cancellations.update id f hf } := by
  refine h.update id f hf htarget fun c hc => ?_
  rw [hstatus]
  exact h.agree c (Table.mem_of_find? hc).1

/-- The requests that the end of an objective closes. -/
theorem find?_closeCancellations (objectiveId : String) (phase : ExecutionPhase)
    (t : Table CancellationRequest.requestId) (id : String) :
    (closeCancellations owner objectiveId phase now t).find? id = (t.find? id).map fun c =>
      if c.target = (owner, objectiveId) ∧
          (c.status = .requested ∨ c.status = .failed ∧ phase = .cancelled) then
        c.settled phase now
      else c := by
  unfold closeCancellations
  split
  · next hphase =>
    rw [Table.find?_updateWhere]
    congr 1
    funext c
    simp [CancellationRequest.target, CancellationRequest.settled, hphase, and_assoc]
  · next hphase =>
    rw [Table.find?_updateWhere]
    congr 1
    funext c
    simp [CancellationRequest.target, CancellationRequest.settled, hphase, and_assoc]

/-- An ingest keeps the agreement: a terminal event closes the requests of its objective. -/
theorem ingest (h : CancellationsAgree rules db) {stored : ExecutionEvent} {duplicate : Bool}
    (hingest : FirstmateExecutionStore.ingest rules owner event now projected db =
      .ok ((stored, duplicate), db')) : CancellationsAgree rules db' ∧ db.Later db' := by
  rcases ingest_stored hingest with ⟨-, -, rfl⟩ | ⟨objective, objectives, hstored⟩
  · exact ⟨h, .refl db'⟩
  have hopen := h.streams.open_of_stored hstored
  have hended := EventStreams.terminalPhase_stored hstored
  refine change (g := fun _ c =>
      if event.phase.terminal = true ∧ c.target = (owner, event.objectiveId) ∧
          (c.status = .requested ∨ c.status = .failed ∧ event.phase = .cancelled) then
        c.settled event.phase now
      else c)
    (h.streams.store (ingest_cases hingest).1 hstored) (fun o id phase hphase => ?_) (fun id => ?_)
    (fun id c => ?_) fun id c hc => ?_
  · rw [hended, if_neg, hphase]
    rintro ⟨-, hthis⟩
    obtain ⟨rfl, rfl⟩ := Prod.mk.inj hthis
    exact absurd (hopen.symm.trans hphase) (by simp)
  · rw [hstored.cancellations]
    split
    · next hterminal => simp only [find?_closeCancellations, hterminal, true_and]
    · next hterminal => simp [hterminal]
  · split <;> rfl
  · have hold := h.agree c (Table.mem_of_find? hc).1
    rw [hended]
    by_cases hthis : event.phase.terminal = true ∧
        (c.ownerUserId, c.objectiveId) = (owner, event.objectiveId)
    · obtain ⟨howner, hid⟩ := Prod.mk.inj hthis.2
      rw [howner, hid, hopen] at hold
      rw [if_pos hthis]
      split
      · rfl
      · next hkept =>
        -- A request that stays open is a failed one, of an objective that was not cancelled.
        cases hstatus : c.status with
        | requested => exact absurd ⟨hthis.1, hthis.2, .inl hstatus⟩ hkept
        | observed => exact absurd hstatus hold
        | failed =>
          have hphase : event.phase ≠ .cancelled := fun hphase =>
            hkept ⟨hthis.1, hthis.2, .inr ⟨hstatus, hphase⟩⟩
          exact (if_neg hphase).symm
    · rw [if_neg hthis, if_neg fun hclosed => hthis ⟨hclosed.1, hclosed.2.1⟩]
      exact hold

/-- A request keeps the agreement, unless it is for an objective that is over. -/
theorem request (h : CancellationsAgree rules db) {requestId : String → String → String}
    {actor objectiveId key : String} {reserved : Bool} {pick : ℕ} {row : CancellationRequest}
    {duplicate notify : Bool}
    (hcurrent : ¬misread requestId owner objectiveId key projected pick db = true)
    (hrequest : ObjectiveCancellationService.request requestId owner actor objectiveId key now
      reserved projected pick db = .ok ((row, duplicate, notify), db')) :
    CancellationsAgree rules db' ∧ db.Later db' := by
  rcases request_cases hrequest with
    rfl | ⟨existing, hexisting, hsame, hopen, rfl⟩ | ⟨htarget, hstatus, hfree, hmisread, rfl⟩
  · exact ⟨h, .refl db'⟩
  · refine h.update _ (.resumed now) (fun _ => rfl) (fun _ => rfl) fun c hc => ?_
    obtain ⟨hmem, howner, -⟩ := existingRequest_eq_some hexisting
    obtain rfl : existing = c := Table.eq_of_mem hmem (Table.mem_of_find? hc).1
      (Table.mem_of_find? hc).2.symm
    rw [howner, hsame, hopen]
    simp [CancellationStatus.Agrees]
  · have hopen : db.terminalPhase owner objectiveId = none :=
      not_not.mp fun hended => hcurrent (hmisread hended)
    refine ⟨⟨h.streams.congr rfl rfl, fun c hc => ?_⟩, fun _ _ _ hended => hended,
      fun id c hc => ⟨c, ?_, rfl⟩⟩
    · rcases Table.mem_insertOrIgnore hc with hc | ⟨-, rfl⟩
      · exact h.agree c hc
      · obtain ⟨howner, hid⟩ := Prod.mk.inj htarget
        rw [howner, hid, hstatus]
        exact hopen ▸ (by simp [CancellationStatus.Agrees])
    · simp only
      rw [Table.find?_insertOrIgnore, hc, Option.some_or]

end CancellationsAgree

/-- What a recovery read of a request still holds. -/
structure SweptRequest.Current (db : Execution) (row : SweptRequest) : Prop where
  ended : ∀ phase, row.terminalPhase = some phase →
    db.terminalPhase row.ownerUserId row.objectiveId = some phase
  target : ∃ c, db.cancellations.find? row.requestId = some c ∧
    c.target = (row.ownerUserId, row.objectiveId)

/-- What was read holds of later tables. -/
theorem SweptRequest.Current.later {db db' : Execution} {row : SweptRequest} (h : row.Current db)
    (hlater : db.Later db') : row.Current db' := by
  obtain ⟨c, hc, htarget⟩ := h.target
  obtain ⟨c', hc', htarget'⟩ := hlater.requests _ c hc
  exact ⟨fun phase hphase => hlater.ended _ _ _ (h.ended phase hphase), c', hc',
    htarget'.trans htarget⟩

namespace CancellationTask

variable {rules : ActivityRules} {db : Execution}

/-- The next transaction handles a request as open whose objective completed or failed since it was
read. -/
def stale (db : Execution) : CancellationTask → Bool
  | .checked row _ => row.terminalPhase = none ∧
      (db.terminalPhase row.ownerUserId row.objectiveId).any (· ≠ .cancelled)
  | _ => false

/-- A transaction of a task that is not stale keeps the agreement. -/
theorem turn_agree (h : CancellationsAgree rules db) (now : ℤ) (reserved delivered : Bool)
    {task : CancellationTask} (hswept : ∀ row ∈ task.swept, row.Current db)
    (hcurrent : ¬task.stale db = true) :
    CancellationsAgree rules (task.turn now reserved delivered db).1 ∧
      db.Later (task.turn now reserved delivered db).1 ∧
      ∀ next, (task.turn now reserved delivered db).2 = some next →
        ∀ row ∈ next.swept, row ∈ task.swept := by
  cases task with
  | sweep rest =>
    cases rest with
    | nil => exact ⟨h, .refl db, by simp [turn]⟩
    | cons row rest =>
      simp only [turn]
      split <;> exact ⟨h, .refl db, by simp +contextual [swept, eq_comm]⟩
  | checked row rest =>
    obtain ⟨hended, c, hc, htarget⟩ := hswept row List.mem_cons_self
    obtain ⟨howner, hid⟩ := Prod.mk.inj htarget
    simp only [turn]
    split
    · next phase hphase =>
      obtain ⟨hagree, hlater⟩ := h.update row.requestId (.settled phase now)
        (fun _ => rfl) (fun _ => rfl) fun d hd => by
          obtain rfl := Option.some.inj (hc.symm.trans hd)
          rw [howner, hid, hended phase hphase]
          rfl
      exact ⟨hagree, hlater, by simp +contextual [swept, eq_comm]⟩
    · next hphase =>
      split
      · exact ⟨h, .refl db, by simp⟩
      · obtain ⟨hagree, hlater⟩ := h.update row.requestId .recovered
          CancellationRequest.requestId_recovered
          (fun d => by unfold CancellationRequest.recovered; split <;> rfl) fun d hd => by
            obtain rfl := Option.some.inj (hc.symm.trans hd)
            have hold := h.agree c (Table.mem_of_find? hc).1
            rw [howner, hid] at hold ⊢
            cases hnow : db.terminalPhase row.ownerUserId row.objectiveId with
            | none =>
              rw [hnow] at hold
              unfold CancellationRequest.recovered
              split
              · simp [CancellationStatus.Agrees]
              · exact hold
            | some phase =>
              -- Only a cancellation can have come between, and its requests are observed.
              have hcancelled : phase = .cancelled := not_not.mp fun hother =>
                hcurrent (decide_eq_true ⟨hphase, by simp [hnow, hother]⟩)
              rw [hnow, hcancelled] at hold
              rw [hcancelled, CancellationRequest.recovered, if_neg (by rw [hold]; simp)]
              exact hold
        exact ⟨hagree, hlater, by simp +contextual [swept, eq_comm]⟩
  | notify id rest =>
    obtain ⟨hagree, hlater⟩ := h.update_kept id (.notifying now)
      (CancellationRequest.requestId_notifying now)
      (fun c => by unfold CancellationRequest.notifying; split <;> rfl)
      (fun c => by unfold CancellationRequest.notifying; split <;> rfl)
    refine ⟨hagree, hlater, fun next hnext row hrow => ?_⟩
    simp only [turn, Option.some.injEq] at hnext
    subst hnext
    split at hrow <;> exact hrow
  | delivering id rest =>
    cases delivered with
    | true =>
      obtain ⟨hagree, hlater⟩ := h.update_kept id (.notified now) (fun _ => rfl)
        (fun _ => rfl) fun _ => rfl
      exact ⟨hagree, hlater, by simp +contextual [turn, swept, eq_comm]⟩
    | false =>
      obtain ⟨hagree, hlater⟩ := h.update_kept id (.unnotified now)
        (CancellationRequest.requestId_unnotified now)
        (fun c => by unfold CancellationRequest.unnotified; split <;> rfl)
        (fun c => by unfold CancellationRequest.unnotified; split <;> rfl)
      exact ⟨hagree, hlater, by simp +contextual [turn, swept, eq_comm]⟩

end CancellationTask

/-- The requests agree with the ends of their objectives, and what recoveries read still holds. -/
structure CancellationInvariant (rules : ActivityRules) (p : Pool Execution CancellationTask) :
    Prop where
  agree : CancellationsAgree rules p.shared
  swept : ∀ task ∈ p.workers, ∀ row ∈ task.swept, row.Current p.shared

/-- No request is inserted for an objective that is over, and no recovery takes up a request whose
objective completed or failed since it was read. -/
def CancellationStep.Current (requestId : String → String → String)
    (p : Pool Execution CancellationTask) : CancellationStep → Prop
  | .request owner _ objectiveId key _ _ projected pick =>
    ¬misread requestId owner objectiveId key projected pick p.shared = true
  | .turn task .. => (p.workers[task]?).any (·.stale p.shared) = false
  | _ => True

instance (requestId : String → String → String) (p : Pool Execution CancellationTask)
    (op : CancellationStep) : Decidable (op.Current requestId p) := by
  unfold CancellationStep.Current
  split <;> infer_instance

namespace CancellationInvariant

variable {rules : ActivityRules} {requestId : String → String → String}
  {p : Pool Execution CancellationTask}

theorem initial : CancellationInvariant rules ⟨.initial, []⟩ :=
  ⟨.initial, fun _ htask => by simp at htask⟩

/-- Later tables that agree keep the invariant. -/
theorem write (h : CancellationInvariant rules p) {db : Execution}
    (hdb : CancellationsAgree rules db ∧ p.shared.Later db) :
    CancellationInvariant rules (p.write db) :=
  ⟨hdb.1, fun task htask row hrow => (h.swept task htask row hrow).later hdb.2⟩

/-- A started task keeps the invariant. -/
theorem spawn (h : CancellationInvariant rules p) {task : CancellationTask}
    (htask : ∀ row ∈ task.swept, row.Current p.shared) :
    CancellationInvariant rules (p.spawn task) := by
  refine ⟨h.agree, fun t ht => ?_⟩
  rcases List.mem_append.mp ht with ht | ht
  · exact h.swept t ht
  · rw [List.mem_singleton.mp ht]
    exact htask

/-- Writes of others keep the invariant. -/
theorem others (h : CancellationInvariant rules p) {db : Execution}
    (hevents : db.events = p.shared.events) (hobjectives : db.objectives = p.shared.objectives)
    (hcancellations : db.cancellations = p.shared.cancellations) :
    CancellationInvariant rules (p.write db) := by
  have hsame : ∀ owner id, db.terminalPhase owner id = p.shared.terminalPhase owner id :=
    fun owner id => by rw [Execution.terminalPhase, hobjectives, Execution.terminalPhase]
  refine h.write ⟨⟨h.agree.streams.congr hevents hobjectives, fun c hc => ?_⟩,
    fun owner id phase hended => (hsame owner id).trans hended, fun id c hc => ⟨c, ?_, rfl⟩⟩
  · rw [hsame]
    exact h.agree.agree c (hcancellations ▸ hc)
  · rw [hcancellations, hc]

/-- What a recovery reads is current. -/
theorem recovered_current {maximum : ℕ} {cutoff : ℤ} {rows : List SweptRequest} {db : Execution}
    (h : recoverPending maximum cutoff db = .ok rows) : ∀ row ∈ rows, row.Current db := by
  simp only [recoverPending, bind_eq_ok, raiseIf_eq_ok, pure_eq_ok, exists_const] at h
  obtain ⟨-, -, rfl⟩ := h
  intro row hrow
  obtain ⟨c, hc, rfl⟩ := List.mem_map.mp hrow
  have hmem := (List.mem_insertionSort _).mp (List.mem_of_mem_take hc)
  exact ⟨fun _ hphase => hphase, c, Table.find?_of_mem (List.mem_filter.mp hmem).1, rfl⟩

/-- A current step keeps the invariant. -/
theorem step (h : CancellationInvariant rules p) (op : CancellationStep)
    (hcurrent : op.Current requestId p) :
    CancellationInvariant rules (cancellationStep rules requestId p op) := by
  cases op with
  | ingest owner event now projected =>
    refine h.write (commit_of (P := fun db => CancellationsAgree rules db ∧ p.shared.Later db)
      ⟨h.agree, .refl _⟩ fun db' hok => ?_)
    obtain ⟨⟨stored, duplicate⟩, hingest⟩ := stateOf_eq_ok.mp hok
    exact h.agree.ingest hingest
  | request owner actor objectiveId key now reserved projected pick =>
    simp only [cancellationStep]
    split
    · exact h
    · next row duplicate notify db hrequest =>
      have hnext := h.write (h.agree.request hcurrent hrequest)
      split
      · exact hnext.spawn fun row hrow => by simp [CancellationTask.swept] at hrow
      · exact hnext
  | recover maximum cutoff =>
    simp only [cancellationStep]
    split
    · exact h
    · next rows hrows => exact h.spawn (recovered_current hrows)
  | turn i now reserved delivered =>
    rcases p.turn_cases i (CancellationTask.turn now reserved delivered) with
      hsame | ⟨before, task, after, hworkers, htask, hturn⟩
    · rw [cancellationStep, hsame]
      exact h
    · have hstale : ¬task.stale p.shared = true := by
        simpa [CancellationStep.Current, htask] using hcurrent
      obtain ⟨hagree, hlater, hrest⟩ := CancellationTask.turn_agree h.agree now reserved delivered
        (h.swept task (by simp [hworkers])) hstale
      rw [cancellationStep, hturn]
      refine ⟨hagree, fun t ht row hrow => ?_⟩
      rcases List.mem_append.mp ht with ht | ht
      · rcases List.mem_append.mp ht with ht | ht
        · exact (h.swept t (by simp [hworkers, ht]) row hrow).later hlater
        · have hmem := hrest t (Option.mem_toList.mp ht) row hrow
          exact (h.swept task (by simp [hworkers]) row hmem).later hlater
      · exact (h.swept t (by simp [hworkers, ht]) row hrow).later hlater
  | stop i =>
    rcases p.turn_cases i fun _ db => (db, none)
      with hsame | ⟨before, task, after, hworkers, -, hturn⟩
    · rw [cancellationStep, hsame]
      exact h
    · rw [cancellationStep, hturn]
      refine ⟨h.agree, fun t ht => h.swept t ?_⟩
      rw [hworkers]
      rcases List.mem_append.mp ht with ht | ht
      · exact List.mem_append_left _ (by simpa using ht)
      · exact List.mem_append_right _ (List.mem_cons_of_mem _ ht)
  | chat chat => exact h.others rfl rfl rfl
  | submissions submissions => exact h.others rfl rfl rfl

end CancellationInvariant

/-- Cancellation agrees with the outcome. In every run in which no request is inserted for an
objective that is over, and no recovery takes up a request as open whose objective completed or
failed since it was read, an objective that is over has no pending cancellation request, and its
requests are observed exactly when it was cancelled. -/
theorem cancellation_agrees_with_outcome (rules : ActivityRules)
    (requestId : String → String → String) (steps : List CancellationStep)
    (hcurrent : RunMeets (cancellationStep rules requestId)
      (fun p op => op.Current requestId p) ⟨.initial, []⟩ steps) :
    let db := (run (cancellationStep rules requestId) ⟨.initial, []⟩ steps).shared
    ∀ c ∈ db.cancellations.rows, ∀ phase,
      db.terminalPhase c.ownerUserId c.objectiveId = some phase →
        c.status ≠ .requested ∧ (c.status = .observed ↔ phase = .cancelled) := by
  intro db c hc phase hphase
  have hinvariant : CancellationInvariant rules
      (run (cancellationStep rules requestId) ⟨.initial, []⟩ steps) :=
    run_invariant (fun _ op h hop => h.step op hop) hcurrent .initial
  have hagree := hinvariant.agree.agree c hc
  rw [hphase] at hagree
  simp only [CancellationStatus.Agrees] at hagree
  rw [hagree]
  by_cases hcancelled : phase = .cancelled <;> simp [hcancelled]

/-- A cancellation is requested for an accepted objective and notified, and a recovery reads it. -/
def sweptRun : List CancellationStep :=
  [.chat originChat, .ingest "owner" acceptedEvent 1 true,
    .request "owner" "session" acceptedEvent.objectiveId "cancel-key" 2 false true 0,
    .recover 100 3]

/-- The recovery handles the request after the objective was cancelled. -/
theorem cancellation_agrees_with_outcome_cancelled :
    let steps := sweptRun ++ [.ingest "owner" (objectiveEvent "ended" (.cancelled none)) 3 true,
      .turn 1 4 false true, .turn 1 5 false true]
    let db := (run (cancellationStep plainRules fun owner key => owner ++ key) ⟨.initial, []⟩
      steps).shared
    db.cancellations.rows.map (·.status) = [.observed] ∧
      ∀ c ∈ db.cancellations.rows, ∀ phase,
        db.terminalPhase c.ownerUserId c.objectiveId = some phase →
          c.status ≠ .requested ∧ (c.status = .observed ↔ phase = .cancelled) :=
  ⟨by decide, cancellation_agrees_with_outcome _ _ _ (by decide)⟩

/-- The objective completes between the recovery's read and its update, and the request is pending
again. -/
theorem cancellation_requested_after_completion :
    ¬∀ (rules : ActivityRules) (requestId : String → String → String)
      (steps : List CancellationStep),
      let db := (run (cancellationStep rules requestId) ⟨.initial, []⟩ steps).shared
      ∀ c ∈ db.cancellations.rows, ∀ phase,
        db.terminalPhase c.ownerUserId c.objectiveId = some phase →
          c.status ≠ .requested ∧ (c.status = .observed ↔ phase = .cancelled) := by
  intro hall
  have hrun := hall plainRules (fun owner key => owner ++ key) (sweptRun ++
    [.ingest "owner" completedEvent 3 true, .turn 1 4 false true, .turn 1 5 false true])
  revert hrun
  decide

end Magistrate
