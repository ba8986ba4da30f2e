import Mathlib
import Magistrate.Core.Pool
import Magistrate.Frontend.Chat.Records

/-!
# The realtime client

A client that is connected opens a socket, and opens another one when that is
closed. It hears from the session, from open attempts, sockets and a timer, one
at a time and in any order.
-/

namespace Magistrate.Frontend

/-- The handlers of a client. -/
inductive Handler where
  | onMagiMessages
  | onActivity
  | onOpen
  | onClose
  | onError
  deriving DecidableEq, Repr

/-- A call of a handler for a socket or an open attempt of a lifecycle, and the lifecycle of the
client when it is called. An error that the client words itself is kept with its text. -/
structure HandlerCall where
  handler : Handler
  epoch : ℕ
  lifecycle : ℕ
  message : Option String
  deriving DecidableEq, Repr

/-- What a handler does with what it is given. -/
inductive HandlerAnswer where
  | accepted
  | rejected
  | raised
  deriving DecidableEq, Repr

/-- The ready state of a socket. -/
inductive ReadyState where
  | connecting
  | opened
  | closing
  | closed
  deriving DecidableEq, Repr

/-- A socket that is neither closed nor asked to close. -/
def ReadyState.live : ReadyState → Bool
  | connecting | opened => true
  | closing | closed => false

/-- A socket, with what its callbacks captured and the authentication that was sent. -/
structure EventSocket where
  epoch : ℕ
  token : String
  authenticated : Bool
  readyState : ReadyState
  sent : Option (String × ℤ)
  deriving DecidableEq, Repr

/-- `RealtimeClient`, the session that it reads, the sockets in the order in which they were made,
and the calls of its handlers. The timer is kept as the lifecycle that it was armed in. -/
structure RealtimeState where
  socket : Option ℕ
  stopped : Bool
  reconnectTimer : Option ℕ
  reconnectMs : ℕ
  connectedOnce : Bool
  activityAfter : ℤ
  lifecycle : ℕ
  openingEpoch : Option ℕ
  protectedSessionRevision : Option ℕ
  sessionRevision : ℕ
  sessionToken : Option String
  sockets : List EventSocket
  calls : List HandlerCall
  deriving DecidableEq

/-- An open attempt that waits for a token. -/
structure OpenAttempt where
  epoch : ℕ
  sessionRevision : Option ℕ
  deriving DecidableEq, Repr

/-- What an open attempt gets: no token, an exception, or a token with which a socket is made unless
that raises. -/
inductive OpenResult where
  | absent
  | raised
  | token (value : String) (constructs : Bool)
  deriving DecidableEq, Repr

/-- `MAGI_EVENT_KEYS` -/
def magiEventKeys : List String :=
  ["type", "schema_version", "payload_schema_version", "conversation_id", "messages"]

/-- `ACTIVITY_EVENT_KEYS` -/
def activityEventKeys : List String :=
  ["type", "schema_version", "payload_schema_version", "records", "next_cursor", "latest_cursor",
    "has_more", "summary"]

/-- What is not modelled: whether an activity record is canonical, and whether the platform closes a
socket with the code 1008. React Native does; a browser raises, and leaves the socket as it is. -/
structure RealtimeRules where
  canonicalActivity : Json → Bool
  closesForPolicy : Bool

/-- `validActivitySummary` -/
def validActivitySummary (raw : Json) : Bool :=
  let names := ["active_objectives", "operation_count", "pending_decisions"]
  raw.namesAre names && names.all fun name => (safeInteger? (raw.get name)).any (0 ≤ ·)

/-- The data of an event: too long, no JSON, or a value. -/
inductive EventData where
  | oversized
  | malformed
  | value (payload : Json)

/-- What an event is to a client. -/
inductive EventVerdict where
  | reject (message : String)
  | raise
  | acknowledged
  | magi
  | activity (cursor : ℤ)
  deriving DecidableEq, Repr

/-- The checks of a `magi_messages` event. -/
def validMagiEvent (payload : Json) : Bool :=
  payload.namesAre magiEventKeys &&
    decide ((payload.get "payload_schema_version").str? = some "magi.native-chat.v1") &&
    (payload.get "conversation_id").str?.any fun conversationId =>
      conversationId.toList.take 4 = "mgc_".toList &&
        (conversationId.toList.drop 4).all isIdChar &&
        decide (8 ≤ conversationId.length ∧ conversationId.length ≤ 128) &&
        match payload.get "messages" with
        | .arr items =>
          let messages := normalizeMagiMessageRecords (.arr items)
          decide (messages.length = items.length) &&
            messages.all fun message => message.conversationId = conversationId
        | _ => false

/-- At most 200 canonical activity records. -/
def validActivityRecords (rules : RealtimeRules) : Json → Bool
  | .arr records => decide (records.length ≤ 200) && records.all rules.canonicalActivity
  | _ => false

/-- The cursor of a valid `activity_records` event. -/
def activityCursor? (rules : RealtimeRules) (activityAfter : ℤ) (payload : Json) : Option ℤ := do
  guard (payload.namesAre activityEventKeys ∧
    (payload.get "payload_schema_version").str? = some "activity.v1")
  let cursor ← safeInteger? (payload.get "next_cursor")
  let latest ← safeInteger? (payload.get "latest_cursor")
  guard (cursor ≤ latest ∧ activityAfter ≤ cursor)
  guard (validActivityRecords rules (payload.get "records"))
  guard ((payload.get "has_more").bool?.isSome ∧ validActivitySummary (payload.get "summary"))
  return cursor

/-- What an event is to a client that it reaches. -/
def readEvent (rules : RealtimeRules) (authenticated : Bool) (activityAfter : ℤ) :
    EventData → EventVerdict
  | .oversized => .reject "Gateway event exceeded the bounded client contract."
  | .malformed => .raise
  | .value payload =>
    let type := (payload.get "type").str?
    let schema := (payload.get "schema_version").str?
    if payload.isObj = false then .reject "Gateway returned an invalid event payload."
    else if authenticated = false then
      if payload.namesAre ["type", "schema_version"] ∧ type = some "connected" ∧
          schema = some "magistrate.events.v2" then .acknowledged
      else .reject "Gateway returned an invalid event acknowledgement."
    else if schema ≠ some "magistrate.events.v2" then
      .reject "Gateway returned an unsupported event schema."
    else if type = some "magi_messages" then
      if validMagiEvent payload then .magi else .reject "Gateway returned an invalid Magi event."
    else if type = some "activity_records" then
      match activityCursor? rules activityAfter payload with
      | some cursor => .activity cursor
      | none => .reject "Gateway returned an invalid Activity event."
    else .reject "Gateway returned an unknown event type."

namespace EventSocket

/-- `close`: a socket that is live is asked to close. -/
def close (ws : EventSocket) : EventSocket :=
  if ws.readyState.live then { ws with readyState := .closing } else ws

end EventSocket

namespace RealtimeState

/-- A handler is called for a socket or an open attempt of a lifecycle. -/
def called (handler : Handler) (epoch : ℕ) (message : Option String) (s : RealtimeState) :
    RealtimeState :=
  { s with calls := s.calls ++ [⟨handler, epoch, s.lifecycle, message⟩] }

/-- A socket changes. -/
def withSocket (i : ℕ) (f : EventSocket → EventSocket) (s : RealtimeState) : RealtimeState :=
  { s with sockets := s.sockets.modify i f }

/-- `scheduleReconnect` -/
def scheduleReconnect (epoch : ℕ) (s : RealtimeState) : RealtimeState :=
  if s.stopped = true ∨ epoch ≠ s.lifecycle ∨ s.reconnectTimer ≠ none then s
  else { s with reconnectMs := min 12000 (s.reconnectMs * 2), reconnectTimer := some epoch }

/-- `open`, up to the token. -/
def beginOpen (epoch : ℕ) (s : RealtimeState) : RealtimeState × Option OpenAttempt :=
  if s.stopped = true ∨ epoch ≠ s.lifecycle ∨ s.socket ≠ none ∨ s.openingEpoch = some epoch then
    (s, none)
  else ({ s with openingEpoch := some epoch }, some ⟨epoch, s.protectedSessionRevision⟩)

/-- `disconnect` -/
def disconnect (s : RealtimeState) : RealtimeState :=
  if s.stopped = true then s
  else
    { s with
      stopped := true
      lifecycle := s.lifecycle + 1
      openingEpoch := none
      protectedSessionRevision := none
      reconnectTimer := none
      socket := none
      sockets := match s.socket with
        | some i => s.sockets.modify i EventSocket.close
        | none => s.sockets }

/-- A stopped client begins its next lifecycle. -/
def restart (s : RealtimeState) : RealtimeState :=
  if s.stopped = true then
    { s with
      stopped := false
      lifecycle := s.lifecycle + 1
      protectedSessionRevision := some s.sessionRevision }
  else s

/-- `connect` -/
def connect (s : RealtimeState) : RealtimeState × Option OpenAttempt :=
  let s := if s.stopped = false ∧ s.protectedSessionRevision ≠ some s.sessionRevision then
      s.disconnect
    else s
  let s := s.restart
  s.beginOpen s.lifecycle

/-- The timer fires. -/
def fireTimer (s : RealtimeState) : RealtimeState × Option OpenAttempt :=
  match s.reconnectTimer with
  | none => (s, none)
  | some epoch =>
    let s := { s with reconnectTimer := none }
    if s.stopped = false ∧ epoch = s.lifecycle then s.beginOpen epoch else (s, none)

/-- The client stops for good on an event: `rejectProtocol`, which has a message, or the handling of
an exception. -/
def stopOnEvent (rules : RealtimeRules) (i epoch : ℕ) (message : Option String)
    (s : RealtimeState) : RealtimeState :=
  let s := called .onError epoch message { s with stopped := true }
  if rules.closesForPolicy = true then s.withSocket i EventSocket.close
  -- What `rejectProtocol` raises is handled in its turn; what the handling raises is not.
  else if message.isSome = true then s.called .onError epoch none
  else s

/-- A callback of a socket is out of date. -/
def Stale (i : ℕ) (ws : EventSocket) (s : RealtimeState) : Prop :=
  s.stopped = true ∨ ws.epoch ≠ s.lifecycle ∨ s.socket ≠ some i

instance (i : ℕ) (ws : EventSocket) (s : RealtimeState) : Decidable (s.Stale i ws) :=
  inferInstanceAs (Decidable (s.stopped = true ∨ ws.epoch ≠ s.lifecycle ∨ s.socket ≠ some i))

/-- `onopen` -/
def onOpen (i : ℕ) (ws : EventSocket) (s : RealtimeState) : RealtimeState :=
  let s := s.withSocket i fun ws =>
    { ws with readyState := if ws.readyState = .connecting then .opened else ws.readyState }
  if s.Stale i ws then s.withSocket i EventSocket.close
  else s.withSocket i fun ws => { ws with sent := some (ws.token, s.activityAfter) }

/-- The acknowledgement of a connection. -/
def acknowledge (rules : RealtimeRules) (i : ℕ) (ws : EventSocket)
    (answer : Handler → HandlerAnswer) (s : RealtimeState) : RealtimeState :=
  let reconnecting := s.connectedOnce
  let s := s.withSocket i fun ws => { ws with authenticated := true }
  let s := called .onOpen ws.epoch none { s with connectedOnce := true, reconnectMs := 1000 }
  if answer .onOpen = .raised then s.stopOnEvent rules i ws.epoch none
  else if reconnecting = true then
    let s := s.called .onMagiMessages ws.epoch none
    if answer .onMagiMessages = .raised then s.stopOnEvent rules i ws.epoch none else s
  else s

/-- `onmessage` -/
def onMessage (rules : RealtimeRules) (i : ℕ) (ws : EventSocket) (data : EventData)
    (answer : Handler → HandlerAnswer) (s : RealtimeState) : RealtimeState :=
  if s.Stale i ws then s
  else if s.protectedSessionRevision ≠ some s.sessionRevision then
    let s := { s with stopped := true, socket := none }
    if rules.closesForPolicy = true then s.withSocket i EventSocket.close else s
  else
    match readEvent rules ws.authenticated s.activityAfter data with
    | .reject message => s.stopOnEvent rules i ws.epoch (some message)
    | .raise => s.stopOnEvent rules i ws.epoch none
    | .acknowledged => s.acknowledge rules i ws answer
    | .magi =>
      let s := s.called .onMagiMessages ws.epoch none
      match answer .onMagiMessages with
      | .accepted => s
      | .rejected =>
        s.stopOnEvent rules i ws.epoch (some "Gateway returned conflicting Magi identity.")
      | .raised => s.stopOnEvent rules i ws.epoch none
    | .activity cursor =>
      let s := s.called .onActivity ws.epoch none
      match answer .onActivity with
      | .accepted => { s with activityAfter := cursor }
      | .rejected =>
        s.stopOnEvent rules i ws.epoch (some "Gateway returned conflicting Activity identity.")
      | .raised => s.stopOnEvent rules i ws.epoch none

/-- `onerror` -/
def onError (i : ℕ) (ws : EventSocket) (s : RealtimeState) : RealtimeState :=
  if s.Stale i ws then s else s.called .onError ws.epoch none

/-- `onclose` -/
def onClose (i : ℕ) (ws : EventSocket) (code : ℕ) (s : RealtimeState) : RealtimeState :=
  let s := s.withSocket i fun ws => { ws with readyState := .closed }
  let s := { s with socket := if s.socket = some i then none else s.socket }
  if s.stopped = true ∨ ws.epoch ≠ s.lifecycle then s
  else
    let s := s.called .onClose ws.epoch none
    if code = 1008 ∨ code = 1009 then { s with stopped := true } else s.scheduleReconnect ws.epoch

/-- A socket that is not closed has a callback. -/
def hear (i : ℕ) (callback : EventSocket → RealtimeState → RealtimeState) (s : RealtimeState) :
    RealtimeState :=
  match s.sockets[i]? with
  | none => s
  | some ws => if ws.readyState = .closed then s else callback ws s

end RealtimeState

namespace OpenAttempt

/-- The handling of an exception in `open`. -/
def fail (attempt : OpenAttempt) (s : RealtimeState) : RealtimeState :=
  if attempt.epoch ≠ s.lifecycle then s
  else (RealtimeState.called .onError attempt.epoch none
    { s with socket := none }).scheduleReconnect
    attempt.epoch

/-- `open`, once the token is there and until the attempt is over. -/
def finish (result : OpenResult) (attempt : OpenAttempt) (s : RealtimeState) : RealtimeState :=
  match result with
  | .absent => s
  | .raised => attempt.fail s
  | .token value constructs =>
    if value = "" ∨ s.stopped = true ∨ attempt.epoch ≠ s.lifecycle then s
    -- The client belongs to the session that connected it.
    else if attempt.sessionRevision ≠ some s.sessionRevision then { s with stopped := true }
    else if constructs = true then
      { s with
        socket := some s.sockets.length
        sockets := s.sockets ++ [⟨attempt.epoch, value, false, .connecting, none⟩] }
    else attempt.fail s

/-- An open attempt goes on with what it got, and ends. -/
def resume (result : OpenResult) (attempt : OpenAttempt) (s : RealtimeState) :
    RealtimeState × Option OpenAttempt :=
  let s := attempt.finish result s
  ({ s with openingEpoch := if s.openingEpoch = some attempt.epoch then none else s.openingEpoch },
    none)

end OpenAttempt

/-- What happens to a client: it is connected or disconnected, the session changes, an open attempt
goes on, a socket is opened, gets a message, fails or is closed, or the timer fires. -/
inductive RealtimeStep where
  | connect
  | disconnect
  | session (revision : ℕ) (token : Option String)
  | resume (attempt : ℕ) (result : OpenResult)
  | opened (socket : ℕ)
  | message (socket : ℕ) (data : EventData) (answer : Handler → HandlerAnswer)
  | error (socket : ℕ)
  | closed (socket code : ℕ)
  | timer

/-- The client, and the open attempts that are under way. -/
abbrev Realtime : Type := Pool RealtimeState OpenAttempt

/-- An operation on the client that may begin an open attempt. -/
def Realtime.begin (p : Realtime) (result : RealtimeState × Option OpenAttempt) : Realtime :=
  ⟨result.1, p.workers ++ result.2.toList⟩

/-- The client after a step. -/
def realtimeStep (rules : RealtimeRules) (p : Realtime) : RealtimeStep → Realtime
  | .connect => p.begin p.shared.connect
  | .disconnect => p.write p.shared.disconnect
  | .session revision token =>
    p.write { p.shared with sessionRevision := revision, sessionToken := token }
  | .resume i result => p.turn i (OpenAttempt.resume result)
  | .opened i => p.write (p.shared.hear i (RealtimeState.onOpen i))
  | .message i data answer =>
    p.write (p.shared.hear i fun ws => RealtimeState.onMessage rules i ws data answer)
  | .error i => p.write (p.shared.hear i (RealtimeState.onError i))
  | .closed i code => p.write (p.shared.hear i fun ws => RealtimeState.onClose i ws code)
  | .timer => p.begin p.shared.fireTimer

/-- A new client. -/
def Realtime.initial (activityAfter : ℤ) (revision : ℕ) (token : Option String) : Realtime where
  shared :=
    { socket := none
      stopped := true
      reconnectTimer := none
      reconnectMs := 1000
      connectedOnce := false
      activityAfter :=
        if 0 ≤ activityAfter ∧ activityAfter ≤ 9007199254740991 then activityAfter else 0
      lifecycle := 0
      openingEpoch := none
      protectedSessionRevision := none
      sessionRevision := revision
      sessionToken := token
      sockets := []
      calls := [] }
  workers := []

end Magistrate.Frontend
