import Magistrate.Core.Pool
import Magistrate.Gateway.Notifications.Surfacing

/-!
# Push delivery

A dispatcher reconciles, and for each event claims a send, checks the token, posts
and records what the provider answered; a poll of receipts claims what is due and
records one receipt after the other. Each of these is a transaction of its own, and
any number of dispatchers and polls take turns.
-/

namespace Magistrate

/-- `RECEIPT_DELAY` -/
def receiptDelay : ℕ := 15 * 60

/-- `RECEIPT_TTL` -/
def receiptTtl : ℕ := 24 * 60 * 60

/-- `MAX_SENDS` -/
def maxSends : ℕ := 3

/-- What is not modelled of push delivery: what is stripped of a token, and the digests of a token
and of a delivery. -/
structure PushRules extends NotificationRules where
  strip : String → String
  tokenDigest : String → String
  identity : String → String → String → String → String

/-- The states of a push delivery. -/
inductive PushDeliveryState where
  | sending
  | retry
  | pending
  | delivered
  | failed
  | expired
  deriving DecidableEq, Repr

/-- A state in which a delivery may be sent. -/
def PushDeliveryState.sendable : PushDeliveryState → Bool
  | .sending | .retry => true
  | .pending | .delivered | .failed | .expired => false

/-- A row of `notification_push_deliveries`. -/
structure PushDelivery where
  deliveryId : String
  userId : String
  itemId : String
  fingerprint : String
  tokenSha256 : String
  ticketId : Option String
  state : PushDeliveryState
  sendAttempts : ℕ
  pollAttempts : ℕ
  nextAttemptAt : ℕ
  expiresAt : ℕ
  createdAt : ℕ
  updatedAt : ℕ
  errorCode : Option String
  deriving DecidableEq, Repr

/-- A row of `push_tokens`. -/
structure PushToken where
  userId : String
  pushToken : String
  updatedAt : ℕ
  revokedAt : Option ℕ
  deriving DecidableEq, Repr

/-- The deliveries. -/
abbrev PushDeliveries : Type := Table PushDelivery.deliveryId

namespace PushDeliveries

/-- `item_id LIKE 'owner-test-%'` -/
def isOwnerTest (itemId : String) : Bool :=
  decide ((itemId.toList.take 11).map Char.toLower = "owner-test-".toList)

/-- `claim_send`: the claim that is granted, and the deliveries. -/
def claimSend (rules : PushRules) (now : ℕ) (userId itemId fingerprint token : String)
    (ownerTest : Bool) (t : PushDeliveries) : Option PushDelivery × PushDeliveries :=
  let tokenHash := rules.tokenDigest token
  let identity := rules.identity userId itemId fingerprint tokenHash
  match t.find? identity with
  | some row =>
    if row.state.sendable = true ∧ row.expiresAt ≤ now then
      (none, t.update identity fun row =>
        { row with state := .expired, errorCode := some "send_expired", updatedAt := now })
    else if row.state.sendable = false ∨ now < row.nextAttemptAt then (none, t)
    else if maxSends ≤ row.sendAttempts then
      (none, t.update identity fun row =>
        { row with state := .failed, errorCode := some "send_exhausted", updatedAt := now })
    else
      let claim : PushDelivery :=
        { row with
          state := .sending
          sendAttempts := row.sendAttempts + 1
          nextAttemptAt := now + 120
          updatedAt := now }
      (some claim, t.put claim)
  | none =>
    -- A test that the owner asks for is limited to one a minute.
    if ownerTest = true ∧ ∃ row ∈ t.rows,
        row.userId = userId ∧ isOwnerTest row.itemId = true ∧
          now < row.createdAt + 60 then (none, t)
    else
      let claim : PushDelivery :=
        ⟨identity, userId, itemId, fingerprint, tokenHash, none, .sending, 1, 0, now + 120,
          now + receiptTtl, now, now, none⟩
      (some claim, t.put claim)

/-- The row of a claim that is still the last one. -/
def Holds (claim : PushDelivery) (t : PushDeliveries) : Prop :=
  ∃ row ∈ t.find? claim.deliveryId, row.state = .sending ∧ row.sendAttempts = claim.sendAttempts

instance (claim : PushDelivery) (t : PushDeliveries) : Decidable (Holds claim t) :=
  inferInstanceAs (Decidable (∃ row ∈ t.find? claim.deliveryId,
    row.state = .sending ∧ row.sendAttempts = claim.sendAttempts))

/-- `accepted`: a ticket is recorded for a claim, unless it is the ticket of another delivery. -/
def accepted (now : ℕ) (claim : PushDelivery) (ticket : String) (t : PushDeliveries) :
    Except Unit PushDeliveries :=
  if Holds claim t then
    if ∃ row ∈ t.rows, row.ticketId = some ticket ∧ row.deliveryId ≠ claim.deliveryId then .error ()
    else .ok (t.update claim.deliveryId fun row =>
      { row with
        state := .pending
        ticketId := some ticket
        nextAttemptAt := now + receiptDelay
        updatedAt := now
        errorCode := none })
  else .ok t

/-- `send_failed` -/
def sendFailed (now : ℕ) (claim : PushDelivery) (retryable : Bool) (t : PushDeliveries) :
    PushDeliveries :=
  if Holds claim t then
    t.update claim.deliveryId fun row =>
      { row with
        state := if retryable = true ∧ claim.sendAttempts < maxSends then .retry else .failed
        nextAttemptAt := now + 60 * 2 ^ claim.sendAttempts
        updatedAt := now
        errorCode := some "send_failed" }
  else t

/-- `claim_receipts`: the deliveries whose receipts are due, and the deliveries after they were
claimed. -/
def claimReceipts (now : ℕ) (t : PushDeliveries) : List PushDelivery × PushDeliveries :=
  let t := t.updateWhere (fun row => row.state == .pending && decide (row.expiresAt ≤ now))
    fun row => { row with state := .expired, errorCode := some "receipt_expired", updatedAt := now }
  let due := ((t.rows.filter fun row => row.state == .pending &&
    decide (row.nextAttemptAt ≤ now)).mergeSort
    fun a b => decide (a.nextAttemptAt ≤ b.nextAttemptAt)).take 100
  (due, t.updateWhere (fun row => due.any fun claim =>
    claim.deliveryId == row.deliveryId) fun row =>
    { row with
      nextAttemptAt := now + min 3600 (60 * 2 ^ min row.pollAttempts 6)
      pollAttempts := row.pollAttempts + 1
      updatedAt := now })

end PushDeliveries

/-- A claim of a send that was granted, and when. -/
structure PushClaim where
  delivery : PushDelivery
  grantedAt : ℕ
  deriving DecidableEq

/-- A send to the provider: for whom and what, under which claim and when, and the delivery as it
was stored then. -/
structure PushSend where
  userId : String
  itemId : String
  fingerprint : String
  token : String
  claim : PushDelivery
  sentAt : ℕ
  stored : Option PushDelivery
  deriving DecidableEq

/-- The tables of push delivery, the clock in seconds, and what was claimed and sent. -/
structure PushState where
  notifications : NotificationState
  tokens : Table PushToken.userId
  deliveries : PushDeliveries
  clock : ℕ
  claims : List PushClaim
  sends : List PushSend
  deriving DecidableEq

namespace PushState

/-- Nothing is stored. -/
def initial : PushState := ⟨.initial, .empty, .empty, 0, [], []⟩

/-- The token that a user has registered. -/
def registered? (userId : String) (s : PushState) : Option String :=
  ((s.tokens.find? userId).filter fun row => row.revokedAt.isNone).map (·.pushToken)

/-- `_validate_push_token`, of a stripped token. -/
def validPushToken (token : String) : Bool :=
  ["ExponentPushToken[", "ExpoPushToken["].any fun start =>
    start.toList.isPrefixOf token.toList &&
      let name := (token.toList.drop start.length).dropLast
      (token.toList.getLast? == some ']') && decide (1 ≤ name.length ∧ name.length ≤ 200) &&
        name.all fun c => c.isAlphanum || c == '_' || c == '-'

/-- `register_push_token` -/
def register (rules : PushRules) (userId token : String) (s : PushState) : PushState :=
  if validPushToken (rules.strip token) = true then
    { s with tokens := s.tokens.put ⟨userId, rules.strip token, s.clock, none⟩ }
  else s

/-- `revoke_push_token` -/
def revoke (rules : PushRules) (userId : String) (token : Option String)
    (s : PushState) : PushState :=
  let token := token.filter (· ≠ "")
  { s with
    tokens := s.tokens.updateWhere
      (fun row => row.userId == userId && token.all fun token => row.pushToken == rules.strip token)
      fun row => { row with revokedAt := some s.clock } }

/-- A receipt of a delivery is recorded. -/
def receipt (rules : PushRules) (delivery : PushDelivery) (delivered invalidToken : Bool)
    (s : PushState) : PushState :=
  if ∃ row ∈ s.deliveries.find? delivery.deliveryId, row.state = .pending then
    let s' := { s with
      deliveries := s.deliveries.update delivery.deliveryId fun row =>
        { row with
          state := if delivered = true then .delivered else .failed
          errorCode := if delivered = true then none else some "receipt_rejected"
          updatedAt := s.clock } }
    match s.registered? delivery.userId with
    | none => s'
    | some token =>
      -- A late receipt is none of the device that replaced the one it was sent to.
      if rules.tokenDigest token ≠ delivery.tokenSha256 then s'
      else
        let s' := if invalidToken = true then
            { s' with
              tokens := s'.tokens.updateWhere
                (fun row => row.userId == delivery.userId && row.pushToken == token)
                fun row => { row with revokedAt := some s.clock } }
          else s'
        if delivered = true then
          { s' with
            notifications := notificationStep rules.toNotificationRules s'.notifications
              (.receipt delivery.userId delivery.itemId delivery.fingerprint) }
        else s'
  else s

end PushState

/-- `DecisionNotification`, up to the moment at which it expires: nothing, no valid envelope, or
that. -/
inductive DecisionEnvelope where
  | absent
  | invalid
  | valid (expiresAt : ℤ)
  deriving DecidableEq, Repr

/-- A character of an identifier of a decision. -/
def isDecisionIdChar (c : Char) : Bool :=
  c.isAlphanum || c == '.' || c == '_' || c == ':' || c == '-'

/-- `^[A-Za-z0-9._:-]{1,128}$` -/
def isDecisionId (value : Json) : Bool :=
  value.str?.any fun id =>
    decide (1 ≤ id.length ∧ id.length ≤ 128) && id.toList.all isDecisionIdChar

/-- `_decision_notification` -/
def decisionEnvelope (value : Json) : DecisionEnvelope :=
  match value with
  | .null => .absent
  | value =>
    match (value.get "revision").int?, (value.get "expires_at").int? with
    | some revision, some expiresAt =>
      if value.namesAre ["schema_version", "decision_id", "task_id", "run_id",
        "request_id", "scope",
            "revision", "expires_at"] = true ∧
          (value.get "schema_version").str? = some "magistrate.decision-notification.v1" ∧
          (["decision_id", "task_id", "run_id", "request_id", "scope"].all fun name =>
            isDecisionId (value.get name)) = true ∧
          1 ≤ revision ∧ revision ≤ 2147483647 ∧ 1 ≤ expiresAt ∧ expiresAt ≤ 9007199254740991 then
        .valid expiresAt
      else .invalid
    | _, _ => .invalid

/-- What is to be sent of an event. -/
structure PushJob where
  itemId : String
  fingerprint : String
  decision : DecisionEnvelope
  ownerTest : Bool
  deriving DecidableEq, Repr

/-- The answer of the provider: a ticket, a device that is not registered, or a failure. -/
inductive PushAnswer where
  | accepted (ticket : String)
  | unregistered
  | failed (retryable : Bool)
  deriving DecidableEq, Repr

/-- Where a dispatcher goes on: it has its events, a token, a claim, a claim whose token was
checked, an answer, or a ticket of another delivery. -/
inductive PushStage where
  | listed
  | ready (token : String)
  | claimed (token : String) (claim : PushDelivery)
  | checked (token : String) (claim : PushDelivery)
  | answered (token : String) (claim : PushDelivery) (answer : PushAnswer)
  | conflicted (token : String) (claim : PushDelivery)
  deriving DecidableEq, Repr

/-- A dispatcher, or a poll of receipts. -/
inductive PushWorker where
  | dispatcher (userId : String) (jobs : List PushJob) (stage : PushStage)
  | poll (deliveries : List PushDelivery)
  deriving DecidableEq

/-- What a turn is given: whether the user's grant is active, the milliseconds of the clock, the
answer of the provider, and its receipt: whether it was delivered and whether the token is
invalid. -/
structure PushInput where
  granted : Bool
  millis : ℕ
  answer : PushAnswer
  receipt : Option (Bool × Bool)

namespace PushWorker

/-- A dispatcher goes on with its next job. -/
def next (userId : String) (jobs : List PushJob) (token : String) : Option PushWorker :=
  some (.dispatcher userId jobs.tail (.ready token))

/-- The registered token, where the user's grant is active. -/
def tokenOf (input : PushInput) (userId : String) (s : PushState) : Option String :=
  if input.granted = true then s.registered? userId else none

/-- A dispatcher with a token claims the send of its next job. -/
def claim (rules : PushRules) (input : PushInput) (userId : String) (jobs : List PushJob)
    (token : String) (s : PushState) : PushState × Option PushWorker :=
  match jobs with
  | [] => (s, none)
  | job :: jobs =>
    let skipped := (s, some (.dispatcher userId jobs (.ready token)))
    let send := s.deliveries.claimSend rules s.clock userId job.itemId job.fingerprint token
      job.ownerTest
    let claimed := match send.1 with
      | none => ({ s with deliveries := send.2 }, some (.dispatcher userId jobs (.ready token)))
      | some claim =>
        ({ s with deliveries := send.2, claims := s.claims ++ [⟨claim, s.clock⟩] },
          some (.dispatcher userId (job :: jobs) (.claimed token claim)))
    match job.decision with
    | .absent => claimed
    | .invalid => skipped
    | .valid expiresAt =>
      if expiresAt ≤ ↑(1000 * s.clock + input.millis) then skipped else claimed

/-- A turn of a dispatcher. -/
def dispatchTurn (rules : PushRules) (input : PushInput) (userId : String) (jobs : List PushJob)
    (stage : PushStage) (s : PushState) : PushState × Option PushWorker :=
  match stage with
  | .listed =>
    match tokenOf input userId s with
    | none => (s, none)
    | some token => (s, some (.dispatcher userId jobs (.ready token)))
  | .ready token => claim rules input userId jobs token s
  | .claimed token claim =>
    -- `send_push_notification` reads the token once more.
    if tokenOf input userId s = some token then
      (s, some (.dispatcher userId jobs (.checked token claim)))
    else (s, some (.dispatcher userId jobs (.answered token claim (.failed false))))
  | .checked token claim =>
    ({ s with
        sends := s.sends ++ (jobs.head?.map fun job => PushSend.mk userId job.itemId job.fingerprint
          token claim s.clock (s.deliveries.find? claim.deliveryId)).toList },
      some (.dispatcher userId jobs (.answered token claim input.answer)))
  | .answered token claim (.accepted ticket) =>
    match s.deliveries.accepted s.clock claim ticket with
    | .ok deliveries => ({ s with deliveries := deliveries }, next userId jobs token)
    | .error _ => (s, some (.dispatcher userId jobs (.conflicted token claim)))
  | .answered token claim .unregistered =>
    (s.revoke rules userId (some token),
      some (.dispatcher userId jobs (.answered token claim (.failed false))))
  | .answered token claim (.failed retryable) =>
    ({ s with deliveries := s.deliveries.sendFailed s.clock claim retryable },
      next userId jobs token)
  | .conflicted token claim =>
    ({ s with deliveries := s.deliveries.sendFailed s.clock claim false }, next userId jobs token)

/-- A turn of a poll: the receipt of its next delivery is recorded, if there is one. -/
def pollTurn (rules : PushRules) (input : PushInput) (deliveries : List PushDelivery)
    (s : PushState) : PushState × Option PushWorker :=
  match deliveries with
  | [] => (s, none)
  | delivery :: rest =>
    match input.receipt with
    | none => (s, some (.poll rest))
    | some (delivered, invalidToken) =>
      (s.receipt rules delivery delivered invalidToken, some (.poll rest))

/-- A turn of a worker. -/
def turn (rules : PushRules) (input : PushInput) (worker : PushWorker) (s : PushState) :
    PushState × Option PushWorker :=
  match worker with
  | .dispatcher userId jobs stage => dispatchTurn rules input userId jobs stage s
  | .poll deliveries => pollTurn rules input deliveries s

end PushWorker

/-- What happens to push delivery: time passes, a token is registered or revoked, something happens
to the notifications, a dispatch, a test of the owner or a poll begins, a worker takes a turn, or it
stops. -/
inductive PushStep where
  | tick (seconds : ℕ)
  | register (userId token : String)
  | revoke (userId : String) (token : Option String)
  | notify (op : NotificationStep)
  | dispatch (userId : String) (items : List NotificationItem) (localHour : Option ℤ)
  | ownerTest (userId requestId : String) (localHour : Option ℤ) (granted : Bool)
  | poll
  | turn (worker : ℕ) (input : PushInput)
  | stop (worker : ℕ)

/-- `^[A-Za-z0-9_-]{8,80}$` -/
def validRequestId (requestId : String) : Bool :=
  decide (8 ≤ requestId.length ∧ requestId.length ≤ 80) &&
    requestId.toList.all fun c => c.isAlphanum || c == '_' || c == '-'

/-- Push delivery after a step. -/
def pushStep (rules : PushRules) (p : Pool PushState PushWorker) :
    PushStep → Pool PushState PushWorker
  | .tick seconds => p.write { p.shared with clock := p.shared.clock + seconds }
  | .register userId token => p.write (p.shared.register rules userId token)
  | .revoke userId token => p.write (p.shared.revoke rules userId token)
  | .notify op =>
    p.write { p.shared with
      notifications := notificationStep rules.toNotificationRules p.shared.notifications op }
  | .dispatch userId items localHour =>
    let events := (p.shared.notifications.board.reconcile rules.toNotificationRules p.shared.clock
      userId items false localHour).1.events
    let s := { p.shared with
      notifications := notificationStep rules.toNotificationRules p.shared.notifications
        (.reconcile userId items false localHour p.shared.clock) }
    (p.write s).spawn (.dispatcher userId (events.map fun item =>
      ⟨item.id, rules.fingerprint item, decisionEnvelope item.decisionNotification, false⟩) .listed)
  | .ownerTest userId requestId localHour granted =>
    let preferences := p.shared.notifications.board.preferencesOf userId
    if validRequestId requestId = true ∧ preferences.enabled = true ∧
        quietAt localHour preferences.quietStart preferences.quietEnd = false ∧ granted = true then
      match p.shared.registered? userId with
      | none => p
      | some token =>
        p.spawn (.dispatcher userId
          [⟨"owner-test-" ++ requestId, "owner-test-v1", .absent, true⟩] (.ready token))
    else p
  | .poll =>
    let claimed := p.shared.deliveries.claimReceipts p.shared.clock
    (p.write { p.shared with deliveries := claimed.2 }).spawn (.poll claimed.1)
  | .turn i input => p.turn i (PushWorker.turn rules input)
  | .stop i => p.turn i fun _ s => (s, none)

end Magistrate
