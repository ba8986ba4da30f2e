import Magistrate.Core.Dict
import Magistrate.Frontend.Chat.Records

/-!
# Reconciling the transcript

The client merges observed records into its rows by their server ids and
revisions. A row yields to a later revision of its own message; anything else
that does not fit is a conflict.
-/

namespace Magistrate.Frontend

/-- `MagiMessageProgress` -/
inductive MagiMessageProgress where
  | queued
  | working
  | complete
  | failed
  | cancelled
  deriving DecidableEq, Repr

/-- The delivery of a user row. -/
inductive Delivery where
  | sending
  | sent
  | failed
  | cancelled
  deriving DecidableEq, Repr

/-- How a row was entered. -/
inductive RenderSource where
  | text
  | voice
  deriving DecidableEq, Repr

/-- `MagiMessage`: a row of the transcript. A member that is not there is `none`; a member that may
be null is there with a value or without. -/
structure MagiMessage where
  id : String
  role : Role
  text : String
  sentAt : Option ℤ
  source : RenderSource
  attachments : List MagiAttachment
  progress : Option MagiMessageProgress
  delivery : Option Delivery
  serverId : Option String
  conversationId : Option String
  clientMessageId : Option (Option String)
  replyToServerId : Option (Option String)
  serverStatus : Option MessageStatus
  revision : Option ℤ
  turnId : Option String
  sequenceIndex : Option ℤ
  fromCache : Bool
  deriving DecidableEq, Repr

/-- A string that is there and not empty. -/
def given (value : Option String) : Option String := value.filter (· ≠ "")

/-- `progressFor` -/
def progressFor : MessageStatus → MagiMessageProgress
  | .pending => .working
  | .failed => .failed
  | .cancelled => .cancelled
  | .completed => .complete

/-- `statusForProgress` -/
def statusForProgress : Option MagiMessageProgress → Option MessageStatus
  | some .working | some .queued => some .pending
  | some .complete => some .completed
  | some .failed => some .failed
  | some .cancelled => some .cancelled
  | none => none

/-- The delivery of a user row whose turn has a status. -/
def deliveryFor : MessageStatus → Delivery
  | .failed => .failed
  | .cancelled => .cancelled
  | .pending | .completed => .sent

/-- `isMagiStatusTransitionAllowed` -/
def isMagiStatusTransitionAllowed (previous next : MessageStatus) : Bool :=
  if previous = next then true
  else if previous = .pending then
    decide (next = .completed ∨ next = .failed ∨ next = .cancelled)
  else decide (previous = .failed ∧ (next = .pending ∨ next = .completed))

/-- What becomes of an observed record. -/
inductive Disposition where
  | accept
  | stale
  | conflict
  deriving DecidableEq, Repr

/-- The source of the row of a record. -/
def MagiMessageRecord.renderSource (record : MagiMessageRecord) : RenderSource :=
  if record.source = "voice" then .voice else .text

namespace MagiMessage

/-- A user row that the gateway has not confirmed. -/
def localPending (row : MagiMessage) : Bool :=
  (given row.serverId).isNone && decide (row.role = .user) && row.sequenceIndex.isNone

/-- A record that changes what is fixed for a native identity. -/
def changesIdentity (previous : MagiMessage) (record : MagiMessageRecord) : Bool :=
  decide (previous.serverId ≠ some record.id ∨ previous.id ≠ record.renderId ∨
    previous.role ≠ record.role ∨ previous.conversationId ≠ some record.conversationId ∨
    previous.clientMessageId ≠ some record.clientMessageId ∨
    previous.replyToServerId ≠ some record.replyToMessageId ∨
    previous.turnId ≠ some record.turnId ∨ previous.sequenceIndex ≠ some record.sequenceIndex ∨
    previous.sentAt ≠ some record.createdAt ∨ previous.source ≠ record.renderSource ∨
    previous.attachments ≠ record.attachments)

/-- A record that changes a text that is settled. -/
def changesText (previous : MagiMessage) (record : MagiMessageRecord) : Bool :=
  decide (previous.text ≠ record.content ∧ (record.role = .user ∨
    previous.revision = some record.revision ∨
    (previous.serverStatus ≠ some .pending ∧ previous.serverStatus ≠ some .failed)))

/-- A record with a status that cannot follow. -/
def changesStatus (previous : MagiMessage) (record : MagiMessageRecord) : Bool :=
  decide (previous.revision = some record.revision ∧ previous.serverStatus ≠ some record.status) ||
    previous.serverStatus.any fun status => previous.revision.any fun revision =>
      decide (revision < record.revision) && !isMagiStatusTransitionAllowed status record.status

end MagiMessage

/-- `reconciliationDisposition` -/
def reconciliationDisposition (previous : Option MagiMessage) (record : MagiMessageRecord) :
    Disposition :=
  match previous with
  | none => .accept
  | some previous =>
    if previous.localPending then
      if record.role = .user ∧ record.clientMessageId = some previous.id ∧
        previous.text = record.content ∧ previous.source = record.renderSource
      then .accept else .conflict
    else if previous.revision.any (record.revision < ·) then .stale
    else if previous.changesIdentity record || previous.changesText record ||
      previous.changesStatus record
    then .conflict else .accept

/-- The row of an accepted record. -/
def MagiMessageRecord.row (record : MagiMessageRecord) (pairStatus : MessageStatus) :
    MagiMessage :=
  let status := if record.role = .user then pairStatus else record.status
  { id := record.renderId
    role := record.role
    text := record.content
    sentAt := some record.createdAt
    source := record.renderSource
    attachments := record.attachments
    progress := some (progressFor status)
    delivery := if record.role = .user then some (deliveryFor status) else none
    serverId := some record.id
    conversationId := some record.conversationId
    clientMessageId := some record.clientMessageId
    replyToServerId := some record.replyToMessageId
    serverStatus := some record.status
    revision := some record.revision
    turnId := some record.turnId
    sequenceIndex := some record.sequenceIndex
    fromCache := false }

/-- `mergeRecord` -/
def mergeRecord (previous : Option MagiMessage) (record : MagiMessageRecord)
    (pairStatus : MessageStatus) : MagiMessage :=
  match previous with
  | none => record.row pairStatus
  | some row =>
    if reconciliationDisposition previous record ≠ .accept then row else record.row pairStatus

/-- The render ids of server ids. -/
abbrev ServerKeys : Type := Table (Prod.fst : String × String → String)

/-- The statuses of turns. -/
abbrev PairStatuses : Type := Table (Prod.fst : String × MessageStatus → String)

/-- The server ids of rows. -/
def serverKeysOf (existing : List MagiMessage) : ServerKeys :=
  .ofList (existing.filterMap fun row => (given row.serverId).map (·, row.id))

/-- The turn that a row answers, and its status. -/
def answeredTurn (row : MagiMessage) : Option (String × MessageStatus) :=
  if row.role = .assistant then
    (given row.turnId).bind fun turnId =>
      (row.serverStatus.or (statusForProgress row.progress)).map (turnId, ·)
  else none

/-- The statuses of the turns that rows answer. -/
def pairStatusesOf (existing : List MagiMessage) : PairStatuses :=
  .ofList (existing.filterMap answeredTurn)

/-- The render id that a record's server id already has, if it is another one. -/
def boundElsewhere (serverKeys : ServerKeys) (record : MagiMessageRecord) : Option String :=
  (given ((serverKeys.find? record.id).map Prod.snd)).filter (· ≠ record.renderId)

/-- The loop of `hasMagiReconciliationConflict`. -/
def conflictFrom (rows : Table MagiMessage.id) (serverKeys : ServerKeys) :
    List MagiMessageRecord → Bool
  | [] => false
  | record :: incoming =>
    let previous := rows.find? record.renderId
    if (boundElsewhere serverKeys record).isSome then true
    else if reconciliationDisposition previous record = .conflict then true
    else
      let merged := mergeRecord previous record record.status
      let serverKeys :=
        if merged.serverId = some record.id then serverKeys.put (record.id, record.renderId)
        else serverKeys
      conflictFrom (rows.put merged) serverKeys incoming

/-- `hasMagiReconciliationConflict` -/
def hasMagiReconciliationConflict (existing : List MagiMessage)
    (incoming : List MagiMessageRecord) : Bool :=
  conflictFrom (.ofList existing) (serverKeysOf existing) incoming

/-- The maps of a reconciliation. -/
structure Reconciliation where
  rows : Table MagiMessage.id
  serverKeys : ServerKeys
  delivered : List String
  pairStatuses : PairStatuses

/-- A reconciliation before its first record. -/
def Reconciliation.start (existing : List MagiMessage) : Reconciliation where
  rows := .ofList existing
  serverKeys := serverKeysOf existing
  delivered := []
  pairStatuses := pairStatusesOf existing

/-- A reconciliation after a record. -/
def reconcileRecord (s : Reconciliation) (record : MagiMessageRecord) : Reconciliation :=
  match boundElsewhere s.serverKeys record with
  | some serverKey => { s with delivered := serverKey :: s.delivered }
  | none =>
    let previous := s.rows.find? record.renderId
    let pairStatus := ((s.pairStatuses.find? record.turnId).map Prod.snd).getD record.status
    let merged := mergeRecord previous record pairStatus
    let accepted := decide (reconciliationDisposition previous record = .accept)
    { rows := s.rows.put merged
      delivered := record.renderId :: s.delivered
      serverKeys :=
        if merged.serverId = some record.id then s.serverKeys.put (record.id, record.renderId)
        else s.serverKeys
      pairStatuses :=
        if merged.serverId = some record.id ∧ record.role = .assistant ∧ accepted = true
        then s.pairStatuses.put (record.turnId, record.status) else s.pairStatuses }

/-- A user row with the status of its turn. -/
def projectStatus (pairStatuses : PairStatuses) (row : MagiMessage) : MagiMessage :=
  match (if row.role = .user then given row.turnId else none).bind pairStatuses.find? with
  | some (_, status) =>
    { row with progress := some (progressFor status), delivery := some (deliveryFor status) }
  | none => row

theorem projectStatus_id (pairStatuses : PairStatuses) (row : MagiMessage) :
    (projectStatus pairStatuses row).id = row.id := by
  unfold projectStatus
  split <;> rfl

/-- The transcript at the end of a reconciliation: the recorded rows in their order, then what is
still to be delivered. A bounded page drops the recorded rows that it does not deliver. -/
def Reconciliation.transcript (s : Reconciliation) (authoritative : Bool) : List MagiMessage :=
  let rows := (s.rows.updateWhere (fun _ => true) (projectStatus s.pairStatuses)
    (projectStatus_id s.pairStatuses)).rows
  let recorded := rows.filter fun row => row.sequenceIndex.isSome &&
    (!authoritative || s.delivered.contains row.id || row.fromCache)
  let pending := rows.filter fun row => row.sequenceIndex.isNone &&
    decide (row.role = .user ∧ (row.delivery = some .sending ∨ row.delivery = some .failed))
  recorded.mergeSort (fun l r => l.sequenceIndex.getD 0 ≤ r.sequenceIndex.getD 0) ++ pending

/-- `reconcileMagiMessages` -/
def reconcileMagiMessages (existing : List MagiMessage) (incoming : List MagiMessageRecord)
    (authoritative : Bool) : List MagiMessage :=
  (incoming.foldl reconcileRecord (.start existing)).transcript authoritative

end Magistrate.Frontend
