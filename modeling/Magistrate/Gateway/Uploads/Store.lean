import Magistrate.Core.Pool
import Magistrate.Core.Run
import Magistrate.Core.Table

/-!
# Uploads

Requests store, attach, retain and delete uploads while sweeps remove the expired
ones. A transaction that begins with the write lock is one turn of its request, and so
is every other statement and every reading of the clock.
-/

namespace Magistrate

/-- `MAX_UPLOAD_BYTES` -/
def maxUploadBytes : ℕ := 25 * 1024 * 1024

/-- `MAX_UPLOAD_COUNT` -/
def maxUploadCount : ℕ := 10

/-- The seconds of a year. -/
def yearSeconds : ℤ := 365 * 24 * 60 * 60

/-- `chat_uploads` -/
structure ChatUpload where
  uploadId : String
  userId : String
  filename : String
  mediaType : String
  size : ℕ
  createdAt : ℤ
  objectKey : String
  sha256 : String
  scanStatus : String
  expiresAt : Option ℤ
  deletedAt : Option ℤ
  deriving DecidableEq, Repr

/-- `chat_message_attachments` -/
structure MessageAttachment where
  messageId : String
  uploadId : String
  userId : String
  createdAt : ℤ
  deriving DecidableEq, Repr

def MessageAttachment.key (a : MessageAttachment) : String × String := (a.messageId, a.uploadId)

/-- The two tables and the clock. -/
structure UploadDb where
  uploads : Table ChatUpload.uploadId
  attachments : Table MessageAttachment.key
  clock : ℤ
  deriving DecidableEq

/-- The configured limits, of which one that is not positive is refused, the configured times to
live, and what a request takes from the file name, the content and its hash. -/
structure UploadRules where
  userBytes : ℕ
  userCount : ℕ
  globalBytes : ℕ
  globalCount : ℕ
  /-- `MAGISTRATE_UNATTACHED_UPLOAD_TTL_SECONDS` -/
  unattachedTtl : ℤ
  /-- `MAGISTRATE_ATTACHED_UPLOAD_TTL_SECONDS` -/
  attachedTtl : ℤ
  safeName : String → String
  validateContent : Option String → String → List UInt8 → Option String
  sha256 : List UInt8 → String

/-- `_ttl` -/
def uploadTtl (configured : ℤ) : ℤ := min (max configured 300) yearSeconds

/-- Letters, digits, underscores and hyphens of a bounded number. -/
def isTokenOf (low high : ℕ) (text : String) : Bool :=
  decide (low ≤ text.length ∧ text.length ≤ high) &&
    text.toList.all fun c => c.isAlphanum || c == '_' || c == '-'

/-- `_SAFE_UPLOAD_ID` -/
def isSafeUploadId : String → Bool := isTokenOf 16 64

/-- `_SAFE_MESSAGE_ID` -/
def isSafeMessageId : String → Bool := isTokenOf 8 128

/-- The upload can be read: it is not deleted and has not expired. -/
def ChatUpload.available (u : ChatUpload) (now : ℤ) : Bool :=
  u.deletedAt = none ∧ u.expiresAt.all (now < ·)

/-- `CASE WHEN COALESCE(expires_at,0)>? THEN expires_at ELSE ? END` -/
def ChatUpload.extended (u : ChatUpload) (expiresAt : ℤ) : Option ℤ :=
  if expiresAt < u.expiresAt.getD 0 then u.expiresAt else some expiresAt

/-- What `save_upload` is called with. -/
structure UploadContent where
  userId : String
  filename : String
  mediaType : Option String
  content : List UInt8
  deriving DecidableEq, Repr

/-- What `associate_uploads` is called with. -/
structure UploadAssociation where
  userId : String
  messageId : String
  uploadIds : List String
  deriving DecidableEq, Repr

/-- What `retain_upload_until` is called with. -/
structure UploadRetention where
  userId : String
  uploadId : String
  expiresAt : ℤ
  deriving DecidableEq, Repr

/-- What a turn draws: a new id and object key, whether the file of an upload is there, and the
status of the scan of a file that was written. -/
structure UploadDraw where
  uploadId : String
  objectKey : String
  stored : Bool
  scanStatus : Option String
  deriving DecidableEq, Repr

namespace UploadDb

variable (db : UploadDb)

/-- The uploads that are not deleted. -/
def live : List ChatUpload := db.uploads.rows.filter (·.deletedAt = none)

/-- The uploads of a user that are not deleted. -/
def liveOf (userId : String) : List ChatUpload := db.live.filter (·.userId = userId)

/-- Another upload of some size keeps the limits. -/
def fits (bytes count : ℕ) (uploads : List ChatUpload) (size : ℕ) : Bool :=
  0 < bytes ∧ 0 < count ∧ (uploads.map (·.size)).sum + size ≤ bytes ∧ uploads.length + 1 ≤ count

/-- The rows that a sweep selects. -/
def expired (current : ℤ) : List String :=
  (db.live.filter fun u => u.expiresAt.any (· ≤ current)).map (·.uploadId)

/-- `UPDATE chat_uploads SET deleted_at=? WHERE upload_id=?` -/
def tombstone (uploadId : String) (current : ℤ) : UploadDb :=
  { db with uploads := db.uploads.update uploadId fun u => { u with deletedAt := some current } }

/-- `UPDATE chat_uploads SET deleted_at=? WHERE upload_id=? AND user_id=?` -/
def tombstoneOwned (userId uploadId : String) (now : ℤ) : UploadDb :=
  if (db.uploads.find? uploadId).any (·.userId = userId) then db.tombstone uploadId now else db

/-- The row of a new upload. -/
def newUpload (rules : UploadRules) (request : UploadContent) (draw : UploadDraw)
    (mediaType scanStatus : String) : ChatUpload where
  uploadId := draw.uploadId
  userId := request.userId
  filename := rules.safeName request.filename
  mediaType := mediaType
  size := request.content.length
  createdAt := db.clock
  objectKey := draw.objectKey
  sha256 := rules.sha256 request.content
  scanStatus := scanStatus
  expiresAt := some (db.clock + uploadTtl rules.unattachedTtl)
  deletedAt := none

/-- The transaction of `save_upload`; a taken id rolls it back. -/
def store (rules : UploadRules) (request : UploadContent) (draw : UploadDraw) : UploadDb :=
  let size := request.content.length
  match rules.validateContent request.mediaType (rules.safeName request.filename) request.content,
    draw.scanStatus with
  | some mediaType, some scanStatus =>
    if fits rules.userBytes rules.userCount (db.liveOf request.userId) size ∧
        fits rules.globalBytes rules.globalCount db.live size then
      { db with
        uploads := db.uploads.insertOrIgnore
          (db.newUpload rules request draw mediaType scanStatus) }
    else db
  | _, _ => db

/-- The writes of `associate_uploads` for one upload. -/
def attach (request : UploadAssociation) (now expiresAt : ℤ) (db : UploadDb) (uploadId : String) :
    UploadDb :=
  { db with
    attachments := db.attachments.insertOrIgnore ⟨request.messageId, uploadId, request.userId, now⟩
    uploads := db.uploads.updateWhere
      (fun u => u.uploadId = uploadId ∧ u.userId = request.userId) fun u =>
        { u with expiresAt := u.extended expiresAt } }

/-- The upload of a user can be attached. -/
def attachable (request : UploadAssociation) (now : ℤ) (uploadId : String) : Bool :=
  (db.uploads.find? uploadId).any fun u => u.userId = request.userId ∧ u.available now

/-- The transaction of `associate_uploads`, at the time that the request read. -/
def associate (rules : UploadRules) (request : UploadAssociation) (now : ℤ) : UploadDb :=
  if request.uploadIds.all (db.attachable request now) then
    request.uploadIds.foldl (attach request now (now + uploadTtl rules.attachedTtl)) db
  else db

/-- The statement of `retain_upload_until`. -/
def retain (request : UploadRetention) (now : ℤ) : UploadDb :=
  { db with
    uploads := db.uploads.updateWhere
      (fun u => u.uploadId = request.uploadId ∧ u.userId = request.userId ∧ u.available now)
      fun u => { u with expiresAt := u.extended request.expiresAt } }

/-- `SELECT 1 FROM chat_message_attachments WHERE upload_id=? AND user_id=?` -/
def attachedBy (userId uploadId : String) : Bool :=
  db.attachments.rows.any fun a => a.uploadId = uploadId ∧ a.userId = userId

end UploadDb

/-- The checks of `associate_uploads`. -/
def UploadAssociation.valid (request : UploadAssociation) : Bool :=
  isSafeMessageId request.messageId ∧ request.uploadIds.length ≤ maxUploadCount ∧
    request.uploadIds.Nodup ∧ request.uploadIds.all isSafeUploadId

/-- The checks of `retain_upload_until`, at the time that the request read. -/
def UploadRetention.valid (request : UploadRetention) (now : ℤ) : Bool :=
  isSafeUploadId request.uploadId ∧ now < request.expiresAt ∧ request.expiresAt ≤ now + yearSeconds

/-- A request, or a sweep. -/
inductive UploadRequest where
  | cleanup
  | save (request : UploadContent)
  | associate (request : UploadAssociation)
  | retain (request : UploadRetention)
  /-- `discard_uploads`; of one upload it is `delete_upload`. -/
  | discard (userId : String) (uploadIds : List String)
  deriving DecidableEq

/-- Where a request is. A sweep can be the first part of storing an upload. -/
inductive UploadWork where
  | sweep (next : Option UploadContent)
  | sweepAt (current : ℤ) (next : Option UploadContent)
  | sweeping (current : ℤ) (uploadIds : List String) (next : Option UploadContent)
  | save (request : UploadContent)
  | associate (request : UploadAssociation)
  | associateAt (request : UploadAssociation) (now : ℤ)
  | retain (request : UploadRetention)
  | retainAt (request : UploadRetention) (now : ℤ)
  | discard (userId : String) (uploadIds : List String)
  | discardAt (userId uploadId : String) (rest : List String) (now : ℤ)
  | found (userId uploadId : String) (rest : List String)
  | unattached (userId uploadId : String) (rest : List String)
  | unattachedAt (userId uploadId : String) (rest : List String) (now : ℤ)
  deriving DecidableEq

namespace UploadWork

/-- Where a request starts, unless it is refused at once. -/
def first : UploadRequest → Option UploadWork
  | .cleanup => some (.sweep none)
  | .save request =>
    if maxUploadBytes < request.content.length then none else some (.sweep (some request))
  | .associate request => if request.valid then some (.associate request) else none
  | .retain request => if isSafeUploadId request.uploadId then some (.retain request) else none
  | .discard userId uploadIds => some (.discard userId uploadIds)

/-- What follows a sweep. -/
def afterSweep (next : Option UploadContent) : Option UploadWork := next.map .save

/-- A turn of a request. -/
def turn (rules : UploadRules) (draw : UploadDraw) : UploadWork → UploadDb →
    UploadDb × Option UploadWork
  | .sweep next, db => (db, some (.sweepAt db.clock next))
  | .sweepAt current next, db => (db, some (.sweeping current (db.expired current) next))
  | .sweeping _ [] next, db => (db, afterSweep next)
  | .sweeping current (uploadId :: rest) next, db =>
    (db.tombstone uploadId current, some (.sweeping current rest next))
  | .save request, db => (db.store rules request draw, none)
  | .associate request, db => (db, some (.associateAt request db.clock))
  | .associateAt request now, db => (db.associate rules request now, none)
  | .retain request, db => (db, some (.retainAt request db.clock))
  | .retainAt request now, db =>
    (if request.valid now then db.retain request now else db, none)
  | .discard _ [], db => (db, none)
  | .discard userId (uploadId :: rest), db =>
    (db, some (if isSafeUploadId uploadId then .discardAt userId uploadId rest db.clock
      else .discard userId rest))
  | .discardAt userId uploadId rest now, db =>
    (db, some (if draw.stored ∧
        (db.uploads.find? uploadId).any (fun u => u.userId = userId ∧ u.available now) then
      .found userId uploadId rest else .discard userId rest))
  | .found userId uploadId rest, db =>
    -- an attached upload ends the request
    (db, if db.attachedBy userId uploadId then none else some (.unattached userId uploadId rest))
  | .unattached userId uploadId rest, db =>
    (db, some (.unattachedAt userId uploadId rest db.clock))
  | .unattachedAt userId uploadId rest now, db =>
    (db.tombstoneOwned userId uploadId now, some (.discard userId rest))

end UploadWork

/-- A request starts, a request takes a turn, or time passes. -/
inductive UploadTurn where
  | start (request : UploadRequest)
  | turn (i : ℕ) (draw : UploadDraw)
  | tick (seconds : ℕ)
  deriving DecidableEq

/-- The uploads and the requests that are under way. -/
abbrev UploadService := Pool UploadDb UploadWork

namespace UploadService

/-- A step of the service. -/
def step (rules : UploadRules) (p : UploadService) : UploadTurn → UploadService
  | .start request => (UploadWork.first request).elim p p.spawn
  | .turn i draw => p.turn i (UploadWork.turn rules draw)
  | .tick seconds => p.write { p.shared with clock := p.shared.clock + seconds }

/-- No uploads and no requests. -/
def initial : UploadService := ⟨⟨.empty, .empty, 0⟩, []⟩

end UploadService

end Magistrate
