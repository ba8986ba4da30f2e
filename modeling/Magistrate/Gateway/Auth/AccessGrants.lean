import Magistrate.Core.PyJson
import Magistrate.Gateway.Auth.ProviderSessions

/-!
# Access grants

An operator creates a grant for one person; its code is redeemed for a short bearer, and every
redemption replaces the bearer of the one before it. A revocation and a logout end the grant with
its bearers, and a check that meets the feature switched off ends the bearers of all grants. Each
reading of the clock or of the switch and each transaction is one turn.
-/

namespace Magistrate

/-- `FRIEND_BETA_REQUIRED_SCOPES` -/
def friendBetaRequiredScopes : List String := ["read", "account"]

/-- `FRIEND_BETA_DEFAULT_SCOPES` -/
def friendBetaDefaultScopes : List String := ["read", "account", "notifications"]

/-- `FRIEND_BETA_SHARED_RUNTIME_SCOPES` -/
def friendBetaSharedRuntimeScopes : List String := ["voice", "command"]

/-- `FRIEND_BETA_GRANT_MAX_TTL_SECONDS` -/
def friendBetaGrantMaxTtlSeconds : ℤ := 30 * 24 * 3600

/-- An identifier of users with so many characters after the first. -/
def isUserId (most : ℕ) (text : String) : Bool :=
  PyText.isIdentifier ['.', '_', '-'] most (PyText.of text)

/-- `_FRIEND_BETA_ACCESS_PATTERN` -/
def isAccessCode : String → Bool := safeToken "mgb_" 32 64

/-- The pattern of grant ids. -/
def isGrantId : String → Bool := safeToken "fbg_" 20 32

/-- `sorted(scopes)` -/
def sortedScopes (scopes : List String) : List String := scopes.insertionSort (· ≤ ·)

/-- `_validated_scopes` -/
def validatedScopes (values : List String) : Option (List String) :=
  let scopes := ((values.map stripText).filter (· ≠ "")).dedup
  if scopes = [] ∨ ¬scopes ⊆ knownScopes then none else some scopes

/-- A row of `friend_beta_access_grants`. -/
structure AccessGrant where
  grantId : String
  codeHash : String
  userId : String
  scopes : List String
  createdAt : ℤ
  expiresAt : ℤ
  firstRedeemedAt : Option ℤ
  lastRedeemedAt : Option ℤ
  revokedAt : Option ℤ
  deriving DecidableEq, Repr

/-- The grant is not revoked and has not expired. -/
def AccessGrant.active (grant : AccessGrant) (now : ℤ) : Bool :=
  grant.revokedAt = none ∧ now < grant.expiresAt

/-- The name in a row of `user_profiles`. -/
structure ProfileName where
  userId : String
  name : String
  deriving DecidableEq, Repr

/-- `MAGISTRATE_FRIEND_BETA_ENABLED`, as `_friend_beta_enabled` reads it. -/
inductive FriendBetaFlag where
  | on
  | off
  | invalid
  deriving DecidableEq, Repr

/-- The tables, the switch, the clock, and the hashes of the bearers that were issued. -/
structure GrantState where
  auth : AuthState
  grants : Table AccessGrant.grantId
  profiles : Table ProfileName.userId
  flag : FriendBetaFlag
  clock : ℤ
  issued : List String

/-- The configuration. -/
structure GrantRules where
  auth : AuthRules
  /-- `MAGISTRATE_BOOTSTRAP_USER_ID` -/
  bootstrapUserId : String
  /-- `MAGISTRATE_HOSTED_EXECUTION_ENABLED` -/
  hostedExecution : Bool
  /-- `HostedExecutionConfig.from_env` returns. -/
  hostedConfigured : Bool

/-- What `create_friend_beta_access_grant` is called with. -/
structure GrantRequest where
  userId : String
  scopes : Option (List String) := none
  ttlSeconds : ℤ := 7 * 24 * 3600
  allowSharedRuntimeAccess : Bool := false
  deriving DecidableEq, Repr

/-- A grant is drawn with its code, a bearer with its session. -/
structure GrantDraw where
  grantId : String
  accessCode : String
  session : SessionDraw
  deriving DecidableEq, Repr

/-- The answer of `create_friend_beta_access_grant`. -/
structure GrantReply where
  grantId : String
  accessCode : String
  userId : String
  scopes : List String
  createdAt : ℤ
  expiresAt : ℤ
  deriving DecidableEq, Repr

/-- The answer of `issue_friend_beta_session`. -/
structure BearerReply where
  sessionToken : String
  expiresAt : ℤ
  scopes : List String
  userId : String
  renewableUntil : ℤ
  onboardingRequired : Bool
  deriving DecidableEq, Repr

/-- The checks of `create_friend_beta_access_grant`: the user and the scopes of the grant. -/
def GrantRequest.check (rules : GrantRules) (request : GrantRequest) :
    Except String (String × List String) := do
  let userId := stripText request.userId
  raiseIf (isUserId 127 userId = false ∨ isUserId 63 userId = false)
    "Friend Beta user_id must be a 1-64 character URL-safe identifier"
  raiseIf (userId = stripText rules.bootstrapUserId)
    "Friend Beta user_id must differ from the owner bootstrap identity"
  let selected ← orRaise (validatedScopes (request.scopes.getD friendBetaDefaultScopes))
    "Scopes contain an unknown or empty value"
  raiseIf (¬friendBetaRequiredScopes ⊆ selected)
    "Friend Beta grants require read and account scopes"
  raiseIf ("response" ∈ selected)
    "The response producer scope cannot be issued to Friend Beta users"
  let elevated := selected.any (· ∈ friendBetaSharedRuntimeScopes)
  raiseIf (elevated ∧ rules.hostedExecution ∧ rules.hostedConfigured = false)
    "Hosted isolation must be completely configured before issuing elevated access"
  raiseIf (elevated ∧ rules.hostedExecution = false ∧ request.allowSharedRuntimeAccess = false)
    "Command or voice scope requires explicit shared-runtime risk acknowledgement"
  raiseIf (request.ttlSeconds < 3600 ∨ friendBetaGrantMaxTtlSeconds < request.ttlSeconds)
    "Friend Beta grant lifetime must be between one hour and 30 days"
  return (userId, selected)

namespace GrantState

variable (rules : GrantRules)

/-- The transaction of `create_friend_beta_access_grant`. -/
def create (userId : String) (selected : List String) (ttlSeconds issuedAt : ℤ) (draw : GrantDraw)
    (s : GrantState) : Except String (GrantReply × GrantState) := do
  raiseIf (s.grants.rows.any fun grant => grant.userId = userId ∧ grant.active issuedAt)
    "Friend Beta principal already has an active grant; revoke it before reissuing"
  let codeHash := rules.auth.sha256 draw.accessCode
  raiseIf (s.grants.find? draw.grantId ≠ none ∨ s.grants.rows.any (·.codeHash = codeHash))
    "UNIQUE constraint failed"
  let scopes := sortedScopes selected
  let expiresAt := issuedAt + ttlSeconds
  let grant : AccessGrant :=
    ⟨draw.grantId, codeHash, userId, scopes, issuedAt, expiresAt, none, none, none⟩
  return (⟨draw.grantId, draw.accessCode, userId, scopes, issuedAt, expiresAt⟩,
    { s with
      grants := s.grants.insertOrIgnore grant
      profiles := s.profiles.insertOrIgnore ⟨userId, ""⟩ })

/-- What a code is redeemed for: the scopes and the expiry of the bearer. -/
def redeemable (grant : AccessGrant) (now : ℤ) : Except HttpException (List String × ℤ) := do
  let invalid : HttpException := ⟨503, "Friend Beta access configuration is invalid"⟩
  let scopes ← orRaise (validatedScopes grant.scopes) invalid
  raiseIf (¬friendBetaRequiredScopes ⊆ scopes ∨ "response" ∈ scopes) invalid
  let expiresAt ← (rules.auth.sessionExpiry now grant.expiresAt).mapError fun _ => invalid
  return (sortedScopes scopes, expiresAt)

/-- The grant that a code redeems. -/
def grantOfCode (accessCode : String) (s : GrantState) : Option AccessGrant :=
  s.grants.rows.find? (·.codeHash = rules.auth.sha256 accessCode)

/-- The transaction of `issue_friend_beta_session`. -/
def redeem (accessCode : String) (now : ℤ) (draw : GrantDraw) (s : GrantState) :
    Except HttpException (BearerReply × GrantState) := do
  let invalid : HttpException := ⟨401, "Invalid or expired Friend Beta access code"⟩
  let grant ← orRaise (s.grantOfCode rules accessCode) invalid
  raiseIf (grant.active now = false ∨ isUserId 127 grant.userId = false) invalid
  -- the scopes and the expiry
  let terms ← redeemable rules grant now
  let auth ← issueSession rules.auth grant.userId terms.1 now terms.2 (some grant.grantId)
    draw.session s.auth
  let onboardingRequired := (s.profiles.find? grant.userId).all fun row => stripText row.name = ""
  return (⟨draw.session.token, terms.2, terms.1, grant.userId, grant.expiresAt, onboardingRequired⟩,
    { s with
      auth
      grants := s.grants.update grant.grantId fun row =>
        { row with
          firstRedeemedAt := some (row.firstRedeemedAt.getD now)
          lastRedeemedAt := some now }
      issued := rules.auth.sha256 draw.session.token :: s.issued })

/-- A grant is revoked unless it is. -/
def retire (grantId : String) (now : ℤ) (s : GrantState) : GrantState :=
  { s with
    grants := s.grants.update grantId fun grant =>
      { grant with revokedAt := some (grant.revokedAt.getD now) } }

/-- The transaction of `revoke_friend_beta_access_grant`. -/
def revoke (grantId : String) (now : ℤ) (s : GrantState) : GrantState :=
  { s.retire grantId now with
    auth := s.auth.revokeSessions
      (fun session => session.accessGrantId = some grantId ∧ session.revokedAt = none) now }

/-- The transaction of `revoke_session`. -/
def logout (token : String) (now : ℤ) (s : GrantState) : GrantState :=
  let row := s.auth.sessions.rows.find? fun row => rules.auth.hashToken token = some row.tokenHash
  let s := match row.bind (·.accessGrantId) with
    | none => s
    | some grantId => s.retire grantId now
  { s with auth := revokeSession rules.auth token now s.auth }

/-- The transaction of `_suspend_friend_beta_sessions_and_push`. -/
def suspend (now : ℤ) (s : GrantState) : GrantState :=
  { s with
    auth := s.auth.revokeSessions
      (fun session => session.accessGrantId ≠ none ∧ session.revokedAt = none) now }

end GrantState

/-- A check of a bearer, by its hash or by the id of its session, and the clock that it read. -/
structure BearerCheck where
  identity : String
  bySessionId : Bool
  now : ℤ
  deriving DecidableEq, Repr

/-- What `_verified_session` reads: whether the bearer is of a grant, and whether it holds. -/
structure BearerReading where
  ofGrant : Bool
  result : Except HttpException GatewaySession

namespace GrantState

/-- The row that a check selects. -/
def selected (check : BearerCheck) (s : GrantState) : Option GatewaySession :=
  s.auth.sessions.rows.find? fun row =>
    if check.bySessionId then row.sessionId = check.identity else row.tokenHash = check.identity

/-- The statement of `_verified_session`. -/
def read (rules : GrantRules) (check : BearerCheck) (s : GrantState) : BearerReading :=
  let grantId := (s.selected check).bind (·.accessGrantId)
  let grant := grantId.bind s.grants.find?
  { ofGrant := grantId.isSome
    result := verifiedSession rules.auth check.identity check.bySessionId check.now
      (grant.any (·.active check.now)) s.auth }

end GrantState

/-- A request. -/
inductive GrantCall where
  | create (request : GrantRequest)
  | redeem (accessCode : String)
  | revoke (grantId : String)
  | logout (token : String)
  | cleanup
  | verify (identity : String) (bySessionId : Bool)
  /-- `validate_friend_beta_configuration` -/
  | validate
  deriving DecidableEq

/-- Where a request is. -/
inductive GrantWork where
  | create (userId : String) (selected : List String) (ttlSeconds : ℤ)
  | createAt (userId : String) (selected : List String) (ttlSeconds issuedAt : ℤ)
  | redeem (accessCode : String)
  | redeeming (accessCode : String)
  | redeemAt (accessCode : String) (now : ℤ)
  | revoke (grantId : String)
  | revokeAt (grantId : String) (now : ℤ)
  | logout (token : String)
  | logoutAt (token : String) (now : ℤ)
  | cleanup
  | cleanupAt (now : ℤ)
  | verify (identity : String) (bySessionId : Bool)
  | verifyAt (check : BearerCheck)
  | verified (check : BearerCheck) (reading : BearerReading)
  | validate
  | validateAt (flag : FriendBetaFlag)
  | suspendAt (now : ℤ)

namespace GrantWork

/-- Where a request starts, unless it is refused at once. -/
def first (rules : GrantRules) : GrantCall → Option GrantWork
  | .create request => (request.check rules).toOption.map fun checked =>
    .create checked.1 checked.2 request.ttlSeconds
  | .redeem accessCode => some (.redeem accessCode)
  | .revoke grantId => if isGrantId grantId then some (.revoke grantId) else none
  | .logout token => (rules.auth.hashToken token).map fun _ => .logout token
  | .cleanup => some .cleanup
  | .verify identity bySessionId => some (.verify identity bySessionId)
  | .validate => some .validate

/-- A turn of a request. -/
def turn (rules : GrantRules) (draw : GrantDraw) : GrantWork → GrantState →
    GrantState × Option GrantWork
  | .create userId selected ttl, s => (s, some (.createAt userId selected ttl s.clock))
  | .createAt userId selected ttl issuedAt, s =>
    (commit (stateOf (s.create rules userId selected ttl issuedAt draw)) s, none)
  | .redeem accessCode, s =>
    (s, if s.flag = .on ∧ isAccessCode accessCode then some (.redeeming accessCode) else none)
  | .redeeming accessCode, s => (s, some (.redeemAt accessCode s.clock))
  | .redeemAt accessCode now, s => (commit (stateOf (s.redeem rules accessCode now draw)) s, none)
  | .revoke grantId, s => (s, some (.revokeAt grantId s.clock))
  | .revokeAt grantId now, s => (s.revoke grantId now, none)
  | .logout token, s => (s, some (.logoutAt token s.clock))
  | .logoutAt token now, s => (s.logout rules token now, none)
  | .cleanup, s => (s, some (.cleanupAt s.clock))
  | .cleanupAt now, s => ({ s with auth := s.auth.cleanupSessions now }, none)
  | .verify identity bySessionId, s => (s, some (.verifyAt ⟨identity, bySessionId, s.clock⟩))
  | .verifyAt check, s => (s, some (.verified check (s.read rules check)))
  | .verified check reading, s =>
    -- a bearer of a grant meets the switch
    (s, if reading.ofGrant ∧ s.flag = .off then some (.suspendAt check.now) else none)
  | .validate, s => (s, some (.validateAt s.flag))
  | .validateAt flag, s => (s, if flag = .off then some (.suspendAt s.clock) else none)
  | .suspendAt now, s => (s.suspend now, none)

end GrantWork

/-- A request starts or takes a turn, the switch is set, or time passes. -/
inductive GrantTurn where
  | start (call : GrantCall)
  | turn (i : ℕ) (draw : GrantDraw)
  | toggle (flag : FriendBetaFlag)
  | tick (seconds : ℕ)
  deriving DecidableEq

/-- The grants and the requests that are under way. -/
abbrev GrantService := Pool GrantState GrantWork

namespace GrantService

/-- A step of the service. -/
def step (rules : GrantRules) (p : GrantService) : GrantTurn → GrantService
  | .start call => (GrantWork.first rules call).elim p p.spawn
  | .turn i draw => p.turn i (GrantWork.turn rules draw)
  | .toggle flag => p.write { p.shared with flag }
  | .tick seconds => p.write { p.shared with clock := p.shared.clock + seconds }

/-- No grants and no requests, and the switch off. -/
def initial : GrantService := ⟨⟨.initial, .empty, .empty, .off, 0, []⟩, []⟩

/-- The turn of a request accepts a bearer. -/
def Accepts (p : GrantService) (i : ℕ) (session : GatewaySession) : Prop :=
  ∃ check reading, p.workers[i]? = some (.verified check reading) ∧ reading.result = .ok session ∧
    (reading.ofGrant = true → p.shared.flag = .on)

end GrantService

end Magistrate
