import Mathlib.Data.List.Sort
import Magistrate.Core.Json
import Magistrate.Core.Pool
import Magistrate.Core.Rewrite

/-!
# Provider sessions

A sign-in answers a challenge with an identity assertion and starts a family of
refresh tokens. A refresh consumes the token of a family for the next one and
replaces its bearer; a consumed token that comes back, or one from another
channel, ends the family, and so do a logout and the removal of the login
method. Old rows are cleaned up along the way.
-/

namespace Magistrate

/-- `HTTPException` -/
structure HttpException where
  statusCode : ℕ
  detail : String
  deriving DecidableEq, Repr

/-- `ProviderName` -/
inductive ProviderName where
  | apple
  | google
  deriving DecidableEq, Repr

/-- `ChallengeAction` -/
inductive ChallengeAction where
  | signIn
  | link
  deriving DecidableEq, Repr

/-- `ClientPlatform` -/
inductive ClientPlatform where
  | native
  | web
  deriving DecidableEq, Repr

/-- What a request is authenticated as, as far as login methods need it. -/
structure LoginPrincipal where
  userId : String
  authAccountId : Option String
  deriving DecidableEq, Repr

/-- A row of `provider_auth_challenges`. -/
structure AuthChallenge where
  challengeId : String
  provider : ProviderName
  action : ChallengeAction
  nonceHash : String
  ownerUserId : Option String
  clientPlatform : ClientPlatform
  redirectUri : Option String
  createdAt : ℤ
  expiresAt : ℤ
  consumedAt : Option ℤ
  deriving DecidableEq, Repr

/-- A row of `provider_assertions`. -/
structure ProviderAssertion where
  assertionHash : String
  challengeId : String
  connectedAccountId : String
  acceptedAt : ℤ
  deriving DecidableEq, Repr

/-- A login row of `connected_accounts`. -/
structure LoginAccount where
  id : String
  userId : String
  provider : ProviderName
  providerUserId : String
  connected : Bool
  updatedAt : ℤ
  deriving DecidableEq, Repr

/-- A row of `provider_session_families`. -/
structure SessionFamily where
  familyId : String
  userId : String
  connectedAccountId : String
  provider : ProviderName
  clientPlatform : ClientPlatform
  scopes : List String
  createdAt : ℤ
  expiresAt : ℤ
  lastRotatedAt : ℤ
  revokedAt : Option ℤ
  revokeReason : Option String
  deriving DecidableEq, Repr

/-- A row of `provider_refresh_tokens`. -/
structure RefreshToken where
  tokenHash : String
  familyId : String
  issuedAt : ℤ
  expiresAt : ℤ
  consumedAt : Option ℤ
  deriving DecidableEq, Repr

/-- A row of `gateway_sessions`. -/
structure GatewaySession where
  sessionId : String
  tokenHash : String
  userId : String
  scopes : List String
  issuedAt : ℤ
  expiresAt : ℤ
  revokedAt : Option ℤ
  accessGrantId : Option String
  providerSessionId : Option String
  authAccountId : Option String
  deriving DecidableEq, Repr

/-- What ends a family. -/
inductive FamilyEnd where
  | reuse
  | channelMismatch
  | logout
  | unlink
  deriving DecidableEq, Repr

/-- What happens to challenges and families: a challenge is made, an exchange accepts it with an
identity token, a family is issued with its first refresh token, a refresh token is rotated to the
next one, a family ends, or a bearer of it is accepted. -/
inductive AuthEvent where
  | challenged (challengeId nonceHash : String)
  | exchanged (challengeId identityToken : String)
  | issued (familyId tokenHash : String)
  | rotated (familyId tokenHash nextHash : String)
  | ended (familyId : String) (why : FamilyEnd)
  | accepted (familyId : String)
  deriving DecidableEq, Repr

/-- The tables of the sessions, and what happened so far. -/
structure AuthState where
  challenges : Table AuthChallenge.challengeId
  assertions : Table ProviderAssertion.assertionHash
  accounts : Table LoginAccount.id
  families : Table SessionFamily.familyId
  refreshTokens : Table RefreshToken.tokenHash
  sessions : Table GatewaySession.sessionId
  history : List AuthEvent

/-- The tables of a new database. -/
def AuthState.initial : AuthState := ⟨.empty, .empty, .empty, .empty, .empty, .empty, []⟩

/-- The configuration, and what the sessions compute from texts: digests, the claims of a well
formed token, the scheme of a registered redirect, and the principals that the deployment admits. -/
structure AuthRules where
  sha256 : String → String
  tokenClaims : String → Option Json
  redirectScheme : String → Except HttpException String
  admits : GatewaySession → Bool
  configuredIds : ProviderName → List String
  platformClientIds : ProviderName → ClientPlatform → List String
  appleWeb : Bool
  production : Bool
  providerScopes : List String
  refreshTtlSeconds : ℤ
  sessionTtlSeconds : ℤ

/-- `PROVIDER_CHALLENGE_TTL_SECONDS` -/
def providerChallengeTtlSeconds : ℤ := 10 * 60

/-- `PROVIDER_REFRESH_MAX_TTL_SECONDS` -/
def providerRefreshMaxTtlSeconds : ℤ := 90 * 24 * 60 * 60

/-- `MAX_ID_TOKEN_BYTES` -/
def maxIdTokenBytes : ℕ := 24 * 1024

/-- `MAX_ACTIVE_CHALLENGES` -/
def maxActiveChallenges : ℕ := 10000

/-- `MAX_EXPIRED_SESSION_FAMILY_CLEANUP` -/
def maxExpiredSessionFamilyCleanup : ℕ := 100

/-- `SESSION_RETENTION_SECONDS` -/
def sessionRetentionSeconds : ℤ := 30 * 24 * 3600

/-- `KNOWN_SCOPES` -/
def knownScopes : List String :=
  ["read", "account", "providers", "notifications", "voice", "command", "response"]

/-- The characters of URL-safe base64. -/
def urlSafe (c : Char) : Bool := c.isAlphanum ∨ c = '_' ∨ c = '-'

/-- A text of a prefix and a number of URL-safe characters. -/
def safeToken (start : String) (least most : ℕ) (text : String) : Bool :=
  start.toList.isPrefixOf text.toList ∧
    least ≤ text.length - start.length ∧ text.length - start.length ≤ most ∧
    (text.toList.drop start.length).all urlSafe

/-- `_SAFE_CHALLENGE` -/
def safeChallenge (text : String) : Bool := safeToken "pac_" 20 40 text

/-- `_SAFE_REFRESH` -/
def safeRefresh (text : String) : Bool := safeToken "mgr_" 32 80 text

/-- `_SAFE_SUBJECT` -/
def safeSubject (text : String) : Bool :=
  1 ≤ text.length ∧ text.length ≤ 255 ∧
    text.toList.all fun c => 0x1f < c.toNat ∧ ¬(0x7f ≤ c.toNat ∧ c.toNat ≤ 0x9f)

/-- `_ISSUERS` -/
def issuers : ProviderName → List String
  | .apple => ["https://appleid.apple.com"]
  | .google => ["https://accounts.google.com", "accounts.google.com"]

/-- The name of a provider. -/
def ProviderName.name : ProviderName → String
  | .apple => "apple"
  | .google => "google"

/-- `provider.title()` -/
def ProviderName.title : ProviderName → String
  | .apple => "Apple"
  | .google => "Google"

/-- `_hash_token`, which encodes ASCII only. -/
def AuthRules.hashToken (rules : AuthRules) (token : String) : Option String :=
  if token.toList.all fun c => c.toNat < 128 then some (rules.sha256 token) else none

/-- `_provider_scopes` -/
def AuthRules.scopes (rules : AuthRules) : Except HttpException (List String) := do
  let scopes := rules.providerScopes
  raiseIf (scopes = [] ∨ ¬scopes ⊆ knownScopes ∨ "response" ∈ scopes ∨
    ¬["read", "account"] ⊆ scopes)
    ⟨503, "Provider session configuration is invalid."⟩
  return scopes

/-- `_refresh_expiry` -/
def AuthRules.refreshExpiry (rules : AuthRules) (now : ℤ) : Except HttpException ℤ := do
  raiseIf (rules.refreshTtlSeconds < 3600 ∨ providerRefreshMaxTtlSeconds < rules.refreshTtlSeconds)
    ⟨503, "Provider session configuration is invalid."⟩
  return now + rules.refreshTtlSeconds

/-- `_configured_session_ttl` -/
def AuthRules.sessionExpiry (rules : AuthRules) (now cap : ℤ) : Except HttpException ℤ := do
  raiseIf (rules.sessionTtlSeconds ≤ 0 ∨ 86400 < rules.sessionTtlSeconds)
    ⟨500, "Session lifetime is not configured safely"⟩
  return min (now + rules.sessionTtlSeconds) cap

/-- What a family is revoked with: the moment stays if there is one. -/
def SessionFamily.revoke (reason : Option String → String) (now : ℤ) (family : SessionFamily) :
    SessionFamily :=
  { family with
    revokedAt := some (family.revokedAt.getD now)
    revokeReason := some (reason family.revokeReason) }

/-- A bearer of a family that is not revoked. -/
def GatewaySession.liveOf (familyId : String) (session : GatewaySession) : Bool :=
  session.providerSessionId = some familyId ∧ session.revokedAt = none

/-- A refresh token of a family that is not consumed. -/
def RefreshToken.liveOf (familyId : String) (token : RefreshToken) : Bool :=
  token.familyId = familyId ∧ token.consumedAt = none

namespace AuthState

/-- The bearers that meet a condition are revoked. -/
def revokeSessions (p : GatewaySession → Bool) (now : ℤ) (s : AuthState) : AuthState :=
  { s with sessions := s.sessions.updateWhere p fun session =>
      { session with revokedAt := some now } }

/-- A family is revoked with its bearers. -/
def revokeFamily (reason : Option String → String) (now : ℤ) (familyId : String) (s : AuthState) :
    AuthState :=
  revokeSessions (GatewaySession.liveOf familyId) now
    { s with families := s.families.update familyId (SessionFamily.revoke reason now) }

/-- What a family that is stored sees. -/
def ends (familyId : String) (why : FamilyEnd) (s : AuthState) : AuthState :=
  if (s.families.find? familyId).isSome then
    { s with history := s.history ++ [.ended familyId why] }
  else s

/-- Families are removed with their refresh tokens and bearers. -/
def removeFamilies (familyIds : List String) (s : AuthState) : AuthState :=
  { s with
    sessions := s.sessions.removeWhere fun session =>
      session.providerSessionId.any (· ∈ familyIds)
    refreshTokens := s.refreshTokens.removeWhere (·.familyId ∈ familyIds)
    families := s.families.removeWhere (·.familyId ∈ familyIds) }

/-- `_cleanup_expired_session_families` -/
def cleanupExpiredSessionFamilies (now : ℤ) (s : AuthState) : AuthState :=
  let expired := (s.families.rows.filter (·.expiresAt ≤ now)).insertionSort
    (fun a b => a.expiresAt ≤ b.expiresAt)
  s.removeFamilies ((expired.take maxExpiredSessionFamilyCleanup).map (·.familyId))

/-- `cleanup_sessions` -/
def cleanupSessions (now : ℤ) (s : AuthState) : AuthState :=
  let cutoff := now - sessionRetentionSeconds
  { s with sessions := s.sessions.removeWhere fun session =>
      session.revokedAt.any (· < cutoff) ∨ session.expiresAt < cutoff }

/-- `enforce_retention`, of the tables of the sessions. -/
def enforceRetention (now : ℤ) (s : AuthState) : AuthState :=
  let sessionCutoff := now - 30 * 24 * 3600
  let challengeCutoff := now - 24 * 3600
  let old := fun family : SessionFamily =>
    decide (family.expiresAt < sessionCutoff) || family.revokedAt.any (· < sessionCutoff)
  let refreshTokens := s.refreshTokens.removeWhere fun token =>
    token.expiresAt < sessionCutoff ∨
      s.families.rows.any fun family => old family ∧ family.familyId = token.familyId
  { s with
    sessions := s.sessions.removeWhere fun session =>
      session.expiresAt < sessionCutoff ∨ session.revokedAt.any (· < sessionCutoff)
    challenges := s.challenges.removeWhere (·.expiresAt < challengeCutoff)
    refreshTokens
    families := s.families.removeWhere fun family =>
      old family ∧ ¬refreshTokens.rows.any (·.familyId = family.familyId) }

end AuthState

/-- What a challenge is asked for. -/
structure ChallengeRequest where
  provider : ProviderName
  action : ChallengeAction
  clientPlatform : ClientPlatform
  redirectUri : Option String
  principal : Option LoginPrincipal
  deriving DecidableEq, Repr

/-- The answer to `create_challenge`. -/
structure ChallengeReply where
  challengeId : String
  provider : ProviderName
  action : ChallengeAction
  nonce : String
  authorizationNonce : String
  redirectUri : Option String
  expiresAt : ℤ
  deriving DecidableEq, Repr

/-- `_validate_redirect_uri`, with the scheme of the redirect. -/
def validateRedirectUri (rules : AuthRules) (required : Bool) :
    Option String → Except HttpException (Option String)
  | none => do
    raiseIf (required = true) ⟨422, "A registered sign-in redirect URI is required."⟩
    return none
  | some value => do
    let scheme ← rules.redirectScheme value
    return some scheme

/-- The checks of `create_challenge`. -/
def challengeAllowed (rules : AuthRules) (request : ChallengeRequest) :
    Except HttpException Unit := do
  let title := request.provider.title
  raiseIf (rules.configuredIds request.provider = []) ⟨503, title ++ " sign-in is not configured."⟩
  raiseIf (request.action = .link ∧ request.principal = none)
    ⟨401, "Authentication is required to link a provider."⟩
  raiseIf (request.action = .signIn ∧ request.principal ≠ none)
    ⟨409, "Sign out before starting another sign-in."⟩
  let scheme ← validateRedirectUri rules
    (request.clientPlatform = .web ∨ request.provider = .google) request.redirectUri
  let http := scheme = some "http" ∨ scheme = some "https"
  raiseIf (request.clientPlatform = .web ∧ ¬http ∨
      request.clientPlatform = .native ∧ request.provider = .google ∧ http ∨
      request.clientPlatform = .native ∧ request.provider = .apple ∧ request.redirectUri ≠ none)
    ⟨422, "The sign-in redirect does not match the client platform."⟩
  raiseIf (rules.production ∧ rules.platformClientIds request.provider request.clientPlatform = [])
    ⟨503, title ++ " sign-in is not configured for this client."⟩
  raiseIf (request.provider = .apple ∧ request.clientPlatform = .web ∧ rules.appleWeb = false)
    ⟨503, "Apple web sign-in is not configured."⟩

/-- `create_challenge`, with the id and the nonce that it draws. -/
def createChallenge (rules : AuthRules) (request : ChallengeRequest) (challengeId nonce : String)
    (now : ℤ) (s : AuthState) : Except HttpException (ChallengeReply × AuthState) := do
  challengeAllowed rules request
  let nonceHash := rules.sha256 nonce
  let s := s.cleanupExpiredSessionFamilies now
  let assertions := s.assertions.removeWhere (·.acceptedAt < now - 86400)
  let challenges := s.challenges.removeWhere fun row =>
    row.expiresAt < now - 86400 ∧ ¬assertions.rows.any (·.challengeId = row.challengeId)
  raiseIf (maxActiveChallenges ≤ challenges.rows.countP fun row =>
      row.consumedAt = none ∧ now < row.expiresAt)
    ⟨503, "Sign-in is temporarily busy. Try again shortly."⟩
  raiseIf (challenges.find? challengeId ≠ none) ⟨500, "UNIQUE constraint failed"⟩
  let row : AuthChallenge :=
    { challengeId
      provider := request.provider
      action := request.action
      nonceHash
      ownerUserId := request.principal.map (·.userId)
      clientPlatform := request.clientPlatform
      redirectUri := request.redirectUri
      createdAt := now
      expiresAt := now + providerChallengeTtlSeconds
      consumedAt := none }
  let reply : ChallengeReply :=
    { challengeId
      provider := request.provider
      action := request.action
      nonce
      authorizationNonce := if request.provider = .apple then nonceHash else nonce
      redirectUri := request.redirectUri
      expiresAt := now + providerChallengeTtlSeconds }
  let history := s.history ++ [.challenged challengeId nonceHash]
  return (reply, { s with assertions, challenges := challenges.insertOrIgnore row, history })

/-- `ProviderClaims`, as far as accounts need them. -/
structure ProviderClaims where
  subject : String
  assertionHash : String
  audience : String
  deriving DecidableEq, Repr

/-- The distinct audiences of an `aud` claim. -/
def tokenAudiences : Json → List String
  | .str value => [value]
  | .arr items => if items.all (·.str?.isSome) then (items.filterMap Json.str?).dedup else []
  | _ => []

/-- Whether an `azp` claim is missing or names an audience that is configured. -/
def authorizedPartyValid (configured audiences : List String) : Json → Bool
  | .null => true
  | .str value => value ∈ configured ∧ value ∈ audiences
  | _ => false

/-- `verify_identity_token`, of a token that its provider did or did not sign. -/
def verifyIdentityToken (rules : AuthRules) (provider : ProviderName)
    (identityToken rawNonce : String) (signed : Bool) (current : ℤ) :
    Except HttpException ProviderClaims := do
  raiseIf (identityToken = "" ∨ maxIdTokenBytes < identityToken.utf8ByteSize ∨
      rawNonce.length < 32 ∨ 128 < rawNonce.length)
    ⟨401, "The provider assertion is invalid."⟩
  match rules.tokenClaims identityToken with
  | none => .error ⟨401, "The provider assertion is invalid."⟩
  | some claims => do
    raiseIf (signed = false) ⟨401, "The provider assertion signature is invalid."⟩
    let audiences := tokenAudiences (claims.get "aud")
    let configured := rules.configuredIds provider
    let expectedNonce := if provider = .apple then rules.sha256 rawNonce else rawNonce
    raiseIf (authorizedPartyValid configured audiences (claims.get "azp") = false)
      ⟨401, "The provider assertion claims are invalid."⟩
    match (claims.get "iss").str?, (claims.get "sub").str?, (claims.get "exp").int?,
        (claims.get "iat").int?, (claims.get "nonce").str? with
    | some issuer, some subject, some expiration, some issuedAt, some nonceClaim => do
      raiseIf (issuer ∉ issuers provider ∨ safeSubject subject = false ∨
          ¬audiences.any (· ∈ configured) ∨ expiration ≤ current - 30 ∨ expiration ≤ issuedAt ∨
          current + 86400 < expiration ∨ current + 120 < issuedAt ∨ issuedAt < current - 86400 ∨
          nonceClaim ≠ expectedNonce)
        ⟨401, "The provider assertion claims are invalid."⟩
      raiseIf (1 < audiences.length ∧ (claims.get "azp").str? = none)
        ⟨401, "The provider assertion claims are invalid."⟩
      return {
        subject
        assertionHash := rules.sha256 identityToken
        audience := (claims.get "azp").str?.getD (audiences.headD "") }
    | _, _, _, _, _ => .error ⟨401, "The provider assertion claims are invalid."⟩

/-- The bearer that `_insert_session` draws. -/
structure SessionDraw where
  token : String
  sessionId : String
  deriving DecidableEq, Repr

/-- The answer of `_session_payload`. -/
structure SessionPayload where
  sessionToken : String
  expiresAt : ℤ
  scopes : List String
  userId : String
  authMethod : ProviderName
  refreshExpiresAt : ℤ
  refreshToken : String
  deriving DecidableEq, Repr

/-- `_insert_session` -/
def insertSession (rules : AuthRules) (userId : String) (scopes : List String) (now expiresAt : ℤ)
    (accessGrantId providerSessionId authAccountId : Option String) (draw : SessionDraw)
    (s : AuthState) : Except HttpException AuthState := do
  let tokenHash := rules.sha256 draw.token
  raiseIf (s.sessions.find? draw.sessionId ≠ none ∨ s.sessions.rows.any (·.tokenHash = tokenHash))
    ⟨500, "UNIQUE constraint failed"⟩
  let row : GatewaySession :=
    { sessionId := draw.sessionId
      tokenHash
      userId
      scopes
      issuedAt := now
      expiresAt
      revokedAt := none
      accessGrantId
      providerSessionId
      authAccountId }
  return { s with sessions := s.sessions.insertOrIgnore row }

/-- The next refresh token of a family, and its bearer by `_session_payload`. -/
def continueFamily (rules : AuthRules) (family : SessionFamily) (now : ℤ) (refreshToken : String)
    (draw : SessionDraw) (s : AuthState) : Except HttpException (SessionPayload × AuthState) := do
  let tokenHash := rules.sha256 refreshToken
  raiseIf (s.refreshTokens.find? tokenHash ≠ none) ⟨500, "UNIQUE constraint failed"⟩
  let row : RefreshToken :=
    { tokenHash
      familyId := family.familyId
      issuedAt := now
      expiresAt := family.expiresAt
      consumedAt := none }
  let expiresAt ← rules.sessionExpiry now family.expiresAt
  let s ← insertSession rules family.userId family.scopes now expiresAt none (some family.familyId)
    (some family.connectedAccountId) draw
    { s with refreshTokens := s.refreshTokens.insertOrIgnore row }
  return ({
    sessionToken := draw.token
    expiresAt
    scopes := family.scopes
    userId := family.userId
    authMethod := family.provider
    refreshExpiresAt := family.expiresAt
    refreshToken }, s)

/-- What an exchange answers a challenge with. -/
structure ExchangeRequest where
  provider : ProviderName
  challengeId : String
  rawNonce : String
  identityToken : Option String
  authorizationCode : Option String
  redirectUri : Option String
  principal : Option LoginPrincipal
  deriving DecidableEq, Repr

/-- What an exchange meets and draws: the token that Apple returns for a code, whether the provider
signed the token, the clock of that, whether the account has a profile, and what is new. -/
structure ExchangeDraw where
  appleToken : Except HttpException String
  signed : Bool
  current : ℤ
  profile : Bool
  userId : String
  accountId : String
  familyId : String
  refreshToken : String
  session : SessionDraw

/-- The answer of `exchange_challenge`. -/
inductive ExchangeReply where
  | linked (provider : ProviderName) (userId : String)
  | session (payload : SessionPayload) (clientPlatform : ClientPlatform)
  deriving DecidableEq, Repr

/-- `exchange_challenge` up to the answer of the provider: the challenge that it reads. -/
def readChallenge (rules : AuthRules) (request : ExchangeRequest) (now : ℤ) (s : AuthState) :
    Except HttpException AuthChallenge := do
  raiseIf (safeChallenge request.challengeId = false)
    ⟨401, "The sign-in challenge is invalid or expired."⟩
  match s.challenges.find? request.challengeId with
  | none => .error ⟨401, "The sign-in challenge is invalid or expired."⟩
  | some challenge => do
    raiseIf (challenge.provider ≠ request.provider ∨ challenge.consumedAt ≠ none ∨
        challenge.expiresAt ≤ now ∨ challenge.nonceHash ≠ rules.sha256 request.rawNonce ∨
        challenge.action = .link ∧ (request.principal = none ∨
          request.principal.map (·.userId) ≠ challenge.ownerUserId) ∨
        challenge.action = .signIn ∧ request.principal ≠ none)
      ⟨401, "The sign-in challenge is invalid or expired."⟩
    raiseIf (request.redirectUri ≠ challenge.redirectUri)
      ⟨401, "The sign-in redirect does not match its challenge."⟩
    return challenge

/-- The identity token of an exchange: the given one, or the one that Apple returns for a code. -/
def exchangedToken (request : ExchangeRequest) (appleToken : Except HttpException String) :
    Except HttpException String := do
  let code := request.authorizationCode.filter (· ≠ "")
  let given := request.identityToken.filter (· ≠ "")
  raiseIf (code ≠ none ∧ (request.provider ≠ .apple ∨ given ≠ none))
    ⟨422, "The provider response is ambiguous."⟩
  let token ← if code = none then Except.ok (given.getD "") else appleToken
  raiseIf (token = "") ⟨422, "A provider identity assertion is required."⟩
  return token

/-- The login account of an exchange, stored as connected. -/
def connectAccount (request : ExchangeRequest) (action : ChallengeAction) (subject : String)
    (now : ℤ) (draw : ExchangeDraw) (s : AuthState) :
    Except HttpException (LoginAccount × AuthState) := do
  let ownerUserId := request.principal.map (·.userId)
  match s.accounts.rows.find? fun a =>
      a.provider = request.provider ∧ a.providerUserId = subject with
  | some account => do
    raiseIf (action = .link ∧ some account.userId ≠ ownerUserId)
      ⟨409, "That provider identity belongs to another account."⟩
    raiseIf (action = .signIn ∧ account.connected = false) ⟨403,
      "This sign-in method was removed from the account. Use a linked recovery method."⟩
    let connect := fun a : LoginAccount => { a with connected := true, updatedAt := now }
    return (connect account, { s with accounts := s.accounts.update account.id connect })
  | none => do
    raiseIf (action = .link ∧ s.accounts.rows.any fun a =>
        some a.userId = ownerUserId ∧ a.provider = request.provider ∧ a.connected)
      ⟨409, "A " ++ request.provider.title ++ " sign-in is already linked to this account."⟩
    raiseIf (s.accounts.find? draw.accountId ≠ none) ⟨500, "UNIQUE constraint failed"⟩
    let account : LoginAccount :=
      { id := draw.accountId
        userId := ownerUserId.getD draw.userId
        provider := request.provider
        providerUserId := subject
        connected := true
        updatedAt := now }
    return (account, { s with accounts := s.accounts.insertOrIgnore account })

/-- The transaction of `exchange_challenge`, with the assertion of a verified token. -/
def acceptAssertion (rules : AuthRules) (request : ExchangeRequest) (identityToken : String)
    (claims : ProviderClaims) (scopes : List String) (now : ℤ) (draw : ExchangeDraw)
    (s : AuthState) : Except HttpException (ExchangeReply × AuthState) := do
  match s.challenges.find? request.challengeId with
  | none => .error ⟨409, "That sign-in response was already used."⟩
  | some current => do
    raiseIf (current.consumedAt ≠ none ∨ current.expiresAt ≤ now ∨
        current.provider ≠ request.provider)
      ⟨409, "That sign-in response was already used."⟩
    raiseIf (s.assertions.find? claims.assertionHash ≠ none)
      ⟨409, "That provider assertion was already used."⟩
    let (account, s) ← connectAccount request current.action claims.subject now draw s
    raiseIf (draw.profile = false) ⟨503, "The account profile could not be established."⟩
    raiseIf (s.assertions.rows.any (·.challengeId = request.challengeId))
      ⟨500, "UNIQUE constraint failed"⟩
    let assertion : ProviderAssertion :=
      { assertionHash := claims.assertionHash
        challengeId := request.challengeId
        connectedAccountId := account.id
        acceptedAt := now }
    let s := { s with
      challenges := s.challenges.update request.challengeId fun row =>
        { row with consumedAt := some now }
      assertions := s.assertions.insertOrIgnore assertion
      history := s.history ++ [.exchanged request.challengeId identityToken] }
    match current.action with
    | .link => return (.linked request.provider account.userId, s)
    | .signIn => do
      let expiresAt ← rules.refreshExpiry now
      raiseIf (s.families.find? draw.familyId ≠ none) ⟨500, "UNIQUE constraint failed"⟩
      let family : SessionFamily :=
        { familyId := draw.familyId
          userId := account.userId
          connectedAccountId := account.id
          provider := request.provider
          clientPlatform := current.clientPlatform
          scopes
          createdAt := now
          expiresAt
          lastRotatedAt := now
          revokedAt := none
          revokeReason := none }
      let (payload, s) ← continueFamily rules family now draw.refreshToken draw.session
        { s with
          families := s.families.insertOrIgnore family
          history := s.history ++ [.issued draw.familyId (rules.sha256 draw.refreshToken)] }
      return (.session payload current.clientPlatform, s)

/-- `exchange_challenge` from the answer of the provider on. -/
def completeExchange (rules : AuthRules) (request : ExchangeRequest) (challenge : AuthChallenge)
    (now : ℤ) (draw : ExchangeDraw) (s : AuthState) :
    Except HttpException (ExchangeReply × AuthState) := do
  let identityToken ← exchangedToken request draw.appleToken
  let claims ← verifyIdentityToken rules request.provider identityToken request.rawNonce
    draw.signed draw.current
  let platformIds := rules.platformClientIds request.provider challenge.clientPlatform
  raiseIf (platformIds ≠ [] ∧ claims.audience ∉ platformIds)
    ⟨401, "The provider assertion does not match this client platform."⟩
  let scopes ← rules.scopes
  acceptAssertion rules request identityToken claims scopes now draw s

/-- A stored refresh token with its family and the account of that. -/
def refreshRow (s : AuthState) (tokenHash : String) :
    Option (RefreshToken × SessionFamily × LoginAccount) := do
  let token ← s.refreshTokens.find? tokenHash
  let family ← s.families.find? token.familyId
  let account ← s.accounts.find? family.connectedAccountId
  return (token, family, account)

/-- The rotation of `refresh_session`. -/
def rotateFamily (rules : AuthRules) (token : RefreshToken) (family : SessionFamily) (now : ℤ)
    (nextRefresh : String) (draw : SessionDraw) (s : AuthState) :
    Except HttpException (SessionPayload × AuthState) := do
  raiseIf (family.scopes = [] ∨ ¬family.scopes ⊆ knownScopes ∨ "response" ∈ family.scopes)
    ⟨503, "Provider session configuration is invalid."⟩
  let consumed := { s with
    refreshTokens := s.refreshTokens.update token.tokenHash fun row =>
      { row with consumedAt := some now } }
  let (payload, s) ← continueFamily rules family now nextRefresh draw
    (consumed.revokeSessions (GatewaySession.liveOf family.familyId) now)
  return (payload, { s with
    families := s.families.update family.familyId fun row => { row with lastRotatedAt := now }
    history := s.history ++ [.rotated family.familyId token.tokenHash (rules.sha256 nextRefresh)] })

/-- `refresh_session`, which also commits when it raises on a token that ends its family. -/
def refreshSession (rules : AuthRules) (refreshToken : String) (clientPlatform : ClientPlatform)
    (now : ℤ) (nextRefresh : String) (draw : SessionDraw) (s : AuthState) :
    Except HttpException SessionPayload × AuthState :=
  if safeRefresh refreshToken = false then
    (.error ⟨401, "The provider session is invalid or expired."⟩, s)
  else
    let cleaned := s.cleanupExpiredSessionFamilies now
    match refreshRow cleaned (rules.sha256 refreshToken) with
    | none => (.error ⟨401, "The provider session is invalid or expired."⟩, s)
    | some (token, family, account) =>
      if token.consumedAt ≠ none then
        (.error ⟨401, "The provider session was revoked."⟩,
          (cleaned.revokeFamily (fun _ => "refresh-reuse") now family.familyId).ends
            family.familyId .reuse)
      else if family.clientPlatform ≠ clientPlatform then
        (.error ⟨401, "The provider session was revoked."⟩,
          (cleaned.revokeFamily (fun _ => "refresh-channel-mismatch") now family.familyId).ends
            family.familyId .channelMismatch)
      else if family.revokedAt ≠ none ∨ family.expiresAt ≤ now ∨ token.expiresAt ≤ now ∨
          account.connected = false then
        (.error ⟨401, "The provider session is invalid or expired."⟩,
          cleaned.revokeFamily (·.getD "expired") now family.familyId)
      else
        match rotateFamily rules token family now nextRefresh draw cleaned with
        | .error e => (.error e, s)
        | .ok (payload, s') => (.ok payload, s')

/-- `unlink_login_method` -/
def unlinkLoginMethod (principal : LoginPrincipal) (provider : ProviderName) (now : ℤ)
    (s : AuthState) : Except HttpException AuthState := do
  let methods := s.accounts.rows.filter fun a => a.userId = principal.userId ∧ a.connected
  match methods.find? (·.provider = provider) with
  | none => .error ⟨404, "That sign-in method is not linked."⟩
  | some target => do
    raiseIf (some target.id = principal.authAccountId)
      ⟨409, "Sign in with another linked provider before removing the current method."⟩
    raiseIf (methods.length ≤ 1) ⟨409, "At least one sign-in method must remain linked."⟩
    let ofTarget := s.families.rows.filter (·.connectedAccountId = target.id)
    let familyIds := (ofTarget.filter (·.revokedAt = none)).map (·.familyId)
    let accounts := s.accounts.update target.id fun a =>
      { a with connected := false, updatedAt := now }
    let revoked := familyIds.foldl
      (fun s familyId => s.revokeFamily (fun _ => "login-method-removed") now familyId)
      { s with accounts }
    return (ofTarget.map (·.familyId)).foldl (fun s familyId => s.ends familyId .unlink) revoked

/-- `revoke_provider_family` -/
def revokeProviderFamily (familyId : String) (now : ℤ) (s : AuthState) : AuthState :=
  (s.revokeFamily (·.getD "logout") now familyId).ends familyId .logout

/-- `revoke_session` -/
def revokeSession (rules : AuthRules) (token : String) (now : ℤ) (s : AuthState) : AuthState :=
  match rules.hashToken token with
  | none => s
  | some tokenHash =>
    let revoked := s.revokeSessions (·.tokenHash = tokenHash) now
    match s.sessions.rows.find? (·.tokenHash = tokenHash) with
    | none => revoked
    | some row =>
      match row.accessGrantId, row.providerSessionId with
      | some grantId, _ => revoked.revokeSessions
          (fun session => session.accessGrantId = some grantId ∧ session.revokedAt = none) now
      | none, some familyId => revokeProviderFamily familyId now revoked
      | none, none => revoked

/-- Whether a bearer belongs to a family in force. -/
def providerValid (session : GatewaySession) (now : ℤ) (s : AuthState) : Bool :=
  match session.providerSessionId, session.authAccountId with
  | none, none => true
  | some familyId, some accountId =>
    ((s.families.find? familyId).any fun family =>
      family.connectedAccountId = accountId ∧ family.userId = session.userId ∧
        now < family.expiresAt ∧ family.revokedAt = none) &&
      (s.accounts.find? accountId).any fun account =>
        account.userId = session.userId ∧ account.connected
  | _, _ => false

/-- `_verified_session`, of a bearer whose access grant is in force or not. -/
def verifiedSession (rules : AuthRules) (identity : String) (bySessionId : Bool) (now : ℤ)
    (grantValid : Bool) (s : AuthState) : Except HttpException GatewaySession :=
  match s.sessions.rows.find? fun row =>
      if bySessionId then row.sessionId = identity else row.tokenHash = identity with
  | none => .error ⟨401, "Invalid or expired session"⟩
  | some row => do
    raiseIf (row.revokedAt ≠ none ∨ row.expiresAt ≤ now ∨
        row.accessGrantId ≠ none ∧ grantValid = false ∨ providerValid row now s = false ∨
        row.scopes = [] ∨ ¬row.scopes ⊆ knownScopes ∨ rules.admits row = false)
      ⟨401, "Invalid or expired session"⟩
    return row

/-- A bearer is accepted. -/
def acceptBearer (rules : AuthRules) (identity : String) (bySessionId : Bool) (now : ℤ)
    (grantValid : Bool) (s : AuthState) : AuthState :=
  match verifiedSession rules identity bySessionId now grantValid s with
  | .ok { providerSessionId := some familyId, .. } =>
    { s with history := s.history ++ [.accepted familyId] }
  | _ => s

/-- A bearer of no family is issued, after the old ones are cleaned up; a grant has one bearer. -/
def issueSession (rules : AuthRules) (userId : String) (scopes : List String) (now expiresAt : ℤ)
    (accessGrantId : Option String) (draw : SessionDraw) (s : AuthState) :
    Except HttpException AuthState :=
  insertSession rules userId scopes now expiresAt accessGrantId none none draw
    ((s.cleanupSessions now).revokeSessions (fun session => accessGrantId ≠ none ∧
      session.accessGrantId = accessGrantId ∧ session.revokedAt = none) now)

/-- An exchange that waits for its provider. -/
structure ExchangeTask where
  request : ExchangeRequest
  challenge : AuthChallenge
  now : ℤ

/-- What is done to the sessions: exchanges read their challenge and complete in turns, and the
other operations take one transaction. -/
inductive AuthStep where
  | createChallenge (request : ChallengeRequest) (challengeId nonce : String) (now : ℤ)
  | exchange (request : ExchangeRequest) (now : ℤ)
  | turn (task : ℕ) (draw : ExchangeDraw)
  | stop (task : ℕ)
  | refresh (refreshToken : String) (clientPlatform : ClientPlatform) (now : ℤ)
      (nextRefresh : String) (draw : SessionDraw)
  | unlink (principal : LoginPrincipal) (provider : ProviderName) (now : ℤ)
  | revokeSession (token : String) (now : ℤ)
  | revokeFamily (familyId : String) (now : ℤ)
  | verify (identity : String) (bySessionId : Bool) (now : ℤ) (grantValid : Bool)
  | issue (userId : String) (scopes : List String) (now expiresAt : ℤ)
      (accessGrantId : Option String) (draw : SessionDraw)
  | revokeGrant (grantId : String) (now : ℤ)
  | cleanupSessions (now : ℤ)
  | enforceRetention (now : ℤ)

/-- The tables and the exchanges after a step. -/
def authStep (rules : AuthRules) (p : Pool AuthState ExchangeTask) :
    AuthStep → Pool AuthState ExchangeTask
  | .createChallenge request challengeId nonce now =>
    p.write (commit (stateOf (createChallenge rules request challengeId nonce now
      p.shared)) p.shared)
  | .exchange request now =>
    match readChallenge rules request now p.shared with
    | .ok challenge => p.spawn ⟨request, challenge, now⟩
    | .error _ => p
  | .turn i draw => p.turn i fun task s =>
      (commit (stateOf (completeExchange rules task.request task.challenge task.now
        draw s)) s, none)
  | .stop i => p.turn i fun _ s => (s, none)
  | .refresh refreshToken clientPlatform now nextRefresh draw =>
    p.write (refreshSession rules refreshToken clientPlatform now nextRefresh draw p.shared).2
  | .unlink principal provider now =>
    p.write (commit (unlinkLoginMethod principal provider now p.shared) p.shared)
  | .revokeSession token now => p.write (Magistrate.revokeSession rules token now p.shared)
  | .revokeFamily familyId now => p.write (revokeProviderFamily familyId now p.shared)
  | .verify identity bySessionId now grantValid =>
    p.write (acceptBearer rules identity bySessionId now grantValid p.shared)
  | .issue userId scopes now expiresAt accessGrantId draw =>
    p.write (commit (issueSession rules userId scopes now expiresAt accessGrantId draw p.shared)
      p.shared)
  | .revokeGrant grantId now => p.write (p.shared.revokeSessions
      (fun session => session.accessGrantId = some grantId ∧ session.revokedAt = none) now)
  | .cleanupSessions now => p.write (p.shared.cleanupSessions now)
  | .enforceRetention now => p.write (p.shared.enforceRetention now)

end Magistrate
