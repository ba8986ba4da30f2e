import Magistrate.Gateway.Auth.Families

/-!
# Challenges, assertions and refresh tokens are accepted once

Every transaction keeps the tables sound, so in every run an exchange accepts its
challenge and its assertion for the first time, a refresh rotates its token for
the first time, and nothing of a family is accepted after it ended.
-/

namespace Magistrate

section Steps

variable {rules : AuthRules} {s s' : AuthState}

/-- A refresh token that is found is stored with its family. -/
theorem refreshRow_eq_some {tokenHash : String} {token : RefreshToken} {family : SessionFamily}
    {account : LoginAccount} (h : refreshRow s tokenHash = some (token, family, account)) :
    s.refreshTokens.find? token.tokenHash = some token ∧
      s.families.find? token.familyId = some family := by
  simp only [refreshRow, Option.bind_eq_bind, Option.bind_eq_some_iff, Option.pure_def,
    Option.some.injEq, Prod.mk.injEq] at h
  obtain ⟨row, hrow, found, hfound, _, -, rfl, rfl, -⟩ := h
  exact ⟨Table.find?_of_mem (Table.mem_of_find? hrow).1, hfound⟩

theorem AuthSound.refresh (h : AuthSound rules s) {refreshToken nextRefresh : String}
    {clientPlatform : ClientPlatform} {now : ℤ} {draw : SessionDraw}
    (hfresh : ¬Drawn s.history (rules.sha256 nextRefresh)) :
    AuthNext rules s (refreshSession rules refreshToken clientPlatform now
      nextRefresh draw s).2 := by
  have hcleaned := (AuthState.Retired.cleanupExpiredSessionFamilies now s).next h
  have hend := fun (reason : Option String → String) familyId =>
    hcleaned.trans ((AuthState.Retired.revokeFamily reason now familyId _).next hcleaned.sound)
  rw [refreshSession]
  split
  · exact .refl h
  · dsimp only
    split
    · exact .refl h
    · next token family account hrow =>
      obtain ⟨htoken, hfamily⟩ := refreshRow_eq_some hrow
      split
      · exact (hend _ _).trans ((hend _ _).sound.ends .reuse (revokeFamily_revokes _ now _ _))
      · next hlive =>
        split
        · exact (hend _ _).trans ((hend _ _).sound.ends .channelMismatch
            (revokeFamily_revokes _ now _ _))
        · split
          · exact hend _ _
          · next hvalid =>
            split
            · exact .refl h
            · next payload s' hok =>
              exact hcleaned.trans (hcleaned.sound.rotate htoken hfamily (not_not.mp hlive)
                (not_not.mp (not_or.mp hvalid).1) hfresh hok)

/-- A challenge is made with an id and a nonce that were not drawn. -/
theorem AuthSound.challenge (h : AuthSound rules s) {request : ChallengeRequest}
    {challengeId nonce : String} {now : ℤ} {reply : ChallengeReply}
    (hid : ¬Drawn s.history challengeId) (hnonce : ¬Drawn s.history (rules.sha256 nonce))
    (hok : createChallenge rules request challengeId nonce now s = .ok (reply, s')) :
    AuthNext rules s s' := by
  simp only [createChallenge, bind_eq_ok, raiseIf_eq_ok, pure_eq_ok, exists_const,
    Prod.mk.injEq] at hok
  obtain ⟨-, -, -, -, -, rfl⟩ := hok
  have hcleaned := (AuthState.Retired.cleanupExpiredSessionFamilies now s).sound h
  have hdrawn : ∀ {id nonceHash}, .challenged id nonceHash ∈ s.history →
      Drawn s.history id ∧ Drawn s.history nonceHash := fun hmem =>
    ⟨⟨_, hmem, by simp [AuthEvent.drawn]⟩, ⟨_, hmem, by simp [AuthEvent.drawn]⟩⟩
  have hkept := hcleaned.families.toFamiliesKept.happens
    (.challenged challengeId (rules.sha256 nonce)) (fun _ _ he => (by cases he))
    fun _ _ _ he => (by cases he)
  refine ⟨⟨⟨hkept.of_rows rfl (fun row hrow => ⟨row, hrow, rfl, rfl, id⟩)
    (fun row hrow => ⟨row, hrow, rfl, rfl, rfl, id⟩) fun row hrow => ⟨row, hrow, rfl, rfl⟩,
    hcleaned.families.single⟩, ⟨fun row hrow => ?_, fun id id' nonceHash hmem hmem' => ?_,
    fun id token hmem => ?_⟩, h.fair.concat trivial⟩, List.prefix_append _ _⟩
  · rcases Table.mem_insertOrIgnore hrow with hrow | ⟨-, rfl⟩
    · exact List.mem_append_left _ (h.challenges.stored row (List.mem_filter.mp hrow).1)
    · exact List.mem_append_right _ (List.mem_singleton_self _)
  · rcases List.mem_append.mp hmem with hmem | hmem <;>
      rcases List.mem_append.mp hmem' with hmem' | hmem'
    · exact h.challenges.apart id id' nonceHash hmem hmem'
    · obtain ⟨-, rfl⟩ := AuthEvent.challenged.inj (List.mem_singleton.mp hmem')
      exact absurd (hdrawn hmem).2 hnonce
    · obtain ⟨-, rfl⟩ := AuthEvent.challenged.inj (List.mem_singleton.mp hmem)
      exact absurd (hdrawn hmem').2 hnonce
    · obtain ⟨rfl, -⟩ := AuthEvent.challenged.inj (List.mem_singleton.mp hmem)
      obtain ⟨rfl, -⟩ := AuthEvent.challenged.inj (List.mem_singleton.mp hmem')
      rfl
  · rcases List.mem_append.mp hmem with hmem | hmem
    · obtain ⟨hconsumed, nonceHash, hchallenged, htoken⟩ := h.challenges.exchanged id token hmem
      refine ⟨fun row hrow hsame => ?_, nonceHash, List.mem_append_left _ hchallenged, htoken⟩
      rcases Table.mem_insertOrIgnore hrow with hrow | ⟨-, rfl⟩
      · exact hconsumed row (List.mem_filter.mp hrow).1 hsame
      · obtain rfl : challengeId = id := hsame
        exact absurd (hdrawn hchallenged).1 hid
    · cases List.mem_singleton.mp hmem

/-- A verified token answers the challenge with the digest of the nonce. -/
theorem verifyIdentityToken_nonce {provider : ProviderName} {identityToken rawNonce : String}
    {signed : Bool} {current : ℤ} {claims : ProviderClaims}
    (h : verifyIdentityToken rules provider identityToken rawNonce signed current = .ok claims) :
    tokenNonceHash rules identityToken = some (rules.sha256 rawNonce) := by
  simp only [verifyIdentityToken, bind_eq_ok, raiseIf_eq_ok, exists_const] at h
  obtain ⟨-, h⟩ := h
  split at h
  · cases h
  · next json hclaims =>
    simp only [bind_eq_ok, raiseIf_eq_ok, exists_const] at h
    obtain ⟨-, -, h⟩ := h
    split at h
    · next issuer _ _ _ nonce hissuer _ _ _ hnonce =>
      simp only [bind_eq_ok, raiseIf_eq_ok, pure_eq_ok, exists_const, not_or, not_not] at h
      obtain ⟨⟨hissued, -, -, -, -, -, -, -, hsame⟩, -⟩ := h
      simp only [tokenNonceHash, hclaims, hissuer, hnonce, Option.bind_eq_bind, Option.bind_some,
        Option.pure_def, Option.some.injEq]
      cases provider with
      | apple => rw [if_pos hissued, hsame, if_pos rfl]
      | google =>
        have hother : issuer ∉ issuers .apple := by
          simp only [issuers, List.mem_cons, List.not_mem_nil, or_false] at hissued ⊢
          rcases hissued with rfl | rfl <;> decide
        rw [if_neg hother, hsame, if_neg (by decide)]
    · cases h

/-- A challenge that is read was made with the digest of the nonce. -/
theorem readChallenge_challenged {request : ExchangeRequest} {now : ℤ} {challenge : AuthChallenge}
    (h : ChallengesSound rules s.challenges s.history)
    (hread : readChallenge rules request now s = .ok challenge) :
    .challenged request.challengeId (rules.sha256 request.rawNonce) ∈ s.history := by
  simp only [readChallenge, bind_eq_ok, raiseIf_eq_ok, exists_const] at hread
  obtain ⟨-, hread⟩ := hread
  split at hread
  · cases hread
  · next row hrow =>
    simp only [bind_eq_ok, raiseIf_eq_ok, pure_eq_ok, exists_const, not_or, not_not] at hread
    obtain ⟨⟨-, -, -, hnonce, -⟩, -⟩ := hread
    obtain ⟨hmem, hid⟩ := Table.mem_of_find? hrow
    rw [← hid, ← hnonce]
    exact h.stored row hmem

/-- The account of an exchange changes accounts only. -/
theorem connectAccount_eq_ok {request : ExchangeRequest} {action : ChallengeAction}
    {subject : String} {now : ℤ} {draw : ExchangeDraw} {account : LoginAccount}
    (h : connectAccount request action subject now draw s = .ok (account, s')) :
    ∃ accounts, s' = { s with accounts } := by
  simp only [connectAccount] at h
  split at h <;>
  · simp only [bind_eq_ok, raiseIf_eq_ok, pure_eq_ok, exists_const, Prod.mk.injEq] at h
    exact ⟨_, h.2.2.2.symm⟩

/-- A challenge that is not used up is used up by a token that answers it: for the first time, as
another challenge would have another nonce. -/
theorem AuthSound.accepted (h : AuthSound rules s) {current : AuthChallenge} (now : ℤ)
    {identityToken nonceHash : String} (hcurrent : current ∈ s.challenges.rows)
    (hunused : current.consumedAt = none)
    (hchallenged : .challenged current.challengeId nonceHash ∈ s.history)
    (hnonce : tokenNonceHash rules identityToken = some nonceHash)
    (accounts : Table LoginAccount.id) (assertions : Table ProviderAssertion.assertionHash) :
    AuthNext rules s { s with
      challenges := s.challenges.update current.challengeId fun row =>
        { row with consumedAt := some now }
      assertions
      accounts
      history := s.history ++ [.exchanged current.challengeId identityToken] } := by
  have hfirst : ∀ token, .exchanged current.challengeId token ∉ s.history := fun token hdone =>
    (h.challenges.exchanged _ token hdone).1 current hcurrent rfl hunused
  have honce : ∀ id, .exchanged id identityToken ∉ s.history := fun id hdone => by
    obtain ⟨-, other, hother, hsame⟩ := h.challenges.exchanged id identityToken hdone
    obtain rfl := Option.some.inj (hnonce.symm.trans hsame)
    exact hfirst identityToken (h.challenges.apart _ _ _ hother hchallenged ▸ hdone)
  let challenges := s.challenges.update current.challengeId
    (fun row => { row with consumedAt := some now }) fun _ => rfl
  have hrows : ∀ row' ∈ challenges.rows, ∃ row ∈ s.challenges.rows,
      row.challengeId = row'.challengeId ∧ row.nonceHash = row'.nonceHash ∧
        (row'.consumedAt = none → row.consumedAt = none ∧
          row'.challengeId ≠ current.challengeId) := by
    intro row' hrow'
    obtain ⟨row, hrow, rfl⟩ := Table.mem_update.mp hrow'
    refine ⟨row, hrow, ?_⟩
    split
    · exact ⟨rfl, rfl, fun hnone => nomatch hnone⟩
    · next hne => exact ⟨rfl, rfl, fun hnone => ⟨hnone, hne⟩⟩
  have hkept := h.families.toFamiliesKept.happens
    (.exchanged current.challengeId identityToken) (fun _ _ he => (nomatch he))
    fun _ _ _ he => (nomatch he)
  refine ⟨⟨⟨hkept.of_rows rfl (fun row hrow => ⟨row, hrow, rfl, rfl, id⟩)
    (fun row hrow => ⟨row, hrow, rfl, rfl, rfl, id⟩) fun row hrow => ⟨row, hrow, rfl, rfl⟩,
    h.families.single⟩, ⟨fun row' hrow' => ?_, fun id id' hash hmem hmem' => ?_,
    fun id token hmem => ?_⟩, h.fair.concat ⟨hfirst, honce⟩⟩, List.prefix_append _ _⟩
  · obtain ⟨row, hrow, hid, hhash, -⟩ := hrows row' hrow'
    rw [← hid, ← hhash]
    exact List.mem_append_left _ (h.challenges.stored row hrow)
  · rcases List.mem_append.mp hmem with hmem | hmem
    · rcases List.mem_append.mp hmem' with hmem' | hmem'
      · exact h.challenges.apart id id' hash hmem hmem'
      · exact nomatch List.mem_singleton.mp hmem'
    · exact nomatch List.mem_singleton.mp hmem
  · rcases List.mem_append.mp hmem with hmem | hmem
    · obtain ⟨hconsumed, hash, hdone, htoken⟩ := h.challenges.exchanged id token hmem
      refine ⟨fun row' hrow' hsame hnone => ?_, hash, List.mem_append_left _ hdone, htoken⟩
      obtain ⟨row, hrow, hid, -, hlive⟩ := hrows row' hrow'
      exact hconsumed row hrow (hid.trans hsame) (hlive hnone).1
    · obtain ⟨rfl, rfl⟩ := AuthEvent.exchanged.inj (List.mem_singleton.mp hmem)
      refine ⟨fun row' hrow' hsame hnone => ?_, nonceHash,
        List.mem_append_left _ hchallenged, hnonce⟩
      obtain ⟨row, hrow, -, -, hlive⟩ := hrows row' hrow'
      exact (hlive hnone).2 hsame

/-- An exchange that completes accepts its challenge and its token for the first time. -/
theorem AuthSound.exchange (h : AuthSound rules s) {request : ExchangeRequest}
    {challenge : AuthChallenge} {now : ℤ} {draw : ExchangeDraw} {reply : ExchangeReply}
    (hchallenged : .challenged request.challengeId (rules.sha256 request.rawNonce) ∈ s.history)
    (hfamily : ¬Drawn s.history draw.familyId)
    (hrefresh : ¬Drawn s.history (rules.sha256 draw.refreshToken))
    (hok : completeExchange rules request challenge now draw s = .ok (reply, s')) :
    AuthNext rules s s' := by
  simp only [completeExchange, bind_eq_ok, raiseIf_eq_ok, exists_const] at hok
  obtain ⟨identityToken, -, claims, hverified, -, scopes, -, hok⟩ := hok
  have hnonce := verifyIdentityToken_nonce hverified
  simp only [acceptAssertion] at hok
  split at hok
  · cases hok
  · next current hcurrent =>
    simp only [bind_eq_ok, raiseIf_eq_ok, exists_const] at hok
    obtain ⟨hvalid, -, ⟨account, s₁⟩, hconnect, -, -, hok⟩ := hok
    obtain ⟨accounts, rfl⟩ := connectAccount_eq_ok hconnect
    obtain ⟨hmem, hid⟩ := Table.mem_of_find? hcurrent
    rw [← hid] at hchallenged hok
    have haccepted := fun assertions => h.accepted now hmem
      (not_not.mp (not_or.mp hvalid).1) hchallenged hnonce accounts assertions
    have hsame : ∀ text, ¬Drawn s.history text →
        ¬Drawn (s.history ++ [.exchanged current.challengeId identityToken]) text := by
      rintro text hnot ⟨event, hevent, htext⟩
      rcases List.mem_append.mp hevent with hevent | hevent
      · exact hnot ⟨event, hevent, htext⟩
      · rw [List.mem_singleton.mp hevent] at htext
        cases htext
    split at hok
    · obtain ⟨-, rfl⟩ := Prod.mk.inj (Except.ok.inj hok)
      exact haccepted _
    · simp only [bind_eq_ok, raiseIf_eq_ok, pure_eq_ok, exists_const, Prod.mk.injEq] at hok
      obtain ⟨expiresAt, -, hfree, ⟨payload, s₂⟩, hcontinue, -, rfl⟩ := hok
      exact (haccepted _).trans ((haccepted _).sound.issued (hsame _ hfamily) (hsame _ hrefresh)
        (not_not.mp hfree) hcontinue)

/-- A bearer of no family is issued. -/
theorem AuthSound.issueSession (h : AuthSound rules s) {userId : String} {scopes : List String}
    {now expiresAt : ℤ} {accessGrantId : Option String} {draw : SessionDraw}
    (hok : issueSession rules userId scopes now expiresAt accessGrantId draw s = .ok s') :
    AuthNext rules s s' := by
  rw [Magistrate.issueSession] at hok
  have hcleaned := ((AuthState.Retired.cleanupSessions now s).trans
    (AuthState.Retired.revokeSessions (fun session => accessGrantId ≠ none ∧
      session.accessGrantId = accessGrantId ∧ session.revokedAt = none) now _)).next h
  simp only [insertSession, bind_eq_ok, raiseIf_eq_ok, pure_eq_ok, exists_const, not_or,
    not_not] at hok
  obtain ⟨⟨hfree, -⟩, rfl⟩ := hok
  refine ⟨⟨⟨⟨hcleaned.sound.families.family, hcleaned.sound.families.token, fun row hrow => ?_,
    hcleaned.sound.families.ended, hcleaned.sound.families.rotated⟩,
    fun family hfamily hforce => ?_⟩,
    hcleaned.sound.challenges, hcleaned.sound.fair⟩, hcleaned.history⟩
  · rcases Table.mem_insertOrIgnore hrow with hrow | ⟨-, rfl⟩
    · exact hcleaned.sound.families.session row hrow
    · exact fun _ hnone => by cases hnone
  · obtain ⟨hone, hle⟩ := hcleaned.sound.families.single family hfamily hforce
    refine ⟨hone, ?_⟩
    rw [Table.rows_insertOrIgnore hfree, List.countP_append, List.countP_singleton]
    simpa [GatewaySession.liveOf] using hle

end Steps

/-- The tables are sound, and an exchange that is under way read its challenge. -/
structure AuthInvariant (rules : AuthRules) (p : Pool AuthState ExchangeTask) : Prop where
  sound : AuthSound rules p.shared
  tasks : ∀ task ∈ p.workers,
    .challenged task.request.challengeId (rules.sha256 task.request.rawNonce) ∈ p.shared.history

namespace AuthInvariant

variable {rules : AuthRules} {p : Pool AuthState ExchangeTask}

theorem initial (rules : AuthRules) : AuthInvariant rules ⟨.initial, []⟩ where
  sound :=
    { families :=
        { family := by simp [AuthState.initial]
          token := by simp [AuthState.initial]
          session := by simp [AuthState.initial]
          ended := by simp [AuthState.initial]
          rotated := by simp [AuthState.initial]
          single := by simp [AuthState.initial] }
      challenges :=
        { stored := by simp [AuthState.initial]
          apart := by simp [AuthState.initial]
          exchanged := by simp [AuthState.initial] }
      fair := .nil }
  tasks := by simp

/-- A transaction that no exchange takes keeps the invariant. -/
theorem write (h : AuthInvariant rules p) {s : AuthState} (next : AuthNext rules p.shared s) :
    AuthInvariant rules (p.write s) :=
  ⟨next.sound, fun task htask => next.history.mem (h.tasks task htask)⟩

/-- A transaction that commits or raises keeps the invariant. -/
theorem commit (h : AuthInvariant rules p) {result : Except HttpException AuthState}
    (next : ∀ s, result = .ok s → AuthNext rules p.shared s) :
    AuthInvariant rules (p.write (commit result p.shared)) :=
  h.write (commit_of (.refl h.sound) next)

/-- A step that draws what was not drawn keeps the invariant. -/
theorem step (h : AuthInvariant rules p) (op : AuthStep) (fresh : op.Fresh rules p) :
    AuthInvariant rules (authStep rules p op) := by
  cases op with
  | createChallenge request challengeId nonce now =>
    refine h.commit fun s hok => ?_
    obtain ⟨reply, hok⟩ := stateOf_eq_ok.mp hok
    exact h.sound.challenge fresh.1 fresh.2 hok
  | exchange request now =>
    simp only [authStep]
    split
    · next challenge hread =>
      refine ⟨h.sound, fun task htask => ?_⟩
      rcases List.mem_append.mp htask with htask | htask
      · exact h.tasks task htask
      · obtain rfl := List.mem_singleton.mp htask
        exact readChallenge_challenged h.sound.challenges hread
    · exact h
  | turn i draw =>
    cases htask : p.workers[i]? with
    | none => rwa [authStep, Pool.turn_none htask]
    | some task =>
      have hmem := h.tasks task (List.mem_of_getElem? htask)
      have hnext : AuthNext rules p.shared (Magistrate.commit (stateOf (completeExchange rules
          task.request task.challenge task.now draw p.shared)) p.shared) := by
        refine commit_of (.refl h.sound) fun s hok => ?_
        obtain ⟨reply, hok⟩ := stateOf_eq_ok.mp hok
        exact h.sound.exchange hmem fresh.1 fresh.2 hok
      refine ⟨?_, fun other hother => ?_⟩
      · rw [authStep, Pool.shared_turn htask]
        exact hnext.sound
      · rw [authStep, Pool.shared_turn htask]
        refine hnext.history.mem (h.tasks other ?_)
        rcases Pool.mem_turn hother with hother | ⟨_, _, hnone⟩
        · exact hother
        · exact nomatch hnone
  | stop i =>
    cases htask : p.workers[i]? with
    | none => rwa [authStep, Pool.turn_none htask]
    | some task =>
      refine ⟨?_, fun other hother => ?_⟩
      · rw [authStep, Pool.shared_turn htask]
        exact h.sound
      · rw [authStep, Pool.shared_turn htask]
        refine h.tasks other ?_
        rcases Pool.mem_turn hother with hother | ⟨_, _, hnone⟩
        · exact hother
        · exact nomatch hnone
  | refresh refreshToken clientPlatform now nextRefresh draw =>
    exact h.write (h.sound.refresh fresh)
  | unlink principal provider now => exact h.commit fun s hok => h.sound.unlink hok
  | revokeSession token now => exact h.write (h.sound.revokeSession token now)
  | revokeFamily familyId now => exact h.write (h.sound.revokeProviderFamily familyId now)
  | verify identity bySessionId now grantValid =>
    exact h.write (h.sound.acceptBearer identity bySessionId now grantValid)
  | issue userId scopes now expiresAt accessGrantId draw =>
    exact h.commit fun s hok => h.sound.issueSession hok
  | revokeGrant grantId now =>
    exact h.write ((AuthState.Retired.revokeSessions _ now p.shared).next h.sound)
  | cleanupSessions now =>
    exact h.write ((AuthState.Retired.cleanupSessions now p.shared).next h.sound)
  | enforceRetention now =>
    exact h.write ((AuthState.Retired.enforceRetention now h.sound.families).next h.sound)

end AuthInvariant

/-- In every run whose draws are new, an exchange accepts a challenge and an identity token that no
exchange accepted before, a refresh rotates a token that was not rotated before and whose family did
not end, a bearer is accepted only while its family did not end, and every family in force has one
refresh token that is not consumed and at most one bearer that is not revoked. -/
theorem refresh_families_single_use (rules : AuthRules) (steps : List AuthStep)
    (fresh : RunMeets (authStep rules) (fun p step => step.Fresh rules p) ⟨.initial, []⟩ steps) :
    let s := (run (authStep rules) ⟨.initial, []⟩ steps).shared
    (∀ before id token after, s.history = before ++ .exchanged id token :: after →
      (∀ other, .exchanged id other ∉ before) ∧ ∀ other, .exchanged other token ∉ before) ∧
    (∀ before familyId tokenHash next after,
      s.history = before ++ .rotated familyId tokenHash next :: after →
        (∀ id other, .rotated id tokenHash other ∉ before) ∧ ∀ why, .ended familyId why ∉ before) ∧
    (∀ before familyId after, s.history = before ++ .accepted familyId :: after →
      ∀ why, .ended familyId why ∉ before) ∧
    ∀ family ∈ s.families.rows, family.revokedAt = none →
      s.refreshTokens.rows.countP (fun token =>
        token.familyId = family.familyId ∧ token.consumedAt = none) = 1 ∧
      s.sessions.rows.countP (fun session =>
        session.providerSessionId = some family.familyId ∧ session.revokedAt = none) ≤ 1 := by
  intro s
  have hsound : AuthSound rules s :=
    (run_invariant (fun _ op h hfresh => h.step op hfresh) fresh
      (AuthInvariant.initial rules)).sound
  exact ⟨fun before id token after => hsound.fair before (.exchanged id token) after,
    fun before familyId tokenHash next after =>
      hsound.fair before (.rotated familyId tokenHash next) after,
    fun before familyId after => hsound.fair before (.accepted familyId) after,
    hsound.families.single⟩

namespace AuthSample

/-- The nonce of the sample challenge. -/
def nonce : String := "nonce-nonce-nonce-nonce-nonce-00"

/-- The id of the sample challenge. -/
def challengeId : String := "pac_challenge-challenge-0"

/-- A sample refresh token. -/
def refreshToken (last : String) : String := "mgr_token-token-token-token-token-0" ++ last

/-- Rules that take texts as they are, with one identity token. -/
def rules : AuthRules where
  sha256 text := text
  tokenClaims _ := some (.obj [("iss", .str "accounts.google.com"), ("sub", .str "subject"),
    ("aud", .str "client"), ("exp", .int 900), ("iat", .int 0), ("nonce", .str nonce)])
  redirectScheme _ := .ok "https"
  admits _ := true
  configuredIds _ := ["client"]
  platformClientIds _ _ := []
  appleWeb := true
  production := false
  providerScopes := ["read", "account"]
  refreshTtlSeconds := 3600
  sessionTtlSeconds := 3600

/-- The challenge of a sign-in with Google in a browser. -/
def challenge : AuthStep :=
  .createChallenge ⟨.google, .signIn, .web, some "https://app", none⟩ challengeId nonce 0

/-- The exchange that answers it. -/
def exchange : AuthStep :=
  .exchange ⟨.google, challengeId, nonce, some "identity", none, some "https://app", none⟩ 1

/-- The rest of the exchange. -/
def complete : AuthStep :=
  .turn 0 ⟨.error ⟨401, ""⟩, true, 1, true, "user", "account", "family", refreshToken "0",
    ⟨"bearer-0", "session-0"⟩⟩

/-- A refresh with one token that draws the next. -/
def refresh (now next : String) : AuthStep :=
  .refresh (refreshToken now) .web 2 (refreshToken next) ⟨"bearer-" ++ next, "session-" ++ next⟩

/-- A bearer is verified. -/
def verify (last : String) : AuthStep := .verify ("bearer-" ++ last) false 3 true

/-- A session that is refreshed and goes on, until its first token comes back. -/
def steps : List AuthStep :=
  [challenge, exchange, complete, refresh "0" "1", verify "0", verify "1", refresh "0" "2",
    refresh "1" "3", verify "1"]

end AuthSample

open AuthSample

/-- A family is refreshed once, and ends when its first token comes back. -/
theorem refresh_families_single_use_reused :
    let s := (run (authStep rules) ⟨.initial, []⟩ steps).shared
    s.history = [.challenged challengeId nonce, .exchanged challengeId "identity",
      .issued "family" (refreshToken "0"), .rotated "family" (refreshToken "0") (refreshToken "1"),
      .accepted "family", .ended "family" .reuse] ∧
    (∀ before id token after, s.history = before ++ .exchanged id token :: after →
      (∀ other, .exchanged id other ∉ before) ∧ ∀ other, .exchanged other token ∉ before) ∧
    (∀ before familyId tokenHash next after,
      s.history = before ++ .rotated familyId tokenHash next :: after →
        (∀ id other, .rotated id tokenHash other ∉ before) ∧ ∀ why, .ended familyId why ∉ before) ∧
    (∀ before familyId after, s.history = before ++ .accepted familyId :: after →
      ∀ why, .ended familyId why ∉ before) ∧
    ∀ family ∈ s.families.rows, family.revokedAt = none →
      s.refreshTokens.rows.countP (fun token =>
        token.familyId = family.familyId ∧ token.consumedAt = none) = 1 ∧
      s.sessions.rows.countP (fun session =>
        session.providerSessionId = some family.familyId ∧ session.revokedAt = none) ≤ 1 :=
  ⟨by decide +kernel, refresh_families_single_use rules steps (by decide +kernel)⟩

end Magistrate
