import Magistrate.Gateway.Auth.SingleUse

/-!
# Login methods

An identity of a provider belongs to one account row for ever, and the last
connected method of a user cannot be unlinked. That a user has one connected
method per provider is looked up when an unknown identity is linked, and not
when a method that was removed is linked again.
-/

namespace Magistrate

/-- The login account of an identity. -/
def AuthState.identity (provider : ProviderName) (subject : String) (s : AuthState) :
    Option LoginAccount :=
  s.accounts.rows.find? fun a => a.provider = provider ∧ a.providerUserId = subject

/-- No user has two connected methods of one provider. -/
def OneMethodPerProvider (accounts : Table LoginAccount.id) : Prop :=
  ∀ a ∈ accounts.rows, ∀ b ∈ accounts.rows, a.userId = b.userId → a.provider = b.provider →
    a.connected = true → b.connected = true → a = b

instance (accounts : Table LoginAccount.id) : Decidable (OneMethodPerProvider accounts) :=
  inferInstanceAs (Decidable (∀ a ∈ accounts.rows, ∀ b ∈ accounts.rows, _))

/-- No two accounts have one identity. -/
def IdentitiesUnique (accounts : Table LoginAccount.id) : Prop :=
  ∀ a ∈ accounts.rows, ∀ b ∈ accounts.rows, a.provider = b.provider →
    a.providerUserId = b.providerUserId → a = b

/-- Identities stay with their user, and a user with a connected method keeps one. -/
structure KeepsLogins (accounts accounts' : Table LoginAccount.id) : Prop where
  belongs : ∀ a ∈ accounts.rows, ∃ a' ∈ accounts'.rows, a'.provider = a.provider ∧
    a'.providerUserId = a.providerUserId ∧ a'.userId = a.userId
  connected : ∀ a ∈ accounts.rows, a.connected = true →
    ∃ b ∈ accounts'.rows, b.userId = a.userId ∧ b.connected = true

/-- The claims that an exchange verifies. -/
def ExchangeTask.verified (rules : AuthRules) (draw : ExchangeDraw) (task : ExchangeTask) :
    Option ProviderClaims := Except.toOption do
  let identityToken ← exchangedToken task.request draw.appleToken
  verifyIdentityToken rules task.request.provider identityToken task.request.rawNonce draw.signed
    draw.current

/-- An exchange is not refused for its challenge, its assertion or its client. -/
def ExchangeTask.Accepts (rules : AuthRules) (draw : ExchangeDraw) (s : AuthState)
    (task : ExchangeTask) (current : AuthChallenge) (claims : ProviderClaims) : Prop :=
  (current.consumedAt = none ∧ task.now < current.expiresAt ∧
    current.provider = task.request.provider) ∧
  s.assertions.find? claims.assertionHash = none ∧
  s.assertions.rows.any (·.challengeId = task.request.challengeId) = false ∧
  draw.profile = true ∧ rules.scopes.isOk = true ∧
  (rules.platformClientIds task.request.provider task.challenge.clientPlatform = [] ∨
    claims.audience ∈ rules.platformClientIds task.request.provider task.challenge.clientPlatform)

instance (rules : AuthRules) (draw : ExchangeDraw) (s : AuthState) (task : ExchangeTask)
    (current : AuthChallenge) (claims : ProviderClaims) :
    Decidable (task.Accepts rules draw s current claims) :=
  inferInstanceAs (Decidable ((_ ∧ _ ∧ _) ∧ _ ∧ _ ∧ _ ∧ _ ∧ (_ ∨ _)))

/-- An exchange links a method again that its user removed, who has another one of the provider. -/
def ExchangeTask.Relinks (rules : AuthRules) (draw : ExchangeDraw) (s : AuthState)
    (task : ExchangeTask) : Prop :=
  ∃ current ∈ s.challenges.find? task.request.challengeId,
  ∃ claims ∈ task.verified rules draw,
  ∃ account ∈ s.identity task.request.provider claims.subject,
    current.action = .link ∧ task.Accepts rules draw s current claims ∧
    some account.userId = task.request.principal.map (·.userId) ∧ account.connected = false ∧
    ∃ other ∈ s.accounts.rows, other.userId = account.userId ∧
      other.provider = account.provider ∧ other.connected = true

instance (rules : AuthRules) (draw : ExchangeDraw) (s : AuthState) (task : ExchangeTask) :
    Decidable (task.Relinks rules draw s) := by
  unfold ExchangeTask.Relinks
  infer_instance

/-- A step in which an exchange links a removed method again beside another one. -/
def AuthStep.Relinks (rules : AuthRules) (p : Pool AuthState ExchangeTask) : AuthStep → Prop
  | .turn i draw => ∃ task ∈ p.workers[i]?, task.Relinks rules draw p.shared
  | _ => False

instance (rules : AuthRules) (p : Pool AuthState ExchangeTask) (step : AuthStep) :
    Decidable (step.Relinks rules p) :=
  match step with
  | .turn i draw => inferInstanceAs (Decidable
      (∃ task ∈ p.workers[i]?, task.Relinks rules draw p.shared))
  | .createChallenge .. | .exchange .. | .stop .. | .refresh .. | .unlink .. | .revokeSession ..
  | .revokeFamily .. | .verify .. | .issue .. | .revokeGrant .. | .cleanupSessions ..
  | .enforceRetention .. => .isFalse not_false

/-- The user that an exchange draws has no login account. -/
def AuthStep.NewUser (p : Pool AuthState ExchangeTask) : AuthStep → Prop
  | .turn _ draw => ∀ a ∈ p.shared.accounts.rows, a.userId ≠ draw.userId
  | _ => True

instance (p : Pool AuthState ExchangeTask) (step : AuthStep) : Decidable (step.NewUser p) :=
  match step with
  | .turn _ draw => inferInstanceAs (Decidable
      (∀ a ∈ p.shared.accounts.rows, a.userId ≠ draw.userId))
  | .createChallenge .. | .exchange .. | .stop .. | .refresh .. | .unlink .. | .revokeSession ..
  | .revokeFamily .. | .verify .. | .issue .. | .revokeGrant .. | .cleanupSessions ..
  | .enforceRetention .. => .isTrue trivial

/-- A method is connected. -/
def LoginAccount.connect (now : ℤ) (a : LoginAccount) : LoginAccount :=
  { a with connected := true, updatedAt := now }

/-- A method is disconnected. -/
def LoginAccount.disconnect (now : ℤ) (a : LoginAccount) : LoginAccount :=
  { a with connected := false, updatedAt := now }

/-- What a step can do to the accounts: an unknown identity gets an account of a user without a
connected method of the provider, an account is connected, or one of several connected ones of a
user is disconnected. -/
inductive LoginMove (t : Table LoginAccount.id) : Table LoginAccount.id → Prop where
  | keep : LoginMove t t
  | create (account : LoginAccount) (hid : t.find? account.id = none)
      (hidentity : ∀ a ∈ t.rows, a.provider = account.provider →
        a.providerUserId ≠ account.providerUserId)
      (hfirst : ∀ a ∈ t.rows, a.userId = account.userId → a.provider = account.provider →
        a.connected = false) :
      LoginMove t (t.insertOrIgnore account)
  | connect (account : LoginAccount) (hmem : account ∈ t.rows) (now : ℤ) :
      LoginMove t (t.update account.id (LoginAccount.connect now))
  | disconnect (target other : LoginAccount) (hmem : target ∈ t.rows) (hother : other ∈ t.rows)
      (hne : other ≠ target) (huser : other.userId = target.userId)
      (hconnected : other.connected = true) (now : ℤ) :
      LoginMove t (t.update target.id (LoginAccount.disconnect now))

namespace KeepsLogins

variable {t t' t'' : Table LoginAccount.id}

theorem refl (t : Table LoginAccount.id) : KeepsLogins t t where
  belongs a ha := ⟨a, ha, rfl, rfl, rfl⟩
  connected a ha hconnected := ⟨a, ha, rfl, hconnected⟩

theorem trans (h : KeepsLogins t t') (h' : KeepsLogins t' t'') : KeepsLogins t t'' where
  belongs a ha := by
    obtain ⟨a', ha', hprovider, hsubject, huser⟩ := h.belongs a ha
    obtain ⟨a'', ha'', hprovider', hsubject', huser'⟩ := h'.belongs a' ha'
    exact ⟨a'', ha'', hprovider'.trans hprovider, hsubject'.trans hsubject, huser'.trans huser⟩
  connected a ha hconnected := by
    obtain ⟨b, hb, huser, hbconnected⟩ := h.connected a ha hconnected
    obtain ⟨c, hc, huser', hcconnected⟩ := h'.connected b hb hbconnected
    exact ⟨c, hc, huser'.trans huser, hcconnected⟩

end KeepsLogins

namespace LoginMove

variable {t t' : Table LoginAccount.id}

/-- A move keeps identities with their users, and a connected method of every user that had one. -/
theorem keepsLogins (h : LoginMove t t') : KeepsLogins t t' := by
  cases h with
  | keep => exact .refl t
  | create account =>
    exact ⟨fun a ha => ⟨a, Table.mem_insertOrIgnore_of_mem ha, rfl, rfl, rfl⟩,
      fun a ha hconnected => ⟨a, Table.mem_insertOrIgnore_of_mem ha, rfl, hconnected⟩⟩
  | connect account hmem now =>
    refine ⟨fun a ha => ⟨_, Table.mem_update.mpr ⟨a, ha, rfl⟩, ?_⟩,
      fun a ha hconnected => ⟨_, Table.mem_update.mpr ⟨a, ha, rfl⟩, ?_⟩⟩
    · split <;> exact ⟨rfl, rfl, rfl⟩
    · split
      · exact ⟨rfl, rfl⟩
      · exact ⟨rfl, hconnected⟩
  | disconnect target other hmem hother hne huser hconnected now =>
    have hkept : other ∈ (t.update target.id (LoginAccount.disconnect now)).rows :=
      Table.mem_update.mpr ⟨other, hother,
        if_neg fun hid => hne (Table.eq_of_mem hother hmem hid)⟩
    refine ⟨fun a ha => ⟨_, Table.mem_update.mpr ⟨a, ha, rfl⟩, ?_⟩, fun a ha haconnected => ?_⟩
    · split <;> exact ⟨rfl, rfl, rfl⟩
    · by_cases hid : a.id = target.id
      · obtain rfl := Table.eq_of_mem ha hmem hid
        exact ⟨other, hkept, huser, hconnected⟩
      · exact ⟨a, Table.mem_update.mpr ⟨a, ha, if_neg hid⟩, rfl, haconnected⟩

/-- A change that keeps identities keeps them unique. -/
theorem identitiesUnique_update {k : String} {f : LoginAccount → LoginAccount}
    {hf : ∀ a, (f a).id = a.id} (hprovider : ∀ a, (f a).provider = a.provider)
    (hsubject : ∀ a, (f a).providerUserId = a.providerUserId) (h : IdentitiesUnique t) :
    IdentitiesUnique (t.update k f hf) := by
  have hrow : ∀ a' ∈ (t.update k f hf).rows, ∃ a ∈ t.rows, (if a.id = k then f a else a) = a' ∧
      a.provider = a'.provider ∧ a.providerUserId = a'.providerUserId := by
    intro a' ha'
    obtain ⟨a, ha, rfl⟩ := Table.mem_update.mp ha'
    refine ⟨a, ha, rfl, ?_⟩
    split
    · exact ⟨(hprovider a).symm, (hsubject a).symm⟩
    · exact ⟨rfl, rfl⟩
  intro a' ha' b' hb' hsame hsame'
  obtain ⟨a, ha, rfl, hap, has⟩ := hrow a' ha'
  obtain ⟨b, hb, rfl, hbp, hbs⟩ := hrow b' hb'
  rw [h a ha b hb (hap.trans (hsame.trans hbp.symm)) (has.trans (hsame'.trans hbs.symm))]

/-- A move keeps identities unique. -/
theorem identitiesUnique (h : LoginMove t t') (hunique : IdentitiesUnique t) :
    IdentitiesUnique t' := by
  cases h with
  | keep => exact hunique
  | create account _ hidentity =>
    intro a ha b hb hprovider hsubject
    rcases Table.mem_insertOrIgnore ha with hstored | ⟨-, rfl⟩
    · rcases Table.mem_insertOrIgnore hb with hstored' | ⟨-, rfl⟩
      · exact hunique a hstored b hstored' hprovider hsubject
      · exact absurd hsubject (hidentity a hstored hprovider)
    · rcases Table.mem_insertOrIgnore hb with hstored' | ⟨-, rfl⟩
      · exact absurd hsubject.symm (hidentity b hstored' hprovider.symm)
      · rfl
  | connect account => exact identitiesUnique_update (fun _ => rfl) (fun _ => rfl) hunique
  | disconnect target => exact identitiesUnique_update (fun _ => rfl) (fun _ => rfl) hunique

/-- A row after a method was connected comes from one before it. -/
theorem mem_connect {k : String} {now : ℤ} {a' : LoginAccount}
    (h : a' ∈ (t.update k (LoginAccount.connect now)).rows) :
    ∃ a ∈ t.rows, (if a.id = k then a.connect now else a) = a' ∧ a.userId = a'.userId ∧
      a.provider = a'.provider ∧ (a'.connected = true → a.connected = true ∨ a.id = k) := by
  obtain ⟨a, ha, rfl⟩ := Table.mem_update.mp h
  refine ⟨a, ha, rfl, ?_⟩
  split
  · next hid => exact ⟨rfl, rfl, fun _ => .inr hid⟩
  · exact ⟨rfl, rfl, .inl⟩

/-- A user has one connected method per provider after a method is connected, exactly if it was
connected before or the user has no other of the provider. -/
theorem oneMethod_connect {account : LoginAccount} (hmem : account ∈ t.rows) (now : ℤ)
    (h : OneMethodPerProvider t) :
    OneMethodPerProvider (t.update account.id (LoginAccount.connect now)) ↔
      (account.connected = false → ∀ b ∈ t.rows, b.userId = account.userId →
        b.provider = account.provider → b.connected = false) := by
  constructor
  · intro hone hremoved b hb huser hprovider
    by_contra hconnected
    rw [Bool.not_eq_false] at hconnected
    have hne : b.id ≠ account.id := fun hid => by
      rw [Table.eq_of_mem hb hmem hid, hremoved] at hconnected
      cases hconnected
    have hself : account.connect now ∈ (t.update account.id (LoginAccount.connect now)).rows :=
      Table.mem_update.mpr ⟨account, hmem, if_pos rfl⟩
    have hother : b ∈ (t.update account.id (LoginAccount.connect now)).rows :=
      Table.mem_update.mpr ⟨b, hb, if_neg hne⟩
    have hsame := hone b hother (account.connect now) hself huser hprovider hconnected rfl
    exact hne (hsame ▸ rfl)
  · intro honly a' ha' b' hb' huser' hprovider' haconnected hbconnected
    obtain ⟨a, ha, rfl, hauser, haprovider, haone⟩ := mem_connect ha'
    obtain ⟨b, hb, rfl, hbuser, hbprovider, hbone⟩ := mem_connect hb'
    have huser : a.userId = b.userId := hauser.trans (huser'.trans hbuser.symm)
    have hprovider : a.provider = b.provider := haprovider.trans (hprovider'.trans hbprovider.symm)
    suffices hsame : a = b by rw [hsame]
    rcases haone haconnected with ha1 | haid <;> rcases hbone hbconnected with hb1 | hbid
    · exact h a ha b hb huser hprovider ha1 hb1
    · obtain rfl := Table.eq_of_mem hb hmem hbid
      cases hwas : b.connected with
      | true => exact h a ha b hb huser hprovider ha1 hwas
      | false => exact absurd ha1 (by simp [honly hwas a ha huser hprovider])
    · obtain rfl := Table.eq_of_mem ha hmem haid
      cases hwas : a.connected with
      | true => exact h a ha b hb huser hprovider hwas hb1
      | false => exact absurd hb1 (by simp [honly hwas b hb huser.symm hprovider.symm])
    · exact Table.eq_of_mem ha hb (haid.trans hbid.symm)

/-- A user has one connected method per provider after any move that connects no removed one. -/
theorem oneMethod_update {k : String} {f : LoginAccount → LoginAccount} {hf : ∀ a, (f a).id = a.id}
    (huser : ∀ a, (f a).userId = a.userId) (hprovider : ∀ a, (f a).provider = a.provider)
    (hconnected : ∀ a, (f a).connected = true → a.connected = true) (h : OneMethodPerProvider t) :
    OneMethodPerProvider (t.update k f hf) := by
  have hrow : ∀ a' ∈ (t.update k f hf).rows, ∃ a ∈ t.rows, (if a.id = k then f a else a) = a' ∧
      a.userId = a'.userId ∧ a.provider = a'.provider ∧
        (a'.connected = true → a.connected = true) := by
    intro a' ha'
    obtain ⟨a, ha, rfl⟩ := Table.mem_update.mp ha'
    refine ⟨a, ha, rfl, ?_⟩
    split
    · exact ⟨(huser a).symm, (hprovider a).symm, hconnected a⟩
    · exact ⟨rfl, rfl, id⟩
  intro a' ha' b' hb' hsame hsame' hac hbc
  obtain ⟨a, ha, rfl, hau, hap, hacon⟩ := hrow a' ha'
  obtain ⟨b, hb, rfl, hbu, hbp, hbcon⟩ := hrow b' hb'
  rw [h a ha b hb (hau.trans (hsame.trans hbu.symm)) (hap.trans (hsame'.trans hbp.symm))
    (hacon hac) (hbcon hbc)]

/-- An account of a user without a connected method of the provider is one more method. -/
theorem oneMethod_create {account : LoginAccount}
    (hfirst : ∀ a ∈ t.rows, a.userId = account.userId → a.provider = account.provider →
      a.connected = false) (h : OneMethodPerProvider t) :
    OneMethodPerProvider (t.insertOrIgnore account) := by
  intro a ha b hb huser hprovider hac hbc
  rcases Table.mem_insertOrIgnore ha with hstored | ⟨-, rfl⟩
  · rcases Table.mem_insertOrIgnore hb with hstored' | ⟨-, rfl⟩
    · exact h a hstored b hstored' huser hprovider hac hbc
    · exact absurd hac (by simp [hfirst a hstored huser hprovider])
  · rcases Table.mem_insertOrIgnore hb with hstored' | ⟨-, rfl⟩
    · exact absurd hbc (by simp [hfirst b hstored' huser.symm hprovider.symm])
    · rfl

end LoginMove

section Exchange

variable {rules : AuthRules} {draw : ExchangeDraw} {s s' : AuthState} {task : ExchangeTask}
  {request : ExchangeRequest} {action : ChallengeAction} {subject : String} {now : ℤ}
  {account account' : LoginAccount}

/-- The claims of an exchange are those of its token. -/
theorem ExchangeTask.verified_eq_some {claims : ProviderClaims} :
    task.verified rules draw = some claims ↔
      ∃ identityToken, exchangedToken task.request draw.appleToken = .ok identityToken ∧
        verifyIdentityToken rules task.request.provider identityToken task.request.rawNonce
          draw.signed draw.current = .ok claims := by
  rw [verified, ← bind_eq_ok]
  cases (exchangedToken task.request draw.appleToken >>= fun identityToken =>
    verifyIdentityToken rules task.request.provider identityToken task.request.rawNonce draw.signed
      draw.current) with
  | error e => simp [Except.toOption]
  | ok c => simp [Except.toOption]

/-- A found identity has the identity. -/
theorem AuthState.identity_eq_some {provider : ProviderName}
    (h : s.identity provider subject = some account) :
    account ∈ s.accounts.rows ∧ account.provider = provider ∧ account.providerUserId = subject :=
  ⟨List.mem_of_find?_eq_some h, by simpa using List.find?_some h⟩

/-- The account of an exchange that is stored already is connected; a removed one only by a link of
its user. -/
theorem connectAccount_stored (hstored : s.identity request.provider subject = some account)
    (h : connectAccount request action subject now draw s = .ok (account', s')) :
    s' = { s with accounts := s.accounts.update account.id (LoginAccount.connect now) } ∧
      (account.connected = false → action = .link ∧
        some account.userId = request.principal.map (·.userId)) := by
  rw [AuthState.identity] at hstored
  simp only [connectAccount, hstored, bind_eq_ok, raiseIf_eq_ok, pure_eq_ok, exists_const,
    Prod.mk.injEq, not_and, not_not] at h
  obtain ⟨howner, hremoved, -, rfl⟩ := h
  refine ⟨rfl, fun hconnected => ?_⟩
  cases action with
  | link => exact ⟨rfl, howner rfl⟩
  | signIn => exact absurd hconnected (hremoved rfl)

/-- An identity that is not stored gets an account of the linking user, who has no connected method
of the provider, or of a new user. -/
theorem connectAccount_new (hnew : s.identity request.provider subject = none)
    (h : connectAccount request action subject now draw s = .ok (account, s')) :
    s' = { s with accounts := s.accounts.insertOrIgnore account } ∧
      s.accounts.find? account.id = none ∧ account.provider = request.provider ∧
      account.providerUserId = subject ∧
      account.userId = (request.principal.map (·.userId)).getD draw.userId ∧
      (action = .link → ∀ a ∈ s.accounts.rows, some a.userId = request.principal.map (·.userId) →
        a.provider = request.provider → a.connected = false) := by
  rw [AuthState.identity] at hnew
  simp only [connectAccount, hnew, bind_eq_ok, raiseIf_eq_ok, pure_eq_ok, exists_const,
    Prod.mk.injEq, not_and, not_not, List.any_eq_true, not_exists, decide_eq_true_eq,
    Bool.not_eq_true] at h
  obtain ⟨hfirst, hfree, rfl, rfl⟩ := h
  exact ⟨rfl, hfree, rfl, rfl, rfl, hfirst⟩

/-- What an exchange does to the accounts. -/
structure ExchangeTask.Connects (rules : AuthRules) (draw : ExchangeDraw) (s s' : AuthState)
    (task : ExchangeTask) (current : AuthChallenge) (claims : ProviderClaims)
    (account : LoginAccount) (s₁ : AuthState) : Prop where
  found : s.challenges.find? task.request.challengeId = some current
  verifies : task.verified rules draw = some claims
  accepts : task.Accepts rules draw s current claims
  connects : connectAccount task.request current.action claims.subject task.now draw s =
    .ok (account, s₁)
  accounts : s'.accounts = s₁.accounts
  challenges : s'.challenges = s.challenges.update task.request.challengeId fun row =>
    { row with consumedAt := some task.now }

/-- An exchange that completes connects an account. -/
theorem ExchangeTask.connects_of_ok {reply : ExchangeReply}
    (h : completeExchange rules task.request task.challenge task.now draw s = .ok (reply, s')) :
    ∃ current claims account s₁, task.Connects rules draw s s' current claims account s₁ := by
  simp only [completeExchange, bind_eq_ok, raiseIf_eq_ok, exists_const] at h
  obtain ⟨identityToken, htoken, claims, hverified, hplatform, scopes, hscopes, h⟩ := h
  simp only [acceptAssertion] at h
  split at h
  · cases h
  · next current hcurrent =>
    simp only [bind_eq_ok, raiseIf_eq_ok, exists_const] at h
    obtain ⟨hvalid, hunused, ⟨account, s₁⟩, hconnect, hprofile, hanswered, h⟩ := h
    obtain ⟨accounts, rfl⟩ := connectAccount_eq_ok hconnect
    have haccepts : task.Accepts rules draw s current claims := by
      simp only [not_or, not_not, not_le] at hvalid
      refine ⟨hvalid, not_not.mp hunused, by simpa using hanswered, by simpa using hprofile, ?_, ?_⟩
      · rw [hscopes]
        rfl
      · by_contra hother
        rw [not_or] at hother
        exact hplatform hother
    suffices hrest : s'.accounts = accounts ∧ s'.challenges =
        s.challenges.update task.request.challengeId fun row =>
          { row with consumedAt := some task.now } from
      ⟨current, claims, account, _, hcurrent, ExchangeTask.verified_eq_some.mpr
        ⟨identityToken, htoken, hverified⟩, haccepts, hconnect, hrest.1, hrest.2⟩
    split at h
    · obtain ⟨-, rfl⟩ := Prod.mk.inj (Except.ok.inj h)
      exact ⟨rfl, rfl⟩
    · simp only [bind_eq_ok, raiseIf_eq_ok, pure_eq_ok, exists_const, Prod.mk.injEq] at h
      obtain ⟨expiresAt, -, -, ⟨payload, s₂⟩, hcontinue, -, rfl⟩ := h
      obtain ⟨token, session, -, -, -, -, -, -, -, -, rfl⟩ := continueFamily_eq_ok hcontinue
      exact ⟨rfl, rfl⟩

/-- A link that connects an account completes. -/
theorem ExchangeTask.ok_of_link {current : AuthChallenge} {claims : ProviderClaims}
    (hcurrent : s.challenges.find? task.request.challengeId = some current)
    (hclaims : task.verified rules draw = some claims)
    (haccepts : task.Accepts rules draw s current claims) (hlink : current.action = .link)
    (hconnect : connectAccount task.request current.action claims.subject task.now draw s =
      .ok (account, s')) :
    ∃ reply t, completeExchange rules task.request task.challenge task.now draw s =
      .ok (reply, t) := by
  obtain ⟨identityToken, htoken, hverified⟩ := ExchangeTask.verified_eq_some.mp hclaims
  obtain ⟨⟨hfresh, hlive, hprovider⟩, hunused, hanswered, hprofile, hscopes, hplatform⟩ := haccepts
  obtain ⟨accounts, rfl⟩ := connectAccount_eq_ok hconnect
  obtain ⟨scopes, hscopes⟩ : ∃ scopes, rules.scopes = .ok scopes := by
    cases hs : rules.scopes with
    | error e => rw [hs] at hscopes; cases hscopes
    | ok scopes => exact ⟨scopes, rfl⟩
  have hvalid : ¬(current.consumedAt ≠ none ∨ current.expiresAt ≤ task.now ∨
      current.provider ≠ task.request.provider) := by
    simp [hfresh, hprovider, hlive]
  rw [hlink] at hconnect
  simp only [completeExchange, htoken, hverified, hscopes, ok_bind, acceptAssertion, hcurrent,
    raiseIf_ok hvalid, hunused, hlink, hconnect, hprofile, hanswered]
  have hclient : ¬(rules.platformClientIds task.request.provider
    task.challenge.clientPlatform ≠ [] ∧
      claims.audience ∉
        rules.platformClientIds task.request.provider task.challenge.clientPlatform) :=
    fun hother => hplatform.elim hother.1 hother.2
  rw [raiseIf_ok hclient, raiseIf_ok (by simp), raiseIf_ok (by simp), raiseIf_ok (by simp)]
  exact ⟨_, _, rfl⟩

/-- A sign-in has no principal. -/
def ExchangeTask.SignsIn (s : AuthState) (task : ExchangeTask) : Prop :=
  ∀ current, s.challenges.find? task.request.challengeId = some current →
    current.action = .signIn → task.request.principal = none

variable {current : AuthChallenge} {claims : ProviderClaims} {s₁ : AuthState}

namespace ExchangeTask.Connects

/-- A new account is of a user without a connected method of the provider. -/
theorem first (h : task.Connects rules draw s s' current claims account s₁)
    (hsigns : task.SignsIn s) (hnew : ∀ a ∈ s.accounts.rows, a.userId ≠ draw.userId)
    (hidentity : s.identity task.request.provider claims.subject = none) :
    ∀ a ∈ s.accounts.rows, a.userId = account.userId → a.provider = account.provider →
      a.connected = false := by
  obtain ⟨-, -, hprovider, -, huser, hfirst⟩ := connectAccount_new hidentity h.connects
  intro a ha hauser haprovider
  cases hprincipal : task.request.principal with
  | none =>
    rw [huser, hprincipal] at hauser
    exact absurd hauser (hnew a ha)
  | some principal =>
    rw [hprovider] at haprovider
    cases haction : current.action with
    | link =>
      refine hfirst haction a ha ?_ haprovider
      rw [hauser, huser, hprincipal]
      rfl
    | signIn =>
      rw [hsigns current h.found haction] at hprincipal
      cases hprincipal

/-- An exchange moves the accounts. -/
theorem move (h : task.Connects rules draw s s' current claims account s₁)
    (hsigns : task.SignsIn s) (hnew : ∀ a ∈ s.accounts.rows, a.userId ≠ draw.userId) :
    LoginMove s.accounts s'.accounts := by
  rw [h.accounts]
  cases hidentity : s.identity task.request.provider claims.subject with
  | none =>
    obtain ⟨rfl, hfree, hprovider, hsubject, -, -⟩ := connectAccount_new hidentity h.connects
    refine .create account hfree (fun a ha haprovider hasubject => ?_)
      (h.first hsigns hnew hidentity)
    have hnone := List.find?_eq_none.mp hidentity a ha
    simp only [decide_eq_true_eq] at hnone
    exact hnone ⟨haprovider.trans hprovider, hasubject.trans hsubject⟩
  | some stored =>
    obtain ⟨rfl, -⟩ := connectAccount_stored hidentity h.connects
    exact .connect stored (AuthState.identity_eq_some hidentity).1 task.now

/-- An exchange leaves every user one connected method per provider, exactly if it relinks no
removed method beside another one. -/
theorem oneMethod (h : task.Connects rules draw s s' current claims account s₁)
    (hsigns : task.SignsIn s) (hnew : ∀ a ∈ s.accounts.rows, a.userId ≠ draw.userId)
    (hone : OneMethodPerProvider s.accounts) :
    ¬task.Relinks rules draw s ↔ OneMethodPerProvider s'.accounts := by
  rw [h.accounts]
  cases hidentity : s.identity task.request.provider claims.subject with
  | none =>
    obtain ⟨rfl, -⟩ := connectAccount_new hidentity h.connects
    refine iff_of_true ?_ (LoginMove.oneMethod_create (h.first hsigns hnew hidentity) hone)
    rintro ⟨_, -, claims', hclaims', stored, hstored, -⟩
    rw [Option.mem_def, h.verifies] at hclaims'
    obtain rfl := Option.some.inj hclaims'
    rw [Option.mem_def, hidentity] at hstored
    cases hstored
  | some stored =>
    obtain ⟨rfl, hremoved⟩ := connectAccount_stored hidentity h.connects
    rw [LoginMove.oneMethod_connect (AuthState.identity_eq_some hidentity).1 task.now hone]
    constructor
    · intro hnot hconnected other hother huser hprovider
      by_contra hotherConnected
      obtain ⟨hlink, howner⟩ := hremoved hconnected
      exact hnot ⟨current, h.found, claims, h.verifies, stored, hidentity, hlink, h.accepts, howner,
        hconnected, other, hother, huser, hprovider, by simpa using hotherConnected⟩
    · rintro honly ⟨_, -, claims', hclaims', stored', hstored', -, -, -, hconnected, other, hother,
        huser, hprovider, hotherConnected⟩
      rw [Option.mem_def, h.verifies] at hclaims'
      obtain rfl := Option.some.inj hclaims'
      rw [Option.mem_def, hidentity] at hstored'
      obtain rfl := Option.some.inj hstored'
      rw [honly hconnected other hother huser hprovider] at hotherConnected
      cases hotherConnected

end ExchangeTask.Connects

/-- An exchange that relinks a method completes. -/
theorem ExchangeTask.Relinks.completes (h : task.Relinks rules draw s) :
    ∃ reply t, completeExchange rules task.request task.challenge task.now draw s =
      .ok (reply, t) := by
  obtain ⟨current, hcurrent, claims, hclaims, stored, hstored, hlink, haccepts, howner, -⟩ := h
  have hconnect : connectAccount task.request current.action claims.subject task.now draw s =
      .ok (stored.connect task.now,
        { s with accounts := s.accounts.update stored.id (LoginAccount.connect task.now) }) := by
    rw [Option.mem_def, AuthState.identity] at hstored
    simp only [connectAccount, hstored, hlink]
    rw [raiseIf_ok (by simp [howner]), raiseIf_ok (by simp)]
    rfl
  exact ok_of_link hcurrent hclaims haccepts hlink hconnect

/-- A turn of an exchange moves the accounts, and leaves every user one connected method per
provider exactly if it relinks no removed method beside another one. -/
theorem ExchangeTask.turn_accounts (hsigns : task.SignsIn s)
    (hnew : ∀ a ∈ s.accounts.rows, a.userId ≠ draw.userId) :
    let t := commit (stateOf (completeExchange rules task.request task.challenge task.now draw s)) s
    LoginMove s.accounts t.accounts ∧ (OneMethodPerProvider s.accounts →
      (¬task.Relinks rules draw s ↔ OneMethodPerProvider t.accounts)) := by
  cases hdone : completeExchange rules task.request task.challenge task.now draw s with
  | error e =>
    refine ⟨.keep, fun hone => iff_of_true (fun hrelinks => ?_) hone⟩
    obtain ⟨reply, t, hok⟩ := hrelinks.completes
    rw [hdone] at hok
    cases hok
  | ok result =>
    obtain ⟨reply, t⟩ := result
    obtain ⟨current, claims, account, s₁, h⟩ := connects_of_ok hdone
    exact ⟨h.move hsigns hnew, h.oneMethod hsigns hnew⟩

end Exchange

section Steps

variable {rules : AuthRules} {s s' : AuthState} {now : ℤ}

/-- The login accounts and the challenges are left as they are. -/
structure AuthState.SameLogins (s s' : AuthState) : Prop where
  accounts : s'.accounts = s.accounts
  challenges : s'.challenges = s.challenges

namespace AuthState.SameLogins

theorem refl (s : AuthState) : s.SameLogins s := ⟨rfl, rfl⟩

theorem trans {s'' : AuthState} (h : s.SameLogins s') (h' : s'.SameLogins s'') :
    s.SameLogins s'' :=
  ⟨h'.accounts.trans h.accounts, h'.challenges.trans h.challenges⟩

/-- What leaves them on its own leaves them when done for each of a list. -/
theorem foldl {f : AuthState → String → AuthState}
    (hf : ∀ (s : AuthState) id, s.SameLogins (f s id))
    (ids : List String) (s : AuthState) : s.SameLogins (ids.foldl f s) := by
  induction ids generalizing s with
  | nil => exact .refl s
  | cons id ids ih => exact (hf s id).trans (ih _)

theorem revokeFamily (reason : Option String → String) (familyId : String) (s : AuthState) :
    s.SameLogins (s.revokeFamily reason now familyId) := ⟨rfl, rfl⟩

theorem ends (familyId : String) (why : FamilyEnd) (s : AuthState) :
    s.SameLogins (s.ends familyId why) := by
  unfold AuthState.ends
  split <;> exact ⟨rfl, rfl⟩

theorem continued {family : SessionFamily} {refreshToken : String} {draw : SessionDraw}
    {payload : SessionPayload}
    (h : continueFamily rules family now refreshToken draw s = .ok (payload, s')) :
    s.SameLogins s' := by
  obtain ⟨token, session, -, -, -, -, -, -, -, -, rfl⟩ := continueFamily_eq_ok h
  exact ⟨rfl, rfl⟩

theorem refresh (refreshToken : String) (clientPlatform : ClientPlatform) (now : ℤ)
    (nextRefresh : String) (draw : SessionDraw) (s : AuthState) :
    s.SameLogins (refreshSession rules refreshToken clientPlatform now nextRefresh draw s).2 := by
  have hcleaned : s.SameLogins (s.cleanupExpiredSessionFamilies now) := ⟨rfl, rfl⟩
  rw [refreshSession]
  split
  · exact .refl s
  · dsimp only
    split
    · exact .refl s
    · split
      · exact hcleaned.trans ((revokeFamily ..).trans (ends ..))
      · split
        · exact hcleaned.trans ((revokeFamily ..).trans (ends ..))
        · split
          · exact hcleaned.trans (revokeFamily ..)
          · split
            · exact .refl s
            · next payload s' hok =>
              simp only [rotateFamily, bind_eq_ok, raiseIf_eq_ok, pure_eq_ok, exists_const,
                Prod.mk.injEq] at hok
              obtain ⟨-, ⟨payload', s₁⟩, hcontinue, -, rfl⟩ := hok
              have hrest := continued hcontinue
              exact ⟨hrest.accounts, hrest.challenges⟩

theorem revokeProviderFamily (familyId : String) (now : ℤ) (s : AuthState) :
    s.SameLogins (revokeProviderFamily familyId now s) :=
  (revokeFamily ..).trans (ends ..)

theorem revokeSession (token : String) (now : ℤ) (s : AuthState) :
    s.SameLogins (revokeSession rules token now s) := by
  rw [Magistrate.revokeSession]
  split
  · exact .refl s
  · next tokenHash _ =>
    have hrevoked : s.SameLogins (s.revokeSessions (·.tokenHash = tokenHash) now) := ⟨rfl, rfl⟩
    dsimp only
    split
    · exact hrevoked
    · split
      · exact ⟨rfl, rfl⟩
      · exact hrevoked.trans (revokeProviderFamily ..)
      · exact hrevoked

theorem acceptBearer (identity : String) (bySessionId : Bool) (now : ℤ) (grantValid : Bool)
    (s : AuthState) : s.SameLogins (acceptBearer rules identity bySessionId now grantValid s) := by
  rw [Magistrate.acceptBearer]
  split <;> exact ⟨rfl, rfl⟩

theorem issueSession {userId : String} {scopes : List String} {expiresAt : ℤ}
    {accessGrantId : Option String} {draw : SessionDraw}
    (h : issueSession rules userId scopes now expiresAt accessGrantId draw s = .ok s') :
    s.SameLogins s' := by
  simp only [Magistrate.issueSession, insertSession, bind_eq_ok, raiseIf_eq_ok, pure_eq_ok,
    exists_const] at h
  obtain ⟨-, rfl⟩ := h
  exact ⟨rfl, rfl⟩

end AuthState.SameLogins

/-- An unlinked method is one of several connected ones of its user. -/
theorem unlinkLoginMethod_eq_ok {principal : LoginPrincipal} {provider : ProviderName}
    (h : unlinkLoginMethod principal provider now s = .ok s') :
    s'.challenges = s.challenges ∧ ∃ target ∈ s.accounts.rows, ∃ other ∈ s.accounts.rows,
      other ≠ target ∧ other.userId = target.userId ∧ other.connected = true ∧
        s'.accounts = s.accounts.update target.id (LoginAccount.disconnect now) := by
  simp only [unlinkLoginMethod] at h
  split at h
  · cases h
  · next target htarget =>
    simp only [bind_eq_ok, raiseIf_eq_ok, pure_eq_ok, exists_const] at h
    obtain ⟨-, hseveral, hdone⟩ := h
    have hrows : ∀ a ∈ s.accounts.rows.filter fun a => a.userId = principal.userId ∧ a.connected,
        a ∈ s.accounts.rows ∧ a.userId = principal.userId ∧ a.connected = true := fun a ha =>
      ⟨(List.mem_filter.mp ha).1, by simpa using (List.mem_filter.mp ha).2⟩
    obtain ⟨hstored, huser, -⟩ := hrows target (List.mem_of_find?_eq_some htarget)
    have hother : ∃ other ∈ s.accounts.rows.filter fun a =>
        a.userId = principal.userId ∧ a.connected, other ≠ target := by
      by_contra honly
      push Not at honly
      exact hseveral (length_le_one_of_unique ((List.Nodup.of_map _ s.accounts.unique).filter _)
        fun a ha b hb => (honly a ha).trans (honly b hb).symm)
    obtain ⟨other, hmem, hne⟩ := hother
    obtain ⟨hotherStored, hotherUser, hconnected⟩ := hrows other hmem
    have hsame : AuthState.SameLogins { s with
        accounts := s.accounts.update target.id (LoginAccount.disconnect now) } s' :=
      hdone ▸ (AuthState.SameLogins.foldl (fun s familyId => .revokeFamily _ familyId s) _ _).trans
        (AuthState.SameLogins.foldl (fun s familyId => .ends familyId .unlink s) _ _)
    exact ⟨hsame.challenges, target, hstored, other, hotherStored, hne,
      hotherUser.trans huser.symm, hconnected, hsame.accounts⟩

/-- A sign-in of which the challenges change no action still has no principal. -/
theorem ExchangeTask.SignsIn.of_rows {task : ExchangeTask} (h : task.SignsIn s)
    (hrows : ∀ row' ∈ s'.challenges.rows, row'.challengeId = task.request.challengeId →
      ∃ row ∈ s.challenges.rows, row.challengeId = row'.challengeId ∧ row.action = row'.action) :
    task.SignsIn s' := by
  intro current hcurrent haction
  obtain ⟨hmem, hid⟩ := Table.mem_of_find? hcurrent
  obtain ⟨row, hrow, hsame, hkind⟩ := hrows current hmem hid
  refine h row ?_ (hkind.trans haction)
  rw [← hid, ← hsame]
  exact Table.find?_of_mem hrow

end Steps

/-- What every reachable state keeps of login methods. -/
structure LoginInvariant (rules : AuthRules) (p : Pool AuthState ExchangeTask) : Prop where
  sound : AuthInvariant rules p
  signs : ∀ task ∈ p.workers, task.SignsIn p.shared
  unique : IdentitiesUnique p.shared.accounts

namespace LoginInvariant

variable {rules : AuthRules} {p : Pool AuthState ExchangeTask} {op : AuthStep}

theorem initial (rules : AuthRules) : LoginInvariant rules ⟨.initial, []⟩ where
  sound := .initial rules
  signs := by simp
  unique := by simp [IdentitiesUnique, AuthState.initial]

/-- A step moves the accounts, and leaves every user one connected method per provider exactly if it
relinks no removed method beside another one. -/
theorem accounts (h : LoginInvariant rules p) (op : AuthStep) (hnew : op.NewUser p) :
    LoginMove p.shared.accounts (authStep rules p op).shared.accounts ∧
      (OneMethodPerProvider p.shared.accounts →
        (¬op.Relinks rules p ↔ OneMethodPerProvider (authStep rules p op).shared.accounts)) := by
  have still : ∀ {s' : AuthState}, p.shared.SameLogins s' → ¬op.Relinks rules p →
      LoginMove p.shared.accounts s'.accounts ∧ (OneMethodPerProvider p.shared.accounts →
        (¬op.Relinks rules p ↔ OneMethodPerProvider s'.accounts)) := by
    intro s' hsame hnot
    rw [hsame.accounts]
    exact ⟨.keep, iff_of_true hnot⟩
  cases op with
  | createChallenge request challengeId nonce now =>
    have haccounts : (authStep rules p (.createChallenge request challengeId nonce
      now)).shared.accounts
        = p.shared.accounts := by
      refine commit_of (P := fun s : AuthState => s.accounts = p.shared.accounts)
        rfl fun s hok => ?_
      obtain ⟨reply, hok⟩ := stateOf_eq_ok.mp hok
      simp only [createChallenge, bind_eq_ok, raiseIf_eq_ok, pure_eq_ok, exists_const,
        Prod.mk.injEq] at hok
      obtain ⟨-, -, -, -, -, rfl⟩ := hok
      rfl
    rw [haccounts]
    exact ⟨.keep, iff_of_true not_false⟩
  | exchange request now =>
    simp only [authStep]
    split <;> exact still (.refl _) not_false
  | turn i draw =>
    cases htask : p.workers[i]? with
    | none =>
      rw [authStep, Pool.turn_none htask]
      refine still (.refl _) ?_
      rintro ⟨task, hmem, -⟩
      rw [htask] at hmem
      cases hmem
    | some task =>
      rw [authStep, Pool.shared_turn htask]
      have hrelinks : AuthStep.Relinks rules p (.turn i draw) ↔
        task.Relinks rules draw p.shared := by
        simp [AuthStep.Relinks, htask]
      rw [hrelinks]
      exact ExchangeTask.turn_accounts (h.signs task (List.mem_of_getElem? htask)) hnew
  | stop i =>
    cases htask : p.workers[i]? with
    | none =>
      rw [authStep, Pool.turn_none htask]
      exact still (.refl _) not_false
    | some task =>
      rw [authStep, Pool.shared_turn htask]
      exact still (.refl _) not_false
  | refresh refreshToken clientPlatform now nextRefresh draw => exact still (.refresh ..) not_false
  | unlink principal provider now =>
    refine commit_of (P := fun s : AuthState => LoginMove p.shared.accounts s.accounts ∧
      (OneMethodPerProvider p.shared.accounts → (¬False ↔ OneMethodPerProvider s.accounts)))
      ⟨.keep, iff_of_true not_false⟩ fun s hok => ?_
    obtain ⟨-, target, htarget, other, hother, hne, huser, hconnected, haccounts⟩ :=
      unlinkLoginMethod_eq_ok hok
    rw [haccounts]
    exact ⟨.disconnect target other htarget hother hne huser hconnected now, fun hone =>
      iff_of_true not_false (LoginMove.oneMethod_update (fun _ => rfl) (fun _ => rfl)
        (fun _ hfalse => by cases hfalse) hone)⟩
  | revokeSession token now => exact still (.revokeSession ..) not_false
  | revokeFamily familyId now => exact still (.revokeProviderFamily ..) not_false
  | verify identity bySessionId now grantValid => exact still (.acceptBearer ..) not_false
  | issue userId scopes now expiresAt accessGrantId draw =>
    exact still (commit_of (.refl _) fun s hok => .issueSession hok) not_false
  | revokeGrant grantId now => exact still ⟨rfl, rfl⟩ not_false
  | cleanupSessions now => exact still ⟨rfl, rfl⟩ not_false
  | enforceRetention now => exact ⟨.keep, iff_of_true not_false⟩

/-- A step keeps the principals of sign-ins. -/
theorem signsIn (h : LoginInvariant rules p) (op : AuthStep) (fresh : op.Fresh rules p) :
    ∀ task ∈ (authStep rules p op).workers, task.SignsIn (authStep rules p op).shared := by
  have still : ∀ {s' : AuthState}, p.shared.SameLogins s' →
    ∀ task ∈ p.workers, task.SignsIn s' := by
    intro s' hsame task htask
    refine (h.signs task htask).of_rows fun row hrow _ => ⟨row, ?_, rfl, rfl⟩
    rwa [← hsame.challenges]
  cases op with
  | createChallenge request challengeId nonce now =>
    intro task htask
    refine commit_of (P := task.SignsIn) (h.signs task htask) fun s hok => ?_
    obtain ⟨reply, hok⟩ := stateOf_eq_ok.mp hok
    simp only [createChallenge, bind_eq_ok, raiseIf_eq_ok, pure_eq_ok, exists_const,
      Prod.mk.injEq] at hok
    obtain ⟨-, -, -, -, -, rfl⟩ := hok
    refine (h.signs task htask).of_rows fun row hrow hid => ?_
    rcases Table.mem_insertOrIgnore hrow with hrow | ⟨-, rfl⟩
    · exact ⟨row, (List.mem_filter.mp hrow).1, rfl, rfl⟩
    · -- The id of a challenge that an exchange read was drawn before.
      refine absurd ⟨_, h.sound.tasks task htask, ?_⟩ fresh.1
      simp [AuthEvent.drawn, ← hid]
  | exchange request now =>
    simp only [authStep]
    split
    · next challenge hread =>
      intro task htask
      rcases List.mem_append.mp htask with htask | htask
      · exact h.signs task htask
      · obtain rfl := List.mem_singleton.mp htask
        intro current hcurrent haction
        have hcurrent : p.shared.challenges.find? request.challengeId = some current := hcurrent
        simp only [readChallenge, hcurrent, bind_eq_ok, raiseIf_eq_ok, pure_eq_ok, exists_const,
          not_or, not_and, not_not] at hread
        exact hread.2.1.2.2.2.2.2 haction
    · exact h.signs
  | turn i draw =>
    cases htask : p.workers[i]? with
    | none =>
      rw [authStep, Pool.turn_none htask]
      exact h.signs
    | some done =>
      rw [authStep, Pool.shared_turn htask]
      intro task hmem
      have hold : task ∈ p.workers := by
        rcases Pool.mem_turn hmem with hmem | ⟨_, _, hnone⟩
        · exact hmem
        · cases hnone
      refine commit_of (P := task.SignsIn) (h.signs task hold) fun s hok => ?_
      obtain ⟨reply, hok⟩ := stateOf_eq_ok.mp hok
      obtain ⟨current, claims, account, s₁, hconnects⟩ := ExchangeTask.connects_of_ok hok
      refine (h.signs task hold).of_rows fun row' hrow' _ => ?_
      rw [hconnects.challenges] at hrow'
      obtain ⟨row, hrow, rfl⟩ := Table.mem_update.mp hrow'
      refine ⟨row, hrow, ?_⟩
      split <;> exact ⟨rfl, rfl⟩
  | stop i =>
    cases htask : p.workers[i]? with
    | none =>
      rw [authStep, Pool.turn_none htask]
      exact h.signs
    | some done =>
      rw [authStep, Pool.shared_turn htask]
      intro task hmem
      rcases Pool.mem_turn hmem with hmem | ⟨_, _, hnone⟩
      · exact h.signs task hmem
      · cases hnone
  | refresh refreshToken clientPlatform now nextRefresh draw => exact still (.refresh ..)
  | unlink principal provider now =>
    intro task htask
    refine commit_of (P := task.SignsIn) (h.signs task htask) fun s hok => ?_
    obtain ⟨hchallenges, -⟩ := unlinkLoginMethod_eq_ok hok
    refine (h.signs task htask).of_rows fun row hrow _ => ⟨row, ?_, rfl, rfl⟩
    rwa [← hchallenges]
  | revokeSession token now => exact still (.revokeSession ..)
  | revokeFamily familyId now => exact still (.revokeProviderFamily ..)
  | verify identity bySessionId now grantValid => exact still (.acceptBearer ..)
  | issue userId scopes now expiresAt accessGrantId draw =>
    exact still (commit_of (.refl _) fun s hok => .issueSession hok)
  | revokeGrant grantId now => exact still ⟨rfl, rfl⟩
  | cleanupSessions now => exact still ⟨rfl, rfl⟩
  | enforceRetention now =>
    exact fun task htask => (h.signs task htask).of_rows fun row hrow _ =>
      ⟨row, (List.mem_filter.mp hrow).1, rfl, rfl⟩

/-- A step that draws what was not drawn keeps the invariant. -/
theorem step (h : LoginInvariant rules p) (op : AuthStep)
    (fresh : op.Fresh rules p ∧ op.NewUser p) :
    LoginInvariant rules (authStep rules p op) where
  sound := h.sound.step op fresh.1
  signs := h.signsIn op fresh.1
  unique := (h.accounts op fresh.2).1.identitiesUnique h.unique

/-- A run keeps identities with their users, and a connected method of every user that had one. -/
theorem keepsLogins (h : LoginInvariant rules p) {steps : List AuthStep}
    (fresh : RunMeets (authStep rules) (fun p op => op.Fresh rules p ∧ op.NewUser p) p steps) :
    KeepsLogins p.shared.accounts (run (authStep rules) p steps).shared.accounts :=
  (run_invariant (I := fun q => LoginInvariant rules q ∧
      KeepsLogins p.shared.accounts q.shared.accounts)
    (fun _ op hq hfresh => ⟨hq.1.step op hfresh,
      hq.2.trans (hq.1.accounts op hfresh.2).1.keepsLogins⟩)
    fresh ⟨h, .refl _⟩).2

end LoginInvariant

/-- In a run whose draws are new, every identity stays with its user, a user with a connected method
keeps one, and no user ever has two connected methods of a provider, exactly if no exchange links a
method again that its user removed while another one of the provider is connected. -/
theorem login_methods_kept (rules : AuthRules) (steps : List AuthStep)
    (fresh : RunMeets (authStep rules) (fun p op => op.Fresh rules p ∧ op.NewUser p)
      ⟨.initial, []⟩ steps) :
    RunMeets (authStep rules) (fun p op => ¬op.Relinks rules p) ⟨.initial, []⟩ steps ↔
      ∀ before after, steps = before ++ after →
        let accounts := (run (authStep rules) ⟨.initial, []⟩ before).shared.accounts
        let accounts' := (run (authStep rules) ⟨.initial, []⟩ steps).shared.accounts
        IdentitiesUnique accounts ∧ OneMethodPerProvider accounts ∧
          KeepsLogins accounts accounts' := by
  rw [runMeets_iff_reached (I := LoginInvariant rules)
    (P := fun p => OneMethodPerProvider p.shared.accounts) (fun _ op h => h.step op)
    (fun _ op h hfresh => (h.accounts op hfresh.2).2) fresh (.initial rules)
    (by simp [OneMethodPerProvider, AuthState.initial])]
  refine forall_congr' fun before => forall_congr' fun after => forall_congr' fun hsteps => ?_
  subst hsteps
  obtain ⟨hbefore, hafter⟩ := runMeets_append.mp fresh
  have hreached : LoginInvariant rules (run (authStep rules) ⟨.initial, []⟩ before) :=
    run_invariant (fun _ op h => h.step op) hbefore (.initial rules)
  constructor
  · intro hone
    rw [run_append]
    exact ⟨hreached.unique, hone, hreached.keepsLogins hafter⟩
  · exact fun h => h.2.1

namespace LoginSample

/-- The nonce of a sample challenge. -/
def nonce (n : String) : String := "nonce-nonce-nonce-nonce-nonce-0" ++ n

/-- The id of a sample challenge. -/
def challengeId (n : String) : String := "pac_challenge-challenge-" ++ n

/-- The claims of a sample token. -/
def claims (issuer subject n : String) : Json :=
  .obj [("iss", .str issuer), ("sub", .str subject), ("aud", .str "client"), ("exp", .int 900),
    ("iat", .int 0), ("nonce", .str (nonce n))]

/-- Rules that take texts as they are, with five identity tokens. -/
def rules : AuthRules where
  sha256 text := text
  tokenClaims token :=
    [("google 0", claims "accounts.google.com" "first" "0"),
      ("apple 1", claims "https://appleid.apple.com" "second" "1"),
      ("google 2", claims "accounts.google.com" "third" "2"),
      ("google 3", claims "accounts.google.com" "first" "3")].lookup token
  redirectScheme _ := .ok "https"
  admits _ := true
  configuredIds _ := ["client"]
  platformClientIds _ _ := []
  appleWeb := true
  production := false
  providerScopes := ["read", "account"]
  refreshTtlSeconds := 3600
  sessionTtlSeconds := 3600

/-- A challenge and the exchange that answers it. -/
def exchange (provider : ProviderName) (action : ChallengeAction) (token n : String)
    (principal : Option LoginPrincipal) : List AuthStep :=
  [.createChallenge ⟨provider, action, .web, some "https://app", principal⟩ (challengeId n)
      (nonce n) 0,
    .exchange ⟨provider, challengeId n, nonce n, some token, none, some "https://app", principal⟩ 1,
    .turn 0 ⟨.error ⟨401, ""⟩, true, 1, true, "user " ++ n, "account " ++ n, "family " ++ n,
      "refresh " ++ n, ⟨"bearer " ++ n, "session " ++ n⟩⟩]

/-- The user of the first sign-in, signed in with Apple. -/
def user : LoginPrincipal := ⟨"user 0", some "account 1"⟩

/-- A user signs in with Google, links Apple, unlinks Google and links another Google identity. -/
def steps : List AuthStep :=
  exchange .google .signIn "google 0" "0" none ++ exchange .apple .link "apple 1" "1" (some user) ++
    .unlink user .google 2 :: exchange .google .link "google 2" "2" (some user)

/-- The user then links the first Google identity again. -/
def relinked : List AuthStep := steps ++ exchange .google .link "google 3" "3" (some user)

end LoginSample

open LoginSample

/-- A user has one connected method of each provider after unlinking one and linking another. -/
theorem login_methods_kept_linked :
    ((run (authStep rules) ⟨.initial, []⟩ steps).shared.accounts.rows.map fun a =>
      (a.provider, a.providerUserId, a.connected)) =
        [(.google, "first", false), (.apple, "second", true), (.google, "third", true)] ∧
    ∀ before after, steps = before ++ after →
      let accounts := (run (authStep rules) ⟨.initial, []⟩ before).shared.accounts
      let accounts' := (run (authStep rules) ⟨.initial, []⟩ steps).shared.accounts
      IdentitiesUnique accounts ∧ OneMethodPerProvider accounts ∧ KeepsLogins accounts accounts' :=
  ⟨by decide +kernel, (login_methods_kept rules steps (by decide +kernel)).mp (by decide +kernel)⟩

/-- A Google identity that was unlinked and is linked again is a second connected one. -/
theorem login_method_relinked :
    RunMeets (authStep rules) (fun p op => op.Fresh rules p ∧
      op.NewUser p) ⟨.initial, []⟩ relinked ∧
    ¬OneMethodPerProvider (run (authStep rules) ⟨.initial, []⟩ relinked).shared.accounts := by
  decide +kernel

end Magistrate
