import Magistrate.Core.History
import Magistrate.Gateway.Auth.ProviderSessions

/-!
# Refresh families are single-use and revocable

A family that is in force has one refresh token that is not consumed and at most
one bearer. Cleaning up and revoking only ever retire rows, so what ended stays
ended; what an exchange accepts is bound to the nonce of its challenge, which is
why the digests of accepted assertions need not be kept.
-/

namespace Magistrate

/-- The texts that an event draws. -/
def AuthEvent.drawn : AuthEvent → List String
  | .challenged challengeId nonceHash => [challengeId, nonceHash]
  | .issued familyId tokenHash => [familyId, tokenHash]
  | .rotated _ _ nextHash => [nextHash]
  | _ => []

/-- A text was drawn before. -/
def Drawn (history : List AuthEvent) (text : String) : Prop :=
  ∃ event ∈ history, text ∈ event.drawn

instance (history : List AuthEvent) (text : String) : Decidable (Drawn history text) :=
  inferInstanceAs (Decidable (∃ event ∈ history, text ∈ event.drawn))

/-- What a step draws was never drawn before. -/
def AuthStep.Fresh (rules : AuthRules) (p : Pool AuthState ExchangeTask) : AuthStep → Prop
  | .createChallenge _ challengeId nonce _ =>
    ¬Drawn p.shared.history challengeId ∧ ¬Drawn p.shared.history (rules.sha256 nonce)
  | .turn _ draw => ¬Drawn p.shared.history draw.familyId ∧
      ¬Drawn p.shared.history (rules.sha256 draw.refreshToken)
  | .refresh _ _ _ nextRefresh _ => ¬Drawn p.shared.history (rules.sha256 nextRefresh)
  | _ => True

instance (rules : AuthRules) (p : Pool AuthState ExchangeTask) (step : AuthStep) :
    Decidable (step.Fresh rules p) := by
  unfold AuthStep.Fresh
  split <;> infer_instance

/-- The nonce digest of the challenge that a token answers: Apple is given the digest, Google the
nonce. -/
def tokenNonceHash (rules : AuthRules) (identityToken : String) : Option String := do
  let claims ← rules.tokenClaims identityToken
  let issuer ← (claims.get "iss").str?
  let nonce ← (claims.get "nonce").str?
  return if issuer ∈ issuers .apple then nonce else rules.sha256 nonce

/-- What an event says of the events before it: what it accepts was neither accepted before nor had
its family ended. -/
def AuthEvent.Fair (earlier : List AuthEvent) : AuthEvent → Prop
  | .exchanged challengeId identityToken =>
    (∀ token, .exchanged challengeId token ∉ earlier) ∧ ∀ id, .exchanged id identityToken ∉ earlier
  | .rotated familyId tokenHash _ =>
    (∀ id next, .rotated id tokenHash next ∉ earlier) ∧ ∀ why, .ended familyId why ∉ earlier
  | .accepted familyId => ∀ why, .ended familyId why ∉ earlier
  | _ => True

/-- What the family tables keep: ids and digests were drawn, tokens expire with their family, no
bearer has both a family and a grant, and what ended or was rotated stays so. -/
structure FamiliesKept (s : AuthState) : Prop where
  family : ∀ row ∈ s.families.rows, Drawn s.history row.familyId
  token : ∀ row ∈ s.refreshTokens.rows, Drawn s.history row.tokenHash ∧
    Drawn s.history row.familyId ∧ ∀ family ∈ s.families.rows, family.familyId = row.familyId →
      row.expiresAt = family.expiresAt
  session : ∀ row ∈ s.sessions.rows, ∀ familyId, row.providerSessionId = some familyId →
    Drawn s.history familyId ∧ row.accessGrantId = none
  ended : ∀ familyId why, .ended familyId why ∈ s.history → Drawn s.history familyId ∧
    ∀ row ∈ s.families.rows, row.familyId = familyId → row.revokedAt ≠ none
  rotated : ∀ familyId tokenHash next, .rotated familyId tokenHash next ∈ s.history →
    Drawn s.history tokenHash ∧
      ∀ row ∈ s.refreshTokens.rows, row.tokenHash = tokenHash → row.consumedAt ≠ none

/-- A family has one refresh token that is not consumed, and at most one bearer. -/
def AuthState.Single (s : AuthState) (familyId : String) : Prop :=
  s.refreshTokens.rows.countP (RefreshToken.liveOf familyId) = 1 ∧
    s.sessions.rows.countP (GatewaySession.liveOf familyId) ≤ 1

/-- The tables are kept, and the families in force are single. -/
structure FamiliesSound (s : AuthState) : Prop extends FamiliesKept s where
  single : ∀ family ∈ s.families.rows, family.revokedAt = none → s.Single family.familyId

/-- What the challenges keep: nonces tell them apart, and an accepted one is used up. -/
structure ChallengesSound (rules : AuthRules) (challenges : Table AuthChallenge.challengeId)
    (history : List AuthEvent) : Prop where
  stored : ∀ row ∈ challenges.rows, .challenged row.challengeId row.nonceHash ∈ history
  apart : ∀ id id' nonceHash, .challenged id nonceHash ∈ history →
    .challenged id' nonceHash ∈ history → id = id'
  exchanged : ∀ id token, .exchanged id token ∈ history →
    (∀ row ∈ challenges.rows, row.challengeId = id → row.consumedAt ≠ none) ∧
      ∃ nonceHash, .challenged id nonceHash ∈ history ∧
        tokenNonceHash rules token = some nonceHash

/-- What every reachable state keeps. -/
structure AuthSound (rules : AuthRules) (s : AuthState) : Prop where
  families : FamiliesSound s
  challenges : ChallengesSound rules s.challenges s.history
  fair : Justified AuthEvent.Fair s.history

/-- A state is sound and goes on with the history of another one. -/
structure AuthNext (rules : AuthRules) (s s' : AuthState) : Prop where
  sound : AuthSound rules s'
  history : s.history <+: s'.history

/-- Rows are only removed, revoked or changed where nobody looks, and a family that stays in force
keeps its tokens. -/
structure AuthState.Retired (s s' : AuthState) : Prop where
  history : s'.history = s.history
  challenges : s'.challenges.rows ⊆ s.challenges.rows
  family : ∀ row' ∈ s'.families.rows, ∃ row ∈ s.families.rows, row.familyId = row'.familyId ∧
    row.expiresAt = row'.expiresAt ∧ (row'.revokedAt = none → row.revokedAt = none)
  token : s'.refreshTokens.rows ⊆ s.refreshTokens.rows
  kept : ∀ row' ∈ s'.families.rows, row'.revokedAt = none →
    s'.refreshTokens.rows.countP (RefreshToken.liveOf row'.familyId) =
      s.refreshTokens.rows.countP (RefreshToken.liveOf row'.familyId)
  session : ∀ row' ∈ s'.sessions.rows, ∃ row ∈ s.sessions.rows,
    row.providerSessionId = row'.providerSessionId ∧ row.accessGrantId = row'.accessGrantId
  bearers : ∀ familyId, s'.sessions.rows.countP (GatewaySession.liveOf familyId) ≤
    s.sessions.rows.countP (GatewaySession.liveOf familyId)

theorem Drawn.append {history : List AuthEvent} {text : String} (h : Drawn history text)
    (later : List AuthEvent) : Drawn (history ++ later) text := by
  obtain ⟨event, hmem, htext⟩ := h
  exact ⟨event, List.mem_append_left _ hmem, htext⟩

/-- What the last event draws is drawn. -/
theorem Drawn.last {history : List AuthEvent} {event : AuthEvent} {text : String}
    (h : text ∈ event.drawn) : Drawn (history ++ [event]) text :=
  ⟨event, List.mem_append_right _ (List.mem_singleton_self _), h⟩

/-- Rows that only lose what is in force keep the tables. -/
theorem FamiliesKept.of_rows {s s' : AuthState} (h : FamiliesKept s)
    (history : s'.history = s.history)
    (hfamily : ∀ row' ∈ s'.families.rows, ∃ row ∈ s.families.rows, row.familyId = row'.familyId ∧
      row.expiresAt = row'.expiresAt ∧ (row'.revokedAt = none → row.revokedAt = none))
    (htoken : ∀ row' ∈ s'.refreshTokens.rows, ∃ row ∈ s.refreshTokens.rows,
      row.tokenHash = row'.tokenHash ∧ row.familyId = row'.familyId ∧
        row.expiresAt = row'.expiresAt ∧ (row'.consumedAt = none → row.consumedAt = none))
    (hsession : ∀ row' ∈ s'.sessions.rows, ∃ row ∈ s.sessions.rows,
      row.providerSessionId = row'.providerSessionId ∧ row.accessGrantId = row'.accessGrantId) :
    FamiliesKept s' where
  family row' hrow' := by
    obtain ⟨row, hrow, hid, -⟩ := hfamily row' hrow'
    rw [history, ← hid]
    exact h.family row hrow
  token row' hrow' := by
    obtain ⟨row, hrow, hhash, hid, hexpires, -⟩ := htoken row' hrow'
    obtain ⟨hdrawn, hfamilyDrawn, hsame⟩ := h.token row hrow
    rw [history, ← hhash, ← hid, ← hexpires]
    refine ⟨hdrawn, hfamilyDrawn, fun family' hfamily' heq => ?_⟩
    obtain ⟨family, hmem, hid', hexpires', -⟩ := hfamily family' hfamily'
    rw [← hexpires', hsame family hmem (hid'.trans heq)]
  session row' hrow' familyId hsome := by
    obtain ⟨row, hrow, hsame, hgrant⟩ := hsession row' hrow'
    rw [history, ← hgrant]
    exact h.session row hrow familyId (hsame.trans hsome)
  ended familyId why hmem := by
    rw [history] at hmem ⊢
    obtain ⟨hdrawn, hrevoked⟩ := h.ended familyId why hmem
    refine ⟨hdrawn, fun row' hrow' hsame hnone => ?_⟩
    obtain ⟨row, hrow, hid, -, hforce⟩ := hfamily row' hrow'
    exact hrevoked row hrow (hid.trans hsame) (hforce hnone)
  rotated familyId tokenHash next hmem := by
    rw [history] at hmem ⊢
    obtain ⟨hdrawn, hconsumed⟩ := h.rotated familyId tokenHash next hmem
    refine ⟨hdrawn, fun row' hrow' hsame hnone => ?_⟩
    obtain ⟨row, hrow, hhash, -, -, hlive⟩ := htoken row' hrow'
    exact hconsumed row hrow (hhash.trans hsame) (hlive hnone)

namespace AuthState.Retired

variable {rules : AuthRules} {s s' s'' : AuthState}

theorem refl (s : AuthState) : s.Retired s where
  history := rfl
  challenges := List.Subset.refl _
  family row h := ⟨row, h, rfl, rfl, id⟩
  token := List.Subset.refl _
  kept _ _ _ := rfl
  session row h := ⟨row, h, rfl, rfl⟩
  bearers _ := Nat.le_refl _

theorem trans (h : s.Retired s') (h' : s'.Retired s'') : s.Retired s'' where
  history := h'.history.trans h.history
  challenges := List.Subset.trans h'.challenges h.challenges
  family row'' hrow'' := by
    obtain ⟨row', hrow', hid', hexpires', hforce'⟩ := h'.family row'' hrow''
    obtain ⟨row, hrow, hid, hexpires, hforce⟩ := h.family row' hrow'
    exact ⟨row, hrow, hid.trans hid', hexpires.trans hexpires', fun hnone => hforce (hforce' hnone)⟩
  token := List.Subset.trans h'.token h.token
  kept row'' hrow'' hnone := by
    obtain ⟨row', hrow', hid', -, hforce'⟩ := h'.family row'' hrow''
    exact (h'.kept row'' hrow'' hnone).trans (hid' ▸ h.kept row' hrow' (hforce' hnone))
  session row'' hrow'' := by
    obtain ⟨row', hrow', hfamily', hgrant'⟩ := h'.session row'' hrow''
    obtain ⟨row, hrow, hfamily, hgrant⟩ := h.session row' hrow'
    exact ⟨row, hrow, hfamily.trans hfamily', hgrant.trans hgrant'⟩
  bearers familyId := (h'.bearers familyId).trans (h.bearers familyId)

/-- What is retired stays sound. -/
theorem sound (r : s.Retired s') (h : AuthSound rules s) : AuthSound rules s' where
  families :=
    { h.families.toFamiliesKept.of_rows r.history r.family
        (fun row hrow => ⟨row, r.token hrow, rfl, rfl, rfl, id⟩) r.session with
      single := fun row' hrow' hnone => by
        obtain ⟨row, hrow, hid, -, hforce⟩ := r.family row' hrow'
        obtain ⟨htokens, hbearers⟩ := h.families.single row hrow (hforce hnone)
        rw [hid] at htokens hbearers
        exact ⟨(r.kept row' hrow' hnone).trans htokens, (r.bearers _).trans hbearers⟩ }
  challenges :=
    { stored := fun row hrow => r.history ▸ h.challenges.stored row (r.challenges hrow)
      apart := by
        rw [r.history]
        exact h.challenges.apart
      exchanged := fun id token hmem => by
        rw [r.history] at hmem ⊢
        obtain ⟨hconsumed, hnonce⟩ := h.challenges.exchanged id token hmem
        exact ⟨fun row hrow => hconsumed row (r.challenges hrow), hnonce⟩ }
  fair := r.history ▸ h.fair

theorem next (r : s.Retired s') (h : AuthSound rules s) : AuthNext rules s s' :=
  ⟨r.sound h, r.history ▸ List.prefix_rfl⟩

/-- A row of a retired table that is in force was in force. -/
theorem force (r : s.Retired s') {row' : SessionFamily} (hrow' : row' ∈ s'.families.rows)
    (hnone : row'.revokedAt = none) :
    ∃ row ∈ s.families.rows, row.familyId = row'.familyId ∧ row.revokedAt = none := by
  obtain ⟨row, hrow, hid, -, hforce⟩ := r.family row' hrow'
  exact ⟨row, hrow, hid, hforce hnone⟩

/-- Bearers are revoked. -/
theorem revokeSessions (p : GatewaySession → Bool) (now : ℤ) (s : AuthState) :
    s.Retired (s.revokeSessions p now) where
  history := rfl
  challenges := List.Subset.refl _
  family row h := ⟨row, h, rfl, rfl, id⟩
  token := List.Subset.refl _
  kept _ _ _ := rfl
  session row' hrow' := by
    simp only [AuthState.revokeSessions, Table.mem_updateWhere] at hrow'
    obtain ⟨row, hrow, rfl⟩ := hrow'
    refine ⟨row, hrow, ?_⟩
    split <;> exact ⟨rfl, rfl⟩
  bearers familyId := Table.countP_updateWhere_le fun row _ _ hlive => by
    simp [GatewaySession.liveOf] at hlive

/-- A family is revoked. -/
theorem revokeFamily (reason : Option String → String) (now : ℤ) (familyId : String)
    (s : AuthState) : s.Retired (s.revokeFamily reason now familyId) := by
  suffices hrevoked : s.Retired { s with
      families := s.families.update familyId (SessionFamily.revoke reason now) fun _ => rfl } from
    hrevoked.trans (revokeSessions _ now _)
  refine ⟨rfl, List.Subset.refl _, fun row' hrow' => ?_, List.Subset.refl _, fun _ _ _ => rfl,
    fun row h => ⟨row, h, rfl, rfl⟩, fun _ => Nat.le_refl _⟩
  have hmem : row' ∈ (s.families.update familyId (SessionFamily.revoke reason now)
    fun _ => rfl).rows := hrow'
  obtain ⟨row, hrow, rfl⟩ := Table.mem_update.mp hmem
  refine ⟨row, hrow, ?_⟩
  split
  · exact ⟨rfl, rfl, fun hnone => nomatch hnone⟩
  · exact ⟨rfl, rfl, id⟩

/-- Bearers are removed. -/
theorem removeSessions (p : GatewaySession → Bool) (s : AuthState) :
    s.Retired { s with sessions := s.sessions.removeWhere p } where
  history := rfl
  challenges := List.Subset.refl _
  family row h := ⟨row, h, rfl, rfl, id⟩
  token := List.Subset.refl _
  kept _ _ _ := rfl
  session row h := ⟨row, (List.mem_filter.mp h).1, rfl, rfl⟩
  bearers _ := List.filter_sublist.countP_le

/-- Families are removed with their tokens, where no other family loses a token. -/
theorem removeTokens (p : RefreshToken → Bool) (q : SessionFamily → Bool)
    (hkept : ∀ token ∈ s.refreshTokens.rows, p token = true → ∀ family ∈ s.families.rows,
      family.familyId = token.familyId → q family = true) :
    s.Retired { s with
      refreshTokens := s.refreshTokens.removeWhere p
      families := s.families.removeWhere q } where
  history := rfl
  challenges := List.Subset.refl _
  family row h := ⟨row, (List.mem_filter.mp h).1, rfl, rfl, id⟩
  token := List.filter_subset_self _
  kept row hrow _ := by
    obtain ⟨hrow, hq⟩ := List.mem_filter.mp hrow
    change (s.refreshTokens.rows.filter (!p ·)).countP _ = _
    rw [List.countP_filter]
    refine List.countP_congr fun token htoken => ?_
    simp only [RefreshToken.liveOf, Bool.and_eq_true, decide_eq_true_eq, Bool.not_eq_true']
    refine and_iff_left_of_imp fun hlive => ?_
    by_contra hp
    have hremoved := hkept token htoken (by simpa using hp) row hrow hlive.1.symm
    simp [hremoved] at hq
  session row h := ⟨row, h, rfl, rfl⟩
  bearers _ := Nat.le_refl _

theorem removeFamilies (familyIds : List String) (s : AuthState) :
    s.Retired (s.removeFamilies familyIds) := by
  refine (removeSessions (fun session => session.providerSessionId.any (· ∈ familyIds)) s).trans
    (removeTokens (fun token => token.familyId ∈ familyIds)
      (fun family => family.familyId ∈ familyIds) fun token _ hp family _ hsame => ?_)
  simpa [hsame] using hp

theorem cleanupExpiredSessionFamilies (now : ℤ) (s : AuthState) :
    s.Retired (s.cleanupExpiredSessionFamilies now) :=
  removeFamilies _ s

theorem cleanupSessions (now : ℤ) (s : AuthState) : s.Retired (s.cleanupSessions now) :=
  removeSessions _ s

/-- The challenges shrink, and assertions and accounts may be any. -/
theorem challengesShrink {challenges : Table AuthChallenge.challengeId}
    (h : challenges.rows ⊆ s.challenges.rows) (assertions : Table ProviderAssertion.assertionHash)
    (accounts : Table LoginAccount.id) :
    s.Retired { s with challenges, assertions, accounts } :=
  { refl s with challenges := h }

/-- A family that the retention keeps is not old, so its tokens are kept: they expire with it. -/
theorem enforceRetention (now : ℤ) (h : FamiliesSound s) : s.Retired (s.enforceRetention now) := by
  let cutoff := now - 30 * 24 * 3600
  let old := fun family : SessionFamily =>
    decide (family.expiresAt < cutoff) || family.revokedAt.any (· < cutoff)
  let p := fun token : RefreshToken => decide (token.expiresAt < cutoff ∨
    s.families.rows.any fun family => old family ∧ family.familyId = token.familyId)
  let q := fun family : SessionFamily => decide (old family ∧
    ¬(s.refreshTokens.removeWhere p).rows.any (·.familyId = family.familyId))
  refine ((challengesShrink (List.filter_subset_self _) s.assertions s.accounts).trans
    (removeSessions _ _)).trans (removeTokens p q fun token htoken hp family hfamily hsame => ?_)
  have hold : old family = true := by
    rcases of_decide_eq_true hp with hexpired | hany
    · have hexpires := (h.token token htoken).2.2 family hfamily hsame
      simp [old, ← hexpires, hexpired]
    · obtain ⟨other, hother, hboth⟩ := List.any_eq_true.mp hany
      obtain ⟨hold, hid⟩ := of_decide_eq_true hboth
      rwa [Table.eq_of_mem hfamily hother (hsame.trans hid.symm)]
  refine decide_eq_true ⟨hold, fun hany => ?_⟩
  obtain ⟨other, hother, hid⟩ := List.any_eq_true.mp hany
  obtain ⟨-, hnot⟩ := List.mem_filter.mp hother
  have hgone : p other = true := decide_eq_true (.inr (List.any_eq_true.mpr
    ⟨family, hfamily, decide_eq_true ⟨hold, (of_decide_eq_true hid).symm⟩⟩))
  simp [hgone] at hnot

end AuthState.Retired

namespace AuthNext

variable {rules : AuthRules} {s s' s'' : AuthState}

theorem refl (h : AuthSound rules s) : AuthNext rules s s := ⟨h, List.prefix_rfl⟩

theorem trans (h : AuthNext rules s s') (h' : AuthNext rules s' s'') : AuthNext rules s s'' :=
  ⟨h'.sound, h.history.trans h'.history⟩

end AuthNext

section Events

variable {rules : AuthRules} {s : AuthState} {event : AuthEvent}

/-- An event that ends no family and rotates no token happens, or one that the tables bear out. -/
theorem FamiliesKept.happens (h : FamiliesKept s) (event : AuthEvent)
    (hended : ∀ familyId why, event = .ended familyId why → Drawn s.history familyId ∧
      ∀ row ∈ s.families.rows, row.familyId = familyId → row.revokedAt ≠ none)
    (hrotated : ∀ familyId tokenHash next, event = .rotated familyId tokenHash next →
      Drawn s.history tokenHash ∧
        ∀ row ∈ s.refreshTokens.rows, row.tokenHash = tokenHash → row.consumedAt ≠ none) :
    FamiliesKept { s with history := s.history ++ [event] } where
  family row hrow := (h.family row hrow).append _
  token row hrow := by
    obtain ⟨hhash, hid, hexpires⟩ := h.token row hrow
    exact ⟨hhash.append _, hid.append _, hexpires⟩
  session row hrow familyId hfamily := by
    obtain ⟨hid, hgrant⟩ := h.session row hrow familyId hfamily
    exact ⟨hid.append _, hgrant⟩
  ended familyId why hmem := by
    rcases List.mem_append.mp hmem with hmem | hmem
    · obtain ⟨hid, hrevoked⟩ := h.ended familyId why hmem
      exact ⟨hid.append _, hrevoked⟩
    · obtain ⟨hid, hrevoked⟩ := hended familyId why (List.mem_singleton.mp hmem).symm
      exact ⟨hid.append _, hrevoked⟩
  rotated familyId tokenHash next hmem := by
    rcases List.mem_append.mp hmem with hmem | hmem
    · obtain ⟨hhash, hconsumed⟩ := h.rotated familyId tokenHash next hmem
      exact ⟨hhash.append _, hconsumed⟩
    · obtain ⟨hhash, hconsumed⟩ :=
        hrotated familyId tokenHash next (List.mem_singleton.mp hmem).symm
      exact ⟨hhash.append _, hconsumed⟩

/-- An event of no challenge happens. -/
theorem ChallengesSound.happens {challenges : Table AuthChallenge.challengeId}
    {history : List AuthEvent} (h : ChallengesSound rules challenges history)
    (hchallenged : ∀ id nonceHash, event ≠ .challenged id nonceHash)
    (hexchanged : ∀ id token, event ≠ .exchanged id token) :
    ChallengesSound rules challenges (history ++ [event]) where
  stored row hrow := List.mem_append_left _ (h.stored row hrow)
  apart id id' nonceHash hmem hmem' := by
    rcases List.mem_append.mp hmem with hmem | hmem
    · rcases List.mem_append.mp hmem' with hmem' | hmem'
      · exact h.apart id id' nonceHash hmem hmem'
      · exact absurd (List.mem_singleton.mp hmem').symm (hchallenged id' nonceHash)
    · exact absurd (List.mem_singleton.mp hmem).symm (hchallenged id nonceHash)
  exchanged id token hmem := by
    rcases List.mem_append.mp hmem with hmem | hmem
    · obtain ⟨hconsumed, nonceHash, hnonce, htoken⟩ := h.exchanged id token hmem
      exact ⟨hconsumed, nonceHash, List.mem_append_left _ hnonce, htoken⟩
    · exact absurd (List.mem_singleton.mp hmem).symm (hexchanged id token)

/-- A family ends that is revoked. -/
theorem AuthSound.ends (h : AuthSound rules s) {familyId : String} (why : FamilyEnd)
    (hrevoked : ∀ row ∈ s.families.rows, row.familyId = familyId → row.revokedAt ≠ none) :
    AuthNext rules s (s.ends familyId why) := by
  rw [AuthState.ends]
  split
  · next hsome =>
    obtain ⟨row, hrow⟩ := Option.isSome_iff_exists.mp hsome
    obtain ⟨hmem, rfl⟩ := Table.mem_of_find? hrow
    refine ⟨⟨⟨h.families.toFamiliesKept.happens _ (fun id why he => ?_)
      fun _ _ _ he => (by cases he), h.families.single⟩,
        h.challenges.happens (fun _ _ he => by cases he) fun _ _ he => (by cases he),
      h.fair.concat trivial⟩, List.prefix_append _ _⟩
    obtain ⟨rfl, -⟩ := AuthEvent.ended.inj he
    exact ⟨h.families.family row hmem, hrevoked⟩
  · exact .refl h

/-- A bearer of a family in force is accepted. -/
theorem AuthSound.acceptBearer (h : AuthSound rules s) (identity : String) (bySessionId : Bool)
    (now : ℤ) (grantValid : Bool) :
    AuthNext rules s (acceptBearer rules identity bySessionId now grantValid s) := by
  rw [Magistrate.acceptBearer]
  split
  · next familyId _ _ _ _ _ _ _ _ _ hverified =>
    refine ⟨⟨⟨h.families.toFamiliesKept.happens _ (fun _ _ he => by cases he)
      fun _ _ _ he => (by cases he),
      h.families.single⟩, h.challenges.happens (fun _ _ he => by cases he)
      fun _ _ he => (by cases he),
      h.fair.concat fun why hended => ?_⟩, List.prefix_append _ _⟩
    simp only [verifiedSession] at hverified
    split at hverified
    · cases hverified
    · simp only [bind_eq_ok, raiseIf_eq_ok, pure_eq_ok, exists_const] at hverified
      obtain ⟨hvalid, rfl⟩ := hverified
      simp only [not_or, providerValid] at hvalid
      split at hvalid
      · next heq _ => cases heq
      · next id accountId heq _ =>
        obtain rfl := Option.some.inj heq
        obtain ⟨-, -, -, hprovider, -⟩ := hvalid
        simp only [Bool.not_eq_false, Bool.and_eq_true, Option.any_eq_true, decide_eq_true_eq]
          at hprovider
        obtain ⟨⟨family, hfamily, -, -, -, hforce⟩, -⟩ := hprovider
        obtain ⟨hmem, hid⟩ := Table.mem_of_find? hfamily
        exact (h.families.ended _ why hended).2 family hmem hid hforce
      · exact absurd rfl hvalid.2.2.2.1
  · exact .refl h

end Events

section Endings

variable {rules : AuthRules} {s : AuthState}

/-- A family that is revoked is revoked. -/
theorem revokeFamily_revokes (reason : Option String → String) (now : ℤ) (familyId : String)
    (s : AuthState) : ∀ row ∈ (s.revokeFamily reason now familyId).families.rows,
      row.familyId = familyId → row.revokedAt ≠ none := by
  intro row' hrow' hid
  have hmem : row' ∈ (s.families.update familyId (SessionFamily.revoke reason now)
    fun _ => rfl).rows := hrow'
  obtain ⟨row, hrow, rfl⟩ := Table.mem_update.mp hmem
  by_cases hthis : row.familyId = familyId
  · simp [hthis, SessionFamily.revoke]
  · rw [if_neg hthis] at hid
    exact absurd hid hthis

/-- A list of families is revoked, and nothing but retired. -/
theorem revokeFamilies (reason : Option String → String) (now : ℤ) (familyIds : List String)
    (s : AuthState) :
    let s' := familyIds.foldl (fun s familyId => s.revokeFamily reason now familyId) s
    s.Retired s' ∧ ∀ familyId ∈ familyIds, ∀ row ∈ s'.families.rows,
      row.familyId = familyId → row.revokedAt ≠ none := by
  induction familyIds generalizing s with
  | nil => exact ⟨.refl s, fun _ h => nomatch h⟩
  | cons head familyIds ih =>
    obtain ⟨hretired, hrevoked⟩ := ih (s.revokeFamily reason now head)
    refine ⟨(AuthState.Retired.revokeFamily reason now head s).trans hretired, ?_⟩
    intro familyId hmem row' hrow' hid hnone
    rcases List.mem_cons.mp hmem with rfl | hmem
    · obtain ⟨row, hrow, hsame, hforce⟩ := hretired.force hrow' hnone
      exact revokeFamily_revokes reason now familyId s row hrow (hsame.trans hid) hforce
    · exact hrevoked familyId hmem row' hrow' hid hnone

theorem ends_families (familyId : String) (why : FamilyEnd) (s : AuthState) :
    (s.ends familyId why).families = s.families := by
  rw [AuthState.ends]
  split <;> rfl

/-- A list of revoked families ends. -/
theorem AuthSound.endAll {familyIds : List String} (why : FamilyEnd) (h : AuthSound rules s)
    (hrevoked : ∀ familyId ∈ familyIds, ∀ row ∈ s.families.rows,
      row.familyId = familyId → row.revokedAt ≠ none) :
    AuthNext rules s (familyIds.foldl (fun s familyId => s.ends familyId why) s) := by
  induction familyIds generalizing s with
  | nil => exact .refl h
  | cons head familyIds ih =>
    have hnext := h.ends why (hrevoked head List.mem_cons_self)
    refine hnext.trans (ih hnext.sound fun familyId hmem row hrow => ?_)
    rw [ends_families] at hrow
    exact hrevoked familyId (List.mem_cons_of_mem head hmem) row hrow

/-- The removal of a login method revokes all its families. -/
theorem AuthSound.unlink (h : AuthSound rules s) {s' : AuthState} {principal : LoginPrincipal}
    {provider : ProviderName} {now : ℤ}
    (hok : unlinkLoginMethod principal provider now s = .ok s') : AuthNext rules s s' := by
  simp only [unlinkLoginMethod] at hok
  split at hok
  · cases hok
  · next target htarget =>
    simp only [bind_eq_ok, raiseIf_eq_ok, pure_eq_ok, exists_const] at hok
    obtain ⟨-, -, rfl⟩ := hok
    set ofTarget := s.families.rows.filter (·.connectedAccountId = target.id) with hof
    obtain ⟨hretired, hrevoked⟩ := revokeFamilies (fun _ => "login-method-removed") now
      ((ofTarget.filter (·.revokedAt = none)).map (·.familyId))
      { s with
        accounts := s.accounts.update target.id
          (fun a => { a with connected := false, updatedAt := now }) fun _ => rfl }
    have hall := (AuthState.Retired.challengesShrink (List.Subset.refl _) s.assertions
      (s.accounts.update target.id (fun a => { a with connected := false, updatedAt := now })
        fun _ => rfl)).trans hretired
    refine (hall.next h).trans ((hall.sound h).endAll .unlink
      fun familyId hmem row' hrow' hid hnone => ?_)
    -- A family that was in force is on the list, and a family that was not stays revoked.
    obtain ⟨family, hfamily, rfl⟩ := List.mem_map.mp hmem
    obtain ⟨row, hrow, hsame, hforce⟩ := hall.force hrow' hnone
    obtain rfl := Table.eq_of_mem (List.mem_filter.mp hfamily).1 hrow (hsame.trans hid).symm
    exact hrevoked family.familyId (List.mem_map_of_mem (List.mem_filter.mpr
      ⟨hfamily, decide_eq_true hforce⟩)) row' hrow' hid hnone

/-- A logout revokes the family. -/
theorem AuthSound.revokeProviderFamily (h : AuthSound rules s) (familyId : String) (now : ℤ) :
    AuthNext rules s (revokeProviderFamily familyId now s) :=
  have hrevoked := (AuthState.Retired.revokeFamily (·.getD "logout") now familyId s).next h
  hrevoked.trans (hrevoked.sound.ends .logout (revokeFamily_revokes _ now familyId s))

theorem AuthSound.revokeSession (h : AuthSound rules s) (token : String) (now : ℤ) :
    AuthNext rules s (revokeSession rules token now s) := by
  rw [Magistrate.revokeSession]
  split
  · exact .refl h
  · next tokenHash _ =>
    have hrevoked := (AuthState.Retired.revokeSessions (·.tokenHash = tokenHash) now s).next h
    dsimp only
    split
    · exact hrevoked
    · split
      · exact hrevoked.trans ((AuthState.Retired.revokeSessions _ now _).next hrevoked.sound)
      · exact hrevoked.trans (hrevoked.sound.revokeProviderFamily _ now)
      · exact hrevoked

end Endings

section Continuing

variable {rules : AuthRules} {s s' : AuthState} {family : SessionFamily} {now : ℤ}
  {refreshToken : String} {draw : SessionDraw} {payload : SessionPayload}

/-- A family goes on with the token and the bearer that are drawn for it. -/
theorem continueFamily_eq_ok
    (h : continueFamily rules family now refreshToken draw s = .ok (payload, s')) :
    ∃ token session, s.refreshTokens.find? token.tokenHash = none ∧
      s.sessions.find? session.sessionId = none ∧ token.tokenHash = rules.sha256 refreshToken ∧
      token.familyId = family.familyId ∧ token.expiresAt = family.expiresAt ∧
      token.consumedAt = none ∧ session.providerSessionId = some family.familyId ∧
      session.accessGrantId = none ∧
      s' = { s with
        refreshTokens := s.refreshTokens.insertOrIgnore token
        sessions := s.sessions.insertOrIgnore session } := by
  simp only [continueFamily, insertSession, bind_eq_ok, raiseIf_eq_ok, pure_eq_ok, exists_const,
    Prod.mk.injEq] at h
  obtain ⟨hfree, expiresAt, -, s₁, ⟨hsession, rfl⟩, -, rfl⟩ := h
  exact ⟨_, _, not_not.mp hfree, not_not.mp (not_or.mp hsession).1, rfl, rfl, rfl,
    rfl, rfl, rfl, rfl⟩

/-- A family without a token and a bearer gets the next ones. -/
theorem FamiliesKept.continued (h : FamiliesKept s) {token : RefreshToken}
    {session : GatewaySession}
    (hfree : s.refreshTokens.find? token.tokenHash = none)
    (hunused : s.sessions.find? session.sessionId = none)
    (hhash : Drawn s.history token.tokenHash)
    (hnew : ∀ familyId next, .rotated familyId token.tokenHash next ∉ s.history)
    (hid : Drawn s.history token.familyId)
    (hexpires : ∀ family ∈ s.families.rows, family.familyId = token.familyId →
      token.expiresAt = family.expiresAt)
    (hlive : token.consumedAt = none) (hfamily : session.providerSessionId = some token.familyId)
    (hgrant : session.accessGrantId = none)
    (hothers : ∀ family ∈ s.families.rows, family.revokedAt = none →
      family.familyId ≠ token.familyId → s.Single family.familyId)
    (htokens : s.refreshTokens.rows.countP (RefreshToken.liveOf token.familyId) = 0)
    (hbearers : s.sessions.rows.countP (GatewaySession.liveOf token.familyId) = 0) :
    FamiliesSound { s with
      refreshTokens := s.refreshTokens.insertOrIgnore token
      sessions := s.sessions.insertOrIgnore session } where
  family := h.family
  token row hrow := by
    rcases Table.mem_insertOrIgnore hrow with hrow | ⟨-, rfl⟩
    · exact h.token row hrow
    · exact ⟨hhash, hid, hexpires⟩
  session row hrow familyId hsome := by
    rcases Table.mem_insertOrIgnore hrow with hrow | ⟨-, rfl⟩
    · exact h.session row hrow familyId hsome
    · obtain rfl := Option.some.inj (hfamily.symm.trans hsome)
      exact ⟨hid, hgrant⟩
  ended := h.ended
  rotated familyId tokenHash next hmem := by
    obtain ⟨hdrawn, hconsumed⟩ := h.rotated familyId tokenHash next hmem
    refine ⟨hdrawn, fun row hrow hsame => ?_⟩
    rcases Table.mem_insertOrIgnore hrow with hrow | ⟨-, rfl⟩
    · exact hconsumed row hrow hsame
    · exact absurd (hsame ▸ hmem) (hnew familyId next)
  single family hmem hforce := by
    simp only [AuthState.Single, Table.rows_insertOrIgnore hfree, Table.rows_insertOrIgnore hunused,
      List.countP_append, List.countP_singleton]
    by_cases hthis : family.familyId = token.familyId
    · rw [hthis, htokens, hbearers]
      constructor
      · simp [RefreshToken.liveOf, hlive]
      · split <;> simp
    · obtain ⟨hone, hle⟩ := hothers family hmem hforce hthis
      have hno : RefreshToken.liveOf family.familyId token = false := by
        simp [RefreshToken.liveOf, Ne.symm hthis]
      have hnone : GatewaySession.liveOf family.familyId session = false := by
        simp [GatewaySession.liveOf, hfamily, Ne.symm hthis]
      simp [hno, hnone, hone, hle]

/-- A family whose id was not drawn has neither tokens nor bearers. -/
theorem FamiliesKept.counts_fresh (h : FamiliesKept s) {familyId : String}
    (hfresh : ¬Drawn s.history familyId) :
    s.refreshTokens.rows.countP (RefreshToken.liveOf familyId) = 0 ∧
      s.sessions.rows.countP (GatewaySession.liveOf familyId) = 0 := by
  constructor
  · refine List.countP_eq_zero.mpr fun row hrow hlive => hfresh ?_
    obtain ⟨rfl, -⟩ := of_decide_eq_true hlive
    exact (h.token row hrow).2.1
  · refine List.countP_eq_zero.mpr fun row hrow hlive => hfresh ?_
    obtain ⟨hfamily, -⟩ := of_decide_eq_true hlive
    exact (h.session row hrow familyId hfamily).1

/-- A family is issued under an id and with a token that were not drawn. -/
theorem AuthSound.issued (h : AuthSound rules s) (hfamily : ¬Drawn s.history family.familyId)
    (htoken : ¬Drawn s.history (rules.sha256 refreshToken))
    (hfree : s.families.find? family.familyId = none)
    (hok : continueFamily rules family now refreshToken draw { s with
      families := s.families.insertOrIgnore family
      history := s.history ++ [.issued family.familyId (rules.sha256 refreshToken)] } =
        .ok (payload, s')) : AuthNext rules s s' := by
  obtain ⟨token, session, hunused, hunknown, hhash, hid, hexpires, hlive, hsession, hgrant, rfl⟩ :=
    continueFamily_eq_ok hok
  have hkept := h.families.toFamiliesKept.happens
    (.issued family.familyId (rules.sha256 refreshToken))
    (fun _ _ he => (nomatch he)) fun _ _ _ he => nomatch he
  have hmid : FamiliesKept { s with
      families := s.families.insertOrIgnore family
      history := s.history ++ [.issued family.familyId (rules.sha256 refreshToken)] } := by
    refine ⟨fun row hrow => ?_, fun row hrow => ?_, hkept.session, fun familyId why hmem => ?_,
      hkept.rotated⟩
    · rcases Table.mem_insertOrIgnore hrow with hrow | ⟨-, rfl⟩
      · exact hkept.family row hrow
      · exact Drawn.last (by simp [AuthEvent.drawn])
    · obtain ⟨hrowHash, hrowId, hrowExpires⟩ := hkept.token row hrow
      refine ⟨hrowHash, hrowId, fun other hother hsame => ?_⟩
      rcases Table.mem_insertOrIgnore hother with hother | ⟨-, rfl⟩
      · exact hrowExpires other hother hsame
      · exact absurd (hsame ▸ (h.families.token row hrow).2.1) hfamily
    · obtain ⟨hdrawn, hrevoked⟩ := hkept.ended familyId why hmem
      refine ⟨hdrawn, fun row hrow hsame => ?_⟩
      rcases Table.mem_insertOrIgnore hrow with hrow | ⟨-, rfl⟩
      · exact hrevoked row hrow hsame
      · rcases List.mem_append.mp hmem with hmem | hmem
        · exact absurd (hsame ▸ (h.families.ended familyId why hmem).1) hfamily
        · exact nomatch List.mem_singleton.mp hmem
  obtain ⟨htokens, hbearers⟩ := h.families.toFamiliesKept.counts_fresh hfamily
  rw [← hid] at htokens hbearers hsession
  refine ⟨⟨hmid.continued hunused hunknown ?_ (fun familyId next hmem => ?_) ?_
    (fun other hother hsame => ?_) hlive hsession hgrant (fun other hother hforce hne => ?_)
    htokens hbearers, h.challenges.happens (fun _ _ he => (nomatch he)) fun _ _ he => (nomatch he),
    h.fair.concat trivial⟩, List.prefix_append _ _⟩
  · exact Drawn.last (by simp [AuthEvent.drawn, hhash])
  · rcases List.mem_append.mp hmem with hmem | hmem
    · exact htoken (hhash ▸ (h.families.rotated _ _ _ hmem).1)
    · exact nomatch List.mem_singleton.mp hmem
  · exact Drawn.last (by simp [AuthEvent.drawn, hid])
  · rcases Table.mem_insertOrIgnore hother with hother | ⟨-, rfl⟩
    · exact absurd (hid ▸ hsame ▸ h.families.family other hother) hfamily
    · exact hexpires
  · rcases Table.mem_insertOrIgnore hother with hother | ⟨-, rfl⟩
    · exact h.families.single other hother hforce
    · exact absurd hid.symm hne

/-- No bearer of a family is left when they are revoked. -/
theorem countP_revokeSessions (now : ℤ) (familyId other : String) (s : AuthState) :
    (s.revokeSessions (GatewaySession.liveOf familyId) now).sessions.rows.countP
        (GatewaySession.liveOf other) =
      if other = familyId then 0 else s.sessions.rows.countP (GatewaySession.liveOf other) := by
  rw [AuthState.revokeSessions, Table.rows_updateWhere, List.countP_map]
  split
  · next hsame =>
    subst hsame
    refine List.countP_eq_zero.mpr fun row _ => ?_
    by_cases hlive : GatewaySession.liveOf other row = true
    · rw [Function.comp_apply, if_pos hlive]
      simp [GatewaySession.liveOf]
    · rwa [Function.comp_apply, if_neg hlive]
  · next hne =>
    refine List.countP_congr fun row _ => ?_
    by_cases hlive : GatewaySession.liveOf familyId row = true
    · have hfamily : row.providerSessionId = some familyId := (of_decide_eq_true hlive).1
      rw [Function.comp_apply, if_pos hlive]
      simp [GatewaySession.liveOf, hfamily, Ne.symm hne]
    · rw [Function.comp_apply, if_neg hlive]

/-- A token that is not consumed, of a family in force, is rotated to one that was not drawn. -/
theorem AuthSound.rotate (h : AuthSound rules s) {token : RefreshToken}
    (htoken : s.refreshTokens.find? token.tokenHash = some token)
    (hfamily : s.families.find? token.familyId = some family) (hlive : token.consumedAt = none)
    (hforce : family.revokedAt = none) (hfresh : ¬Drawn s.history (rules.sha256 refreshToken))
    (hok : rotateFamily rules token family now refreshToken draw s = .ok (payload, s')) :
    AuthNext rules s s' := by
  obtain ⟨hmemToken, -⟩ := Table.mem_of_find? htoken
  obtain ⟨hmemFamily, hsame⟩ := Table.mem_of_find? hfamily
  simp only [rotateFamily, bind_eq_ok, raiseIf_eq_ok, pure_eq_ok, exists_const,
    Prod.mk.injEq] at hok
  obtain ⟨-, ⟨payload', s₁⟩, hcontinue, -, rfl⟩ := hok
  obtain ⟨next, session, hunused, hunknown, hhash, hid, hexpires, hnextLive,
    hsession, hgrant, rfl⟩ :=
    continueFamily_eq_ok hcontinue
  let consume := fun row : RefreshToken => { row with consumedAt := some now }
  let tokens := s.refreshTokens.update token.tokenHash consume fun _ => rfl
  let families := s.families.update family.familyId
    (fun row => { row with lastRotatedAt := now }) fun _ => rfl
  let event : AuthEvent := .rotated family.familyId token.tokenHash (rules.sha256 refreshToken)
  have hcount : ∀ other, tokens.rows.countP (RefreshToken.liveOf other) +
      (RefreshToken.liveOf other token).toNat =
        s.refreshTokens.rows.countP (RefreshToken.liveOf other) := fun other => by
    have hupdate : tokens.rows.countP (RefreshToken.liveOf other) +
        (RefreshToken.liveOf other token).toNat =
          s.refreshTokens.rows.countP (RefreshToken.liveOf other) +
            (RefreshToken.liveOf other (consume token)).toNat :=
      Table.countP_update (RefreshToken.liveOf other) htoken
    have hconsumed : RefreshToken.liveOf other (consume token) = false := by
      simp [RefreshToken.liveOf, consume]
    rw [hconsumed] at hupdate
    exact hupdate
  have htokens : ∀ row' ∈ tokens.rows, (row'.tokenHash = token.tokenHash → row'.consumedAt ≠ none) ∧
      ∃ row ∈ s.refreshTokens.rows, row.tokenHash = row'.tokenHash ∧ row.familyId = row'.familyId ∧
        row.expiresAt = row'.expiresAt ∧ (row'.consumedAt = none → row.consumedAt = none) := by
    intro row' hrow'
    obtain ⟨row, hrow, rfl⟩ := Table.mem_update.mp hrow'
    by_cases hthis : row.tokenHash = token.tokenHash
    · rw [if_pos hthis]
      exact ⟨fun _ hnone => (by cases hnone), row, hrow, rfl, rfl, rfl, fun hnone => by cases hnone⟩
    · rw [if_neg hthis]
      exact ⟨fun heq => absurd heq hthis, row, hrow, rfl, rfl, rfl, id⟩
  have hfamilies : ∀ row' ∈ families.rows, ∃ row ∈ s.families.rows, row.familyId = row'.familyId ∧
      row.expiresAt = row'.expiresAt ∧ (row'.revokedAt = none → row.revokedAt = none) := by
    intro row' hrow'
    obtain ⟨row, hrow, rfl⟩ := Table.mem_update.mp hrow'
    refine ⟨row, hrow, ?_⟩
    split <;> exact ⟨rfl, rfl, id⟩
  have hmid : FamiliesKept { s with
      families
      refreshTokens := tokens
      sessions := (s.revokeSessions (GatewaySession.liveOf family.familyId) now).sessions } :=
    h.families.toFamiliesKept.of_rows rfl hfamilies (fun row' hrow' => (htokens row' hrow').2)
      (AuthState.Retired.revokeSessions _ now s).session
  have hkept := hmid.happens event (fun _ _ he => (by simp [event] at he)) fun id hash next he => by
    obtain ⟨rfl, rfl, rfl⟩ := AuthEvent.rotated.inj he
    exact ⟨(h.families.token token hmemToken).1, fun row' hrow' => (htokens row' hrow').1⟩
  refine ⟨⟨hkept.continued hunused hunknown ?_ (fun id hash hmem => ?_) ?_
    (fun other hother hthis => ?_) hnextLive (hid ▸ hsession) hgrant
    (fun other hother hnone hne => ?_)
    ?_ ?_, h.challenges.happens (fun _ _ he => (by cases he)) fun _ _ he => (by cases he),
    h.fair.concat ⟨fun id hash hmem => ?_, fun why hmem => ?_⟩⟩, List.prefix_append _ _⟩
  · exact Drawn.last (by simp [AuthEvent.drawn, event, hhash])
  · rcases List.mem_append.mp hmem with hmem | hmem
    · exact hfresh (hhash ▸ (h.families.rotated _ _ _ hmem).1)
    · obtain ⟨-, heq, -⟩ := AuthEvent.rotated.inj (List.mem_singleton.mp hmem)
      exact hfresh (hhash ▸ heq ▸ (h.families.token token hmemToken).1)
  · have hdrawn : Drawn s.history next.familyId := hid.symm ▸ h.families.family family hmemFamily
    exact hdrawn.append _
  · obtain ⟨row, hrow, hsameId, hsameExpiry, -⟩ := hfamilies other hother
    rw [hexpires, ← hsameExpiry, Table.eq_of_mem hmemFamily hrow
      (hid.symm.trans (hthis.symm.trans hsameId.symm))]
  · obtain ⟨row, hrow, hsameId, -, hrowForce⟩ := hfamilies other hother
    obtain ⟨hone, hle⟩ := h.families.single row hrow (hrowForce hnone)
    rw [hsameId] at hone hle
    have hnot : RefreshToken.liveOf other.familyId token = false := by
      simp [RefreshToken.liveOf, ← hsame, ← hid, Ne.symm hne]
    refine ⟨?_, ?_⟩
    · have hall := hcount other.familyId
      rw [hnot, hone] at hall
      exact hall
    · have hrevoked := countP_revokeSessions now family.familyId other.familyId s
      rw [if_neg (hid ▸ hne)] at hrevoked
      exact hrevoked.trans_le hle
  · have hall := hcount next.familyId
    have hlast : RefreshToken.liveOf next.familyId token = true := by
      simp [RefreshToken.liveOf, hid, hsame, hlive]
    rw [hlast, hid, (h.families.single family hmemFamily hforce).1] at hall
    rw [hid]
    exact Nat.succ.inj hall
  · have hrevoked := countP_revokeSessions now family.familyId next.familyId s
    rwa [if_pos hid] at hrevoked
  · exact (h.families.rotated id token.tokenHash hash hmem).2 token hmemToken rfl hlive
  · exact (h.families.ended family.familyId why hmem).2 family hmemFamily rfl hforce

end Continuing

end Magistrate
