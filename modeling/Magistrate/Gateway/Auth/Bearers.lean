import Mathlib.Data.List.Dedup
import Mathlib.Data.List.Induction
import Magistrate.Gateway.Auth.AccessGrants

/-!
# Bearers of access grants

In every run a user has at most one active grant and a grant at most one bearer that is not
revoked. A check that accepts the bearer of a grant found the grant in force and the switch on, and
it reads nothing that a redemption, a revocation, a logout or a suspension ended before it read.
-/

namespace Magistrate

section Sessions

variable {rules : AuthRules} {s s' s'' : AuthState}

/-- The bearers are those that were there, less some; a revoked one stays revoked. -/
def AuthState.BearersKept (s s' : AuthState) : Prop :=
  ∀ row' ∈ s'.sessions.rows, ∃ row ∈ s.sessions.rows,
    { row with revokedAt := row'.revokedAt } = row' ∧ (row'.revokedAt = none → row.revokedAt = none)

namespace AuthState.BearersKept

theorem of_eq (h : s'.sessions = s.sessions) : s.BearersKept s' := fun row' hrow' =>
  ⟨row', h ▸ hrow', rfl, id⟩

theorem trans (h : s.BearersKept s') (h' : s'.BearersKept s'') : s.BearersKept s'' := by
  intro row'' hrow''
  obtain ⟨row', hrow', hsame', hlive'⟩ := h' row'' hrow''
  obtain ⟨row, hrow, hsame, hlive⟩ := h row' hrow'
  refine ⟨row, hrow, ?_, fun hnone => hlive (hlive' hnone)⟩
  rw [← hsame', ← hsame]

theorem revokeSessions (p : GatewaySession → Bool) (now : ℤ) (s : AuthState) :
    s.BearersKept (s.revokeSessions p now) := by
  intro row' hrow'
  simp only [AuthState.revokeSessions, Table.mem_updateWhere] at hrow'
  obtain ⟨row, hrow, rfl⟩ := hrow'
  refine ⟨row, hrow, ?_⟩
  split
  · exact ⟨rfl, fun h => absurd h (Option.some_ne_none now)⟩
  · exact ⟨rfl, id⟩

theorem cleanupSessions (now : ℤ) (s : AuthState) : s.BearersKept (s.cleanupSessions now) :=
  fun row hrow => ⟨row, (List.mem_filter.mp hrow).1, rfl, id⟩

theorem revokeProviderFamily (familyId : String) (now : ℤ) (s : AuthState) :
    s.BearersKept (Magistrate.revokeProviderFamily familyId now s) := by
  have hrevoked : s.BearersKept (s.revokeFamily (·.getD "logout") now familyId) :=
    revokeSessions (GatewaySession.liveOf familyId) now { s with families := _ }
  refine hrevoked.trans (of_eq ?_)
  rw [Magistrate.revokeProviderFamily, AuthState.ends]
  split <;> rfl

theorem revokeSession (rules : AuthRules) (token : String) (now : ℤ) (s : AuthState) :
    s.BearersKept (Magistrate.revokeSession rules token now s) := by
  rw [Magistrate.revokeSession]
  split
  · exact of_eq rfl
  · have hrevoked := fun tokenHash => revokeSessions (fun row => row.tokenHash = tokenHash) now s
    split
    · exact hrevoked _
    · split
      · exact (hrevoked _).trans (revokeSessions _ now _)
      · exact (hrevoked _).trans (revokeProviderFamily _ now _)
      · exact hrevoked _

end AuthState.BearersKept

/-- A bearer in force after a revocation does not meet its condition. -/
theorem live_of_revokeSessions {p : GatewaySession → Bool} {now : ℤ} {row' : GatewaySession}
    (h : row' ∈ (s.revokeSessions p now).sessions.rows) (hlive : row'.revokedAt = none) :
    row' ∈ s.sessions.rows ∧ p row' = false := by
  simp only [AuthState.revokeSessions, Table.mem_updateWhere] at h
  obtain ⟨row, hrow, rfl⟩ := h
  by_cases hp : p row = true
  · rw [if_pos hp] at hlive
    exact absurd hlive (Option.some_ne_none now)
  · rw [if_neg hp]
    exact ⟨hrow, Bool.eq_false_iff.mpr hp⟩

/-- A bearer that is inserted is new and in force. -/
theorem insertSession_eq_ok {userId : String} {scopes : List String} {now expiresAt : ℤ}
    {accessGrantId providerSessionId authAccountId : Option String} {draw : SessionDraw}
    (h : insertSession rules userId scopes now expiresAt accessGrantId providerSessionId
      authAccountId draw s = .ok s') : ∃ row : GatewaySession,
      row = ⟨draw.sessionId, rules.sha256 draw.token, userId, scopes, now, expiresAt, none,
        accessGrantId, providerSessionId, authAccountId⟩ ∧
      (∀ other ∈ s.sessions.rows, other.tokenHash ≠ row.tokenHash) ∧
      s'.sessions = s.sessions.insertOrIgnore row := by
  simp only [insertSession, bind_eq_ok, raiseIf_eq_ok, pure_eq_ok, exists_const, not_or] at h
  obtain ⟨⟨-, hhash⟩, rfl⟩ := h
  refine ⟨_, rfl, fun other hother hsame => hhash ?_, rfl⟩
  exact List.any_eq_true.mpr ⟨other, hother, decide_eq_true hsame⟩

end Sessions

/-- A grant keeps its terms and, once it is revoked, its end. -/
structure AccessGrant.Kept (grant grant' : AccessGrant) : Prop where
  userId : grant'.userId = grant.userId
  scopes : grant'.scopes = grant.scopes
  createdAt : grant'.createdAt = grant.createdAt
  expiresAt : grant'.expiresAt = grant.expiresAt
  revoked : grant'.revokedAt = none → grant.revokedAt = none

theorem AccessGrant.Kept.refl (grant : AccessGrant) : grant.Kept grant :=
  ⟨rfl, rfl, rfl, rfl, id⟩

namespace GrantState

variable {rules : GrantRules} {s s' s'' : GrantState}

/-- What the tables of every reachable state keep: of two grants of a user that are not revoked one
expired when the other was created; the bearer of a grant has scopes of it, without that of
producers, and a grant has one that is not revoked. -/
structure Sound (s : GrantState) : Prop where
  apart : ∀ g ∈ s.grants.rows, ∀ g' ∈ s.grants.rows, g.userId = g'.userId → g.revokedAt = none →
    g'.revokedAt = none → g = g' ∨ g.expiresAt ≤ g'.createdAt ∨ g'.expiresAt ≤ g.createdAt
  created : ∀ g ∈ s.grants.rows, g.createdAt ≤ s.clock
  known : ∀ g ∈ s.grants.rows, g.scopes ⊆ knownScopes
  issued : ∀ row ∈ s.auth.sessions.rows, row.tokenHash ∈ s.issued
  bearer : ∀ row ∈ s.auth.sessions.rows, ∀ id, row.accessGrantId = some id →
    ∃ g, s.grants.find? id = some g ∧ row.scopes ⊆ g.scopes ∧ "response" ∉ row.scopes
  single : ∀ row ∈ s.auth.sessions.rows, ∀ row' ∈ s.auth.sessions.rows, row.accessGrantId ≠ none →
    row'.accessGrantId = row.accessGrantId → row.revokedAt = none →
      row'.revokedAt = none → row = row'

/-- The bearers of a state are found later as they were, unless they are revoked or removed. -/
structure Later (s s' : GrantState) : Prop where
  issued : s.issued ⊆ s'.issued
  row : ∀ row' ∈ s'.auth.sessions.rows, row'.tokenHash ∈ s.issued → ∃ row ∈ s.auth.sessions.rows,
    row.tokenHash = row'.tokenHash ∧ row.accessGrantId = row'.accessGrantId ∧
      (row'.revokedAt = none → row.revokedAt = none)

theorem Later.refl (s : GrantState) : s.Later s :=
  ⟨List.Subset.refl _, fun row hrow _ => ⟨row, hrow, rfl, rfl, id⟩⟩

theorem Later.trans (h : s.Later s') (h' : s'.Later s'') : s.Later s'' where
  issued := List.Subset.trans h.issued h'.issued
  row row'' hrow'' hissued := by
    obtain ⟨row', hrow', hhash', hgrant', hlive'⟩ := h'.row row'' hrow'' (h.issued hissued)
    obtain ⟨row, hrow, hhash, hgrant, hlive⟩ := h.row row' hrow' (hhash' ▸ hissued)
    exact ⟨row, hrow, hhash.trans hhash', hgrant.trans hgrant', fun hnone => hlive (hlive' hnone)⟩

/-- A state goes on: bearers are kept, and so are the grants. -/
structure Retires (s s' : GrantState) : Prop where
  bearers : s.auth.BearersKept s'.auth
  grants : Table.Becomes AccessGrant.Kept s.grants s'.grants
  clock : s.clock ≤ s'.clock
  issued : s'.issued = s.issued

theorem Retires.later (h : s.Retires s') : s.Later s' where
  issued := h.issued ▸ List.Subset.refl _
  row row' hrow' _ := by
    obtain ⟨row, hrow, hsame, hlive⟩ := h.bearers row' hrow'
    exact ⟨row, hrow, by rw [← hsame], by rw [← hsame], hlive⟩

theorem Retires.sound (h : s.Retires s') (hs : s.Sound) : s'.Sound where
  apart g' hg' f' hf' huser hg hf := by
    obtain ⟨g, hmem, hid, hkept⟩ := h.grants.mem hg'
    obtain ⟨f, hmem', hid', hkept'⟩ := h.grants.mem hf'
    have huser' : g.userId = f.userId := by rw [← hkept.userId, ← hkept'.userId, huser]
    rw [hkept.expiresAt, hkept'.createdAt, hkept'.expiresAt, hkept.createdAt]
    refine (hs.apart g hmem f hmem' huser' (hkept.revoked hg) (hkept'.revoked hf)).imp_left ?_
    rintro rfl
    exact Table.eq_of_mem hg' hf' (hid.trans hid'.symm)
  created g' hg' := by
    obtain ⟨g, hmem, -, hkept⟩ := h.grants.mem hg'
    rw [hkept.createdAt]
    exact (hs.created g hmem).trans h.clock
  known g' hg' := by
    obtain ⟨g, hmem, -, hkept⟩ := h.grants.mem hg'
    rw [hkept.scopes]
    exact hs.known g hmem
  issued row' hrow' := by
    obtain ⟨row, hrow, hsame, -⟩ := h.bearers row' hrow'
    rw [h.issued, ← hsame]
    exact hs.issued row hrow
  bearer row' hrow' id hid := by
    obtain ⟨row, hrow, hsame, -⟩ := h.bearers row' hrow'
    rw [← hsame] at hid ⊢
    obtain ⟨g, hfound, hscopes, hresponse⟩ := hs.bearer row hrow id hid
    obtain ⟨g', hfound', hkept⟩ := h.grants.find? hfound
    exact ⟨g', hfound', hkept.scopes ▸ hscopes, hresponse⟩
  single row₁' hrow₁' row₂' hrow₂' hgrant hsame hlive₁' hlive₂' := by
    obtain ⟨row₁, hrow₁, hsame₁, hlive₁⟩ := h.bearers row₁' hrow₁'
    obtain ⟨row₂, hrow₂, hsame₂, hlive₂⟩ := h.bearers row₂' hrow₂'
    have heq : row₁ = row₂ := by
      refine hs.single row₁ hrow₁ row₂ hrow₂ ?_ ?_ (hlive₁ hlive₁') (hlive₂ hlive₂')
      · rw [← hsame₁] at hgrant
        exact hgrant
      · rw [← hsame₁, ← hsame₂] at hsame
        exact hsame
    rw [← hsame₁, ← hsame₂, heq, hlive₁', hlive₂']

theorem becomes_refl (grants : Table AccessGrant.grantId) :
    Table.Becomes AccessGrant.Kept grants grants := .refl .refl grants

theorem becomes_retire (grantId : String) (now : ℤ) (s : GrantState) :
    Table.Becomes AccessGrant.Kept s.grants (s.retire grantId now).grants := by
  refine .update AccessGrant.Kept.refl ?_ (fun grant => ?_) s.grants grantId
  · exact fun _ => rfl
  · exact ⟨rfl, rfl, rfl, rfl, fun h => absurd h (Option.some_ne_none _)⟩

theorem retires_revoke (grantId : String) (now : ℤ) (s : GrantState) :
    s.Retires (s.revoke grantId now) :=
  ⟨.revokeSessions _ now s.auth, becomes_retire grantId now s, le_rfl, rfl⟩

theorem retires_logout (rules : GrantRules) (token : String) (now : ℤ) (s : GrantState) :
    s.Retires (s.logout rules token now) := by
  simp only [logout]
  split
  · exact ⟨.revokeSession rules.auth token now s.auth, becomes_refl _, le_rfl, rfl⟩
  · exact ⟨.revokeSession rules.auth token now s.auth, becomes_retire _ now s, le_rfl, rfl⟩

theorem clock_logout (rules : GrantRules) (token : String) (now : ℤ) (s : GrantState) :
    (s.logout rules token now).clock = s.clock := by
  simp only [logout]
  split <;> rfl

theorem retires_suspend (now : ℤ) (s : GrantState) : s.Retires (s.suspend now) :=
  ⟨.revokeSessions _ now s.auth, becomes_refl _, le_rfl, rfl⟩

theorem retires_cleanup (now : ℤ) (s : GrantState) :
    s.Retires { s with auth := s.auth.cleanupSessions now } :=
  ⟨.cleanupSessions now s.auth, becomes_refl _, le_rfl, rfl⟩

/-- A transaction of `create` adds a grant of a user who has no active one. -/
theorem create_eq_ok {userId : String} {selected : List String} {ttlSeconds issuedAt : ℤ}
    {draw : GrantDraw} {reply : GrantReply}
    (h : s.create rules userId selected ttlSeconds issuedAt draw = .ok (reply, s')) :
    ∃ grant : AccessGrant, grant = ⟨draw.grantId, rules.auth.sha256 draw.accessCode, userId,
        sortedScopes selected, issuedAt, issuedAt + ttlSeconds, none, none, none⟩ ∧
      (∀ g ∈ s.grants.rows, g.userId = userId → g.revokedAt = none → g.expiresAt ≤ issuedAt) ∧
      s.grants.find? grant.grantId = none ∧
      s' = { s with
        grants := s.grants.insertOrIgnore grant
        profiles := s.profiles.insertOrIgnore ⟨userId, ""⟩ } := by
  simp only [create, bind_eq_ok, raiseIf_eq_ok, pure_eq_ok, Prod.mk.injEq, exists_const, not_or,
    not_not] at h
  obtain ⟨hnone, ⟨hfresh, -⟩, -, rfl⟩ := h
  refine ⟨_, rfl, fun g hg huser hlive => ?_, hfresh, rfl⟩
  by_contra hlate
  refine hnone (List.any_eq_true.mpr ⟨g, hg, decide_eq_true ⟨huser, ?_⟩⟩)
  exact decide_eq_true ⟨hlive, not_le.mp hlate⟩

theorem Sound.create (h : s.Sound) {userId : String} {selected : List String}
    {ttlSeconds issuedAt : ℤ} {draw : GrantDraw} {reply : GrantReply}
    (hclock : issuedAt ≤ s.clock) (hknown : selected ⊆ knownScopes)
    (hok : s.create rules userId selected ttlSeconds issuedAt draw = .ok (reply, s')) :
    s.Later s' ∧ s'.Sound := by
  obtain ⟨grant, hgrant, hnone, hfresh, rfl⟩ := create_eq_ok hok
  refine ⟨⟨List.Subset.refl _, fun row hrow _ => ⟨row, hrow, rfl, rfl, id⟩⟩, ?_, ?_, ?_, h.issued,
    ?_, h.single⟩
  · intro g hg g' hg' huser hlive hlive'
    rcases Table.mem_insertOrIgnore hg with hold | ⟨-, rfl⟩ <;>
      rcases Table.mem_insertOrIgnore hg' with hold' | ⟨-, rfl⟩
    · exact h.apart g hold g' hold' huser hlive hlive'
    · rw [hgrant] at huser ⊢
      exact .inr (.inl (hnone g hold huser hlive))
    · rw [hgrant] at huser ⊢
      exact .inr (.inr (hnone g' hold' huser.symm hlive'))
    · exact .inl rfl
  · intro g hg
    rcases Table.mem_insertOrIgnore hg with hg | ⟨-, rfl⟩
    · exact h.created g hg
    · rw [hgrant]
      exact hclock
  · intro g hg
    rcases Table.mem_insertOrIgnore hg with hg | ⟨-, rfl⟩
    · exact h.known g hg
    · rw [hgrant]
      exact fun scope hscope => hknown ((List.perm_insertionSort _ _).mem_iff.mp hscope)
  · intro row hrow id hid
    obtain ⟨g, hfound, hscopes⟩ := h.bearer row hrow id hid
    refine ⟨g, ?_, hscopes⟩
    rw [Table.find?_insertOrIgnore, hfound, Option.some_or]

/-- Known scopes have no space to strip. -/
theorem stripText_known {scope : String} (h : scope ∈ knownScopes) : stripText scope = scope := by
  simp only [knownScopes, List.mem_cons, List.not_mem_nil, or_false] at h
  rcases h with rfl | rfl | rfl | rfl | rfl | rfl | rfl <;> rfl

/-- The scopes of a bearer are scopes of its grant, without that of producers. -/
theorem redeemable_eq_ok {grant : AccessGrant} {now : ℤ} {terms : List String × ℤ}
    (hknown : grant.scopes ⊆ knownScopes) (h : redeemable rules grant now = .ok terms) :
    terms.1 ⊆ grant.scopes ∧ "response" ∉ terms.1 := by
  simp only [redeemable, bind_eq_ok, orRaise_eq_ok, raiseIf_eq_ok, pure_eq_ok, exists_const,
    not_or] at h
  obtain ⟨scopes, hvalid, ⟨-, hresponse⟩, expiresAt, -, rfl⟩ := h
  have hsorted : ∀ scope, scope ∈ sortedScopes scopes ↔ scope ∈ scopes := fun scope =>
    (List.perm_insertionSort _ _).mem_iff
  refine ⟨fun scope hscope => ?_, fun hscope => hresponse ((hsorted _).mp hscope)⟩
  simp only [validatedScopes, Option.ite_none_left_eq_some, Option.some.injEq] at hvalid
  obtain ⟨-, rfl⟩ := hvalid
  have hmem := (hsorted scope).mp hscope
  rw [List.mem_dedup] at hmem
  obtain ⟨given, hgiven, rfl⟩ := List.mem_map.mp (List.mem_of_mem_filter hmem)
  have hsame : stripText given = given := stripText_known (hknown hgiven)
  exact hsame.symm ▸ hgiven

/-- A redemption ends the bearers of a grant that is in force and adds one with scopes of it. -/
theorem redeem_eq_ok {accessCode : String} {now : ℤ} {draw : GrantDraw} {reply : BearerReply}
    (h : s.redeem rules accessCode now draw = .ok (reply, s')) :
    ∃ grant auth row, s.grantOfCode rules accessCode = some grant ∧
      redeemable rules grant now = .ok (row.scopes, row.expiresAt) ∧
      row.tokenHash = rules.auth.sha256 draw.session.token ∧
      row.accessGrantId = some grant.grantId ∧
      auth = (s.auth.cleanupSessions now).revokeSessions (fun session =>
        some grant.grantId ≠ none ∧ session.accessGrantId = some grant.grantId ∧
          session.revokedAt = none) now ∧
      s'.auth.sessions = auth.sessions.insertOrIgnore row ∧
      Table.Becomes AccessGrant.Kept s.grants s'.grants ∧ s'.clock = s.clock ∧
      s'.issued = row.tokenHash :: s.issued := by
  simp only [redeem, issueSession, bind_eq_ok, orRaise_eq_ok, raiseIf_eq_ok, pure_eq_ok,
    Prod.mk.injEq, exists_const] at h
  obtain ⟨grant, hgrant, -, terms, hterms, auth, hissued, -, rfl⟩ := h
  obtain ⟨row, hrow, -, hsessions⟩ := insertSession_eq_ok hissued
  subst hrow
  refine ⟨grant, _, _, hgrant, hterms, rfl, rfl, rfl, hsessions, ?_, rfl, rfl⟩
  refine .update AccessGrant.Kept.refl ?_ (fun grant => ?_) s.grants grant.grantId
  · exact fun _ => rfl
  · exact ⟨rfl, rfl, rfl, rfl, id⟩

theorem Sound.redeem (h : s.Sound) {accessCode : String} {now : ℤ} {draw : GrantDraw}
    {reply : BearerReply} (hfresh : rules.auth.sha256 draw.session.token ∉ s.issued)
    (hok : s.redeem rules accessCode now draw = .ok (reply, s')) : s.Later s' ∧ s'.Sound ∧
    ∃ grant, s.grantOfCode rules accessCode = some grant ∧ ∀ row ∈ s'.auth.sessions.rows,
      row.accessGrantId = some grant.grantId → row.tokenHash ∈ s.issued → row.revokedAt ≠ none := by
  obtain ⟨grant, auth, bearer, hgrant, hterms, hhash, hid, hauth, hsessions, hgrants, hclock,
    hissued⟩ := redeem_eq_ok hok
  have hkept : s.auth.BearersKept auth :=
    hauth ▸ (AuthState.BearersKept.cleanupSessions now s.auth).trans (.revokeSessions _ now _)
  -- the state before the bearer is inserted
  have hretires : s.Retires { s' with auth, issued := s.issued } :=
    ⟨hkept, hgrants, hclock.ge, rfl⟩
  have hbefore := hretires.sound h
  have hended : ∀ row ∈ auth.sessions.rows, row.accessGrantId = some grant.grantId →
      row.revokedAt ≠ none := by
    intro row hrow hsame hlive
    rw [hauth] at hrow
    have hnot := of_decide_eq_false (live_of_revokeSessions hrow hlive).2
    exact hnot ⟨Option.some_ne_none _, hsame, hlive⟩
  have hnew : bearer.tokenHash ∉ s.issued := hhash ▸ hfresh
  have hcases : ∀ row ∈ s'.auth.sessions.rows, row ∈ auth.sessions.rows ∨ row = bearer := by
    intro row hrow
    rw [hsessions] at hrow
    exact (Table.mem_insertOrIgnore hrow).imp id And.right
  refine ⟨⟨hissued ▸ List.subset_cons_self _ _, fun row' hrow' hold => ?_⟩, ⟨hbefore.apart,
    hbefore.created, hbefore.known, fun row hrow => ?_, fun row hrow id hrowid => ?_,
    fun row hrow row' hrow' hsome hsame hlive hlive' => ?_⟩, grant, hgrant,
    fun row hrow hrowid hold => ?_⟩
  · rcases hcases row' hrow' with hmem | rfl
    · exact hretires.later.row row' hmem hold
    · exact absurd hold hnew
  · rw [hissued]
    rcases hcases row hrow with hmem | rfl
    · exact List.mem_cons_of_mem _ (hbefore.issued row hmem)
    · exact List.mem_cons_self
  · rcases hcases row hrow with hmem | rfl
    · exact hbefore.bearer row hmem id hrowid
    · obtain rfl : grant.grantId = id := Option.some.inj (hid.symm.trans hrowid)
      have hstored : grant ∈ s.grants.rows := List.mem_of_find?_eq_some hgrant
      obtain ⟨g, hfound, hkept⟩ := hgrants.find? (Table.find?_of_mem hstored)
      exact ⟨g, hfound, hkept.scopes ▸ redeemable_eq_ok (h.known grant hstored) hterms⟩
  · rcases hcases row hrow with hmem | rfl <;> rcases hcases row' hrow' with hmem' | rfl
    · exact hbefore.single row hmem row' hmem' hsome hsame hlive hlive'
    · exact absurd hlive (hended row hmem (hsame.symm.trans hid))
    · exact absurd hlive' (hended row' hmem' (hsame.trans hid))
    · rfl
  · rcases hcases row hrow with hmem | rfl
    · exact hended row hmem hrowid
    · exact absurd hold hnew

/-- The grant whose bearer a token is. -/
def grantOfToken (rules : GrantRules) (token : String) (s : GrantState) : Option String :=
  (s.auth.sessions.rows.find? fun row => rules.auth.hashToken token = some row.tokenHash).bind
    (·.accessGrantId)

/-- A logout ends every bearer of the grant. -/
theorem logout_ends {token grantId : String} {now : ℤ}
    (h : s.grantOfToken rules token = some grantId) {row : GatewaySession}
    (hrow : row ∈ (s.logout rules token now).auth.sessions.rows)
    (hid : row.accessGrantId = some grantId) : row.revokedAt ≠ none := by
  intro hlive
  have hauth : (s.logout rules token now).auth = revokeSession rules.auth token now s.auth := by
    simp only [logout]
    split <;> rfl
  rw [hauth, revokeSession] at hrow
  obtain ⟨bearer, hbearer, hgrant⟩ := Option.bind_eq_some_iff.mp h
  cases hhash : rules.auth.hashToken token with
  | none =>
    rw [hhash] at hbearer
    have hnone := List.find?_some hbearer
    simp at hnone
  | some tokenHash =>
    have hsame : (fun row : GatewaySession => decide
      (rules.auth.hashToken token = some row.tokenHash)) =
        fun row => decide (row.tokenHash = tokenHash) := by
      funext row
      rw [decide_eq_decide, hhash, Option.some.injEq, eq_comm]
    rw [hsame] at hbearer
    simp only [hhash, hbearer, hgrant] at hrow
    exact of_decide_eq_false (live_of_revokeSessions hrow hlive).2 ⟨hid, hlive⟩

/-- A reading that holds is of a bearer in force, and of its grant in force if it has one. -/
theorem of_read {check : BearerCheck} {session : GatewaySession}
    (h : (s.read rules check).result = .ok session) :
    session ∈ s.auth.sessions.rows ∧ session.revokedAt = none ∧
      ∀ id, session.accessGrantId = some id → (s.read rules check).ofGrant = true ∧
        ∃ grant, s.grants.find? id = some grant ∧ grant.active check.now = true := by
  have hresult : verifiedSession rules.auth check.identity check.bySessionId check.now
      ((((s.selected check).bind (·.accessGrantId)).bind s.grants.find?).any (·.active check.now))
      s.auth = .ok session := h
  simp only [verifiedSession] at hresult
  split at hresult
  · cases hresult
  · next row hrow =>
    have hselected : s.selected check = some row := hrow
    simp only [bind_eq_ok, raiseIf_eq_ok, pure_eq_ok, exists_const, not_or, not_and] at hresult
    obtain ⟨⟨hlive, -, hgrant, -⟩, rfl⟩ := hresult
    refine ⟨List.mem_of_find?_eq_some hrow, not_not.mp hlive, fun id hid => ⟨?_, ?_⟩⟩
    · simp only [read, hselected, Option.bind_some, hid, Option.isSome_some]
    · have hactive := hgrant (hid ▸ Option.some_ne_none id)
      rw [hselected, Option.bind_some, hid, Option.bind_some, Bool.not_eq_false,
        Option.any_eq_true] at hactive
      exact hactive

end GrantState

namespace GrantWork

variable {rules : GrantRules} {draw : GrantDraw} {s s' : GrantState} {w w' : GrantWork}

/-- A request to create a grant carries known scopes and a clock that was read. -/
def Sound (s : GrantState) : GrantWork → Prop
  | .create _ selected _ => selected ⊆ knownScopes
  | .createAt _ selected _ issuedAt => selected ⊆ knownScopes ∧ issuedAt ≤ s.clock
  | _ => True

theorem Sound.mono (h : w.Sound s) (hclock : s.clock ≤ s'.clock) : w.Sound s' := by
  cases w with
  | create userId selected ttl => exact h
  | createAt userId selected ttl issuedAt => exact ⟨h.1, h.2.trans hclock⟩
  | _ => trivial

/-- The next turn draws a bearer. -/
def redeems : GrantWork → Bool
  | .redeemAt _ _ => true
  | _ => false

/-- The turn of a request ends the bearers that a grant has. -/
def Ends (rules : GrantRules) (draw : GrantDraw) (s : GrantState) (grantId : String) :
    GrantWork → Prop
  | .redeemAt accessCode now => (s.grantOfCode rules accessCode).map (·.grantId) = some grantId ∧
    ∃ reply s', s.redeem rules accessCode now draw = .ok (reply, s')
  | .revokeAt id _ => id = grantId
  | .logoutAt token _ => s.grantOfToken rules token = some grantId
  | .suspendAt _ => True
  | _ => False

/-- A request to create a grant starts with what its checks return. -/
theorem first_create {request : GrantRequest} (h : first rules (.create request) = some w) :
    ∃ checked, request.check rules = .ok checked ∧
      w = .create checked.1 checked.2 request.ttlSeconds := by
  have hstart : (request.check rules).toOption.map (fun checked =>
    GrantWork.create checked.1 checked.2 request.ttlSeconds) = some w := h
  obtain ⟨checked, hchecked, rfl⟩ := Option.map_eq_some_iff.mp hstart
  refine ⟨checked, ?_, rfl⟩
  generalize request.check rules = result at hchecked
  cases result with
  | error e => cases hchecked
  | ok value => exact congrArg _ (Option.some.inj hchecked)

theorem sound_first {call : GrantCall} (h : first rules call = some w) : w.Sound s := by
  cases call with
  | create request =>
    obtain ⟨checked, hchecked, rfl⟩ := first_create h
    simp only [GrantRequest.check, bind_eq_ok, raiseIf_eq_ok, orRaise_eq_ok, pure_eq_ok,
      exists_const] at hchecked
    obtain ⟨-, -, selected, hvalid, -, -, -, -, -, rfl⟩ := hchecked
    simp only [validatedScopes, Option.ite_none_left_eq_some, not_or, not_not,
      Option.some.injEq] at hvalid
    obtain ⟨⟨-, hknown⟩, rfl⟩ := hvalid
    exact hknown
  | revoke grantId =>
    obtain ⟨-, ⟨⟩⟩ := Option.ite_none_right_eq_some.mp h
    trivial
  | logout token =>
    obtain ⟨-, -, rfl⟩ := Option.map_eq_some_iff.mp h
    trivial
  | redeem | cleanup | verify | validate =>
    cases h
    trivial

/-- What a turn keeps. -/
structure Keeps (rules : GrantRules) (draw : GrantDraw) (s : GrantState) (w : GrantWork)
    (s' : GrantState) : Prop where
  later : s.Later s'
  sound : s'.Sound
  clock : s'.clock = s.clock
  ended : ∀ grantId, w.Ends rules draw s grantId → ∀ row ∈ s'.auth.sessions.rows,
    row.accessGrantId = some grantId → row.tokenHash ∈ s.issued → row.revokedAt ≠ none

theorem Keeps.refl (hs : s.Sound) (h : ∀ grantId, ¬w.Ends rules draw s grantId) :
    Keeps rules draw s w s := ⟨.refl s, hs, rfl, fun grantId hends => absurd hends (h grantId)⟩

theorem turn_keeps (hs : s.Sound) (hw : w.Sound s)
    (hfresh : w.redeems = true → rules.auth.sha256 draw.session.token ∉ s.issued) :
    Keeps rules draw s w (w.turn rules draw s).1 := by
  cases w with
  | createAt userId selected ttl issuedAt =>
    refine commit_of (P := Keeps rules draw s _) (.refl hs fun _ => id) fun s' hok => ?_
    obtain ⟨reply, hreply⟩ := stateOf_eq_ok.mp hok
    obtain ⟨hlater, hsound⟩ := hs.create hw.2 hw.1 hreply
    obtain ⟨grant, hgrant, hnone, hnew, hs'⟩ := GrantState.create_eq_ok hreply
    exact ⟨hlater, hsound, by rw [hs'], fun _ hends => hends.elim⟩
  | redeemAt accessCode now =>
    change Keeps rules draw s _ (commit (stateOf (s.redeem rules accessCode now draw)) s)
    cases hok : s.redeem rules accessCode now draw with
    | error e =>
      refine .refl hs fun grantId hends => ?_
      obtain ⟨-, reply, s', hredeemed⟩ := hends
      cases hok.symm.trans hredeemed
    | ok redeemed =>
      obtain ⟨hlater, hsound, grant, hgrant, hended⟩ := hs.redeem (hfresh rfl) hok
      obtain ⟨-, -, -, -, -, -, -, -, -, -, hclock, -⟩ := GrantState.redeem_eq_ok hok
      refine ⟨hlater, hsound, hclock, fun grantId hends => ?_⟩
      obtain ⟨hcode, -⟩ := hends
      rw [hgrant, Option.map_some, Option.some.injEq] at hcode
      exact hcode ▸ hended
  | revokeAt grantId now =>
    have hretires := GrantState.retires_revoke grantId now s
    refine ⟨hretires.later, hretires.sound hs, rfl, ?_⟩
    rintro _ rfl row hrow hid - hlive
    exact of_decide_eq_false (live_of_revokeSessions hrow hlive).2 ⟨hid, hlive⟩
  | logoutAt token now =>
    have hretires := GrantState.retires_logout rules token now s
    refine ⟨hretires.later, hretires.sound hs, GrantState.clock_logout rules token now s,
      fun grantId hends row hrow hid _ => GrantState.logout_ends hends hrow hid⟩
  | cleanupAt now =>
    have hretires := GrantState.retires_cleanup now s
    exact ⟨hretires.later, hretires.sound hs, rfl, fun _ hends => hends.elim⟩
  | suspendAt now =>
    have hretires := GrantState.retires_suspend now s
    refine ⟨hretires.later, hretires.sound hs, rfl, fun grantId _ row hrow hid _ hlive => ?_⟩
    exact of_decide_eq_false (live_of_revokeSessions hrow hlive).2
      ⟨hid ▸ Option.some_ne_none grantId, hlive⟩
  | _ => exact .refl hs fun _ => id

theorem sound_next (hw : w.Sound s) (h : (w.turn rules draw s).2 = some w') : w'.Sound s := by
  cases w with
  | create userId selected ttl =>
    cases h
    exact ⟨hw, le_rfl⟩
  | redeem accessCode | verified check reading | validateAt flag =>
    obtain ⟨-, ⟨⟩⟩ := Option.ite_none_right_eq_some.mp h
    trivial
  | _ =>
    cases h
    try trivial

end GrantWork

namespace GrantService

open GrantState

variable {rules : GrantRules} {p : GrantService}

/-- The tables are sound, and so are the requests. -/
def Sound (p : GrantService) : Prop := p.shared.Sound ∧ ∀ w ∈ p.workers, w.Sound p.shared

/-- A bearer that is drawn was never issued. -/
def Fresh (rules : GrantRules) (p : GrantService) : GrantTurn → Prop
  | .turn i draw => ∀ w, p.workers[i]? = some w → w.redeems = true →
    rules.auth.sha256 draw.session.token ∉ p.shared.issued
  | _ => True

/-- A turn ends the bearers that a grant has. -/
def Ends (rules : GrantRules) (p : GrantService) (grantId : String) : GrantTurn → Prop
  | .turn i draw => ∃ w, p.workers[i]? = some w ∧ w.Ends rules draw p.shared grantId
  | _ => False

/-- What a step keeps. -/
structure Keeps (rules : GrantRules) (p : GrantService) (t : GrantTurn)
    (q : GrantService) : Prop where
  later : p.shared.Later q.shared
  sound : q.Sound
  clock : p.shared.clock ≤ q.shared.clock
  ended : ∀ grantId, p.Ends rules grantId t → ∀ row ∈ q.shared.auth.sessions.rows,
    row.accessGrantId = some grantId → row.tokenHash ∈ p.shared.issued → row.revokedAt ≠ none

theorem step_keeps (h : p.Sound) {t : GrantTurn} (ht : p.Fresh rules t) :
    Keeps rules p t (p.step rules t) := by
  cases t with
  | start call =>
    rw [step]
    cases hw : GrantWork.first rules call with
    | none => exact ⟨.refl _, h, le_rfl, fun _ hends => hends.elim⟩
    | some w =>
      refine ⟨.refl _, ⟨h.1, fun v hv => ?_⟩, le_rfl, fun _ hends => hends.elim⟩
      rcases List.mem_append.mp hv with hv | hv
      · exact h.2 v hv
      · rw [List.mem_singleton.mp hv]
        exact GrantWork.sound_first hw
  | toggle flag =>
    have hretires : p.shared.Retires { p.shared with flag } :=
      ⟨.of_eq rfl, becomes_refl _, le_rfl, rfl⟩
    exact ⟨hretires.later, ⟨hretires.sound h.1, fun w hw => (h.2 w hw).mono le_rfl⟩, le_rfl,
      fun _ hends => hends.elim⟩
  | tick seconds =>
    have hclock : p.shared.clock ≤ p.shared.clock + seconds :=
      Int.le_add_of_nonneg_right (Int.natCast_nonneg seconds)
    have hretires : p.shared.Retires { p.shared with clock := p.shared.clock + seconds } :=
      ⟨.of_eq rfl, becomes_refl _, hclock, rfl⟩
    exact ⟨hretires.later, ⟨hretires.sound h.1, fun w hw => (h.2 w hw).mono hclock⟩, hclock,
      fun _ hends => hends.elim⟩
  | turn i draw =>
    rw [step]
    cases hw : p.workers[i]? with
    | none =>
      rw [Pool.turn_none hw]
      refine ⟨.refl _, h, le_rfl, fun _ hends => ?_⟩
      obtain ⟨w, hw', -⟩ := hends
      cases hw.symm.trans hw'
    | some w =>
      have hsound := h.2 w (List.mem_of_getElem? hw)
      have hkeeps : GrantWork.Keeps rules draw p.shared w (w.turn rules draw p.shared).1 :=
        GrantWork.turn_keeps h.1 hsound (ht w hw)
      refine ⟨?_, ⟨?_, fun v hv => ?_⟩, ?_, fun grantId hends => ?_⟩
      · rw [Pool.shared_turn hw]
        exact hkeeps.later
      · rw [Pool.shared_turn hw]
        exact hkeeps.sound
      · rw [Pool.shared_turn hw]
        refine GrantWork.Sound.mono ?_ hkeeps.clock.ge
        rcases Pool.mem_turn hv with hv | ⟨w', hw', hnext⟩
        · exact h.2 v hv
        · obtain rfl : w = w' := Option.some.inj (hw.symm.trans hw')
          exact GrantWork.sound_next hsound hnext
      · rw [Pool.shared_turn hw]
        exact hkeeps.clock.ge
      · obtain ⟨w', hw', hends⟩ := hends
        obtain rfl : w = w' := Option.some.inj (hw.symm.trans hw')
        rw [Pool.shared_turn hw]
        exact hkeeps.ended grantId hends

theorem Sound.initial : GrantService.initial.Sound := by
  refine ⟨⟨?_, ?_, ?_, ?_, ?_, ?_⟩, ?_⟩ <;> exact fun _ h => absurd h List.not_mem_nil

theorem sound_of_run {steps : List GrantTurn}
    (h : RunMeets (GrantService.step rules) (Fresh rules) initial steps) :
    (run (GrantService.step rules) initial steps).Sound :=
  run_invariant (I := Sound) (fun _ _ hp ht => (step_keeps hp ht).sound) h .initial

/-- Where a check got what it has: its clock from a state of the run, and its reading from one that
is not before that. -/
def Traced (rules : GrantRules) (steps : List GrantTurn) : GrantWork → Prop
  | .verifyAt check => ∃ first second, steps = first ++ second ∧
    check.now = (run (GrantService.step rules) initial first).shared.clock
  | .verified check reading => ∃ first second third, steps = first ++ second ++ third ∧
    check.now = (run (GrantService.step rules) initial first).shared.clock ∧
    reading = (run (GrantService.step rules) initial (first ++ second)).shared.read rules check
  | _ => True

theorem Traced.append {steps : List GrantTurn} {w : GrantWork} (h : Traced rules steps w)
    (t : GrantTurn) : Traced rules (steps ++ [t]) w := by
  cases w with
  | verifyAt check =>
    obtain ⟨first, second, rfl, hnow⟩ := h
    exact ⟨first, second ++ [t], List.append_assoc .., hnow⟩
  | verified check reading =>
    obtain ⟨first, second, third, rfl, hread⟩ := h
    exact ⟨first, second, third ++ [t], List.append_assoc .., hread⟩
  | _ => trivial

/-- A check goes on with what it read. -/
theorem Traced.next {steps : List GrantTurn} {w w' : GrantWork} {draw : GrantDraw} (t : GrantTurn)
    (h : Traced rules steps w)
    (hnext : (w.turn rules draw (run (GrantService.step rules) initial steps).shared).2 = some w') :
    Traced rules (steps ++ [t]) w' := by
  cases w with
  | verify identity bySessionId =>
    cases hnext
    exact ⟨steps, [t], rfl, rfl⟩
  | verifyAt check =>
    cases hnext
    obtain ⟨first, second, rfl, hnow⟩ := h
    exact ⟨first, second, [t], rfl, hnow, rfl⟩
  | redeem accessCode | verified check reading | validateAt flag =>
    obtain ⟨-, ⟨⟩⟩ := Option.ite_none_right_eq_some.mp hnext
    trivial
  | _ =>
    cases hnext
    try trivial

theorem traced_of_run (steps : List GrantTurn) :
    ∀ w ∈ (run (GrantService.step rules) initial steps).workers, Traced rules steps w := by
  induction steps using List.reverseRecOn with
  | nil => exact fun w hw => absurd hw List.not_mem_nil
  | append_singleton steps t ih =>
    intro w hw
    rw [run_append, run_cons, run_nil] at hw
    cases t with
    | start call =>
      rw [step] at hw
      cases hfirst : GrantWork.first rules call with
      | none =>
        rw [hfirst] at hw
        exact (ih w hw).append _
      | some v =>
        rw [hfirst] at hw
        rcases List.mem_append.mp hw with hw | hw
        · exact (ih w hw).append _
        · rw [List.mem_singleton.mp hw]
          cases call with
          | create request =>
            obtain ⟨-, -, rfl⟩ := GrantWork.first_create hfirst
            trivial
          | revoke grantId =>
            obtain ⟨-, ⟨⟩⟩ := Option.ite_none_right_eq_some.mp hfirst
            trivial
          | logout token =>
            obtain ⟨-, -, rfl⟩ := Option.map_eq_some_iff.mp hfirst
            trivial
          | redeem | cleanup | verify | validate =>
            cases hfirst
            trivial
    | toggle flag => exact (ih w hw).append _
    | tick seconds => exact (ih w hw).append _
    | turn i draw =>
      rcases Pool.mem_turn hw with hw | ⟨v, hv, hnext⟩
      · exact (ih w hw).append _
      · exact (ih v (List.mem_of_getElem? hv)).next _ hnext

/-- A bearer in force in a state was not ended by a turn before. -/
theorem not_ended {early late : List GrantTurn} {t : GrantTurn} {session : GatewaySession}
    {grantId : String} (hmeets : RunMeets (GrantService.step rules) (Fresh rules) initial
      (early ++ t :: late))
    (hsession : session ∈ (run (GrantService.step rules) initial
      (early ++ t :: late)).shared.auth.sessions.rows) (hlive : session.revokedAt = none)
    (hid : session.accessGrantId = some grantId)
    (hissued : session.tokenHash ∈ (run (GrantService.step rules) initial early).shared.issued) :
    ¬(run (GrantService.step rules) initial early).Ends rules grantId t := by
  intro hends
  obtain ⟨hearly, ht, hlate⟩ := runMeets_append.mp hmeets
  have hkeeps := step_keeps (sound_of_run hearly) ht
  rw [run_append, run_cons] at hsession
  -- what comes after the turn keeps the bearers as it left them
  have hlater := (run_invariant
    (I := fun q : GrantService => q.Sound ∧
      ((run (GrantService.step rules) initial early).step rules t).shared.Later q.shared)
    (fun q u hq hu => ⟨(step_keeps hq.1 hu).sound, hq.2.trans (step_keeps hq.1 hu).later⟩) hlate
    ⟨hkeeps.sound, .refl _⟩).2
  obtain ⟨row, hrow, hhash, hgrant, hrowlive⟩ :=
    hlater.row session hsession (hkeeps.later.issued hissued)
  exact hkeeps.ended grantId hends row hrow (hgrant.trans hid) (hhash ▸ hissued) (hrowlive hlive)

end GrantService

/-- A user has at most one active grant. -/
def GrantState.OneActiveGrant (s : GrantState) : Prop :=
  ∀ g ∈ s.grants.rows, ∀ g' ∈ s.grants.rows, g.userId = g'.userId → g.active s.clock = true →
    g'.active s.clock = true → g = g'

/-- A grant has at most one bearer that is not revoked. -/
def GrantState.OneBearer (s : GrantState) : Prop :=
  ∀ row ∈ s.auth.sessions.rows, ∀ row' ∈ s.auth.sessions.rows, row.accessGrantId ≠ none →
    row'.accessGrantId = row.accessGrantId → row.revokedAt = none →
      row'.revokedAt = none → row = row'

/-- A check of a bearer read its clock before the grant expired, and then found the grant and the
bearer unrevoked, the scopes being some of the grant's without that of producers; no turn before
that reading that ended the bearers of the grant had this one to end. -/
def GrantService.Justified (rules : GrantRules) (steps : List GrantTurn) (grantId : String)
    (session : GatewaySession) : Prop :=
  ∃ first second third, steps = first ++ second ++ third ∧
    let asked := run (GrantService.step rules) initial first
    let read := run (GrantService.step rules) initial (first ++ second)
    session ∈ read.shared.auth.sessions.rows ∧ session.revokedAt = none ∧
    (∃ grant, read.shared.grants.find? grantId = some grant ∧ grant.revokedAt = none ∧
      asked.shared.clock < grant.expiresAt ∧ session.scopes ⊆ grant.scopes ∧
      "response" ∉ session.scopes) ∧
    ∀ early t late, first ++ second = early ++ t :: late →
      session.tokenHash ∈ (run (GrantService.step rules) initial early).shared.issued →
      ¬(run (GrantService.step rules) initial early).Ends rules grantId t

/-- As long as no bearer is drawn twice, a user has at most one active grant and a grant at most one
bearer that is not revoked; a bearer of a grant is accepted with the switch on, by a check that read
it and its grant in force after every turn that ended bearers of the grant. -/
theorem access_grants_bound_bearers {rules : GrantRules} {steps : List GrantTurn}
    (h : RunMeets (GrantService.step rules) (GrantService.Fresh rules) .initial steps) :
    (run (GrantService.step rules) .initial steps).shared.OneActiveGrant ∧
      (run (GrantService.step rules) .initial steps).shared.OneBearer ∧
      ∀ i session grantId, (run (GrantService.step rules) .initial steps).Accepts i session →
        session.accessGrantId = some grantId →
        (run (GrantService.step rules) .initial steps).shared.flag = .on ∧
          GrantService.Justified rules steps grantId session := by
  have hsound := (GrantService.sound_of_run h).1
  refine ⟨fun g hg g' hg' huser hactive hactive' => ?_, hsound.single,
    fun i session grantId haccepts hid => ?_⟩
  · obtain ⟨hlive, hunexpired⟩ := of_decide_eq_true hactive
    obtain ⟨hlive', hunexpired'⟩ := of_decide_eq_true hactive'
    have hcreated := hsound.created g hg
    have hcreated' := hsound.created g' hg'
    rcases hsound.apart g hg g' hg' huser hlive hlive' with heq | hapart | hapart
    · exact heq
    · omega
    · omega
  · obtain ⟨check, reading, hworker, hresult, hflag⟩ := haccepts
    obtain ⟨first, second, third, rfl, hnow, rfl⟩ :=
      GrantService.traced_of_run steps _ (List.mem_of_getElem? hworker)
    obtain ⟨hsession, hlive, hgrant⟩ := GrantState.of_read hresult
    obtain ⟨hof, grant, hfound, hactive⟩ := hgrant grantId hid
    obtain ⟨hunrevoked, hunexpired⟩ := of_decide_eq_true hactive
    obtain ⟨hread, -⟩ := runMeets_append.mp h
    obtain ⟨g, hfound', hscopes, hresponse⟩ :=
      (GrantService.sound_of_run hread).1.bearer session hsession grantId hid
    obtain rfl : grant = g := Option.some.inj (hfound.symm.trans hfound')
    refine ⟨hflag hof, first, second, third, rfl, hsession, hlive,
      ⟨grant, hfound, hunrevoked, hnow ▸ hunexpired, hscopes, hresponse⟩, ?_⟩
    intro early t late hsplit hissued
    rw [hsplit] at hread hsession
    exact GrantService.not_ended hread hsession hlive hid hissued

section Example

/-- A configuration, and the hashes of one code and one bearer. -/
def friendBetaRules : GrantRules where
  auth :=
    { sha256 := fun text =>
        if text = "bearer-token-0" then
          "8d263307d848a86c180079eed4427830d45fead68d6abacbec67a63d50894bcf"
        else "db994a79ae6ff7e02dc3eae15d61ddc6ce08748aeede82e74f4c0cb689f5f345"
      tokenClaims := fun _ => none
      redirectScheme := fun _ => .error ⟨422, ""⟩
      admits := fun _ => true
      configuredIds := fun _ => []
      platformClientIds := fun _ _ => []
      appleWeb := false
      production := false
      providerScopes := []
      refreshTtlSeconds := 0
      sessionTtlSeconds := 3600 }
  bootstrapUserId := "default_user"
  hostedExecution := false
  hostedConfigured := false

def friendDraw : GrantDraw :=
  ⟨"fbg_000000000000000000000000", "mgb_aaaaaaaaaaaaaaaaaaaaaaaaaaaaaaaa",
    ⟨"bearer-token-0", "session-0"⟩⟩

/-- A grant is created and redeemed, and its bearer is read. -/
def redeemedGrant : List GrantTurn :=
  [.toggle .on, .start (.create { userId := "friend" }), .turn 0 friendDraw, .turn 0 friendDraw,
    .start (.redeem friendDraw.accessCode), .turn 0 friendDraw, .turn 0 friendDraw,
    .turn 0 friendDraw, .start (.verify "session-0" true), .turn 0 friendDraw, .turn 0 friendDraw]

/-- The grant of the bearer that a check found to hold. -/
def GrantWork.accepted : GrantWork → Option (Option String)
  | .verified _ reading => reading.result.toOption.map (·.accessGrantId)
  | _ => none

instance GrantService.decidableFresh (rules : GrantRules) (p : GrantService) (t : GrantTurn) :
    Decidable (p.Fresh rules t) :=
  match t with
  | .turn i draw => p.decidableTurn i fun w => w.redeems = true →
    rules.auth.sha256 draw.session.token ∉ p.shared.issued
  | .start _ | .toggle _ | .tick _ => .isTrue trivial

theorem access_grants_bound_bearers_redeemed :
    RunMeets (GrantService.step friendBetaRules) (GrantService.Fresh friendBetaRules) .initial
      redeemedGrant ∧
    (run (GrantService.step friendBetaRules) .initial redeemedGrant).shared.OneActiveGrant ∧
    ∃ session, (run (GrantService.step friendBetaRules) .initial redeemedGrant).Accepts 0 session ∧
      GrantService.Justified friendBetaRules redeemedGrant friendDraw.grantId session := by
  obtain ⟨h, hworker, hflag⟩ : RunMeets (GrantService.step friendBetaRules)
      (GrantService.Fresh friendBetaRules) .initial redeemedGrant ∧
    ((run (GrantService.step friendBetaRules) .initial redeemedGrant).workers[0]?).bind
      GrantWork.accepted = some (some friendDraw.grantId) ∧
    (run (GrantService.step friendBetaRules) .initial redeemedGrant).shared.flag = .on := by
    decide +kernel
  obtain ⟨w, hw, haccepted⟩ := Option.bind_eq_some_iff.mp hworker
  obtain ⟨hgrants, -, hbearers⟩ := access_grants_bound_bearers h
  cases w with
  | verified check reading =>
    cases hresult : reading.result with
    | error e =>
      rw [GrantWork.accepted, hresult] at haccepted
      cases haccepted
    | ok session =>
      rw [GrantWork.accepted, hresult] at haccepted
      have haccepts : (run (GrantService.step friendBetaRules) .initial redeemedGrant).Accepts 0
          session := ⟨check, reading, hw, hresult, fun _ => hflag⟩
      exact ⟨h, hgrants, session, haccepts,
        (hbearers 0 session _ haccepts (Option.some.inj haccepted)).2⟩
  | _ => cases haccepted

end Example

end Magistrate
