import Magistrate.Core.Rewrite
import Magistrate.Gateway.Secrets.Tokens

/-!
# Key rotation

The tables with encrypted columns, what writes to them, and the rewriting of
the credentials under the current key. The rewriting knows the columns of two
tables; the other encrypted columns are left under the key that they have.
-/

namespace Magistrate

/-- A row of `oauth_credentials`. -/
structure OauthCredential where
  id : String
  connectedAccountId : String
  accessTokenEnc : String
  refreshTokenEnc : Option String
  expiresAt : ℤ
  deriving DecidableEq, Repr

/-- The encrypted columns of a row of `pi_semantic_dispatches`. -/
structure PiDispatch where
  dispatchIncarnation : String
  capabilityEnc : String
  promptEnc : String
  deriving DecidableEq, Repr

/-- A row of `execution_credentials`. -/
structure ExecutionCredential where
  id : String
  userId : String
  credentialKey : String
  secretEnc : String
  createdAt : ℤ
  updatedAt : ℤ
  deriving DecidableEq, Repr

/-- Credentials are unique for a user. -/
def ExecutionCredential.key (c : ExecutionCredential) : String × String :=
  (c.userId, c.credentialKey)

/-- The encrypted column of a row of `hosted_execution_runs`. -/
structure WorkerToken where
  objectiveId : String
  ownerUserId : String
  workerTokenEnc : String
  deriving DecidableEq, Repr

/-- The encrypted column of a row of `hosted_decision_deliveries`. -/
structure DecisionDelivery where
  deliveryId : String
  answerEnc : String
  answerSha256 : String
  deriving DecidableEq, Repr

/-- The tables with encrypted columns. -/
structure Secrets where
  oauthCredentials : Table OauthCredential.id
  dispatches : Table PiDispatch.dispatchIncarnation
  executionCredentials : Table ExecutionCredential.key
  workerTokens : Table WorkerToken.objectiveId
  deliveries : Table DecisionDelivery.deliveryId
  deriving DecidableEq

/-- The tables of a new database. -/
def Secrets.initial : Secrets where
  oauthCredentials := .empty
  dispatches := .empty
  executionCredentials := .empty
  workerTokens := .empty
  deliveries := .empty

/-- An encrypted column of a row. -/
inductive SecretCell where
  | accessToken (id : String)
  | refreshToken (id : String)
  | capability (incarnation : String)
  | prompt (incarnation : String)
  | executionCredential (userId credentialKey : String)
  | workerToken (objectiveId : String)
  | decisionAnswer (deliveryId : String)
  deriving DecidableEq, Repr

/-- The rewriting knows the column. -/
def SecretCell.rewritten : SecretCell → Bool
  | .accessToken _ | .refreshToken _ | .capability _ | .prompt _ => true
  | .executionCredential _ _ | .workerToken _ | .decisionAnswer _ => false

/-- The value that is stored in a column of a row. -/
def Secrets.value (db : Secrets) : SecretCell → Option String
  | .accessToken id => (db.oauthCredentials.find? id).map (·.accessTokenEnc)
  | .refreshToken id => (db.oauthCredentials.find? id).bind (·.refreshTokenEnc)
  | .capability incarnation => (db.dispatches.find? incarnation).map (·.capabilityEnc)
  | .prompt incarnation => (db.dispatches.find? incarnation).map (·.promptEnc)
  | .executionCredential userId credentialKey =>
    (db.executionCredentials.find? (userId, credentialKey)).map (·.secretEnc)
  | .workerToken objectiveId => (db.workerTokens.find? objectiveId).map (·.workerTokenEnc)
  | .decisionAnswer deliveryId => (db.deliveries.find? deliveryId).map (·.answerEnc)

/-- `CredentialRewriteReport` -/
structure CredentialRewriteReport where
  scanned : ℕ
  rewritten : ℕ
  deriving DecidableEq, Repr

/-- `MAX_ROTATION_ROWS` -/
def maxRotationRows : ℕ := 1000

section Rewriting

/-- What a rewriting does to a value of a column. -/
abbrev SecretTransform := SecretCell → String → Except SecretFailure String

/-- A value is transformed unless it is empty. -/
def transformValue (transform : SecretTransform) (cell : SecretCell) (value : String) :
    Except SecretFailure String :=
  if value = "" then .ok value else transform cell value

/-- A column that may be null. -/
def transformOptional (transform : SecretTransform) (cell : SecretCell) :
    Option String → Except SecretFailure (Option String)
  | some value => (transformValue transform cell value).map some
  | none => .ok none

/-- The columns of a credential, transformed. -/
def rewriteCredential (transform : SecretTransform) (c : OauthCredential) :
    Except SecretFailure OauthCredential := do
  let access ← transform (.accessToken c.id) c.accessTokenEnc
  let refresh ← transformOptional transform (.refreshToken c.id) c.refreshTokenEnc
  return { c with accessTokenEnc := access, refreshTokenEnc := refresh }

/-- The columns of a dispatch, transformed. -/
def rewriteDispatch (transform : SecretTransform) (d : PiDispatch) :
    Except SecretFailure PiDispatch := do
  let capability ← transformValue transform (.capability d.dispatchIncarnation) d.capabilityEnc
  let prompt ← transformValue transform (.prompt d.dispatchIncarnation) d.promptEnc
  return { d with capabilityEnc := capability, promptEnc := prompt }

/-- `UPDATE oauth_credentials SET access_token_enc, refresh_token_enc` -/
def setCredential (new c : OauthCredential) : OauthCredential :=
  { c with
    accessTokenEnc := new.accessTokenEnc
    refreshTokenEnc := new.refreshTokenEnc }

/-- `UPDATE pi_semantic_dispatches SET capability_enc, prompt_enc` -/
def setDispatch (new d : PiDispatch) : PiDispatch :=
  { d with
    capabilityEnc := new.capabilityEnc
    promptEnc := new.promptEnc }

/-- A dispatch that has something to rewrite. -/
def PiDispatch.live (d : PiDispatch) : Bool := d.capabilityEnc ≠ "" ∨ d.promptEnc ≠ ""

/-- `_rewrite_oauth_credentials`: transform what two tables have of encrypted values, within a limit
of rows, in one transaction. -/
def rewriteOauthCredentials (initDb : Except SecretFailure Unit) (transform : SecretTransform)
    (limit : ℕ) (apply : Bool) (db : Secrets) :
    Except SecretFailure (CredentialRewriteReport × Secrets) := do
  raiseIf (limit < 1 ∨ maxRotationRows < limit) (.rotation "limit must be between 1 and 1000")
  initDb
  let rows := db.oauthCredentials.rows.take (limit + 1)
  let remaining := limit + 1 - rows.length
  let piRows := (db.dispatches.rows.filter (·.live)).take remaining
  let scanned := rows.length + piRows.length
  raiseIf (limit < scanned)
    (.rotation ("credential rewrite exceeds the bounded limit of " ++ toString limit ++ " rows"))
  let updates ← rewrites (rewriteCredential transform) rows
  let piUpdates ← rewrites (rewriteDispatch transform) piRows
  let report := { scanned, rewritten := updates.length + piUpdates.length }
  if apply = true then
    let oauthCredentials := db.oauthCredentials.writeAll setCredential (fun _ _ => rfl) updates
    let dispatches := db.dispatches.writeAll setDispatch (fun _ _ => rfl) piUpdates
    return (report, { db with oauthCredentials, dispatches })
  else return (report, db)

end Rewriting

section Rotation

variable {Key : Type} (rules : SecretRules Key)

/-- The rotation of a value, with what is drawn for its column. -/
def rotation (env : SecretEnvironment) (draws : SecretCell → ℕ) : SecretTransform :=
  fun cell value => rotateEncryptedToken rules env value (draws cell)

/-- `rotate_oauth_credentials` -/
def rotateOauthCredentials (env : SecretEnvironment) (draws : SecretCell → ℕ) (limit : ℕ)
    (apply : Bool) (db : Secrets) : Except SecretFailure (CredentialRewriteReport × Secrets) :=
  rewriteOauthCredentials ((loadSecretSettings rules env).map fun _ => ())
    (rotation rules env draws)
    limit apply db

end Rotation

section Scan

variable {transform : SecretTransform} {initDb : Except SecretFailure Unit} {limit : ℕ}
  {db db' : Secrets} {report : CredentialRewriteReport}

/-- A rewriting that returns has scanned every row, and it writes when it applies. -/
theorem rewriteOauthCredentials_eq_ok {apply : Bool}
    (h : rewriteOauthCredentials initDb transform limit apply db = .ok (report, db')) :
    initDb = .ok () ∧ ∃ updates piUpdates,
      rewrites (rewriteCredential transform) (db.oauthCredentials.rows.filter fun _ => true) =
        .ok updates ∧
      rewrites (rewriteDispatch transform) (db.dispatches.rows.filter (·.live)) = .ok piUpdates ∧
      report.rewritten = updates.length + piUpdates.length ∧
      db' = if apply = true then
        { db with
          oauthCredentials := db.oauthCredentials.writeAll setCredential (fun _ _ => rfl) updates
          dispatches := db.dispatches.writeAll setDispatch (fun _ _ => rfl) piUpdates }
        else db := by
  simp only [rewriteOauthCredentials, bind_eq_ok, raiseIf_eq_ok, exists_const, not_lt] at h
  obtain ⟨-, u, hinit, hscanned, updates, hupdates, piUpdates, hpiUpdates, h⟩ := h
  -- The limit was not exceeded, so nothing was cut off.
  have hrows : db.oauthCredentials.rows.take (limit + 1) = db.oauthCredentials.rows := by
    refine List.take_of_length_le ?_
    rw [List.length_take] at hscanned
    omega
  rw [hrows] at hupdates hpiUpdates hscanned
  have hpiRows : (db.dispatches.rows.filter (·.live)).take
      (limit + 1 - db.oauthCredentials.rows.length) = db.dispatches.rows.filter (·.live) := by
    refine List.take_of_length_le ?_
    rw [List.length_take] at hscanned
    omega
  rw [hpiRows] at hpiUpdates
  refine ⟨hinit, updates, piUpdates, ?_, hpiUpdates, ?_⟩
  · rw [List.filter_true]
    exact hupdates
  · by_cases happly : apply = true
    · rw [if_pos happly] at h ⊢
      simp only [pure_eq_ok, Prod.mk.injEq] at h
      exact ⟨by rw [← h.1], h.2.symm⟩
    · rw [if_neg happly] at h ⊢
      simp only [pure_eq_ok, Prod.mk.injEq] at h
      exact ⟨by rw [← h.1], h.2.symm⟩

/-- A credential is transformed column by column. -/
theorem rewriteCredential_eq_ok {c c' : OauthCredential}
    (h : rewriteCredential transform c = .ok c') :
    c'.id = c.id ∧ setCredential c' c = c' ∧
      transform (.accessToken c.id) c.accessTokenEnc = .ok c'.accessTokenEnc ∧
      (c.refreshTokenEnc = none ∧ c'.refreshTokenEnc = none ∨
        ∃ token token', c.refreshTokenEnc = some token ∧ c'.refreshTokenEnc = some token' ∧
          transformValue transform (.refreshToken c.id) token = .ok token') := by
  simp only [rewriteCredential, bind_eq_ok, pure_eq_ok] at h
  obtain ⟨access, haccess, refresh, hrefresh, rfl⟩ := h
  refine ⟨rfl, rfl, haccess, ?_⟩
  cases htoken : c.refreshTokenEnc with
  | none =>
    rw [htoken] at hrefresh
    exact .inl ⟨rfl, (Except.ok.inj hrefresh).symm⟩
  | some token =>
    rw [htoken, transformOptional] at hrefresh
    cases htransform : transformValue transform (.refreshToken c.id) token with
    | error e => simp [htransform, Except.map] at hrefresh
    | ok token' =>
      rw [htransform] at hrefresh
      exact .inr ⟨token, token', rfl, (Except.ok.inj hrefresh).symm, htransform⟩

/-- A dispatch is transformed column by column. -/
theorem rewriteDispatch_eq_ok {d d' : PiDispatch} (h : rewriteDispatch transform d = .ok d') :
    d'.dispatchIncarnation = d.dispatchIncarnation ∧ setDispatch d' d = d' ∧
      transformValue transform (.capability d.dispatchIncarnation) d.capabilityEnc =
        .ok d'.capabilityEnc ∧
      transformValue transform (.prompt d.dispatchIncarnation) d.promptEnc = .ok d'.promptEnc := by
  simp only [rewriteDispatch, bind_eq_ok, pure_eq_ok] at h
  obtain ⟨capability, hcapability, prompt, hprompt, rfl⟩ := h
  exact ⟨rfl, rfl, hcapability, hprompt⟩

/-- A dispatch with nothing to rewrite is kept. -/
theorem rewriteDispatch_of_not_live {d : PiDispatch} (h : d.live = false) :
    rewriteDispatch transform d = .ok d := by
  have hempty : d.capabilityEnc = "" ∧ d.promptEnc = "" := by
    simpa [PiDispatch.live, not_or] using h
  obtain ⟨incarnation, capability, prompt⟩ := d
  obtain ⟨rfl, rfl⟩ := hempty
  rfl

end Scan

section Values

variable {Key : Type} {rules : SecretRules Key} {env : SecretEnvironment}
  {settings : SecretSettings Key} {draws : SecretCell → ℕ} {limit : ℕ} {db db' : Secrets}
  {report : CredentialRewriteReport}

/-- A transformed value is the rotated one, empty or not. -/
theorem rotate_of_transformValue {cell : SecretCell} {value value' : String}
    (h : transformValue (rotation rules env draws) cell value = .ok value') :
    rotateEncryptedToken rules env value (draws cell) = .ok value' := by
  unfold transformValue at h
  split at h
  · next hempty =>
    rw [rotateEncryptedToken, if_pos hempty, ← hempty]
    exact h
  · exact h

/-- A rotation that returns has loaded the settings. -/
theorem rotateOauthCredentials_settings {apply : Bool}
    (h : rotateOauthCredentials rules env draws limit apply db = .ok (report, db')) :
    ∃ settings, loadSecretSettings rules env = .ok settings := by
  obtain ⟨hinit, -⟩ := rewriteOauthCredentials_eq_ok h
  cases hload : loadSecretSettings rules env with
  | error e => simp [hload, Except.map] at hinit
  | ok settings => exact ⟨settings, rfl⟩

/-- What a rotation does to a column: a value that the rewriting knows is rotated, the others
stay. -/
theorem rotate_value (h : rotateOauthCredentials rules env draws limit true db = .ok (report, db'))
    (cell : SecretCell) :
    db.value cell = none ∧ db'.value cell = none ∨
      ∃ value value', db.value cell = some value ∧ db'.value cell = some value' ∧
        if cell.rewritten = true then
          rotateEncryptedToken rules env value (draws cell) = .ok value'
        else value' = value := by
  obtain ⟨-, updates, piUpdates, hupdates, hpiUpdates, -, rfl⟩ := rewriteOauthCredentials_eq_ok h
  have hcredential := Table.find?_rewritten setCredential (fun _ _ => rfl)
    (fun _ _ h => (rewriteCredential_eq_ok h).1) (fun _ _ h => (rewriteCredential_eq_ok h).2.1)
    (fun _ h => absurd h (by simp)) hupdates
  have hdispatch := Table.find?_rewritten setDispatch (fun _ _ => rfl)
    (fun _ _ h => (rewriteDispatch_eq_ok h).1) (fun _ _ h => (rewriteDispatch_eq_ok h).2.1)
    (fun _ h => rewriteDispatch_of_not_live h) hpiUpdates
  have hkept : ∀ stored : Option String, stored = none ∧ stored = none ∨
      ∃ value value', stored = some value ∧ stored = some value' ∧ value' = value := by
    intro stored
    cases stored with
    | none => exact .inl ⟨rfl, rfl⟩
    | some value => exact .inr ⟨value, value, rfl, rfl, rfl⟩
  cases cell with
  | accessToken id =>
    rcases hcredential id with ⟨hnone, hnone'⟩ | ⟨c, c', hc, hc', hrewrite⟩
    · exact .inl ⟨by simp [Secrets.value, hnone], by simp [Secrets.value, hnone']⟩
    · obtain rfl := (Table.mem_of_find? hc).2
      exact .inr ⟨c.accessTokenEnc, c'.accessTokenEnc, by simp [Secrets.value, hc],
        by simp [Secrets.value, hc'], (rewriteCredential_eq_ok hrewrite).2.2.1⟩
  | refreshToken id =>
    rcases hcredential id with ⟨hnone, hnone'⟩ | ⟨c, c', hc, hc', hrewrite⟩
    · exact .inl ⟨by simp [Secrets.value, hnone], by simp [Secrets.value, hnone']⟩
    · obtain rfl := (Table.mem_of_find? hc).2
      rcases (rewriteCredential_eq_ok hrewrite).2.2.2 with ⟨hnull, hnull'⟩ |
        ⟨token, token', htoken, htoken', htransform⟩
      · exact .inl ⟨by simp [Secrets.value, hc, hnull], by simp [Secrets.value, hc', hnull']⟩
      · exact .inr ⟨token, token', by simp [Secrets.value, hc, htoken],
          by simp [Secrets.value, hc', htoken'], rotate_of_transformValue htransform⟩
  | capability incarnation =>
    rcases hdispatch incarnation with ⟨hnone, hnone'⟩ | ⟨d, d', hd, hd', hrewrite⟩
    · exact .inl ⟨by simp [Secrets.value, hnone], by simp [Secrets.value, hnone']⟩
    · obtain rfl := (Table.mem_of_find? hd).2
      exact .inr ⟨d.capabilityEnc, d'.capabilityEnc, by simp [Secrets.value, hd],
        by simp [Secrets.value, hd'],
        rotate_of_transformValue (rewriteDispatch_eq_ok hrewrite).2.2.1⟩
  | prompt incarnation =>
    rcases hdispatch incarnation with ⟨hnone, hnone'⟩ | ⟨d, d', hd, hd', hrewrite⟩
    · exact .inl ⟨by simp [Secrets.value, hnone], by simp [Secrets.value, hnone']⟩
    · obtain rfl := (Table.mem_of_find? hd).2
      exact .inr ⟨d.promptEnc, d'.promptEnc, by simp [Secrets.value, hd],
        by simp [Secrets.value, hd'],
        rotate_of_transformValue (rewriteDispatch_eq_ok hrewrite).2.2.2⟩
  | executionCredential userId credentialKey => exact hkept _
  | workerToken objectiveId => exact hkept _
  | decisionAnswer deliveryId => exact hkept _

/-- A rotation of columns that decrypt under the current key rewrites nothing. -/
theorem rotate_again (hload : loadSecretSettings rules env = .ok settings)
    (hcurrent : ∀ cell value, cell.rewritten = true → db.value cell = some value →
      ∃ plain, decryptToken rules env value = .ok plain)
    (h : rotateOauthCredentials rules env draws limit true db = .ok (report, db')) :
    report.rewritten = 0 ∧ db' = db := by
  obtain ⟨-, updates, piUpdates, hupdates, hpiUpdates, hreport, hdb⟩ :=
    rewriteOauthCredentials_eq_ok h
  have hcell : ∀ cell value value', cell.rewritten = true → db.value cell = some value →
      rotateEncryptedToken rules env value (draws cell) = .ok value' → value' = value := by
    intro cell value value' hrewritten hvalue hrotate
    obtain ⟨plain, hplain⟩ := hcurrent cell value hrewritten hvalue
    exact rotateEncryptedToken_current hload hplain hrotate
  have hnil : updates = [] := by
    refine rewrites_eq_nil hupdates fun c hc c' hrewrite => ?_
    have hfound := Table.find?_of_mem (List.mem_filter.mp hc).1
    obtain ⟨-, hset, haccess, hrefresh⟩ := rewriteCredential_eq_ok hrewrite
    have hsame := hcell (.accessToken c.id) _ _ rfl (by simp [Secrets.value, hfound]) haccess
    have hsame' : c'.refreshTokenEnc = c.refreshTokenEnc := by
      rcases hrefresh with ⟨hnull, hnull'⟩ | ⟨token, token', htoken, htoken', htransform⟩
      · rw [hnull, hnull']
      · rw [htoken, htoken', hcell (.refreshToken c.id) token token' rfl
          (by simp [Secrets.value, hfound, htoken]) (rotate_of_transformValue htransform)]
    rw [← hset, setCredential, hsame, hsame']
  have hpiNil : piUpdates = [] := by
    refine rewrites_eq_nil hpiUpdates fun d hd d' hrewrite => ?_
    have hfound := Table.find?_of_mem (List.mem_filter.mp hd).1
    obtain ⟨-, hset, hcapability, hprompt⟩ := rewriteDispatch_eq_ok hrewrite
    have hsame := hcell (.capability d.dispatchIncarnation) _ _ rfl
      (by simp [Secrets.value, hfound]) (rotate_of_transformValue hcapability)
    have hsame' := hcell (.prompt d.dispatchIncarnation) _ _ rfl
      (by simp [Secrets.value, hfound]) (rotate_of_transformValue hprompt)
    rw [← hset, setDispatch, hsame, hsame']
  rw [hnil, hpiNil] at hreport hdb
  exact ⟨hreport, hdb⟩

end Values

end Magistrate
