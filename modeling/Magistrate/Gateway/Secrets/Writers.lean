import Magistrate.Gateway.Secrets.Rotation

/-!
# What is rotated, and what is not

Everything that writes an encrypted column encrypts it under the current key.
A rotation leads each column that it knows to the current key; a database is
rotated exactly when the other columns are under the current key already.
-/

namespace Magistrate

section Writers

variable {Key : Type} (rules : SecretRules Key) (env : SecretEnvironment)

/-- `upsert_connected_account`: the credential of a connected account. -/
def upsertConnectedAccount (credentialId accountId accessToken : String) (expiresAt : ℤ) (draw : ℕ)
    (db : Secrets) : Except SecretFailure Secrets :=
  if accessToken = "" then .ok db
  else do
    let access ← encryptToken rules env accessToken draw
    let row : OauthCredential :=
      { id := credentialId
        connectedAccountId := accountId
        accessTokenEnc := access
        refreshTokenEnc := some ""
        expiresAt }
    let oauthCredentials := (db.oauthCredentials.insertOrIgnore row).update credentialId fun c =>
      { c with accessTokenEnc := access }
    return { db with oauthCredentials }

/-- `disconnect_account` -/
def disconnectAccount (accountId : String) (db : Secrets) : Secrets :=
  { db with oauthCredentials :=
      db.oauthCredentials.removeWhere fun c => c.connectedAccountId = accountId }

/-- `save_execution_credential` -/
def saveExecutionCredential (userId credentialKey secret : String) (now : ℤ) (draw : ℕ)
    (db : Secrets) : Except SecretFailure Secrets := do
  raiseIf (credentialKey = "" ∨ secret = "") .valueError
  let secretEnc ← encryptToken rules env secret draw
  let row : ExecutionCredential :=
    { id := userId ++ "_" ++ credentialKey
      userId
      credentialKey
      secretEnc
      createdAt := now
      updatedAt := now }
  -- An id that another user's key makes too is taken.
  raiseIf (db.executionCredentials.rows.any fun c => c.id = row.id ∧
    c.key ≠ row.key) .integrityError
  let executionCredentials := (db.executionCredentials.insertOrIgnore row).update row.key
    (fun c => { c with secretEnc, updatedAt := now }) (fun _ => rfl)
  return { db with executionCredentials }

/-- `delete_execution_credential` -/
def deleteExecutionCredential (userId credentialKey : String) (db : Secrets) : Secrets :=
  { db with executionCredentials :=
      db.executionCredentials.removeWhere fun c => c.userId = userId ∧
      c.credentialKey = credentialKey }

/-- The insertion of a dispatch, with its capability and its prompt. -/
def prepareDispatch (incarnation capability prompt : String) (draws : ℕ × ℕ) (db : Secrets) :
    Except SecretFailure Secrets := do
  let capabilityEnc ← encryptToken rules env capability draws.1
  let promptEnc ← encryptToken rules env prompt draws.2
  raiseIf (db.dispatches.find? incarnation ≠ none) .integrityError
  let row : PiDispatch := { dispatchIncarnation := incarnation, capabilityEnc, promptEnc }
  return { db with dispatches := db.dispatches.insertOrIgnore row }

/-- `mark_pi_adapter_acknowledged`: the secrets of a dispatch are erased. -/
def acknowledgeDispatch (incarnation : String) (db : Secrets) : Secrets :=
  { db with dispatches := db.dispatches.update incarnation fun d =>
      { d with capabilityEnc := "", promptEnc := "" } }

/-- The insertion of a hosted run, with the token of its worker. -/
def queueWorker (objectiveId owner workerToken : String) (draw : ℕ) (db : Secrets) :
    Except SecretFailure Secrets := do
  let workerTokenEnc ← encryptToken rules env workerToken draw
  let row : WorkerToken := { objectiveId, ownerUserId := owner, workerTokenEnc }
  return { db with workerTokens := db.workerTokens.insertOrIgnore row }

/-- `mark_terminal` and `retire_owner`: the token of a worker is erased. -/
def retireWorker (objectiveId : String) (db : Secrets) : Secrets :=
  { db with workerTokens := db.workerTokens.update objectiveId fun t => { t
    with workerTokenEnc := "" } }

/-- `answer_decision`: the delivery of an answer. -/
def deliverAnswer (deliveryId answer answerSha256 : String) (draw : ℕ) (db : Secrets) :
    Except SecretFailure Secrets := do
  let answerEnc ← encryptToken rules env answer draw
  let row : DecisionDelivery := { deliveryId, answerEnc, answerSha256 }
  return { db with deliveries := db.deliveries.insertOrIgnore row }

end Writers

/-- What changes an encrypted column. -/
inductive SecretStep where
  | connect (credentialId accountId accessToken : String) (expiresAt : ℤ) (draw : ℕ)
  | disconnect (accountId : String)
  | saveCredential (userId credentialKey secret : String) (now : ℤ) (draw : ℕ)
  | deleteCredential (userId credentialKey : String)
  | prepare (incarnation capability prompt : String) (draws : ℕ × ℕ)
  | acknowledge (incarnation : String)
  | queue (objectiveId owner workerToken : String) (draw : ℕ)
  | retire (objectiveId : String)
  | deliver (deliveryId answer answerSha256 : String) (draw : ℕ)
  | rotate (draws : SecretCell → ℕ) (limit : ℕ) (apply : Bool)

/-- The tables after a step in an environment. -/
def secretStep {Key : Type} (rules : SecretRules Key) (db : Secrets) :
    SecretEnvironment × SecretStep → Secrets
  | (env, .connect credentialId accountId accessToken expiresAt draw) =>
    commit (upsertConnectedAccount rules env credentialId accountId accessToken
      expiresAt draw db) db
  | (_, .disconnect accountId) => disconnectAccount accountId db
  | (env, .saveCredential userId credentialKey secret now draw) =>
    commit (saveExecutionCredential rules env userId credentialKey secret now draw db) db
  | (_, .deleteCredential userId credentialKey) => deleteExecutionCredential userId credentialKey db
  | (env, .prepare incarnation capability prompt draws) =>
    commit (prepareDispatch rules env incarnation capability prompt draws db) db
  | (_, .acknowledge incarnation) => acknowledgeDispatch incarnation db
  | (env, .queue objectiveId owner workerToken draw) =>
    commit (queueWorker rules env objectiveId owner workerToken draw db) db
  | (_, .retire objectiveId) => retireWorker objectiveId db
  | (env, .deliver deliveryId answer answerSha256 draw) =>
    commit (deliverAnswer rules env deliveryId answer answerSha256 draw db) db
  | (env, .rotate draws limit apply) =>
    commit (stateOf (rotateOauthCredentials rules env draws limit apply db)) db

section Written

variable {Key : Type} {rules : SecretRules Key} {env : SecretEnvironment} {db : Secrets}
  {value : String}

/-- An encrypted token decrypts under the current key. -/
theorem decryptToken_encryptToken {plain : String} {draw : ℕ}
    (h : encryptToken rules env plain draw = .ok value) :
    decryptToken rules env value = .ok plain := by
  unfold encryptToken at h
  split at h
  · next hempty =>
    obtain rfl : "" = value := Except.ok.inj h
    rw [decryptToken, if_pos rfl, hempty]
  · simp only [bind_eq_ok, pure_eq_ok] at h
    obtain ⟨settings, hload, rfl⟩ := h
    exact decryptToken_encryptWith hload plain draw

/-- The row that an upsert leaves under a key was there, or it has the upserted columns. -/
theorem find?_upsert {ρ κ : Type} [DecidableEq κ] {key : ρ → κ} {t : Table key} {row r : ρ} {k : κ}
    {f : ρ → ρ} (hf : ∀ r, key (f r) = key r)
    (h : ((t.insertOrIgnore row).update (key row) f hf).find? k = some r) :
    t.find? k = some r ∨ ∃ s, (t.find? k = some s ∨ s = row) ∧ r = f s := by
  rw [Table.find?_update, Option.map_eq_some_iff] at h
  obtain ⟨s, hs, rfl⟩ := h
  rw [Table.find?_insertOrIgnore, Option.or_eq_some_iff] at hs
  split
  · refine .inr ⟨s, ?_, rfl⟩
    rcases hs with hs | ⟨-, hs⟩
    · exact .inl hs
    · split at hs
      · exact .inr (Option.some.inj hs).symm
      · simp at hs
  · next hk =>
    rcases hs with hs | ⟨-, hs⟩
    · exact .inl hs
    · rw [if_neg fun he => hk he.symm] at hs
      simp at hs

/-- The row that an insertion leaves under a key was there, or it is the inserted one. -/
theorem find?_inserted {ρ κ : Type} [DecidableEq κ] {key : ρ → κ} {t : Table key}
    {row r : ρ} {k : κ}
    (h : (t.insertOrIgnore row).find? k = some r) : t.find? k = some r ∨ r = row := by
  rw [Table.find?_insertOrIgnore, Option.or_eq_some_iff] at h
  rcases h with h | ⟨-, h⟩
  · exact .inl h
  · split at h
    · exact .inr (Option.some.inj h).symm
    · simp at h

/-- The row under a key is what it was, or updated. -/
theorem find?_updated {ρ κ : Type} [DecidableEq κ] {key : ρ → κ} {t : Table key} {r : ρ} {k l : κ}
    {f : ρ → ρ} (hf : ∀ r, key (f r) = key r) (h : (t.update k f hf).find? l = some r) :
    ∃ s, t.find? l = some s ∧ (r = f s ∨ r = s) := by
  rw [Table.find?_update, Option.map_eq_some_iff] at h
  obtain ⟨s, hs, rfl⟩ := h
  refine ⟨s, hs, ?_⟩
  split
  · exact .inl rfl
  · exact .inr rfl

/-- An empty value decrypts. -/
theorem decryptToken_empty : decryptToken rules env "" = .ok "" := if_pos rfl

/-- A step leaves a value in its column, or it writes one that decrypts under the current key. -/
theorem secretStep_value {op : SecretStep} {cell : SecretCell}
    (h : (secretStep rules db (env, op)).value cell = some value) :
    db.value cell = some value ∨ ∃ plain, decryptToken rules env value = .ok plain := by
  have hcommit : ∀ result : Except SecretFailure Secrets,
      (commit result db).value cell = some value →
      (∀ db', result = .ok db' → db'.value cell = some value →
        db.value cell = some value ∨ ∃ plain, decryptToken rules env value = .ok plain) →
      db.value cell = some value ∨ ∃ plain, decryptToken rules env value = .ok plain := by
    intro result hvalue hok
    cases result with
    | error e => exact .inl hvalue
    | ok db' => exact hok db' rfl hvalue
  cases op with
  | connect credentialId accountId accessToken expiresAt draw =>
    refine hcommit _ h fun db' hok hvalue => ?_
    unfold upsertConnectedAccount at hok
    split at hok
    · obtain rfl : db = db' := Except.ok.inj hok
      exact .inl hvalue
    · simp only [bind_eq_ok, pure_eq_ok] at hok
      obtain ⟨access, haccess, rfl⟩ := hok
      have hplain := decryptToken_encryptToken haccess
      cases cell with
      | accessToken id =>
        obtain ⟨c, hc, rfl⟩ := Option.map_eq_some_iff.mp hvalue
        rcases find?_upsert (by intro; rfl) hc with hold | ⟨s, -, rfl⟩
        · exact .inl (Option.map_eq_some_iff.mpr ⟨c, hold, rfl⟩)
        · exact .inr ⟨accessToken, hplain⟩
      | refreshToken id =>
        obtain ⟨c, hc, hrefresh⟩ := Option.bind_eq_some_iff.mp hvalue
        rcases find?_upsert (by intro; rfl) hc with hold | ⟨s, hold | rfl, rfl⟩
        · exact .inl (Option.bind_eq_some_iff.mpr ⟨c, hold, hrefresh⟩)
        · exact .inl (Option.bind_eq_some_iff.mpr ⟨s, hold, hrefresh⟩)
        · exact .inr ⟨"", Option.some.inj hrefresh ▸ decryptToken_empty⟩
      | _ => exact .inl hvalue
  | disconnect accountId =>
    left
    cases cell with
    | accessToken id =>
      obtain ⟨c, hc, rfl⟩ := Option.map_eq_some_iff.mp h
      exact Option.map_eq_some_iff.mpr ⟨c, Table.find?_removeWhere hc, rfl⟩
    | refreshToken id =>
      obtain ⟨c, hc, hrefresh⟩ := Option.bind_eq_some_iff.mp h
      exact Option.bind_eq_some_iff.mpr ⟨c, Table.find?_removeWhere hc, hrefresh⟩
    | _ => exact h
  | saveCredential userId credentialKey secret now draw =>
    refine hcommit _ h fun db' hok hvalue => ?_
    simp only [saveExecutionCredential, bind_eq_ok, raiseIf_eq_ok, pure_eq_ok, exists_const] at hok
    obtain ⟨-, secretEnc, hsecret, -, rfl⟩ := hok
    cases cell with
    | executionCredential user key =>
      obtain ⟨c, hc, rfl⟩ := Option.map_eq_some_iff.mp hvalue
      rcases find?_upsert (by intro; rfl) hc with hold | ⟨s, -, rfl⟩
      · exact .inl (Option.map_eq_some_iff.mpr ⟨c, hold, rfl⟩)
      · exact .inr ⟨secret, decryptToken_encryptToken hsecret⟩
    | _ => exact .inl hvalue
  | deleteCredential userId credentialKey =>
    left
    cases cell with
    | executionCredential user key =>
      obtain ⟨c, hc, rfl⟩ := Option.map_eq_some_iff.mp h
      exact Option.map_eq_some_iff.mpr ⟨c, Table.find?_removeWhere hc, rfl⟩
    | _ => exact h
  | prepare incarnation capability prompt draws =>
    refine hcommit _ h fun db' hok hvalue => ?_
    simp only [prepareDispatch, bind_eq_ok, raiseIf_eq_ok, pure_eq_ok, exists_const] at hok
    obtain ⟨capabilityEnc, hcapability, promptEnc, hprompt, -, rfl⟩ := hok
    cases cell with
    | capability i =>
      obtain ⟨d, hd, rfl⟩ := Option.map_eq_some_iff.mp hvalue
      rcases find?_inserted hd with hold | rfl
      · exact .inl (Option.map_eq_some_iff.mpr ⟨d, hold, rfl⟩)
      · exact .inr ⟨capability, decryptToken_encryptToken hcapability⟩
    | prompt i =>
      obtain ⟨d, hd, rfl⟩ := Option.map_eq_some_iff.mp hvalue
      rcases find?_inserted hd with hold | rfl
      · exact .inl (Option.map_eq_some_iff.mpr ⟨d, hold, rfl⟩)
      · exact .inr ⟨prompt, decryptToken_encryptToken hprompt⟩
    | _ => exact .inl hvalue
  | acknowledge incarnation =>
    cases cell with
    | capability i =>
      obtain ⟨d, hd, rfl⟩ := Option.map_eq_some_iff.mp h
      obtain ⟨d', hd', rfl | rfl⟩ := find?_updated (by intro; rfl) hd
      · exact .inr ⟨"", decryptToken_empty⟩
      · exact .inl (Option.map_eq_some_iff.mpr ⟨_, hd', rfl⟩)
    | prompt i =>
      obtain ⟨d, hd, rfl⟩ := Option.map_eq_some_iff.mp h
      obtain ⟨d', hd', rfl | rfl⟩ := find?_updated (by intro; rfl) hd
      · exact .inr ⟨"", decryptToken_empty⟩
      · exact .inl (Option.map_eq_some_iff.mpr ⟨_, hd', rfl⟩)
    | _ => exact .inl h
  | queue objectiveId owner workerToken draw =>
    refine hcommit _ h fun db' hok hvalue => ?_
    simp only [queueWorker, bind_eq_ok, pure_eq_ok] at hok
    obtain ⟨tokenEnc, htoken, rfl⟩ := hok
    cases cell with
    | workerToken o =>
      obtain ⟨t, ht, rfl⟩ := Option.map_eq_some_iff.mp hvalue
      rcases find?_inserted ht with hold | rfl
      · exact .inl (Option.map_eq_some_iff.mpr ⟨t, hold, rfl⟩)
      · exact .inr ⟨workerToken, decryptToken_encryptToken htoken⟩
    | _ => exact .inl hvalue
  | retire objectiveId =>
    cases cell with
    | workerToken o =>
      obtain ⟨t, ht, rfl⟩ := Option.map_eq_some_iff.mp h
      obtain ⟨t', ht', rfl | rfl⟩ := find?_updated (by intro; rfl) ht
      · exact .inr ⟨"", decryptToken_empty⟩
      · exact .inl (Option.map_eq_some_iff.mpr ⟨_, ht', rfl⟩)
    | _ => exact .inl h
  | deliver deliveryId answer answerSha256 draw =>
    refine hcommit _ h fun db' hok hvalue => ?_
    simp only [deliverAnswer, bind_eq_ok, pure_eq_ok] at hok
    obtain ⟨answerEnc, hanswer, rfl⟩ := hok
    cases cell with
    | decisionAnswer d =>
      obtain ⟨row, hrow, rfl⟩ := Option.map_eq_some_iff.mp hvalue
      rcases find?_inserted hrow with hold | rfl
      · exact .inl (Option.map_eq_some_iff.mpr ⟨row, hold, rfl⟩)
      · exact .inr ⟨answer, decryptToken_encryptToken hanswer⟩
    | _ => exact .inl hvalue
  | rotate draws limit apply =>
    refine hcommit _ h fun db' hok hvalue => ?_
    obtain ⟨report, hrotate⟩ := stateOf_eq_ok.mp hok
    cases apply with
    | false =>
      obtain ⟨-, updates, piUpdates, -, -, -, rfl⟩ := rewriteOauthCredentials_eq_ok hrotate
      exact .inl hvalue
    | true =>
      obtain ⟨settings, hload⟩ := rotateOauthCredentials_settings hrotate
      rcases rotate_value hrotate cell with ⟨-, hnone⟩ | ⟨v, v', hv, hv', hcell⟩
      · simp [hnone] at hvalue
      · obtain rfl : v' = value := Option.some.inj (hv'.symm.trans hvalue)
        split at hcell
        · obtain ⟨plain, -, hplain⟩ :=
            rotateEncryptedToken_decrypts hload (fun _ => none) hcell
          exact .inr ⟨plain, hplain⟩
        · exact .inl (hcell ▸ hv)

/-- The current version of an environment stands for its key in a key ring. -/
def SecretEnvironment.On (rules : SecretRules Key) (ring : KeyRing Key) (env : SecretEnvironment) :
    Prop :=
  ∀ settings, loadSecretSettings rules env = .ok settings →
    ring settings.version = some settings.fernet

/-- What the gateway writes under the keys of a ring has a plaintext under the ring. -/
theorem written_plaintext (ring : KeyRing Key) (steps : List (SecretEnvironment × SecretStep))
    (hon : ∀ s ∈ steps, s.1.On rules ring) (cell : SecretCell)
    (h : (run (secretStep rules) .initial steps).value cell = some value) :
    plaintext rules ring value ≠ none := by
  have hinv : ∀ cell value, (run (secretStep rules) .initial steps).value cell = some value →
      plaintext rules ring value ≠ none := by
    refine run_invariant (I := fun db : Secrets => ∀ cell value, db.value cell = some value →
      plaintext rules ring value ≠ none) (fun db s hdb hs => ?_) (runMeets_of_mem hon _) ?_
    · intro cell value hvalue
      rcases secretStep_value hvalue with hold | ⟨plain, hplain⟩
      · exact hdb cell value hold
      · unfold decryptToken at hplain
        unfold plaintext
        split at hplain
        · next hempty => simp [hempty]
        · next hne =>
          simp only [bind_eq_ok, raiseIf_eq_ok, exists_const, not_not] at hplain
          obtain ⟨settings, hload, ⟨version, payload⟩, hsplit, hversion, hdecrypt⟩ := hplain
          unfold decryptWith at hdecrypt
          split at hdecrypt
          · next plain' hplain' =>
            have hring := hs settings hload
            obtain rfl : version = settings.version := hversion
            rw [if_neg hne]
            simp only [hsplit, hring, Option.bind_some]
            exact Option.ne_none_iff_exists'.mpr ⟨plain', hplain'⟩
          · simp at hdecrypt
    · intro cell value hvalue
      cases cell <;> simp [Secrets.value, Secrets.initial] at hvalue
  exact hinv cell value h

end Written

/-- Every value that had a plaintext under a key ring decrypts to it under the current key alone. -/
def Rotated {Key : Type} (rules : SecretRules Key) (ring : KeyRing Key) (env : SecretEnvironment)
    (db db' : Secrets) : Prop :=
  ∀ cell value plain, db.value cell = some value → plaintext rules ring value = some plain →
    ∃ value', db'.value cell = some value' ∧ decryptToken rules env value' = .ok plain

/-- A rotation that applies leads every column to the current key exactly when each value of
`execution_credentials`, `hosted_execution_runs` and `hosted_decision_deliveries` is empty or
carries the current version already (or never had a plaintext). A second one rewrites nothing; one
that raises, or does not apply, changes nothing. -/
theorem key_rotation_complete {Key : Type} (rules : SecretRules Key) (env : SecretEnvironment)
    (older : KeyRing Key) (draws : SecretCell → ℕ) (limit : ℕ) (db : Secrets) :
    (∀ report db', rotateOauthCredentials rules env draws limit true db = .ok (report, db') →
      ∃ settings, loadSecretSettings rules env = .ok settings ∧
        (Rotated rules (settings.ring older) env db db' ↔
          ∀ cell value, cell.rewritten = false → db.value cell = some value →
            plaintext rules (settings.ring older) value ≠ none →
              value = "" ∨ versioned rules settings.version value = true) ∧
        ∀ draws' limit' report' db'',
          rotateOauthCredentials rules env draws' limit' true db' = .ok (report', db'') →
            report'.rewritten = 0 ∧ db'' = db') ∧
    secretStep rules db (env, .rotate draws limit false) = db ∧
    ∀ apply failure, rotateOauthCredentials rules env draws limit apply db = .error failure →
      secretStep rules db (env, .rotate draws limit apply) = db := by
  refine ⟨fun report db' h => ?_, ?_, fun apply failure h => ?_⟩
  · obtain ⟨settings, hload⟩ := rotateOauthCredentials_settings h
    refine ⟨settings, hload, ⟨fun hrotated cell value hleft hvalue hplain => ?_,
      fun hcurrent cell value plain hvalue hplain => ?_⟩, fun draws' limit' report' db'' h' => ?_⟩
    · -- A column that the rewriting leaves out keeps its value.
      obtain ⟨plain, hplain⟩ := Option.ne_none_iff_exists'.mp hplain
      obtain ⟨value', hvalue', hdecrypt⟩ := hrotated cell value plain hvalue hplain
      rcases rotate_value h cell with ⟨hnone, -⟩ | ⟨v, v', hv, hv', hcell⟩
      · simp [hnone] at hvalue
      · rw [hleft] at hcell
        obtain rfl : v = value := Option.some.inj (hv.symm.trans hvalue)
        obtain rfl : v' = value' := Option.some.inj (hv'.symm.trans hvalue')
        rw [if_neg (by simp)] at hcell
        exact (decryptToken_eq_ok_iff hload hplain).mp (hcell ▸ hdecrypt)
    · rcases rotate_value h cell with ⟨hnone, -⟩ | ⟨v, v', hv, hv', hcell⟩
      · simp [hnone] at hvalue
      · obtain rfl : v = value := Option.some.inj (hv.symm.trans hvalue)
        refine ⟨v', hv', ?_⟩
        split at hcell
        · obtain ⟨plain', hplain', hdecrypt⟩ := rotateEncryptedToken_decrypts hload older hcell
          rw [hplain] at hplain'
          rw [Option.some.inj hplain']
          exact hdecrypt
        · next hleft =>
          have hversion := hcurrent cell v (Bool.eq_false_iff.mpr hleft) hv (by simp [hplain])
          rw [hcell]
          exact (decryptToken_eq_ok_iff hload hplain).mpr hversion
    · refine rotate_again hload (fun cell value hrewritten hvalue => ?_) h'
      rcases rotate_value h cell with ⟨-, hnone⟩ | ⟨v, v', -, hv', hcell⟩
      · simp [hnone] at hvalue
      · obtain rfl : v' = value := Option.some.inj (hv'.symm.trans hvalue)
        rw [if_pos hrewritten] at hcell
        obtain ⟨plain, -, hdecrypt⟩ := rotateEncryptedToken_decrypts hload older hcell
        exact ⟨plain, hdecrypt⟩
  · refine commit_of (P := fun db' => db' = db) rfl fun db' hok => ?_
    obtain ⟨report, h⟩ := stateOf_eq_ok.mp hok
    obtain ⟨-, updates, piUpdates, -, -, -, hdb⟩ := rewriteOauthCredentials_eq_ok h
    exact hdb
  · rw [secretStep, h]
    rfl

section Sample

/-- A stand-in for Fernet: a token is the key, a dot and the plaintext. -/
def sampleRules : SecretRules String where
  isSpace c := c = ' '
  isDigit := Char.isDigit
  int digits := some (digits.foldl (fun n c => 10 * n + (c.toNat - 48)) 0)
  fernet := some
  encrypt key plain _ := key ++ "." ++ plain
  decrypt key payload :=
    if (key ++ ".").toList <+: payload.toList then
      some (String.ofList (payload.toList.drop (key ++ ".").toList.length))
    else none
  decrypt_encrypt key plain _ := by
    rw [String.toList_append (s := key ++ "."), if_pos (List.prefix_append _ _), List.drop_left,
      String.ofList_toList]
  encrypt_ne key plain _ := by simp
  colon := by decide

/-- A first key. -/
def firstEnvironment : SecretEnvironment where
  development := false
  ephemeralTestKey := ""
  secretKey := "AAAAAAAAAAAAAAAAAAAAAAAAAAAAAAAAAAAAAAAAAAA="
  secretKeyVersion := none
  previousSecretKey := ""
  previousSecretKeyVersion := ""
  keyRotationEnabled := false

/-- A second key, with the first one as the previous key. -/
def secondEnvironment : SecretEnvironment where
  development := false
  ephemeralTestKey := ""
  secretKey := "BBBBBBBBBBBBBBBBBBBBBBBBBBBBBBBBBBBBBBBBBBB="
  secretKeyVersion := some "v2"
  previousSecretKey := "AAAAAAAAAAAAAAAAAAAAAAAAAAAAAAAAAAAAAAAAAAA="
  previousSecretKeyVersion := "v1"
  keyRotationEnabled := true

/-- A provider credential that is saved under the first key. -/
def savedCredential : Secrets :=
  run (secretStep sampleRules) .initial
    [(firstEnvironment, .saveCredential "user" "provider" "secret" 0 0)]

/-- The second key. -/
def secondSettings : SecretSettings String where
  fernet := "BBBBBBBBBBBBBBBBBBBBBBBBBBBBBBBBBBBBBBBBBBB="
  version := "v2"
  previous := some ("v1", "AAAAAAAAAAAAAAAAAAAAAAAAAAAAAAAAAAAAAAAAAAA=")
  rotationEnabled := true

/-- A provider credential is left under the first key by a rotation to the second one. -/
theorem key_rotation_incomplete :
    loadSecretSettings sampleRules secondEnvironment = .ok secondSettings ∧
    ∃ report db', rotateOauthCredentials sampleRules secondEnvironment (fun _ => 0) 1000 true
        savedCredential = .ok (report, db') ∧
      ¬Rotated sampleRules (secondSettings.ring fun _ => none) secondEnvironment savedCredential
        db' := by
  refine ⟨by decide +kernel, ⟨0, 0⟩, savedCredential, ?_, fun hrotated => ?_⟩
  · decide +kernel
  · obtain ⟨value, hvalue, hdecrypt⟩ := hrotated (.executionCredential "user" "provider")
      "v1:AAAAAAAAAAAAAAAAAAAAAAAAAAAAAAAAAAAAAAAAAAA=.secret" "secret" (by decide +kernel)
      (by decide +kernel)
    have hstored : savedCredential.value (.executionCredential "user" "provider") =
      some "v1:AAAAAAAAAAAAAAAAAAAAAAAAAAAAAAAAAAAAAAAAAAA=.secret" := by decide +kernel
    obtain rfl := Option.some.inj (hstored.symm.trans hvalue)
    revert hdecrypt
    decide +kernel

/-- The saved credential has a plaintext under the ring of the second key. -/
theorem savedCredential_plaintext :
    plaintext sampleRules (secondSettings.ring fun _ => none)
      "v1:AAAAAAAAAAAAAAAAAAAAAAAAAAAAAAAAAAAAAAAAAAA=.secret" ≠ none := by
  refine written_plaintext (secondSettings.ring fun _ => none)
    [(firstEnvironment, .saveCredential "user" "provider" "secret" 0 0)] ?_
    (.executionCredential "user" "provider") (by decide)
  intro s hs settings hload
  obtain rfl := List.mem_singleton.mp hs
  have hfirst : (loadSecretSettings sampleRules firstEnvironment).toOption.map
      (fun settings => (settings.version, settings.fernet)) =
        some ("v1", "AAAAAAAAAAAAAAAAAAAAAAAAAAAAAAAAAAAAAAAAAAA=") := by decide
  have hsame : loadSecretSettings sampleRules firstEnvironment = .ok settings := hload
  rw [hsame] at hfirst
  obtain ⟨hversion, hfernet⟩ := Prod.mk.inj (Option.some.inj hfirst)
  rw [hversion, hfernet]
  decide

end Sample

end Magistrate
