import Magistrate.Core.Run

/-!
# Encrypted tokens

A token is stored as the version of its key, a colon and the ciphertext. Fernet
and what Python says of characters and digits are parameters; the settings are
read from the environment, with a current key and perhaps the previous one.
-/

namespace Magistrate

/-- What a call on secrets can raise. -/
inductive SecretFailure where
  | configuration (message : String)
  | decryption (message : String)
  | rotation (message : String)
  | valueError
  | integrityError
  deriving DecidableEq, Repr

/-- Fernet, and the text functions that the settings use. A token that a key has encrypted, with
what was drawn for it, decrypts under this key, and it is not empty; a colon is no digit. -/
structure SecretRules (Key : Type) where
  isSpace : Char → Bool
  isDigit : Char → Bool
  int : List Char → Option ℕ
  fernet : String → Option Key
  encrypt : Key → String → ℕ → String
  decrypt : Key → String → Option String
  decrypt_encrypt : ∀ key plain draw, decrypt key (encrypt key plain draw) = some plain
  encrypt_ne : ∀ key plain draw, encrypt key plain draw ≠ ""
  colon : isDigit ':' = false

/-- The environment of the settings. -/
structure SecretEnvironment where
  development : Bool
  ephemeralTestKey : String
  secretKey : String
  secretKeyVersion : Option String
  previousSecretKey : String
  previousSecretKeyVersion : String
  keyRotationEnabled : Bool
  deriving DecidableEq, Repr

/-- `_SecretSettings` -/
structure SecretSettings (Key : Type) where
  fernet : Key
  version : String
  previous : Option (String × Key)
  rotationEnabled : Bool
  deriving DecidableEq

section Settings

variable {Key : Type} (rules : SecretRules Key)

/-- `version.startswith('v')` and `version[1:].isdigit()`. -/
def versionText (version : String) : Bool :=
  match version.toList with
  | 'v' :: digits => digits ≠ [] ∧ digits.all rules.isDigit
  | _ => false

/-- `str.strip` -/
def strip (value : String) : String :=
  String.ofList (((value.toList.dropWhile rules.isSpace).reverse.dropWhile rules.isSpace).reverse)

/-- `_validate_version` -/
def validateVersion (value settingName : String) : Except SecretFailure String := do
  let version := strip rules value
  let invalid := .configuration (settingName ++ " must be a positive version such as v1")
  raiseIf (versionText rules version = false) invalid
  match rules.int (version.toList.drop 1) with
  | none => .error .valueError
  | some n =>
    raiseIf (n < 1) invalid
    return version

/-- `_fernet_from_key` -/
def fernetFromKey (key settingName : String) : Except SecretFailure Key := do
  let invalid := .configuration (settingName ++ " must be a generated Fernet key")
  raiseIf (key.toList.length ≠ 44 ∨ key.toList.any rules.isSpace) invalid
  match rules.fernet key with
  | none => .error invalid
  | some fernet => return fernet

/-- The previous key of the settings, under its version. -/
def loadPrevious (env : SecretEnvironment) (current : String) :
    Except SecretFailure (Option (String × Key)) :=
  if env.previousSecretKey = "" ∧ env.previousSecretKeyVersion = "" then .ok none
  else do
    raiseIf (env.previousSecretKey = "" ∨ env.previousSecretKeyVersion = "") (.configuration
      ("MAGISTRATE_PREVIOUS_SECRET_KEY and MAGISTRATE_PREVIOUS_SECRET_KEY_VERSION " ++
        "must be set together"))
    let version ← validateVersion rules env.previousSecretKeyVersion
      "MAGISTRATE_PREVIOUS_SECRET_KEY_VERSION"
    raiseIf (version = current) (.configuration "previous and current secret versions must differ")
    let fernet ← fernetFromKey rules env.previousSecretKey "MAGISTRATE_PREVIOUS_SECRET_KEY"
    return some (version, fernet)

/-- `_load_secret_settings` -/
def loadSecretSettings (env : SecretEnvironment) : Except SecretFailure (SecretSettings Key) := do
  raiseIf (env.secretKey = "" ∧ env.development = false) (.configuration
    "MAGISTRATE_SECRET_KEY is required outside explicit development/test mode")
  let material := if env.secretKey = "" then env.ephemeralTestKey else env.secretKey
  let version ← validateVersion rules (env.secretKeyVersion.getD "v1")
    "MAGISTRATE_SECRET_KEY_VERSION"
  let fernet ← fernetFromKey rules material "MAGISTRATE_SECRET_KEY"
  let previous ← loadPrevious rules env version
  raiseIf (env.keyRotationEnabled = true ∧ previous.isNone) (.configuration
    "MAGISTRATE_KEY_ROTATION_ENABLED=true requires a previous secret key and version")
  return { fernet, version, previous, rotationEnabled := env.keyRotationEnabled }

end Settings

section Tokens

variable {Key : Type} (rules : SecretRules Key)

/-- `_encrypt_with` -/
def encryptWith (fernet : Key) (version plain : String) (draw : ℕ) : String :=
  version ++ ":" ++ rules.encrypt fernet plain draw

/-- `encrypt_token` -/
def encryptToken (env : SecretEnvironment) (plain : String) (draw : ℕ) :
    Except SecretFailure String :=
  if plain = "" then .ok ""
  else do
    let settings ← loadSecretSettings rules env
    return encryptWith rules settings.fernet settings.version plain draw

/-- `_split_ciphertext`: the version before the first colon, and the payload. -/
def splitCiphertext (failure : String → SecretFailure) (cipher : String) :
    Except SecretFailure (String × String) := do
  let version := String.ofList (cipher.toList.takeWhile (· ≠ ':'))
  let payload := String.ofList ((cipher.toList.dropWhile (· ≠ ':')).drop 1)
  raiseIf (payload = "" ∨ versionText rules version = false)
    (failure "Encrypted credential has an invalid format")
  return (version, payload)

/-- `_decrypt_with` -/
def decryptWith (fernet : Key) (payload : String) (failure : String → SecretFailure) :
    Except SecretFailure String :=
  match rules.decrypt fernet payload with
  | some plain => .ok plain
  | none => .error (failure "Encrypted credential could not be authenticated")

/-- `decrypt_token` -/
def decryptToken (env : SecretEnvironment) (cipher : String) : Except SecretFailure String :=
  if cipher = "" then .ok ""
  else do
    let settings ← loadSecretSettings rules env
    let (version, payload) ← splitCiphertext rules .decryption cipher
    raiseIf (version ≠ settings.version)
      (.decryption "Encrypted credential uses a non-current key version")
    decryptWith rules settings.fernet payload .decryption

/-- `rotate_encrypted_token` -/
def rotateEncryptedToken (env : SecretEnvironment) (cipher : String) (draw : ℕ) :
    Except SecretFailure String :=
  if cipher = "" then .ok ""
  else do
    let settings ← loadSecretSettings rules env
    let (version, payload) ← splitCiphertext rules .rotation cipher
    let ineligible :=
      SecretFailure.rotation "Credential is not eligible for the configured key rotation"
    if version = settings.version then do
      let _ ← decryptWith rules settings.fernet payload .rotation
      return cipher
    else
      match settings.previous with
      | none => .error ineligible
      | some (previousVersion, previousFernet) =>
        raiseIf (settings.rotationEnabled = false ∨ version ≠ previousVersion) ineligible
        let plain ← decryptWith rules previousFernet payload .rotation
        return encryptWith rules settings.fernet settings.version plain draw

end Tokens

/-- Keys by their versions. -/
abbrev KeyRing (Key : Type) := String → Option Key

/-- The key ring of settings: the current key, the previous one, and the keys before them. -/
def SecretSettings.ring {Key : Type} (settings : SecretSettings Key) (older : KeyRing Key) :
    KeyRing Key := fun version =>
  if version = settings.version then some settings.fernet
  else match settings.previous with
    | some (previousVersion, previousFernet) =>
      if version = previousVersion then some previousFernet else older version
    | none => older version

/-- The plaintext of a stored value under a key ring. -/
def plaintext {Key : Type} (rules : SecretRules Key) (ring : KeyRing Key) (cipher : String) :
    Option String :=
  if cipher = "" then some ""
  else match splitCiphertext rules .decryption cipher with
    | .ok (version, payload) => (ring version).bind fun key => rules.decrypt key payload
    | .error _ => none

/-- A stored value carries the version of a key. -/
def versioned {Key : Type} (rules : SecretRules Key) (version cipher : String) : Bool :=
  match splitCiphertext rules .decryption cipher with
  | .ok (v, _) => v = version
  | .error _ => false

section Lemmas

variable {Key : Type} {rules : SecretRules Key} {env : SecretEnvironment}
  {settings : SecretSettings Key} {cipher plain version payload : String}

/-- A version text has no colon. -/
theorem not_colon_of_versionText (h : versionText rules version = true) : ':' ∉ version.toList := by
  unfold versionText at h
  split at h
  · next digits hdigits =>
    obtain ⟨-, hall⟩ := of_decide_eq_true h
    rw [hdigits, List.mem_cons, not_or]
    refine ⟨by decide, fun hmem => ?_⟩
    have hcolon := List.all_eq_true.mp hall ':' hmem
    rw [rules.colon] at hcolon
    simp at hcolon
  · simp at h

/-- A versioned text splits at its first colon. -/
theorem splitCiphertext_append (failure : String → SecretFailure)
    (hversion : versionText rules version = true) (hpayload : payload ≠ "") :
    splitCiphertext rules failure (version ++ ":" ++ payload) = .ok (version, payload) := by
  have hno := not_colon_of_versionText hversion
  have hnot : ∀ c ∈ version.toList, decide (c ≠ ':') = true :=
    fun c hc => decide_eq_true fun he => hno (he ▸ hc)
  have hlist : (version ++ ":" ++ payload).toList = version.toList ++ ':' :: payload.toList := by
    simp
  have htake : (version.toList ++ ':' :: payload.toList).takeWhile (· ≠ ':') = version.toList := by
    rw [List.takeWhile_append_of_pos hnot]
    simp
  have hdrop : (version.toList ++ ':' :: payload.toList).dropWhile (· ≠ ':') =
      ':' :: payload.toList := by
    rw [List.dropWhile_append_of_pos hnot]
    simp
  simp only [splitCiphertext, hlist, htake, hdrop, List.drop_succ_cons, List.drop_zero,
    String.ofList_toList, bind_eq_ok, raiseIf_eq_ok, pure_eq_ok]
  exact ⟨(), by simp [hpayload, hversion], trivial⟩

/-- A split text is the same text whatever a failure is reported as. -/
theorem splitCiphertext_failure {failure : String → SecretFailure}
    (failure' : String → SecretFailure)
    {parts : String × String} (h : splitCiphertext rules failure cipher = .ok parts) :
    splitCiphertext rules failure' cipher = .ok parts := by
  simp only [splitCiphertext, bind_eq_ok, raiseIf_eq_ok, pure_eq_ok] at h ⊢
  exact h

/-- Loaded settings have a version text. -/
theorem loadSecretSettings_version (h : loadSecretSettings rules env = .ok settings) :
    versionText rules settings.version = true := by
  simp only [loadSecretSettings, bind_eq_ok, raiseIf_eq_ok, pure_eq_ok, exists_const] at h
  obtain ⟨-, version, hversion, fernet, -, previous, -, -, rfl⟩ := h
  simp only [validateVersion, bind_eq_ok, raiseIf_eq_ok, exists_const,
    Bool.not_eq_false] at hversion
  obtain ⟨htext, hversion⟩ := hversion
  split at hversion
  · simp at hversion
  · simp only [bind_eq_ok, raiseIf_eq_ok, pure_eq_ok, exists_const] at hversion
    exact hversion.2 ▸ htext

/-- The current version stands for the current key. -/
theorem ring_version (settings : SecretSettings Key) (older : KeyRing Key) :
    settings.ring older settings.version = some settings.fernet := if_pos rfl

/-- What the current key has encrypted decrypts to its plaintext. -/
theorem decryptToken_encryptWith (h : loadSecretSettings rules env = .ok settings) (plain : String)
    (draw : ℕ) :
    decryptToken rules env (encryptWith rules settings.fernet settings.version plain draw) =
      .ok plain := by
  have hsplit := splitCiphertext_append .decryption (loadSecretSettings_version h)
    (rules.encrypt_ne settings.fernet plain draw)
  have hne : encryptWith rules settings.fernet settings.version plain draw ≠ "" := by
    simp [encryptWith]
  rw [decryptToken, if_neg hne, h, ok_bind, encryptWith, hsplit, ok_bind]
  simp only [raiseIf_ok (not_not.mpr rfl), ok_bind, decryptWith, rules.decrypt_encrypt]

/-- A value with a plaintext decrypts under the current key exactly when it carries its version. -/
theorem decryptToken_eq_ok_iff (h : loadSecretSettings rules env = .ok settings)
    {older : KeyRing Key} (hplain : plaintext rules (settings.ring older) cipher = some plain) :
    decryptToken rules env cipher = .ok plain ↔
      cipher = "" ∨ versioned rules settings.version cipher := by
  unfold plaintext at hplain
  unfold decryptToken versioned
  by_cases hempty : cipher = ""
  · rw [if_pos hempty] at hplain ⊢
    simp [hempty, Option.some.inj hplain]
  · rw [if_neg hempty] at hplain ⊢
    rw [h, ok_bind]
    cases hsplit : splitCiphertext rules .decryption cipher with
    | error e => simp [hsplit] at hplain
    | ok parts =>
      obtain ⟨version, payload⟩ := parts
      simp only [hsplit] at hplain
      simp only [ok_bind, hempty, false_or, decide_eq_true_eq]
      by_cases hversion : version = settings.version
      · rw [hversion, ring_version, Option.bind_some] at hplain
        simp [hversion, raiseIf_ok, decryptWith, hplain]
      · simp [hversion, raiseIf_error, bind, Except.bind]

/-- A rotated value decrypts under the current key to the plaintext that it had. -/
theorem rotateEncryptedToken_decrypts (h : loadSecretSettings rules env = .ok settings)
    (older : KeyRing Key) {cipher' : String} {draw : ℕ}
    (hrotate : rotateEncryptedToken rules env cipher draw = .ok cipher') :
    ∃ plain, plaintext rules (settings.ring older) cipher = some plain ∧
      decryptToken rules env cipher' = .ok plain := by
  unfold rotateEncryptedToken at hrotate
  unfold plaintext
  by_cases hempty : cipher = ""
  · rw [if_pos hempty] at hrotate ⊢
    obtain rfl : "" = cipher' := Except.ok.inj hrotate
    exact ⟨"", rfl, if_pos rfl⟩
  · rw [if_neg hempty] at hrotate ⊢
    simp only [h, ok_bind, bind_eq_ok] at hrotate
    obtain ⟨⟨version, payload⟩, hsplit, hrotate⟩ := hrotate
    simp only [splitCiphertext_failure .decryption hsplit]
    split at hrotate
    · next hversion =>
      -- A current value is kept.
      obtain rfl : version = settings.version := hversion
      simp only [bind_eq_ok, pure_eq_ok, decryptWith] at hrotate
      obtain ⟨plain, hplain, rfl⟩ := hrotate
      split at hplain
      · next plain' hdecrypt =>
        refine ⟨plain', by rw [ring_version, Option.bind_some, hdecrypt], ?_⟩
        rw [decryptToken, if_neg hempty, h, ok_bind, splitCiphertext_failure .decryption hsplit,
          ok_bind]
        simp [raiseIf_ok, decryptWith, hdecrypt]
      · simp at hplain
    · next hversion =>
      split at hrotate
      · simp at hrotate
      · next previousVersion previousFernet hprevious =>
        simp only [bind_eq_ok, raiseIf_eq_ok, exists_const, pure_eq_ok, decryptWith, not_or,
          not_not] at hrotate
        obtain ⟨⟨-, hsame⟩, plain, hplain, rfl⟩ := hrotate
        split at hplain
        · next plain' hdecrypt =>
          obtain rfl : plain' = plain := Except.ok.inj hplain
          refine ⟨plain', ?_, decryptToken_encryptWith h plain' draw⟩
          simp only [SecretSettings.ring, if_neg hversion, hprevious, if_pos hsame,
            Option.bind_some, hdecrypt]
        · simp at hplain

/-- A value that decrypts under the current key is not rewritten. -/
theorem rotateEncryptedToken_current (h : loadSecretSettings rules env = .ok settings)
    {cipher' : String} {draw : ℕ} (hplain : decryptToken rules env cipher = .ok plain)
    (hrotate : rotateEncryptedToken rules env cipher draw = .ok cipher') : cipher' = cipher := by
  unfold rotateEncryptedToken at hrotate
  unfold decryptToken at hplain
  by_cases hempty : cipher = ""
  · rw [if_pos hempty] at hrotate
    rw [hempty, Except.ok.inj hrotate]
  · rw [if_neg hempty] at hrotate hplain
    simp only [h, ok_bind, bind_eq_ok] at hrotate hplain
    obtain ⟨⟨version, payload⟩, hsplit, hrotate⟩ := hrotate
    obtain ⟨parts, hsplit', hplain⟩ := hplain
    rw [splitCiphertext_failure .decryption hsplit, Except.ok.injEq] at hsplit'
    subst hsplit'
    simp only [raiseIf_eq_ok, exists_const, not_not] at hplain
    simp only [hplain.1, if_true, bind_eq_ok, pure_eq_ok] at hrotate
    obtain ⟨-, -, rfl⟩ := hrotate
    rfl

end Lemmas

end Magistrate
