import Magistrate.Core.Percent
import Magistrate.Core.PyJson
import Magistrate.Core.Regex
import Magistrate.Gateway.Activity.Publish

/-!
# Texts that resemble credentials

The texts of an activity are searched for credentials before they are published, as
they are and with their escapes decoded up to three times.
-/

namespace Magistrate

section Patterns

/-- `[A-Za-z0-9_]` -/
def wordItems : List RegexItem :=
  [.range 'A' 'Z', .range 'a' 'z', .range '0' '9', .char '_']

/-- `[A-Za-z0-9_. -]` -/
def nameItems : List RegexItem := wordItems ++ [.char '.', .char ' ', .char '-']

/-- `[A-Za-z0-9_-]` -/
def dashedItems : List RegexItem := wordItems ++ [.char '-']

/-- `[A-Za-z0-9]` -/
def alnumItems : List RegexItem := [.range 'A' 'Z', .range 'a' 'z', .range '0' '9']

/-- `[a-z0-9+.-]` -/
def schemeItems : List RegexItem :=
  [.range 'a' 'z', .range '0' '9', .char '+', .char '.', .char '-']

namespace Regex

/-- A repetition of members of a set. -/
def some_ (items : List RegexItem) (min : ℕ) (max : Option ℕ) : Regex :=
  .many ⟨items, false⟩ min max

/-- A repetition of characters that are not in a set. -/
def others (items : List RegexItem) : Regex := .many ⟨items, true⟩ 1 none

/-- `\s*` -/
def spaces : Regex := some_ [.space] 0 none

/-- `\s+` -/
def blanks : Regex := some_ [.space] 1 none

/-- `["']?` -/
def quote : Regex := some_ [.char '"', .char '\''] 0 (some 1)

/-- `[:=]` -/
def colon : Regex := .one ⟨[.char ':', .char '='], false⟩

end Regex

/-- The assignment of a variable. -/
def assignment : Regex :=
  .all [.opt (.all [.lit "export", .blanks]),
    .one ⟨[.range 'A' 'Z', .range 'a' 'z', .char '_'], false⟩, .some_ wordItems 0 (some 127),
    .spaces, .opt (.all [.lit "+", .spaces]), .lit "="]

/-- The header of an authorization. -/
def authorizationHeader : Regex :=
  .all [.opt (.all [.lit "proxy", .some_ [.char '-', .char '_', .char ' '] 0 (some 1)]),
    .lit "authorization", .spaces, .quote, .spaces, .colon, .spaces,
    .others [.space, .char ',', .char ';', .char '\x7d'],
    .opt (.all [.blanks, .others [.space, .char ',', .char ';', .char '\x7d']])]

/-- A credential under its name. -/
def namedCredential : Regex :=
  .all [.quote, .some_ nameItems 0 (some 96),
    .any [.lit "secret", .all [.lit "pass", .opt (.any [.lit "word", .lit "wd"])], .lit "pwd",
      .lit "token", .lit "auth", .lit "key", .lit "credential"],
    .some_ nameItems 0 (some 96), .quote, .spaces, .colon, .spaces, .quote,
    .others [.space, .char ',', .char ';', .char '\x7d', .char '"', .char '\'']]

/-- A variable that is assigned a URL with a password. -/
def assignedUrl : Regex :=
  .all [.boundary, .one ⟨[.range 'A' 'Z'], false⟩,
    .some_ [.range 'A' 'Z', .range '0' '9', .char '_'] 1 (some 63), .spaces, .lit "=", .spaces,
    .one ⟨[.range 'a' 'z'], false⟩, .some_ schemeItems 0 none, .lit "://",
    .others [.char '/', .space, .char ':', .char '@'], .lit ":", .others [.char '@', .space],
    .lit "@"]

/-- A URL with the information of a user. -/
def userUrl : Regex :=
  .all [.boundary, .one ⟨[.range 'a' 'z'], false⟩, .some_ schemeItems 0 (some 31), .lit "://",
    .others [.space, .char '/', .char '@'], .lit "@", .others [.space, .char ',', .char ';']]

/-- The token of a forge. -/
def forgeToken : Regex :=
  .all [.boundary, .lit "gh",
    .one ⟨[.char 'p', .char 'o', .char 'u', .char 's', .char 'r'], false⟩, .lit "_",
    .some_ alnumItems 8 none]

/-- The key of a provider. -/
def providerKey : Regex := .all [.boundary, .lit "sk-", .some_ alnumItems 8 none]

/-- A signed token. -/
def signedToken : Regex :=
  .all [.boundary, .lit "eyJ", .some_ dashedItems 8 none, .lit ".", .some_ dashedItems 8 none,
    .lit ".", .some_ dashedItems 8 none, .boundary]

/-- The alternatives of the pattern, with that of a private key. -/
def sensitivePattern (privateKey : Regex) : Regex :=
  .any [authorizationHeader, namedCredential, assignedUrl, userUrl, privateKey, forgeToken,
    providerKey, signedToken]

end Patterns

/-- What the store takes from the character database: the letters and digits, and the characters of
the categories of formats, private use and unassigned ones. -/
structure UnicodeRules where
  isAlnum : Char → Bool
  isOther : Char → Bool

/-- A word character of ASCII. -/
def isAsciiWord (c : Char) : Bool := c.isAlphanum || c == '_'

/-- The two cases of a letter of ASCII. -/
def asciiCases (c : Char) : List Char := [c.toLower, c.toUpper]

/-- The classes of the host language: beyond ASCII there are further spaces, letters and digits, and
four letters that are a case of one of ASCII. -/
def hostFlavor (unicode : UnicodeRules) : RegexFlavor where
  isSpace c := PyText.isSpace c.toNat
  isWord c := if c.toNat < 128 then isAsciiWord c else unicode.isAlnum c
  variants c :=
    if c.toNat = 0x130 ∨ c.toNat = 0x131 then [c, 'i', 'I']
    else if c.toNat = 0x17F then [c, 's', 'S']
    else if c.toNat = 0x212A then [c, 'k', 'K']
    else asciiCases c

/-- `_ENV_ASSIGNMENT` -/
def envAssignment : Regex := RegexFlavor.behind wordItems assignment

/-- The header of a private key: blanks of a verbose pattern are not part of it, those in brackets
are. -/
def verboseKeyHeader : Regex :=
  .all [.lit "-----BEGIN", .some_ [.range 'A' 'Z', .char ' '] 0 none, .lit "PRIVATEKEY-----"]

/-- `_SENSITIVE_TEXT` -/
def sensitiveText : Regex := sensitivePattern verboseKeyHeader

/-- A text is searched, and up to so many times what it expands to. -/
def searchExpanded (test : List Char → Bool) (expand : List Char → List Char) :
    ℕ → List Char → Bool
  | 0, text => test text
  | passes + 1, text =>
    test text || (expand text ≠ text && searchExpanded test expand passes (expand text))

/-- A text that expands to itself is searched once. -/
theorem searchExpanded_self {test : List Char → Bool} {expand : List Char → List Char}
    {text : List Char} (h : expand text = text) (passes : ℕ) :
    searchExpanded test expand passes text = test text := by
  cases passes with
  | zero => rfl
  | succ passes => simp [searchExpanded, h]

/-- One search of `_contains_sensitive_text`. -/
def hostSensitive (unicode : UnicodeRules) (text : List Char) : Bool :=
  (hostFlavor unicode).search envAssignment text || (hostFlavor unicode).search sensitiveText text

/-- `_contains_sensitive_text` -/
def containsSensitive (unicode : UnicodeRules) (text : String) : Bool :=
  searchExpanded (hostSensitive unicode) unquote 3 text.toList

/-- `_has_controls` -/
def hasControls (unicode : UnicodeRules) (text : String) : Bool :=
  text.toList.any fun c => decide (c.toNat < 32) || decide (127 ≤ c.toNat ∧ c.toNat ≤ 159) ||
    decide (c.toNat = 0x2028) || decide (c.toNat = 0x2029) || unicode.isOther c

/-- A digest in hexadecimal digits. -/
def HexText (digits : ℕ) (text : String) : Prop :=
  text.length = digits ∧ ∀ c ∈ text.toList, (hexDigit? c).isSome

theorem HexText.of_all {digits : ℕ} {text : String} (hlength : text.length = digits)
    (hdigits : text.toList.all (fun c => (hexDigit? c).isSome) = true) : HexText digits text :=
  ⟨hlength, List.all_eq_true.mp hdigits⟩

/-- What publication takes from the character database and from the digest of a record's key, of
which the first digits are the record's id. -/
structure ActivityTextRules where
  unicode : UnicodeRules
  digest : String → String → String → String
  digest_hex : ∀ user source recordKey, HexText 24 (digest user source recordKey)

/-- The rules of publication, as the store computes them. -/
def ActivityTextRules.publish (rules : ActivityTextRules) : PublishRules where
  hasControls := hasControls rules.unicode
  strip := stripText
  sensitive := containsSensitive rules.unicode
  recordId user source recordKey := "ca_" ++ rules.digest user source recordKey

@[simp] theorem ActivityTextRules.publish_strip (rules : ActivityTextRules) :
    rules.publish.strip = stripText := rfl

@[simp] theorem ActivityTextRules.publish_hasControls (rules : ActivityTextRules) :
    rules.publish.hasControls = hasControls rules.unicode := rfl

end Magistrate
