import Magistrate.Core.CanonicalJson

/-!
# Encodings of bytes and texts

Base 64, the strict decoder of UTF-8 and JSON strings in ASCII. What is encoded in
base 64 is read back byte by byte.
-/

namespace Magistrate

namespace PyText

/-- The codes of the alphabet of base 64. -/
def base64Alphabet : PyText :=
  of "ABCDEFGHIJKLMNOPQRSTUVWXYZabcdefghijklmnopqrstuvwxyz0123456789+/"

/-- A digit of the base 64. -/
def base64Digit (digit : ℕ) : ℕ := base64Alphabet.getD digit 0x3D

/-- `base64.b64encode` -/
def b64encode : List UInt8 → PyText
  | [] => []
  | [a] => [base64Digit (a.toNat / 4), base64Digit (a.toNat % 4 * 16), 0x3D, 0x3D]
  | [a, b] =>
    [base64Digit (a.toNat / 4), base64Digit (a.toNat % 4 * 16 + b.toNat / 16),
      base64Digit (b.toNat % 16 * 4), 0x3D]
  | a :: b :: c :: rest =>
    [base64Digit (a.toNat / 4), base64Digit (a.toNat % 4 * 16 + b.toNat / 16),
      base64Digit (b.toNat % 16 * 4 + c.toNat / 64), base64Digit (c.toNat % 64)] ++ b64encode rest

/-- The value of a digit of the base 64. -/
def base64Value (code : ℕ) : ℕ := base64Alphabet.idxOf code

/-- The bytes of a text in base 64. -/
def b64decode : PyText → List UInt8
  | a :: b :: c :: d :: rest =>
    let first := .ofNat (base64Value a * 4 + base64Value b / 16)
    let second := .ofNat (base64Value b % 16 * 16 + base64Value c / 4)
    let third := .ofNat (base64Value c % 4 * 64 + base64Value d)
    if c = 0x3D then [first]
    else if d = 0x3D then [first, second]
    else first :: second :: third :: b64decode rest
  | _ => []

/-- A byte that continues a character. -/
def isContinuation (byte : UInt8) : Bool := decide (0x80 ≤ byte.toNat ∧ byte.toNat < 0xC0)

/-- The bits of a continuation. -/
def continued (code : ℕ) (byte : UInt8) : ℕ := code * 64 + (byte.toNat - 0x80)

/-- `bytes.decode("utf-8")`, unless it raises: the shortest form of every character, and no
surrogates. -/
def decodeUtf8 : List UInt8 → Option PyText
  | [] => some []
  | a :: rest =>
    if a.toNat < 0x80 then (decodeUtf8 rest).map (a.toNat :: ·)
    else
      match rest with
      | b :: rest =>
        if 0xC2 ≤ a.toNat ∧ a.toNat < 0xE0 ∧ isContinuation b then
          (decodeUtf8 rest).map (continued (a.toNat - 0xC0) b :: ·)
        else
          match rest with
          | c :: rest =>
            let three := continued (continued (a.toNat - 0xE0) b) c
            if 0xE0 ≤ a.toNat ∧ a.toNat < 0xF0 ∧ isContinuation b ∧ isContinuation c ∧
                0x800 ≤ three ∧ ¬isSurrogate three then
              (decodeUtf8 rest).map (three :: ·)
            else
              match rest with
              | d :: rest =>
                let four := continued (continued (continued (a.toNat - 0xF0) b) c) d
                if 0xF0 ≤ a.toNat ∧ isContinuation b ∧ isContinuation c ∧ isContinuation d ∧
                    0x10000 ≤ four ∧ four < 0x110000 then
                  (decodeUtf8 rest).map (four :: ·)
                else none
              | [] => none
          | [] => none
      | [] => none

/-- An escape of a code of sixteen bits. -/
def unicodeEscape (code : ℕ) : PyText :=
  of "\\u" ++ [hexCode (code / 4096), hexCode (code / 256 % 16), hexCode (code / 16 % 16),
    hexCode (code % 16)]

/-- A character within quotes, in ASCII. -/
def asciiEscaped (code : ℕ) : PyText :=
  if code < 0x7F then escaped code
  else if code < 0x10000 then unicodeEscape code
  else unicodeEscape (0xD800 + (code - 0x10000) / 0x400) ++
    unicodeEscape (0xDC00 + (code - 0x10000) % 0x400)

/-- `json.dumps` of a text -/
def asciiQuoted (text : PyText) : PyText := [0x22] ++ text.flatMap asciiEscaped ++ [0x22]

section Base64

theorem base64Value_digit : ∀ digit < 64, base64Value (base64Digit digit) = digit := by
  decide +kernel

theorem base64Digit_ne : ∀ digit < 64, base64Digit digit ≠ 0x3D := by decide +kernel

theorem ofNat_eq {n : ℕ} {byte : UInt8} (h : n = byte.toNat) : UInt8.ofNat n = byte := by
  rw [h, UInt8.ofNat_toNat]

/-- Bytes are read back from base 64. -/
theorem b64decode_b64encode (bytes : List UInt8) : b64decode (b64encode bytes) = bytes := by
  induction bytes using b64encode.induct with
  | case1 => rfl
  | case2 a =>
    have ha := a.toNat_lt
    have hfirst : UInt8.ofNat (a.toNat / 4 * 4 + a.toNat % 4 * 16 / 16) = a :=
      ofNat_eq (by omega)
    simp only [b64encode, b64decode, if_true, base64Value_digit (a.toNat / 4) (by omega),
      base64Value_digit (a.toNat % 4 * 16) (by omega), hfirst]
  | case3 a b =>
    have ha := a.toNat_lt
    have hb := b.toNat_lt
    have hfirst : UInt8.ofNat (a.toNat / 4 * 4 + (a.toNat % 4 * 16 + b.toNat / 16) / 16) = a :=
      ofNat_eq (by omega)
    have hsecond : UInt8.ofNat ((a.toNat % 4 * 16 + b.toNat / 16) % 16 * 16 +
        b.toNat % 16 * 4 / 4) = b :=
      ofNat_eq (by omega)
    simp only [b64encode, b64decode, if_true, if_neg (base64Digit_ne (b.toNat % 16 * 4) (by omega)),
      base64Value_digit (a.toNat / 4) (by omega),
      base64Value_digit (a.toNat % 4 * 16 + b.toNat / 16) (by omega),
      base64Value_digit (b.toNat % 16 * 4) (by omega), hfirst, hsecond]
  | case4 a b c rest ih =>
    have ha := a.toNat_lt
    have hb := b.toNat_lt
    have hc := c.toNat_lt
    have hfirst : UInt8.ofNat (a.toNat / 4 * 4 + (a.toNat % 4 * 16 + b.toNat / 16) / 16) = a :=
      ofNat_eq (by omega)
    have hsecond : UInt8.ofNat ((a.toNat % 4 * 16 + b.toNat / 16) % 16 * 16 +
        (b.toNat % 16 * 4 + c.toNat / 64) / 4) = b :=
      ofNat_eq (by omega)
    have hthird : UInt8.ofNat ((b.toNat % 16 * 4 + c.toNat / 64) % 4 * 64 + c.toNat % 64) = c :=
      ofNat_eq (by omega)
    simp only [b64encode, List.cons_append, List.nil_append, b64decode,
      if_neg (base64Digit_ne (b.toNat % 16 * 4 + c.toNat / 64) (by omega)),
      if_neg (base64Digit_ne (c.toNat % 64) (by omega)),
      base64Value_digit (a.toNat / 4) (by omega),
      base64Value_digit (a.toNat % 4 * 16 + b.toNat / 16) (by omega),
      base64Value_digit (b.toNat % 16 * 4 + c.toNat / 64) (by omega),
      base64Value_digit (c.toNat % 64) (by omega), hfirst, hsecond, hthird, ih]

end Base64

end PyText

end Magistrate
