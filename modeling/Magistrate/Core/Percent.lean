import Mathlib.Data.List.Basic

/-!
# Percent-encoded texts

The escapes of a text and the decoding of their bytes, one character or one fault
for each maximal sequence of bytes that may begin a character.
-/

namespace Magistrate

/-- A character as it is, or the byte of an escape. -/
inductive PercentToken where
  | literal (c : Char)
  | escape (byte : ℕ)
  deriving DecidableEq, Repr

/-- The value of a hexadecimal digit. -/
def hexDigit? (c : Char) : Option ℕ :=
  if '0' ≤ c ∧ c ≤ '9' then some (c.toNat - 48)
  else if 'a' ≤ c ∧ c ≤ 'f' then some (c.toNat - 87)
  else if 'A' ≤ c ∧ c ≤ 'F' then some (c.toNat - 55)
  else none

/-- The byte of two hexadecimal digits. -/
def hexByte? (high low : Char) : Option ℕ := do
  return 16 * (← hexDigit? high) + (← hexDigit? low)

/-- The tokens of a text; a percent sign without two digits is a character. -/
def percentTokens : List Char → List PercentToken
  | [] => []
  | [c] => [.literal c]
  | [c, d] => [.literal c, .literal d]
  | c :: high :: low :: rest =>
    match (if c = '%' then hexByte? high low else none) with
    | some byte => .escape byte :: percentTokens rest
    | none => .literal c :: percentTokens (high :: low :: rest)

/-- A character of which bytes are still to come, with the range of the next one. -/
structure Utf8Pending where
  value : ℕ
  needed : ℕ
  lower : ℕ
  upper : ℕ
  deriving DecidableEq, Repr

/-- What a byte leads to. -/
inductive Utf8Step where
  | char (c : Char)
  | pending (next : Utf8Pending)
  | invalid
  deriving DecidableEq, Repr

/-- The first byte of a character. -/
def utf8Start (byte : ℕ) : Utf8Step :=
  if byte < 0x80 then .char (Char.ofNat byte)
  else if 0xC2 ≤ byte ∧ byte ≤ 0xDF then .pending ⟨byte - 0xC0, 1, 0x80, 0xBF⟩
  else if 0xE0 ≤ byte ∧ byte ≤ 0xEF then
    .pending ⟨byte - 0xE0, 2, if byte = 0xE0 then 0xA0 else 0x80,
      if byte = 0xED then 0x9F else 0xBF⟩
  else if 0xF0 ≤ byte ∧ byte ≤ 0xF4 then
    .pending ⟨byte - 0xF0, 3, if byte = 0xF0 then 0x90 else 0x80,
      if byte = 0xF4 then 0x8F else 0xBF⟩
  else .invalid

/-- A further byte of a character. -/
def Utf8Pending.step (pending : Utf8Pending) (byte : ℕ) : Utf8Step :=
  if pending.lower ≤ byte ∧ byte ≤ pending.upper then
    let value := pending.value * 64 + (byte - 0x80)
    if pending.needed ≤ 1 then .char (Char.ofNat value)
    else .pending ⟨value, pending.needed - 1, 0x80, 0xBF⟩
  else .invalid

/-- The fault of a character that is not complete. -/
def faultOf (pending : Option Utf8Pending) : List (Option Char) :=
  if pending.isSome then [none] else []

/-- The characters of tokens; a fault is no character. -/
def decodeTokens : Option Utf8Pending → List PercentToken → List (Option Char)
  | pending, [] => faultOf pending
  | pending, .literal c :: rest => faultOf pending ++ some c :: decodeTokens none rest
  | pending, .escape byte :: rest =>
    match (pending.elim .invalid (·.step byte) : Utf8Step) with
    | .char c => some c :: decodeTokens none rest
    | .pending next => decodeTokens (some next) rest
    | .invalid =>
      faultOf pending ++
        match utf8Start byte with
        | .char c => some c :: decodeTokens none rest
        | .pending next => decodeTokens (some next) rest
        | .invalid => none :: decodeTokens none rest

/-- `unquote`: every fault is a replacement character. -/
def unquote (text : List Char) : List Char :=
  (decodeTokens none (percentTokens text)).map (·.getD (Char.ofNat 0xFFFD))

/-- `decodeURIComponent`, which throws at a percent sign without digits and at every fault. -/
def decodeURIComponent (text : List Char) : Option (List Char) :=
  let tokens := percentTokens text
  if .literal '%' ∈ tokens then none else (decodeTokens none tokens).mapM id

/-- Every escape replaced by the character of its number. -/
def decodeLatin (text : List Char) : List Char :=
  (percentTokens text).map fun
    | .literal c => c
    | .escape byte => Char.ofNat byte

/-- A text without a percent sign is its own characters. -/
theorem percentTokens_plain {text : List Char} (h : '%' ∉ text) :
    percentTokens text = text.map .literal := by
  fun_induction percentTokens text with
  | case1 => rfl
  | case2 c => rfl
  | case3 c d => rfl
  | case4 c high low rest byte hbyte ih =>
    have hne : c ≠ '%' := fun hc => h (hc ▸ List.mem_cons_self)
    rw [if_neg hne] at hbyte
    cases hbyte
  | case5 c high low rest hnone ih =>
    rw [List.map_cons, ih fun hmem => h (List.mem_cons_of_mem c hmem)]

/-- Characters are decoded to themselves. -/
theorem decodeTokens_literals (text : List Char) :
    decodeTokens none (text.map .literal) = text.map some := by
  induction text with
  | nil => rfl
  | cons c text ih => simpa [decodeTokens, faultOf] using ih

/-- A text without a percent sign is decoded to itself. -/
theorem unquote_plain {text : List Char} (h : '%' ∉ text) : unquote text = text := by
  rw [unquote, percentTokens_plain h, decodeTokens_literals, List.map_map]
  exact List.map_id text

/-- Characters without a fault among them. -/
theorem mapM_some (text : List Char) : (text.map some).mapM id = some text := by
  induction text with
  | nil => rfl
  | cons c text ih => rw [List.map_cons, List.mapM_cons, ih]; rfl

theorem decodeURIComponent_plain {text : List Char} (h : '%' ∉ text) :
    decodeURIComponent text = some text := by
  have hliteral : PercentToken.literal '%' ∉ text.map .literal := by
    rw [List.mem_map]
    rintro ⟨c, hc, heq⟩
    exact h (PercentToken.literal.inj heq ▸ hc)
  rw [decodeURIComponent, percentTokens_plain h, if_neg hliteral, decodeTokens_literals, mapM_some]

end Magistrate
