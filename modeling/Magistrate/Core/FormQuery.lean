import Mathlib.Data.List.TakeWhile
import Magistrate.Core.Percent

/-!
# Query strings

The pairs of an `application/x-www-form-urlencoded` text, as Python and as browsers
read them, and the text that is written of pairs. What is written of ASCII pairs is
read back, whichever characters the writer keeps.
-/

namespace Magistrate

/-- A hexadecimal digit of an escape. -/
def escapeDigit (n : ℕ) : Char := if n < 10 then Char.ofNat (48 + n) else Char.ofNat (55 + n)

/-- The escape of a byte. -/
def escapeByte (byte : UInt8) : List Char :=
  ['%', escapeDigit (byte.toNat / 16), escapeDigit (byte.toNat % 16)]

/-- A character of a name or a value: kept, a plus sign for a blank, or the escapes of its bytes. -/
def formEncodeChar (kept : Char → Bool) (c : Char) : List Char :=
  if c = ' ' then ['+'] else if kept c = true then [c]
  else (String.utf8EncodeChar c).flatMap escapeByte

/-- A name or a value as it is written. -/
def formEncode (kept : Char → Bool) (text : List Char) : List Char :=
  text.flatMap (formEncodeChar kept)

/-- A name or a value as it is read. -/
def formDecode (text : List Char) : List Char :=
  unquote (text.map fun c => if c = '+' then ' ' else c)

/-- The characters that `quote_plus` keeps. -/
def quoteKept (c : Char) : Bool := c.isAlphanum || ['_', '.', '-', '~'].contains c

/-- The characters that `URLSearchParams` keeps. -/
def searchKept (c : Char) : Bool := c.isAlphanum || ['*', '-', '.', '_'].contains c

/-- A name and a value. -/
abbrev FormPair : Type := List Char × List Char

/-- A pair as it is written. -/
def FormPair.write (kept : Char → Bool) (pair : FormPair) : List Char :=
  formEncode kept pair.1 ++ '=' :: formEncode kept pair.2

/-- `urlencode`, and the text of a `URLSearchParams`. -/
def formText (kept : Char → Bool) (pairs : List FormPair) : List Char :=
  ['&'].intercalate (pairs.map (FormPair.write kept))

/-- What stands before and after the first of a character, if it is there. -/
def cutAt (sep : Char) (text : List Char) : List Char × Option (List Char) :=
  (text.takeWhile (· ≠ sep),
    match text.dropWhile (· ≠ sep) with
    | [] => none
    | _ :: rest => some rest)

/-- `parse_qsl`: parts without a value are left out. -/
def parseQsl (query : List Char) : List FormPair :=
  (query.splitOn '&').filterMap fun part =>
    match cutAt '=' part with
    | (name, some (c :: value)) => some (formDecode name, formDecode (c :: value))
    | _ => none

/-- The pairs of a `URLSearchParams`: only empty parts are left out. -/
def searchPairs (query : List Char) : List FormPair :=
  (query.splitOn '&').filterMap fun part =>
    if part = [] then none
    else
      let (name, value) := cutAt '=' part
      some (formDecode name, formDecode (value.getD []))

/-- The values of a name. -/
def FormPair.valuesOf (name : List Char) (pairs : List FormPair) : List (List Char) :=
  (pairs.filter (·.1 = name)).map Prod.snd

section RoundTrip

variable {kept : Char → Bool}

theorem percentTokens_cons {c : Char} (hc : c ≠ '%') (text : List Char) :
    percentTokens (c :: text) = .literal c :: percentTokens text := by
  match text with
  | [] => rfl
  | [_] => rfl
  | high :: low :: rest => rw [percentTokens, if_neg hc]

theorem hexDigit?_escapeDigit : ∀ n < 16, hexDigit? (escapeDigit n) = some n := by decide

theorem percentTokens_escapeByte (byte : UInt8) (text : List Char) :
    percentTokens (escapeByte byte ++ text) = .escape byte.toNat :: percentTokens text := by
  have hlt := byte.toNat_lt
  have hbyte : hexByte? (escapeDigit (byte.toNat / 16)) (escapeDigit (byte.toNat % 16)) =
      some byte.toNat := by
    rw [hexByte?, hexDigit?_escapeDigit _ (by omega), hexDigit?_escapeDigit _ (by omega)]
    exact congrArg some (by omega)
  simp only [escapeByte, List.cons_append, List.nil_append, percentTokens, if_true, hbyte]

/-- A writer escapes what the reader takes for something else. -/
structure Separates (kept : Char → Bool) : Prop where
  percent : kept '%' = false
  plus : kept '+' = false
  ampersand : kept '&' = false
  equals : kept '=' = false

theorem separates_quoteKept : Separates quoteKept := ⟨rfl, rfl, rfl, rfl⟩

theorem escapeDigit_ne : ∀ n < 16, escapeDigit n ∉ ['+', '&', '='] := by decide

/-- No escape contains a plus sign or a separator. -/
theorem notMem_escapeByte {c : Char} (hc : c ∈ ['+', '&', '=']) (byte : UInt8) :
    c ∉ escapeByte byte := by
  have hlt := byte.toNat_lt
  have hhigh := escapeDigit_ne (byte.toNat / 16) (by omega)
  have hlow := escapeDigit_ne (byte.toNat % 16) (by omega)
  intro hmem
  simp only [escapeByte, List.mem_cons, List.not_mem_nil, or_false] at hmem
  rcases hmem with rfl | rfl | rfl
  · exact absurd hc (by decide)
  · exact hhigh hc
  · exact hlow hc

/-- What is written contains no separator. -/
theorem Separates.notMem (h : Separates kept) {c : Char} (hc : c ∈ ['&', '=']) (text : List Char) :
    c ∉ formEncode kept text := by
  intro hmem
  obtain ⟨d, -, hd⟩ := List.mem_flatMap.mp hmem
  unfold formEncodeChar at hd
  split_ifs at hd with hblank hkept
  · obtain rfl := List.mem_singleton.mp hd
    exact absurd hc (by decide)
  · obtain rfl := List.mem_singleton.mp hd
    simp only [List.mem_cons, List.not_mem_nil, or_false] at hc
    rcases hc with rfl | rfl
    · exact Bool.false_ne_true (h.ampersand.symm.trans hkept)
    · exact Bool.false_ne_true (h.equals.symm.trans hkept)
  · obtain ⟨byte, -, hbyte⟩ := List.mem_flatMap.mp hd
    exact notMem_escapeByte (List.mem_cons_of_mem _ hc) byte hbyte

/-- The token that a character is written as. -/
def writtenToken (kept : Char → Bool) (c : Char) : PercentToken :=
  if c = ' ' ∨ kept c = true then .literal c else .escape c.toNat

theorem utf8EncodeChar_of_ascii {c : Char} (hc : c.toNat < 128) :
    String.utf8EncodeChar c = [UInt8.ofNat c.toNat] := by
  have hle : c.val.toNat ≤ 0x7f := Nat.le_of_lt_succ hc
  simp only [String.utf8EncodeChar, hle, if_true]
  rfl

/-- An ASCII character is read as its token. -/
theorem Separates.percentTokens (h : Separates kept) {c : Char} (hc : c.toNat < 128)
    (rest : List Char) :
    Magistrate.percentTokens
        ((formEncodeChar kept c).map (fun c => if c = '+' then ' ' else c) ++ rest) =
      writtenToken kept c :: Magistrate.percentTokens rest := by
  unfold formEncodeChar writtenToken
  by_cases hblank : c = ' '
  · subst hblank
    exact percentTokens_cons (by decide) rest
  by_cases hkept : kept c = true
  · have hplus : c ≠ '+' := by
      rintro rfl
      exact Bool.false_ne_true (h.plus.symm.trans hkept)
    have hpercent : c ≠ '%' := by
      rintro rfl
      exact Bool.false_ne_true (h.percent.symm.trans hkept)
    simp only [hblank, hkept, if_true, if_false, List.map_singleton, hplus, or_true,
      List.singleton_append]
    exact percentTokens_cons hpercent rest
  · have hsame : (escapeByte (UInt8.ofNat c.toNat)).map (fun c => if c = '+' then ' ' else c) =
        escapeByte (UInt8.ofNat c.toNat) := by
      refine (List.map_congr_left fun d hd => if_neg ?_).trans (List.map_id _)
      rintro rfl
      exact notMem_escapeByte (by decide) _ hd
    have hvalue : (UInt8.ofNat c.toNat).toNat = c.toNat := by
      simp only [UInt8.toNat_ofNat']
      omega
    simp only [hblank, hkept, Bool.false_eq_true, if_false, or_self, utf8EncodeChar_of_ascii hc,
      List.flatMap_singleton, hsame, percentTokens_escapeByte, hvalue]

/-- ASCII texts are read as they were written. -/
theorem Separates.formDecode_formEncode (h : Separates kept) {text : List Char}
    (htext : ∀ c ∈ text, c.toNat < 128) : formDecode (formEncode kept text) = text := by
  have htokens : Magistrate.percentTokens
      ((formEncode kept text).map fun c => if c = '+' then ' ' else c) =
        text.map (writtenToken kept) := by
    induction text with
    | nil => rfl
    | cons c text ih =>
      rw [formEncode, List.flatMap_cons, List.map_append,
        h.percentTokens (htext c List.mem_cons_self), ← formEncode, ih fun d hd =>
          htext d (List.mem_cons_of_mem c hd), List.map_cons]
  have hdecode : decodeTokens none (text.map (writtenToken kept)) = text.map some := by
    clear htokens
    induction text with
    | nil => rfl
    | cons c text ih =>
      have hc := htext c List.mem_cons_self
      rw [List.map_cons, List.map_cons, ← ih fun d hd => htext d (List.mem_cons_of_mem c hd),
        writtenToken]
      split
      · rfl
      · simp only [decodeTokens, Option.elim_none, faultOf, Option.isSome_none, utf8Start, hc,
          if_true, Char.ofNat_toNat]
        rfl
  rw [formDecode, unquote, htokens, hdecode, List.map_map]
  exact List.map_id text

theorem formEncode_ne_nil (kept : Char → Bool) {text : List Char} (h : text ≠ []) :
    formEncode kept text ≠ [] := by
  obtain ⟨c, hc⟩ := List.exists_mem_of_ne_nil text h
  rw [formEncode, Ne, List.flatMap_eq_nil_iff]
  intro hnil
  have hempty := hnil c hc
  unfold formEncodeChar at hempty
  split_ifs at hempty
  obtain ⟨byte, hbyte⟩ := List.exists_mem_of_ne_nil _ (String.utf8EncodeChar_ne_nil (c := c))
  exact absurd (List.flatMap_eq_nil_iff.mp hempty byte hbyte) (by simp [escapeByte])

/-- A part is cut at the first of a character. -/
theorem cutAt_append {sep : Char} {first : List Char} (h : sep ∉ first) (rest : List Char) :
    cutAt sep (first ++ sep :: rest) = (first, some rest) := by
  have hall : ∀ c ∈ first, decide (c ≠ sep) = true := by
    intro c hc
    exact decide_eq_true fun heq => h (heq ▸ hc)
  rw [cutAt, List.takeWhile_append_of_pos hall, List.dropWhile_append_of_pos hall]
  simp

/-- A text without the character is not cut. -/
theorem cutAt_of_notMem {sep : Char} {text : List Char} (h : sep ∉ text) :
    cutAt sep text = (text, none) := by
  have hall : ∀ c ∈ text, decide (c ≠ sep) = true := by
    intro c hc
    exact decide_eq_true fun heq => h (heq ▸ hc)
  rw [cutAt, List.takeWhile_eq_self_iff.mpr hall, List.dropWhile_eq_nil_iff.mpr hall]

/-- What is written of pairs is split into what is written of each. -/
theorem Separates.splitOn_formText (h : Separates kept) {pairs : List FormPair} (hne : pairs ≠ []) :
    (formText kept pairs).splitOn '&' = pairs.map (FormPair.write kept) := by
  refine List.splitOn_intercalate '&' (fun part hpart => ?_) (by simpa using hne)
  obtain ⟨pair, -, rfl⟩ := List.mem_map.mp hpart
  simp only [FormPair.write, List.mem_append, List.mem_cons, not_or]
  exact ⟨h.notMem (by decide) _, by decide, h.notMem (by decide) _⟩

/-- A name and a value in ASCII. -/
def FormPair.Ascii (pair : FormPair) : Prop :=
  (∀ c ∈ pair.1, c.toNat < 128) ∧ ∀ c ∈ pair.2, c.toNat < 128

theorem Separates.cutAt_write (h : Separates kept) (pair : FormPair) :
    cutAt '=' (pair.write kept) = (formEncode kept pair.1, some (formEncode kept pair.2)) :=
  cutAt_append (h.notMem (by decide) _) _

/-- Browsers read the pairs that were written. -/
theorem Separates.searchPairs_formText (h : Separates kept) {pairs : List FormPair}
    (hpairs : ∀ pair ∈ pairs, pair.Ascii) : searchPairs (formText kept pairs) = pairs := by
  rcases List.eq_nil_or_concat pairs with rfl | ⟨_, _, hconcat⟩
  · rfl
  rw [searchPairs, h.splitOn_formText (by simp [hconcat]), List.filterMap_map]
  have hread : ∀ pair ∈ pairs, ((fun part => if part = [] then none
      else some (formDecode (cutAt '=' part).1, formDecode ((cutAt '=' part).2.getD []))) ∘
        FormPair.write kept) pair = some pair := by
    intro pair hpair
    have hne : pair.write kept ≠ [] := by simp [FormPair.write]
    obtain ⟨hname, hvalue⟩ := hpairs pair hpair
    simp only [Function.comp_apply, hne, if_false, h.cutAt_write, Option.getD_some,
      h.formDecode_formEncode hname, h.formDecode_formEncode hvalue]
  exact (List.filterMap_congr hread).trans List.filterMap_some

/-- Python reads the pairs with values that were written. -/
theorem Separates.parseQsl_formText (h : Separates kept) {pairs : List FormPair}
    (hpairs : ∀ pair ∈ pairs, pair.Ascii ∧ pair.2 ≠ []) :
    parseQsl (formText kept pairs) = pairs := by
  rcases List.eq_nil_or_concat pairs with rfl | ⟨_, _, hconcat⟩
  · rfl
  rw [parseQsl, h.splitOn_formText (by simp [hconcat]), List.filterMap_map]
  refine (List.filterMap_congr fun pair hpair => ?_).trans List.filterMap_some
  obtain ⟨⟨hname, hvalue⟩, hne⟩ := hpairs pair hpair
  obtain ⟨c, value, hcons⟩ := List.exists_cons_of_ne_nil (formEncode_ne_nil kept hne)
  simp only [Function.comp_apply, h.cutAt_write, hcons]
  rw [← hcons, h.formDecode_formEncode hname, h.formDecode_formEncode hvalue]

end RoundTrip

section Characters

variable {kept : Char → Bool}

/-- Writers that keep the same characters of the pairs write the same. -/
theorem formText_congr {kept' : Char → Bool} {pairs : List FormPair}
    (h : ∀ pair ∈ pairs, ∀ c ∈ pair.1 ++ pair.2, kept c = kept' c) :
    formText kept pairs = formText kept' pairs := by
  have hencode : ∀ text : List Char, (∀ c ∈ text, kept c = kept' c) →
      formEncode kept text = formEncode kept' text := by
    intro text htext
    refine List.flatMap_congr fun c hc => ?_
    rw [formEncodeChar, htext c hc, formEncodeChar]
  refine congrArg _ (List.map_congr_left fun pair hpair => ?_)
  rw [FormPair.write, hencode _ fun c hc => h pair hpair c (List.mem_append_left _ hc),
    hencode _ fun c hc => h pair hpair c (List.mem_append_right _ hc), FormPair.write]

/-- A text of kept characters is written as it is. -/
theorem formEncode_of_kept {text : List Char} (h : ∀ c ∈ text, c ≠ ' ' ∧ kept c = true) :
    formEncode kept text = text := by
  induction text with
  | nil => rfl
  | cons c text ih =>
    obtain ⟨hblank, hkept⟩ := h c List.mem_cons_self
    rw [formEncode, List.flatMap_cons, ← formEncode, ih fun d hd => h d (List.mem_cons_of_mem c hd),
      formEncodeChar, if_neg hblank, if_pos hkept, List.singleton_append]

/-- The characters of an escape. -/
def escapeChars : List Char := "%0123456789ABCDEF".toList

theorem escapeDigit_mem : ∀ n < 16, escapeDigit n ∈ escapeChars := by decide

/-- What is written of a text is kept, a blank or an escape. -/
theorem mem_formEncode {c : Char} {text : List Char}
    (h : c ∈ formEncode kept text) : kept c = true ∨ c ∈ '+' :: escapeChars := by
  obtain ⟨d, -, hd⟩ := List.mem_flatMap.mp h
  unfold formEncodeChar at hd
  split_ifs at hd with hblank hkept
  · exact .inr (List.mem_cons.mpr (.inl (List.mem_singleton.mp hd)))
  · exact .inl (List.mem_singleton.mp hd ▸ hkept)
  · obtain ⟨byte, -, hbyte⟩ := List.mem_flatMap.mp hd
    have hlt := byte.toNat_lt
    simp only [escapeByte, List.mem_cons, List.not_mem_nil, or_false] at hbyte
    refine .inr (List.mem_cons_of_mem _ ?_)
    rcases hbyte with rfl | rfl | rfl
    · decide
    · exact escapeDigit_mem _ (by omega)
    · exact escapeDigit_mem _ (by omega)

/-- What is written of pairs is that or a separator. -/
theorem mem_formText {c : Char} {pairs : List FormPair}
    (h : c ∈ formText kept pairs) : kept c = true ∨ c ∈ '&' :: '=' :: '+' :: escapeChars := by
  have hencode (text : List Char) (hc : c ∈ formEncode kept text) :
      kept c = true ∨ c ∈ '&' :: '=' :: '+' :: escapeChars :=
    (mem_formEncode hc).imp_right fun hc => List.mem_cons_of_mem _ (List.mem_cons_of_mem _ hc)
  induction pairs with
  | nil => exact absurd h List.not_mem_nil
  | cons pair pairs ih =>
    have hwrite : c ∈ pair.write kept → kept c = true ∨ c ∈ '&' :: '=' :: '+' :: escapeChars := by
      intro hc
      rcases List.mem_append.mp hc with hc | hc
      · exact hencode _ hc
      rcases List.mem_cons.mp hc with rfl | hc
      · exact .inr (by decide)
      · exact hencode _ hc
    match pairs with
    | [] => exact hwrite (by simpa [formText, List.intercalate] using h)
    | next :: rest =>
      rw [formText, List.map_cons, List.map_cons, List.intercalate_cons_cons] at h
      rcases List.mem_append.mp h with h | h
      · rcases List.mem_append.mp h with h | h
        · exact hwrite h
        · exact .inr (by simp_all)
      · exact ih h

/-- What is written of an ASCII text is at most three times as long. -/
theorem length_formEncode_le (kept : Char → Bool) {text : List Char}
    (htext : ∀ c ∈ text, c.toNat < 128) : (formEncode kept text).length ≤ 3 * text.length := by
  induction text with
  | nil => exact Nat.le_refl 0
  | cons c text ih =>
    have hchar : (formEncodeChar kept c).length ≤ 3 := by
      unfold formEncodeChar
      split_ifs
      · exact Nat.le_of_ble_eq_true rfl
      · exact Nat.le_of_ble_eq_true rfl
      · rw [utf8EncodeChar_of_ascii (htext c List.mem_cons_self), List.flatMap_singleton]
        exact Nat.le_refl 3
    have htail := ih fun d hd => htext d (List.mem_cons_of_mem c hd)
    rw [formEncode, List.flatMap_cons, List.length_append, List.length_cons]
    rw [formEncode] at htail
    omega

/-- What is written of short ASCII pairs is short. -/
theorem length_formText_le {pairs : List FormPair} {n : ℕ}
    (hpairs : ∀ pair ∈ pairs, pair.Ascii ∧ pair.1.length + pair.2.length ≤ n) :
    (formText kept pairs).length ≤ pairs.length * (3 * n + 2) := by
  induction pairs with
  | nil => exact Nat.zero_le _
  | cons pair pairs ih =>
    obtain ⟨⟨hname, hvalue⟩, hshort⟩ := hpairs pair List.mem_cons_self
    have hwrite : (pair.write kept).length + 1 ≤ 3 * n + 2 := by
      have hfirst := length_formEncode_le kept hname
      have hsecond := length_formEncode_le kept hvalue
      simp only [FormPair.write, List.length_append, List.length_cons]
      omega
    have htail := ih fun other hother => hpairs other (List.mem_cons_of_mem pair hother)
    rw [List.length_cons, Nat.succ_mul]
    match pairs with
    | [] =>
      simp only [formText, List.map_cons, List.map_nil, List.intercalate_singleton]
      omega
    | next :: rest =>
      rw [formText, List.map_cons, List.map_cons, List.intercalate_cons_cons, List.length_append,
        List.length_append, ← List.map_cons, ← formText, List.length_singleton]
      omega

end Characters

end Magistrate
