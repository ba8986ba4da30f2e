import Magistrate.Core.JsonDecoder
import Mathlib.Tactic.SplitIfs

/-!
# Canonical JSON is read back

The decoder reads each form of value at the head of a text and leaves what follows
it. So a value in canonical form decodes to itself, with the members of every object
in the order of their names.
-/

namespace Magistrate

namespace PyText

section Strings

theorem hexValue?_hexCode : ∀ digit < 16, hexValue? (hexCode digit) = some digit := by decide

/-- The escape of a control character is read as its code. -/
theorem escape?_control {code : ℕ} (h : code < 0x20) (rest : PyText) :
    escape? (of "u00" ++ [hexCode (code / 16), hexCode (code % 16)] ++ rest) =
      some (code, rest) := by
  have hhigh := hexValue?_hexCode (code / 16) (by omega)
  have hlow := hexValue?_hexCode (code % 16) (by omega)
  have hzero : hexValue? 0x30 = some 0 := rfl
  have hcode : ((0 * 16 + 0) * 16 + code / 16) * 16 + code % 16 = code := by omega
  have hread : unicodeEscape?
      (0x30 :: 0x30 :: hexCode (code / 16) :: hexCode (code % 16) :: rest) = some (code, rest) := by
    simp only [unicodeEscape?, hzero, hhigh, hlow, Option.bind_eq_bind, Option.bind_some, hcode]
    rfl
  have hsurrogate : decide (0xD800 ≤ code ∧ code ≤ 0xDBFF) = false := decide_eq_false (by omega)
  have htext : of "u00" ++ [hexCode (code / 16), hexCode (code % 16)] ++ rest =
      0x75 :: 0x30 :: 0x30 :: hexCode (code / 16) :: hexCode (code % 16) :: rest := rfl
  simp only [htext, escape?, hread, Option.bind_eq_bind, Option.bind_some, hsurrogate]
  cases lowSurrogate? rest <;> rfl

/-- A character is read back within quotes. -/
theorem scanString_escaped (fuel code : ℕ) (rest : PyText) :
    scanString (fuel + 1) (escaped code ++ rest) =
      (scanString fuel rest).map fun scanned => (code :: scanned.1, scanned.2) := by
  have hescape {source : PyText} (h : escape? source = some (code, rest)) :
      scanString (fuel + 1) (0x5C :: source) =
        (scanString fuel rest).map fun scanned => (code :: scanned.1, scanned.2) := by
    simp [scanString, h, Option.map_eq_bind]
  unfold escaped
  split_ifs with h1 h2 h3 h4 h5 h6 h7 h8
  · subst h1
    exact hescape rfl
  · subst h2
    exact hescape rfl
  · subst h3
    exact hescape rfl
  · subst h4
    exact hescape rfl
  · subst h5
    exact hescape rfl
  · subst h6
    exact hescape rfl
  · subst h7
    exact hescape rfl
  · exact hescape (escape?_control h8 rest)
  · simp [scanString, h1, h2, not_lt.mp h8]
    cases scanString fuel rest <;> rfl

theorem scanString_flatMap (text rest : PyText) {fuel : ℕ} (hfuel : text.length < fuel) :
    scanString fuel (text.flatMap escaped ++ 0x22 :: rest) = some (text, rest) := by
  induction text generalizing fuel with
  | nil =>
    obtain ⟨fuel, rfl⟩ := Nat.exists_eq_add_one.mpr hfuel
    rfl
  | cons code text ih =>
    obtain ⟨fuel, rfl⟩ := Nat.exists_eq_add_one.mpr (Nat.zero_lt_of_lt hfuel)
    rw [List.flatMap_cons, List.append_assoc, scanString_escaped,
      ih (Nat.lt_of_succ_lt_succ hfuel)]
    rfl

theorem length_le_flatMap_escaped (text : PyText) :
    text.length ≤ (text.flatMap escaped).length := by
  induction text with
  | nil => exact Nat.zero_le _
  | cons code text ih =>
    have hpos : 0 < (escaped code).length := by
      unfold escaped
      split_ifs <;> simp [of]
    simp only [List.flatMap_cons, List.length_append, List.length_cons]
    omega

end Strings

section Numbers

theorem of_append (first second : String) : of (first ++ second) = of first ++ of second := by
  simp [of]

/-- The digits of a number, as a text. -/
theorem of_repr (n : ℕ) : of n.repr = (Nat.toDigits 10 n).map Char.toNat := by
  rw [of, Nat.toList_repr]

theorem isDigit_of_repr {n code : ℕ} (h : code ∈ of n.repr) : isDigit code = true := by
  rw [of_repr] at h
  obtain ⟨c, hc, rfl⟩ := List.mem_map.mp h
  have hdigit := Nat.isDigit_of_mem_toDigits (by decide) (by decide) hc
  rw [Char.isDigit, Bool.and_eq_true, decide_eq_true_eq, decide_eq_true_eq] at hdigit
  exact decide_eq_true
    ⟨UInt32.le_iff_toNat_le.mp hdigit.1, UInt32.le_iff_toNat_le.mp hdigit.2⟩

theorem of_repr_ne_nil (n : ℕ) : of n.repr ≠ [] := by
  rw [of_repr, Ne, List.map_eq_nil_iff]
  exact Nat.toDigits_ne_nil

/-- Only zero is written with a zero first. -/
theorem head?_repr {n : ℕ} (h : (of n.repr).head? = some 0x30) : n = 0 := by
  induction n using Nat.strongRecOn with
  | ind n ih =>
    rcases Nat.lt_or_ge n 10 with hlt | hge
    · rw [of_repr, Nat.toDigits_of_lt_base hlt] at h
      have hcode := Nat.toNat_digitChar_of_lt_ten hlt
      simp only [List.map_singleton, List.head?_cons, Option.some.injEq, hcode] at h
      omega
    · rw [Nat.repr_eq_repr_append_repr hge, of_append,
        List.head?_append_of_ne_nil _ (of_repr_ne_nil _)] at h
      have hzero := ih (n / 10) (by omega) h
      omega

theorem decimal_repr (n : ℕ) : decimal (of n.repr) = n := by
  have hdigits := Nat.ofDigitChars_toDigits (b := 10) (n := n) (by decide) (by decide)
  rw [Nat.ofDigitChars_eq_foldl] at hdigits
  rw [decimal, of_repr, List.foldl_map]
  refine Eq.trans ?_ hdigits
  congr 1
  funext value c
  rw [Nat.mul_comm]
  rfl

/-- What follows a number does not go on with it. -/
def EndsNumber (rest : PyText) : Prop :=
  ∀ code ∈ rest.head?, isDigit code = false ∧ code ∉ [0x2E, 0x45, 0x65]

variable {rest : PyText}

theorem takeWhile_repr (n : ℕ) (h : EndsNumber rest) :
    (of n.repr ++ rest).takeWhile isDigit = of n.repr ∧
      (of n.repr ++ rest).dropWhile isDigit = rest := by
  have hall : ∀ code ∈ of n.repr, isDigit code = true := fun _ => isDigit_of_repr
  rw [List.takeWhile_append_of_pos hall, List.dropWhile_append_of_pos hall]
  cases rest with
  | nil => simp
  | cons code rest => simp [(h code rfl).1]

theorem integerDigits_repr (n : ℕ) (h : EndsNumber rest) :
    integerDigits (of n.repr ++ rest) = some (of n.repr, rest) := by
  obtain ⟨htake, hdrop⟩ := takeWhile_repr n h
  cases hrepr : of n.repr with
  | nil => exact absurd hrepr (of_repr_ne_nil n)
  | cons code digits =>
    have hdigit : isDigit code = true := isDigit_of_repr (n := n) (by simp [hrepr])
    rw [hrepr, List.cons_append, List.takeWhile_cons_of_pos hdigit] at htake
    rw [hrepr, List.cons_append, List.dropWhile_cons_of_pos hdigit] at hdrop
    by_cases hzero : code = 0x30
    · subst hzero
      obtain rfl := head?_repr (n := n) (by rw [hrepr]; rfl)
      obtain rfl : digits = [] := by
        have : of (Nat.repr 0) = [0x30] := by decide
        rw [this] at hrepr
        simpa using hrepr.symm
      rfl
    · rw [List.cons_append, integerDigits, if_pos hdigit, (List.cons.inj htake).2, hdrop]
      simpa using hzero

theorem markedDigits_ends {marks : List ℕ} (hmarks : marks ⊆ [0x2E, 0x45, 0x65])
    (h : EndsNumber rest) : markedDigits marks rest = ([], rest) := by
  cases rest with
  | nil => rfl
  | cons code rest =>
    have hmark : ¬marks.contains code = true := fun hmark =>
      (h code rfl).2 (hmarks (List.contains_iff_mem.mp hmark))
    rw [markedDigits, if_neg fun h => hmark h.1]

theorem exponent_ends (h : EndsNumber rest) : exponent rest = ([], rest) := by
  have hnone : markedDigits [0x45, 0x65] rest = ([], rest) := markedDigits_ends (by simp) h
  match rest with
  | [] => rfl
  | [code] => rfl
  | mark :: sign :: rest =>
    have hmark : ¬[0x45, 0x65].contains mark = true := fun hmark => by
      have := (h mark rfl).2
      simp_all
    rw [exponent, if_neg fun h => hmark h.1, hnone]

end Numbers

end PyText

namespace PyJson

open PyText

variable {rest : PyText}

theorem scanNumber_int (value : ℤ) (h : EndsNumber rest) :
    scanNumber (of (toString value) ++ rest) = some (.int value, rest) := by
  have hfraction : markedDigits [0x2E] rest = ([], rest) := markedDigits_ends (by simp) h
  have hpower := exponent_ends h
  cases value with
  | ofNat n =>
    have hdigits := integerDigits_repr n h
    have htext : of (toString (Int.ofNat n)) = of n.repr := rfl
    have hsign : (of n.repr ++ rest).head? ≠ some 0x2D := fun hhead => by
      rw [List.head?_append_of_ne_nil _ (of_repr_ne_nil n)] at hhead
      have := isDigit_of_repr (List.mem_of_mem_head? hhead)
      simp [isDigit] at this
    simp only [htext, scanNumber, if_neg hsign, hdigits, hfraction, hpower, decimal_repr,
      Option.bind_eq_bind, Option.bind_some, and_self, if_true]
    rfl
  | negSucc n =>
    have hdigits := integerDigits_repr (n + 1) h
    have htext : of (toString (Int.negSucc n)) = 0x2D :: of (n + 1).repr := by
      exact of_append "-" _
    simp only [htext, scanNumber, List.cons_append, List.head?_cons, List.tail_cons, hdigits,
      hfraction, hpower, decimal_repr, Option.bind_eq_bind, Option.bind_some, and_self, if_true]
    rw [if_neg (List.cons_ne_nil _ _), Int.negSucc_eq]
    rfl

section Parts

/-- A text that no white space, mark or closing bracket begins. -/
def Starts (source : PyText) : Prop :=
  ∃ code rest, source = code :: rest ∧ isBlankCode code = false ∧ code ∉ [0x5D, 0x7D, 0xFEFF]

/-- What may follow a value: nothing, a comma or a closing bracket. -/
def Ends (rest : PyText) : Prop := ∀ code ∈ rest.head?, code ∈ [0x2C, 0x5D, 0x7D]

/-- A scanner reads a text as a value. -/
structure Reads {α : Type} (scan : PyText → Option (α × PyText)) (source : PyText) (value : α) :
    Prop where
  starts : Starts source
  scanned : ∀ rest, Ends rest → scan (source ++ rest) = some (value, rest)

variable {α : Type} {scan : PyText → Option (α × PyText)} {closing : ℕ}

theorem Starts.append {source : PyText} (h : Starts source) (rest : PyText) :
    Starts (source ++ rest) := by
  obtain ⟨code, tail, rfl, hblank, hclosing⟩ := h
  exact ⟨code, tail ++ rest, rfl, hblank, hclosing⟩

theorem Starts.skipBlanks {source : PyText} (h : Starts source) : skipBlanks source = source := by
  obtain ⟨code, tail, rfl, hblank, -⟩ := h
  rw [PyText.skipBlanks, List.dropWhile_cons_of_neg (by simp [hblank])]

theorem Starts.head?_ne {source : PyText} (h : Starts source)
    (hclosing : closing ∈ [0x5D, 0x7D, 0xFEFF]) : source.head? ≠ some closing := by
  obtain ⟨code, tail, rfl, -, hcode⟩ := h
  rintro ⟨⟩
  exact hcode hclosing

theorem skipBlanks_cons {code : ℕ} (h : isBlankCode code = false) (rest : PyText) :
    skipBlanks (code :: rest) = code :: rest := by
  rw [skipBlanks, List.dropWhile_cons_of_neg (by simp [h])]

theorem ends_cons {code : ℕ} (h : code ∈ [0x2C, 0x5D, 0x7D]) (rest : PyText) :
    Ends (code :: rest) := by
  rintro _ ⟨⟩
  exact h

/-- Parts between commas start as the first one does. -/
theorem Starts.intercalate {first : PyText} (h : Starts first) (parts : List PyText) :
    Starts ([0x2C].intercalate (first :: parts)) := by
  cases parts with
  | nil => rwa [List.intercalate_singleton]
  | cons second parts =>
    rw [List.intercalate_cons_cons, List.append_assoc]
    exact h.append _

theorem length_le_intercalate (first : PyText) (parts : List PyText) :
    parts.length ≤ ([0x2C].intercalate (first :: parts)).length := by
  induction parts generalizing first with
  | nil => exact Nat.zero_le _
  | cons second parts ih =>
    have hrest := ih second
    rw [List.intercalate_cons_cons]
    simp only [List.length_append, List.length_cons, List.length_nil]
    omega

theorem length_le_of_mem_intercalate {part : PyText} {parts : List PyText} (h : part ∈ parts) :
    part.length ≤ ([0x2C].intercalate parts).length := by
  induction parts with
  | nil => cases h
  | cons first parts ih =>
    cases parts with
    | nil => simp_all
    | cons second parts =>
      rw [List.intercalate_cons_cons]
      simp only [List.length_append, List.length_cons, List.length_nil]
      rcases List.mem_cons.mp h with rfl | h
      · omega
      · have hrest := ih h
        omega

/-- Parts with commas between them are read one by one. -/
theorem scanParts_intercalate (hclosing : closing ∈ [0x5D, 0x7D]) (part : PyText × α)
    (parts : List (PyText × α)) (h : ∀ p ∈ part :: parts, Reads scan p.1 p.2) (rest : PyText)
    {fuel : ℕ} (hfuel : parts.length < fuel) :
    scanParts closing scan fuel
        ([0x2C].intercalate ((part :: parts).map Prod.fst) ++ closing :: rest) =
      some ((part :: parts).map Prod.snd, rest) := by
  obtain ⟨hends, hcomma, hblank⟩ : closing ∈ [0x2C, 0x5D, 0x7D] ∧ closing ≠ 0x2C ∧
      isBlankCode closing = false := by
    rcases List.mem_pair.mp hclosing with rfl | rfl <;> decide
  have hpart := h part List.mem_cons_self
  induction parts generalizing part fuel with
  | nil =>
    obtain ⟨fuel, rfl⟩ := Nat.exists_eq_add_one.mpr hfuel
    have hread := hpart.scanned (closing :: rest) (ends_cons hends rest)
    simp [scanParts, hread, skipBlanks_cons hblank]
  | cons next parts ih =>
    obtain ⟨fuel, rfl⟩ := Nat.exists_eq_add_one.mpr (Nat.zero_lt_of_lt hfuel)
    have htail : ∀ p ∈ next :: parts, Reads scan p.1 p.2 := fun p hp =>
      h p (List.mem_cons_of_mem _ hp)
    have hnext := ih next htail (Nat.lt_of_succ_lt_succ hfuel)
      (htail next List.mem_cons_self)
    have hstarts : Starts
        ([0x2C].intercalate ((next :: parts).map Prod.fst) ++ closing :: rest) :=
      ((htail next List.mem_cons_self).starts.intercalate _).append _
    have hread := hpart.scanned
      (0x2C :: ([0x2C].intercalate ((next :: parts).map Prod.fst) ++ closing :: rest))
      (ends_cons (by simp) _)
    have hjoin : [0x2C].intercalate ((part :: next :: parts).map Prod.fst) ++ closing :: rest =
        part.1 ++
          0x2C :: ([0x2C].intercalate ((next :: parts).map Prod.fst) ++ closing :: rest) := by
      rw [List.map_cons, List.map_cons, List.intercalate_cons_cons, List.append_assoc,
        List.append_assoc]
      rfl
    have hcomma' : skipBlanks
        (0x2C :: ([0x2C].intercalate ((next :: parts).map Prod.fst) ++ closing :: rest)) =
          0x2C :: ([0x2C].intercalate ((next :: parts).map Prod.fst) ++ closing :: rest) :=
      skipBlanks_cons rfl _
    rw [hjoin]
    simp only [scanParts, hread, hcomma', List.head?_cons, List.tail_cons,
      hstarts.skipBlanks, hnext, Option.bind_eq_bind, Option.bind_some, Option.some.injEq,
        hcomma.symm, if_false, guard_true]
    rfl

/-- Parts between brackets are read one by one. -/
theorem scanBracketed_intercalate (hclosing : closing ∈ [0x5D, 0x7D])
    (parts : List (PyText × α)) (h : ∀ p ∈ parts, Reads scan p.1 p.2) (rest : PyText) :
    scanBracketed closing scan ([0x2C].intercalate (parts.map Prod.fst) ++ closing :: rest) =
      some (parts.map Prod.snd, rest) := by
  cases parts with
  | nil =>
    have hblank : isBlankCode closing = false := by
      rcases List.mem_pair.mp hclosing with rfl | rfl <;> decide
    simp [scanBracketed, skipBlanks_cons hblank]
  | cons part parts =>
    have hstarts : Starts
        ([0x2C].intercalate ((part :: parts).map Prod.fst) ++ closing :: rest) :=
      ((h part List.mem_cons_self).starts.intercalate _).append _
    have hne : ([0x2C].intercalate ((part :: parts).map Prod.fst) ++ closing :: rest).head? ≠
        some closing :=
      hstarts.head?_ne (by rcases List.mem_pair.mp hclosing with rfl | rfl <;> decide)
    simp only [scanBracketed, hstarts.skipBlanks, if_neg hne]
    refine scanParts_intercalate hclosing part parts h rest ?_
    have hlength := length_le_intercalate part.1 (parts.map Prod.fst)
    simp only [List.length_map] at hlength
    simp only [List.map_cons, List.length_append, List.length_cons]
    omega

/-- A member of an object is read as its name and its value. -/
theorem Reads.member {source : PyText} {value : α} (h : Reads scan source value) (name : PyText) :
    Reads (scanMember scan) (name.quoted ++ [0x3A] ++ source) (name, value) where
  starts := ⟨0x22, name.flatMap escaped ++ [0x22] ++ [0x3A] ++ source, by simp [quoted], by decide,
    by decide⟩
  scanned rest hrest := by
    have hlength := length_le_flatMap_escaped name
    have htext : name.quoted ++ [0x3A] ++ source ++ rest =
        0x22 :: (name.flatMap escaped ++ 0x22 :: (0x3A :: (source ++ rest))) := by
      simp [quoted]
    have hname : scanString
        (0x22 :: (name.flatMap escaped ++ 0x22 :: (0x3A :: (source ++ rest)))).length
        (name.flatMap escaped ++ 0x22 :: (0x3A :: (source ++ rest))) =
          some (name, 0x3A :: (source ++ rest)) := by
      refine scanString_flatMap name _ ?_
      simp only [List.length_cons, List.length_append]
      omega
    have hcolon : skipBlanks (0x3A :: (source ++ rest)) = 0x3A :: (source ++ rest) :=
      skipBlanks_cons rfl _
    rw [htext]
    simp only [scanMember, List.head?_cons, List.tail_cons, hname, hcolon,
      (h.starts.append rest).skipBlanks, h.scanned rest hrest, Option.bind_eq_bind,
      Option.bind_some, guard_true]
    rfl

end Parts

/-- Without numbers that are no integers, and with one member of a name in every object. -/
inductive Plain : PyJson → Prop
  | null : Plain .null
  | bool (value : Bool) : Plain (.bool value)
  | int (value : ℤ) : Plain (.int value)
  | text (value : PyText) : Plain (.text value)
  | list {items : List PyJson} (plain : ∀ item ∈ items, Plain item) : Plain (.list items)
  | dict {fields : List (PyText × PyJson)} (names : (fields.map Prod.fst).Nodup)
      (plain : ∀ field ∈ fields, Plain field.2) : Plain (.dict fields)

mutual

/-- The value with the members of its objects in the order of their names. -/
def sortMembers : PyJson → PyJson
  | .null => .null
  | .bool value => .bool value
  | .int value => .int value
  | .real digits => .real digits
  | .text value => .text value
  | .list items => .list (sortItems items)
  | .dict fields => .dict ((sortFields fields).insertionSort fun a b => a.1 ≤ b.1)

/-- The items of an array, each with its members sorted. -/
def sortItems : List PyJson → List PyJson
  | [] => []
  | value :: rest => sortMembers value :: sortItems rest

/-- The members of an object, each with its members sorted. -/
def sortFields : List (PyText × PyJson) → List (PyText × PyJson)
  | [] => []
  | (name, value) :: rest => (name, sortMembers value) :: sortFields rest

end

theorem canonicalItems_eq_map (items : List PyJson) :
    canonicalItems items = items.map canonicalJson := by
  induction items with
  | nil => rfl
  | cons item items ih => rw [canonicalItems, ih, List.map_cons]

theorem canonicalFields_eq_map (fields : List (PyText × PyJson)) :
    canonicalFields fields = fields.map fun field => (field.1, canonicalJson field.2) := by
  induction fields with
  | nil => rfl
  | cons field fields ih => rw [canonicalFields, ih, List.map_cons]

theorem sortItems_eq_map (items : List PyJson) : sortItems items = items.map sortMembers := by
  induction items with
  | nil => rfl
  | cons item items ih => rw [sortItems, ih, List.map_cons]

theorem sortFields_eq_map (fields : List (PyText × PyJson)) :
    sortFields fields = fields.map fun field => (field.1, sortMembers field.2) := by
  induction fields with
  | nil => rfl
  | cons field fields ih => rw [sortFields, ih, List.map_cons]

/-- Members by the order of their names. -/
def byName (fields : List (PyText × PyJson)) : List (PyText × PyJson) :=
  fields.insertionSort fun a b => a.1 ≤ b.1

theorem insertionSort_map {β : Type} (f : PyJson → β) (fields : List (PyText × PyJson)) :
    (fields.map fun field => (field.1, f field.2)).insertionSort (fun a b => a.1 ≤ b.1) =
      (byName fields).map fun field => (field.1, f field.2) :=
  (List.map_insertionSort (r := fun a b : PyText × PyJson => a.1 ≤ b.1)
    (s := fun a b : PyText × β => a.1 ≤ b.1) _ fields fun _ _ _ _ => Iff.rfl).symm

theorem sortMembers_dict (fields : List (PyText × PyJson)) : (PyJson.dict fields).sortMembers =
    .dict ((byName fields).map fun field => (field.1, field.2.sortMembers)) := by
  rw [sortMembers, sortFields_eq_map, insertionSort_map]

theorem putMember_of_not_mem {fields : List (PyText × PyJson)} {member : PyText × PyJson}
    (h : member.1 ∉ fields.map Prod.fst) : putMember fields member = fields ++ [member] := by
  rw [putMember, if_neg h]

theorem foldl_putMember {fields members : List (PyText × PyJson)}
    (h : ((fields ++ members).map Prod.fst).Nodup) :
    members.foldl putMember fields = fields ++ members := by
  induction members generalizing fields with
  | nil => simp
  | cons member members ih =>
    have hnot : member.1 ∉ fields.map Prod.fst := fun hmem => by
      rw [List.map_append, List.nodup_append] at h
      exact h.2.2 _ hmem _ (by simp) rfl
    rw [List.foldl_cons, putMember_of_not_mem hnot, ih (by simpa using h)]
    simp

/-- An integer begins with a sign or a digit. -/
theorem exists_of_toString (value : ℤ) : ∃ code tail, of (toString value) = code :: tail ∧
    (code = 0x2D ∨ 48 ≤ code ∧ code ≤ 57) := by
  cases value with
  | ofNat n =>
    have htext : of (toString (Int.ofNat n)) = of n.repr := rfl
    cases hrepr : of n.repr with
    | nil => exact absurd hrepr (of_repr_ne_nil n)
    | cons code tail =>
      have hdigit : isDigit code = true := isDigit_of_repr (n := n) (by simp [hrepr])
      exact ⟨code, tail, htext.trans hrepr, .inr (of_decide_eq_true hdigit)⟩
  | negSucc n => exact ⟨0x2D, of (n + 1).repr, of_append "-" _, .inl rfl⟩

theorem length_le_of_bracketed {opening closing : Char} {part : PyText} {parts : List PyText}
    (h : part ∈ parts) : part.length + 2 ≤ (bracketed opening closing parts).length := by
  have hle := length_le_of_mem_intercalate h
  simp only [bracketed, List.length_append, List.length_cons, List.length_nil]
  omega

/-- What may follow a value goes on with no number. -/
theorem Ends.endsNumber {rest : PyText} (h : Ends rest) : EndsNumber rest := by
  intro code hcode
  have hmem := h code hcode
  simp only [List.mem_cons, List.not_mem_nil, or_false] at hmem
  rcases hmem with rfl | rfl | rfl <;> decide

/-- A text in canonical form is read as its value. -/
theorem reads_canonicalJson {value : PyJson} (h : Plain value) {depth : ℕ}
    (hdepth : value.canonicalJson.length ≤ depth) :
    Reads (scanOnce depth) value.canonicalJson value.sortMembers := by
  induction h generalizing depth with
  | null =>
    obtain ⟨depth, rfl⟩ := Nat.exists_eq_add_one.mpr (Nat.lt_of_lt_of_le (by decide) hdepth)
    exact ⟨⟨_, _, rfl, by decide, by decide⟩, fun rest _ => rfl⟩
  | bool value =>
    obtain ⟨depth, rfl⟩ := Nat.exists_eq_add_one.mpr
      (Nat.lt_of_lt_of_le (by cases value <;> decide) hdepth)
    cases value
    · exact ⟨⟨_, _, rfl, by decide, by decide⟩, fun rest _ => rfl⟩
    · exact ⟨⟨_, _, rfl, by decide, by decide⟩, fun rest _ => rfl⟩
  | int value =>
    obtain ⟨code, tail, htext, hcode⟩ := exists_of_toString value
    have hjson : (PyJson.int value).canonicalJson = code :: tail := htext
    obtain ⟨depth, rfl⟩ := Nat.exists_eq_add_one.mpr
      (Nat.lt_of_lt_of_le (by simp [hjson]) hdepth)
    have hblank : isBlankCode code = false := by
      simp only [isBlankCode, List.contains_eq_mem, decide_eq_false_iff_not, List.mem_cons,
        List.not_mem_nil, or_false]
      omega
    refine ⟨⟨code, tail, hjson, hblank, by simp; omega⟩, fun rest hrest => ?_⟩
    have hread := scanNumber_int value hrest.endsNumber
    rw [htext, List.cons_append] at hread
    rw [hjson, List.cons_append, scanOnce, if_neg (by omega), if_neg (by omega),
      if_neg (by omega), hread]
    rfl
  | text value =>
    obtain ⟨depth, rfl⟩ := Nat.exists_eq_add_one.mpr
      (Nat.lt_of_lt_of_le (by simp [canonicalJson, quoted]) hdepth)
    refine ⟨⟨_, _, rfl, by decide, by decide⟩, fun rest _ => ?_⟩
    have hlength := length_le_flatMap_escaped value
    have hread : scanString ((value.flatMap escaped ++ 0x22 :: rest).length + 1)
        (value.flatMap escaped ++ 0x22 :: rest) = some (value, rest) := by
      refine scanString_flatMap value rest ?_
      simp only [List.length_append]
      omega
    have htext : (PyJson.text value).canonicalJson ++ rest =
        0x22 :: (value.flatMap escaped ++ 0x22 :: rest) := by
      simp [canonicalJson, quoted]
    rw [htext, scanOnce, if_pos rfl, hread]
    rfl
  | @list items plain ih =>
    obtain ⟨depth, rfl⟩ := Nat.exists_eq_add_one.mpr
      (Nat.lt_of_lt_of_le (by simp [canonicalJson, bracketed]) hdepth)
    refine ⟨⟨_, _, rfl, by decide, by decide⟩, fun rest _ => ?_⟩
    have hparts : ∀ p ∈ items.map fun item => (item.canonicalJson, item.sortMembers),
        Reads (scanOnce depth) p.1 p.2 := by
      intro p hp
      obtain ⟨item, hitem, rfl⟩ := List.mem_map.mp hp
      refine ih item hitem ?_
      rw [canonicalJson, canonicalItems_eq_map] at hdepth
      have hlength : item.canonicalJson.length + 2 ≤
          (bracketed '[' ']' (items.map canonicalJson)).length :=
        length_le_of_bracketed (List.mem_map_of_mem hitem)
      omega
    have hread := scanBracketed_intercalate (show 0x5D ∈ [0x5D, 0x7D] by decide) _ hparts rest
    have htext : (PyJson.list items).canonicalJson ++ rest =
        0x5B :: ([0x2C].intercalate (items.map canonicalJson) ++ 0x5D :: rest) := by
      simp [canonicalJson, canonicalItems_eq_map, bracketed]
    rw [List.map_map, List.map_map] at hread
    rw [htext, scanOnce, if_neg (by decide), if_pos rfl]
    refine (congrArg (Option.map _) hread).trans ?_
    rw [sortMembers, sortItems_eq_map]
    rfl
  | @dict fields names plain ih =>
    have hjson : (PyJson.dict fields).canonicalJson =
        bracketed '\x7b' '\x7d' ((byName fields).map fun field =>
          field.1.quoted ++ [0x3A] ++ field.2.canonicalJson) := by
      rw [canonicalJson, canonicalFields_eq_map, insertionSort_map, List.map_map]
      rfl
    obtain ⟨depth, rfl⟩ := Nat.exists_eq_add_one.mpr
      (Nat.lt_of_lt_of_le (by simp [hjson, bracketed]) hdepth)
    refine ⟨⟨_, _, hjson, by decide, by decide⟩, fun rest _ => ?_⟩
    have hmembers : ∀ p ∈ (byName fields).map fun field =>
        (field.1.quoted ++ [0x3A] ++ field.2.canonicalJson, (field.1, field.2.sortMembers)),
        Reads (scanMember (scanOnce depth)) p.1 p.2 := by
      intro p hp
      obtain ⟨field, hfield, rfl⟩ := List.mem_map.mp hp
      have hmem : field ∈ fields := (List.perm_insertionSort _ fields).subset hfield
      refine (ih field hmem ?_).member field.1
      rw [hjson] at hdepth
      have hlength : (field.1.quoted ++ [0x3A] ++ field.2.canonicalJson).length + 2 ≤
          (bracketed '\x7b' '\x7d' ((byName fields).map fun field =>
            field.1.quoted ++ [0x3A] ++ field.2.canonicalJson)).length :=
        length_le_of_bracketed (List.mem_map.mpr ⟨field, hfield, rfl⟩)
      simp only [List.length_append] at hlength
      omega
    have hread := scanBracketed_intercalate (show 0x7D ∈ [0x5D, 0x7D] by decide) _ hmembers rest
    rw [List.map_map, List.map_map] at hread
    have hnames : (((byName fields).map fun field => (field.1, field.2.sortMembers)).map
        Prod.fst).Nodup := by
      rw [List.map_map]
      exact ((List.perm_insertionSort _ fields).map Prod.fst).nodup_iff.mpr names
    have htext : (PyJson.dict fields).canonicalJson ++ rest =
        0x7B :: ([0x2C].intercalate ((byName fields).map fun field =>
          field.1.quoted ++ [0x3A] ++ field.2.canonicalJson) ++ 0x7D :: rest) := by
      rw [hjson]
      simp [bracketed]
    rw [htext, scanOnce, if_neg (by decide), if_neg (by decide), if_pos rfl]
    refine (congrArg (Option.map _) hread).trans ?_
    rw [Option.map_some, sortMembers_dict]
    have hput : ((byName fields).map fun field => (field.1, field.2.sortMembers)).foldl
        putMember [] = (byName fields).map fun field => (field.1, field.2.sortMembers) :=
      foldl_putMember hnames
    exact congrArg (fun members => some (PyJson.dict members, rest)) hput

/-- What is decoded of a text in canonical form is its value. -/
theorem loads_canonicalJson {value : PyJson} (h : Plain value) :
    loads value.canonicalJson = some value.sortMembers := by
  have hread := reads_canonicalJson h (Nat.le_succ value.canonicalJson.length)
  have hscanned := hread.scanned [] (by simp [Ends])
  rw [List.append_nil] at hscanned
  have hmark : value.canonicalJson.head? ≠ some 0xFEFF := hread.starts.head?_ne (by decide)
  simp only [loads, hread.starts.skipBlanks, hscanned, Option.bind_eq_bind, Option.bind_some]
  simp [hmark, skipBlanks]

section Reading

variable {fields : List (PyText × PyJson)} {value : PyJson}

/-- Where every name stands once, a name finds its member. -/
theorem lookup_eq_some_iff_mem {name : PyText} {member : PyJson}
    (names : (fields.map Prod.fst).Nodup) :
    fields.lookup name = some member ↔ (name, member) ∈ fields := by
  induction fields with
  | nil => simp
  | cons field fields ih =>
    obtain ⟨hnot, hrest⟩ := List.nodup_cons.mp names
    rw [List.lookup_cons]
    by_cases hname : name = field.1
    · subst hname
      have hother : (field.1, member) ∉ fields := fun h => hnot (List.mem_map.mpr ⟨_, h, rfl⟩)
      simp [hother, Prod.ext_iff, eq_comm]
    · rw [show (name == field.1) = false from beq_eq_false_iff_ne.mpr hname]
      refine (ih hrest).trans ⟨List.mem_cons_of_mem _, fun h => ?_⟩
      rcases List.mem_cons.mp h with rfl | h
      · exact absurd rfl hname
      · exact h

theorem lookup_byName (names : (fields.map Prod.fst).Nodup) (name : PyText) :
    (byName fields).lookup name = fields.lookup name := by
  have hperm : (byName fields).Perm fields := List.perm_insertionSort _ fields
  refine Option.ext fun member => ?_
  rw [lookup_eq_some_iff_mem names,
    lookup_eq_some_iff_mem ((hperm.map Prod.fst).nodup_iff.mpr names), hperm.mem_iff]

theorem lookup_map (f : PyJson → PyJson) (name : PyText) :
    (fields.map fun field => (field.1, f field.2)).lookup name = (fields.lookup name).map f := by
  induction fields with
  | nil => rfl
  | cons field fields ih =>
    rw [List.map_cons, List.lookup_cons, List.lookup_cons, ih]
    cases name == field.1 <;> rfl

/-- The order of the members changes none of them. -/
theorem getD_sortMembers (h : Plain value) (name : String) (default_ : PyJson) :
    value.sortMembers.getD name default_.sortMembers = (value.getD name default_).sortMembers := by
  cases h with
  | null => rfl
  | bool value => rfl
  | int value => rfl
  | text value => rfl
  | list plain => rfl
  | @dict fields names plain =>
    rw [sortMembers_dict, getD, lookup_map, lookup_byName names, getD]
    cases fields.lookup (PyText.of name) <;> rfl

theorem get_sortMembers (h : Plain value) (name : String) :
    value.sortMembers.get name = (value.get name).sortMembers := getD_sortMembers h name .null

@[simp] theorem text?_sortMembers (value : PyJson) : value.sortMembers.text? = value.text? := by
  cases value <;> rfl

@[simp] theorem count?_sortMembers (value : PyJson) : value.sortMembers.count? = value.count? := by
  cases value <;> rfl

@[simp] theorem isDict_sortMembers (value : PyJson) : value.sortMembers.isDict = value.isDict := by
  cases value <;> rfl

end Reading

end PyJson

end Magistrate
