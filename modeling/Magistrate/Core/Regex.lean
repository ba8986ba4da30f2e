import Mathlib.Data.List.Basic

/-!
# Regular expressions of two engines

The patterns that the code tests texts with, without case. Whether a text has a
match depends on what an engine takes for a space, a word character and a letter of
another case; on the characters on which two engines agree they find the same.
-/

namespace Magistrate

/-- What an engine takes for a space and for a word character, and the characters that it takes for
a character when case is ignored. -/
structure RegexFlavor where
  isSpace : Char → Bool
  isWord : Char → Bool
  variants : Char → List Char

/-- A member of a set of characters. -/
inductive RegexItem where
  | char (c : Char)
  | range (low high : Char)
  | space
  deriving DecidableEq, Repr

/-- A set of characters, or its complement. -/
structure RegexSet where
  items : List RegexItem
  negated : Bool := false
  deriving DecidableEq, Repr

/-- A pattern; repetition is of a set only. -/
inductive Regex where
  | empty
  | one (set : RegexSet)
  | many (set : RegexSet) (min : ℕ) (max : Option ℕ)
  | seq (first second : Regex)
  | alt (first second : Regex)
  | boundary
  | start
  | notAfter (set : RegexSet)
  deriving Repr

namespace RegexFlavor

variable (flavor : RegexFlavor)

/-- The set has the character. -/
def has (set : RegexSet) (c : Char) : Bool :=
  set.negated != set.items.any fun
    | .char d => (flavor.variants c).contains d
    | .range low high => (flavor.variants c).any fun d => decide (low ≤ d ∧ d ≤ high)
    | .space => flavor.isSpace c

/-- The places after a repetition: the character before, and the text that is left. -/
def manyEnds (set : RegexSet) :
    ℕ → Option ℕ → Option Char → List Char → List (Option Char × List Char)
  | min, _, prev, [] => if min = 0 then [(prev, [])] else []
  | min, max, prev, c :: rest =>
    (if min = 0 then [(prev, c :: rest)] else []) ++
      if max ≠ some 0 ∧ flavor.has set c then
        manyEnds set (min - 1) (max.map (· - 1)) (some c) rest
      else []

/-- The places after a match of a pattern that starts at a place. -/
def ends : Regex → Option Char → List Char → List (Option Char × List Char)
  | .empty, prev, rest => [(prev, rest)]
  | .one set, _, rest =>
    match rest with
    | [] => []
    | c :: rest => if flavor.has set c then [(some c, rest)] else []
  | .many set min max, prev, rest => flavor.manyEnds set min max prev rest
  | .seq first second, prev, rest =>
    (ends first prev rest).flatMap fun mid => ends second mid.1 mid.2
  | .alt first second, prev, rest => ends first prev rest ++ ends second prev rest
  | .boundary, prev, rest =>
    if (prev.any flavor.isWord) != (rest.head?.any flavor.isWord) then [(prev, rest)] else []
  | .start, prev, rest => if prev = none then [(prev, rest)] else []
  | .notAfter set, prev, rest => if prev.any (flavor.has set) then [] else [(prev, rest)]

/-- A match starts at a place. -/
def matchesAt (regex : Regex) (prev : Option Char) (rest : List Char) : Bool :=
  !(flavor.ends regex prev rest).isEmpty

/-- A match starts at a place or later. -/
def searchFrom (regex : Regex) : Option Char → List Char → Bool
  | prev, [] => flavor.matchesAt regex prev []
  | prev, c :: rest => flavor.matchesAt regex prev (c :: rest) || searchFrom regex (some c) rest

/-- The text has a match. -/
def search (regex : Regex) (text : List Char) : Bool := flavor.searchFrom regex none text

end RegexFlavor

namespace Regex

/-- A literal text. -/
def lit (text : String) : Regex :=
  text.toList.foldr (fun c rest => .seq (.one ⟨[.char c], false⟩) rest) .empty

/-- One of several patterns. -/
def any : List Regex → Regex
  | [] => .one ⟨[], false⟩
  | [last] => last
  | first :: rest => .alt first (any rest)

/-- Patterns one after another. -/
def all (parts : List Regex) : Regex := parts.foldr .seq .empty

/-- A pattern that may be left out. -/
def opt (body : Regex) : Regex := .alt body .empty

/-- Every match of the pattern has a character of one of the sets. -/
def demands (sets : List RegexSet) : Regex → Bool
  | .one set => decide (set ∈ sets)
  | .many set min _ => decide (set ∈ sets ∧ 0 < min)
  | .seq first second => demands sets first || demands sets second
  | .alt first second => demands sets first && demands sets second
  | _ => false

end Regex

namespace RegexFlavor

variable {flavor other : RegexFlavor}

/-- Two engines treat a character alike. -/
structure Alike (flavor other : RegexFlavor) (c : Char) : Prop where
  space : flavor.isSpace c = other.isSpace c
  word : flavor.isWord c = other.isWord c
  variants : flavor.variants c = other.variants c

theorem Alike.has {c : Char} (h : Alike flavor other c) (set : RegexSet) :
    flavor.has set c = other.has set c := by
  simp only [RegexFlavor.has, h.space, h.variants]

/-- The characters of a place are treated alike. -/
def AlikeAt (flavor other : RegexFlavor) (prev : Option Char) (rest : List Char) : Prop :=
  (∀ c ∈ prev, Alike flavor other c) ∧ ∀ c ∈ rest, Alike flavor other c

theorem AlikeAt.next {prev : Option Char} {c : Char} {rest : List Char}
    (h : AlikeAt flavor other prev (c :: rest)) : AlikeAt flavor other (some c) rest :=
  ⟨by simpa using h.2 c List.mem_cons_self, fun d hd => h.2 d (List.mem_cons_of_mem c hd)⟩

theorem AlikeAt.prev_any {prev : Option Char} {rest : List Char}
    (h : AlikeAt flavor other prev rest) {p q : Char → Bool}
    (hpq : ∀ c, Alike flavor other c → p c = q c) : prev.any p = prev.any q := by
  cases prev with
  | none => rfl
  | some c => exact hpq c (h.1 c rfl)

theorem AlikeAt.head_any {prev : Option Char} {rest : List Char}
    (h : AlikeAt flavor other prev rest) {p q : Char → Bool}
    (hpq : ∀ c, Alike flavor other c → p c = q c) : rest.head?.any p = rest.head?.any q := by
  cases rest with
  | nil => rfl
  | cons c rest => exact hpq c (h.2 c List.mem_cons_self)

/-- A repetition ends where its characters are treated alike. -/
theorem alikeAt_manyEnds {set : RegexSet} {min : ℕ} {max : Option ℕ} {prev : Option Char}
    {rest : List Char} (h : AlikeAt flavor other prev rest) :
    flavor.manyEnds set min max prev rest = other.manyEnds set min max prev rest ∧
      ∀ place ∈ flavor.manyEnds set min max prev rest, AlikeAt flavor other place.1 place.2 := by
  induction rest generalizing min max prev with
  | nil =>
    simp only [manyEnds, true_and]
    split
    · simpa using h
    · simp
  | cons c rest ih =>
    obtain ⟨heq, hplaces⟩ := @ih (min - 1) (max.map (· - 1)) (some c) h.next
    have hset := (h.2 c List.mem_cons_self).has set
    unfold manyEnds
    rw [← hset, heq]
    refine ⟨rfl, fun place hplace => ?_⟩
    rcases List.mem_append.mp hplace with hhere | hlater
    · split at hhere
      · exact List.mem_singleton.mp hhere ▸ h
      · cases hhere
    · split at hlater
      · exact hplaces place (heq ▸ hlater)
      · cases hlater

/-- A match ends where its characters are treated alike. -/
theorem alikeAt_ends (regex : Regex) {prev : Option Char} {rest : List Char}
    (h : AlikeAt flavor other prev rest) :
    flavor.ends regex prev rest = other.ends regex prev rest ∧
      ∀ place ∈ flavor.ends regex prev rest, AlikeAt flavor other place.1 place.2 := by
  induction regex generalizing prev rest with
  | empty => exact ⟨rfl, by simpa [ends] using h⟩
  | one set =>
    cases rest with
    | nil => exact ⟨rfl, by simp [ends]⟩
    | cons c rest =>
      have hset := (h.2 c List.mem_cons_self).has set
      simp only [ends, ← hset, true_and]
      split
      · simpa using h.next
      · simp
  | many set min max => exact alikeAt_manyEnds h
  | seq first second ihfirst ihsecond =>
    obtain ⟨heq, hplaces⟩ := ihfirst h
    have hsecond : ∀ mid ∈ flavor.ends first prev rest,
        flavor.ends second mid.1 mid.2 = other.ends second mid.1 mid.2 :=
      fun mid hmid => (ihsecond (hplaces mid hmid)).1
    refine ⟨?_, fun place hplace => ?_⟩
    · simp only [ends, ← heq]
      exact List.flatMap_congr hsecond
    · simp only [ends, List.mem_flatMap] at hplace
      obtain ⟨mid, hmid, hplace⟩ := hplace
      exact (ihsecond (hplaces mid hmid)).2 place hplace
  | alt first second ihfirst ihsecond =>
    obtain ⟨heq, hplaces⟩ := ihfirst h
    obtain ⟨heq', hplaces'⟩ := ihsecond h
    refine ⟨by simp only [ends, heq, heq'], fun place hplace => ?_⟩
    rcases List.mem_append.mp hplace with hplace | hplace
    · exact hplaces place hplace
    · exact hplaces' place hplace
  | boundary =>
    have hprev := h.prev_any (fun c hc => hc.word)
    have hhead := h.head_any (fun c hc => hc.word)
    simp only [ends, ← hprev, ← hhead, true_and]
    split
    · simpa using h
    · simp
  | start =>
    simp only [ends, true_and]
    split
    · simpa using h
    · simp
  | notAfter set =>
    have hprev := h.prev_any (fun c hc => hc.has set)
    simp only [ends, ← hprev, true_and]
    split
    · simp
    · simpa using h

/-- Engines that treat the characters of a text alike find the same in it. -/
theorem search_congr {text : List Char} (h : ∀ c ∈ text, Alike flavor other c) (regex : Regex) :
    flavor.search regex text = other.search regex text := by
  have hfrom : ∀ (rest : List Char) (prev : Option Char), AlikeAt flavor other prev rest →
      flavor.searchFrom regex prev rest = other.searchFrom regex prev rest := by
    intro rest
    induction rest with
    | nil =>
      intro prev hat
      rw [searchFrom, searchFrom, matchesAt, matchesAt, (alikeAt_ends regex hat).1]
    | cons c rest ih =>
      intro prev hat
      rw [searchFrom, searchFrom, matchesAt, matchesAt, (alikeAt_ends regex hat).1,
        ih (some c) hat.next]
  exact hfrom text none ⟨by simp, h⟩

theorem matchesAt_alt (first second : Regex) (prev : Option Char) (rest : List Char) :
    flavor.matchesAt (.alt first second) prev rest =
      (flavor.matchesAt first prev rest || flavor.matchesAt second prev rest) := by
  simp only [matchesAt, ends]
  cases flavor.ends first prev rest <;> simp

theorem searchFrom_alt (first second : Regex) (prev : Option Char) (rest : List Char) :
    flavor.searchFrom (.alt first second) prev rest =
      (flavor.searchFrom first prev rest || flavor.searchFrom second prev rest) := by
  induction rest generalizing prev with
  | nil => exact matchesAt_alt first second prev []
  | cons c rest ih =>
    simp only [searchFrom, matchesAt_alt, ih]
    ac_rfl

/-- A text has a match of one of two patterns. -/
theorem search_alt (first second : Regex) (text : List Char) :
    flavor.search (.alt first second) text =
      (flavor.search first text || flavor.search second text) :=
  searchFrom_alt first second none text

section Demands

variable {sets : List RegexSet} {prev : Option Char} {rest : List Char}

/-- A repetition ends within the text. -/
theorem suffix_manyEnds {set : RegexSet} {min : ℕ} {max : Option ℕ} :
    ∀ place ∈ flavor.manyEnds set min max prev rest, place.2 <:+ rest := by
  induction rest generalizing min max prev with
  | nil =>
    intro place hplace
    unfold manyEnds at hplace
    split at hplace
    · exact List.mem_singleton.mp hplace ▸ List.suffix_refl []
    · cases hplace
  | cons c rest ih =>
    intro place hplace
    rw [manyEnds] at hplace
    rcases List.mem_append.mp hplace with hhere | hlater
    · split at hhere
      · exact List.mem_singleton.mp hhere ▸ List.suffix_refl _
      · cases hhere
    · split at hlater
      · exact (ih place hlater).trans (List.suffix_cons c rest)
      · cases hlater

/-- A match ends within the text. -/
theorem suffix_ends (regex : Regex) :
    ∀ place ∈ flavor.ends regex prev rest, place.2 <:+ rest := by
  induction regex generalizing prev rest with
  | empty =>
    intro place hplace
    exact List.mem_singleton.mp hplace ▸ List.suffix_refl rest
  | one set =>
    intro place hplace
    cases rest with
    | nil => cases hplace
    | cons c rest =>
      simp only [ends] at hplace
      split at hplace
      · exact List.mem_singleton.mp hplace ▸ List.suffix_cons c rest
      · cases hplace
  | many set min max => exact suffix_manyEnds
  | seq first second ihfirst ihsecond =>
    intro place hplace
    obtain ⟨mid, hmid, hplace⟩ := List.mem_flatMap.mp hplace
    exact (ihsecond place hplace).trans (ihfirst mid hmid)
  | alt first second ihfirst ihsecond =>
    intro place hplace
    exact (List.mem_append.mp hplace).elim (ihfirst place) (ihsecond place)
  | boundary | start | notAfter set =>
    intro place hplace
    simp only [ends] at hplace
    split at hplace
    · first | exact List.mem_singleton.mp hplace ▸ List.suffix_refl rest | cases hplace
    · first | exact List.mem_singleton.mp hplace ▸ List.suffix_refl rest | cases hplace

/-- A pattern does not match without a character that it demands. -/
theorem ends_eq_nil {regex : Regex} (hdemands : regex.demands sets = true)
    (h : ∀ c ∈ rest, ∀ set ∈ sets, flavor.has set c = false) :
    flavor.ends regex prev rest = [] := by
  induction regex generalizing prev rest with
  | one set =>
    cases rest with
    | nil => rfl
    | cons c rest =>
      have hset := h c List.mem_cons_self set (of_decide_eq_true hdemands)
      simp [ends, hset]
  | many set min max =>
    obtain ⟨hset, hmin⟩ := of_decide_eq_true hdemands
    cases rest with
    | nil => simp [ends, manyEnds, Nat.ne_of_gt hmin]
    | cons c rest =>
      have hhas := h c List.mem_cons_self set hset
      simp [ends, manyEnds, Nat.ne_of_gt hmin, hhas]
  | seq first second ihfirst ihsecond =>
    rw [Regex.demands, Bool.or_eq_true] at hdemands
    rw [ends, List.flatMap_eq_nil_iff]
    rcases hdemands with hfirst | hsecond
    · simp [ihfirst hfirst h]
    · intro mid hmid
      exact ihsecond hsecond fun c hc => h c ((suffix_ends first mid hmid).subset hc)
  | alt first second ihfirst ihsecond =>
    rw [Regex.demands, Bool.and_eq_true] at hdemands
    rw [ends, ihfirst hdemands.1 h, ihsecond hdemands.2 h, List.append_nil]
  | empty | boundary | start | notAfter set => cases hdemands

/-- A text without the characters that a pattern demands has no match. -/
theorem search_eq_false {regex : Regex} {text : List Char} (hdemands : regex.demands sets = true)
    (h : ∀ c ∈ text, ∀ set ∈ sets, flavor.has set c = false) :
    flavor.search regex text = false := by
  have hfrom : ∀ (rest : List Char) (prev : Option Char), (∀ c ∈ rest, c ∈ text) →
      flavor.searchFrom regex prev rest = false := by
    intro rest
    induction rest with
    | nil =>
      intro prev _
      simp [searchFrom, matchesAt, ends_eq_nil hdemands]
    | cons c rest ih =>
      intro prev hrest
      rw [searchFrom, matchesAt, ends_eq_nil hdemands fun d hd => h d (hrest d hd),
        ih _ fun d hd => hrest d (List.mem_cons_of_mem c hd)]
      rfl
  exact hfrom text none fun _ hc => hc

end Demands

section Lookbehind

variable (items : List RegexItem) (body : Regex)

/-- The pattern after a place that no character of the set precedes. -/
def behind : Regex := .seq (.notAfter ⟨items, false⟩) body

/-- The pattern at the start, or with the character before it. -/
def preceded : Regex := .seq (.alt .start (.one ⟨items, true⟩)) body

theorem has_negated (c : Char) : flavor.has ⟨items, true⟩ c = !flavor.has ⟨items, false⟩ c := by
  simp [RegexFlavor.has]

theorem matchesAt_behind (prev : Option Char) (rest : List Char) :
    flavor.matchesAt (behind items body) prev rest =
      (!prev.any (flavor.has ⟨items, false⟩) && flavor.matchesAt body prev rest) := by
  simp only [matchesAt, behind, ends]
  split <;> simp_all

theorem matchesAt_preceded_nil (prev : Option Char) :
    flavor.matchesAt (preceded items body) prev [] =
      (prev.isNone && flavor.matchesAt body prev []) := by
  cases prev <;> simp [matchesAt, preceded, ends]

theorem matchesAt_preceded_cons (prev : Option Char) (c : Char) (rest : List Char) :
    flavor.matchesAt (preceded items body) prev (c :: rest) =
      (prev.isNone && flavor.matchesAt body prev (c :: rest) ||
        flavor.matchesAt (behind items body) (some c) rest) := by
  rw [matchesAt_behind, Option.any_some, ← has_negated]
  simp only [matchesAt, preceded, ends]
  cases prev <;> cases flavor.has ⟨items, true⟩ c <;>
    cases hends : flavor.ends body none (c :: rest) <;> simp [hends]

/-- After a character, the pattern with the character before it matches where the other one does
after the next. -/
theorem searchFrom_preceded (p c : Char) (rest : List Char) :
    flavor.searchFrom (preceded items body) (some p) (c :: rest) =
      flavor.searchFrom (behind items body) (some c) rest := by
  induction rest generalizing p c with
  | nil =>
    simp only [searchFrom, matchesAt_preceded_cons, matchesAt_preceded_nil, Option.isNone_some,
      Bool.false_and, Bool.or_false, Bool.false_or]
  | cons d rest ih =>
    rw [searchFrom, ih, searchFrom, matchesAt_preceded_cons, Option.isNone_some, Bool.false_and,
      Bool.false_or]

/-- To look behind is to match the character before. -/
theorem search_preceded (text : List Char) :
    flavor.search (preceded items body) text = flavor.search (behind items body) text := by
  cases text with
  | nil =>
    simp only [search, searchFrom, matchesAt_preceded_nil, matchesAt_behind, Option.isNone_none,
      Option.any_none, Bool.true_and, Bool.not_false]
  | cons c rest =>
    have hhere : flavor.matchesAt (behind items body) none (c :: rest) =
        flavor.matchesAt body none (c :: rest) := by
      simp only [matchesAt_behind, Option.any_none, Bool.not_false, Bool.true_and]
    simp only [search, searchFrom, matchesAt_preceded_cons, hhere, Option.isNone_none,
      Bool.true_and]
    cases rest with
    | nil =>
      simp only [searchFrom, matchesAt_preceded_nil, Option.isNone_some, Bool.false_and,
        Bool.or_false]
    | cons d rest =>
      rw [searchFrom_preceded, searchFrom, Bool.or_assoc]

end Lookbehind

end RegexFlavor

end Magistrate
