import Mathlib.Algebra.Group.Nat.Defs
import Mathlib.Algebra.Order.Floor.Div
import Mathlib.Data.Nat.Log
import Mathlib.Data.Int.Order.Basic

/-!
# Binary64 quotients of natural numbers

The true division of two integers is the binary64 number nearest to their exact
quotient: a 53-bit significand, ties to even, gradual underflow, and an overflow
error past the largest finite number. It is computed here on naturals, exactly.
-/

namespace Magistrate

namespace Binary64

/-- The integer nearest to `n / d`, the even one at a midpoint. -/
def roundDivEven (n d : ℕ) : ℕ :=
  let q := n / d
  let r := n % d
  if 2 * r < d ∨ (2 * r = d ∧ q % 2 = 0) then q else q + 1

/-- The exponent of the last significand bit of the binary64 number nearest to `n / d`. -/
def ulpExponent (n d : ℕ) : ℤ :=
  let s : ℤ := (n.log2 : ℤ) - d.log2
  -- the leading bit of the quotient has weight `2 ^ s` or `2 ^ (s - 1)`
  let top := if d * 2 ^ s.toNat ≤ n * 2 ^ (-s).toNat then s else s - 1
  max (top - 52) (-1074)

/-- The significand of the binary64 number nearest to `n / d`. -/
def significand (n d : ℕ) : ℕ :=
  let e := ulpExponent n d
  roundDivEven (n * 2 ^ (-e).toNat) (d * 2 ^ e.toNat)

/-- The ceiling of the binary64 quotient `n / d`; `none` is the overflow error. -/
def ceilDiv? (n d : ℕ) : Option ℕ :=
  let e := ulpExponent n d
  let scaled := significand n d * 2 ^ e.toNat
  -- the largest finite binary64 number lies below `2 ^ 1024`
  if 1024 ≤ scaled.log2 then none
  else some ((scaled + (2 ^ (-e).toNat - 1)) / 2 ^ (-e).toNat)

example : ceilDiv? 123456789123456789123 1000000 = some 123456789123457 := by decide

/-- The ceiling of the binary64 quotient is the ceiling of the exact one: where the last significand
bit weighs more than one, the exact ceiling is a finite multiple of it; elsewhere the exact quotient
is whole, or is not rounded down to a whole number. -/
structure CeilExact (n d : ℕ) : Prop where
  large : 0 < ulpExponent n d → 2 ^ (ulpExponent n d).toNat ∣ n ⌈/⌉ d ∧ n ⌈/⌉ d < 2 ^ 1024
  small : ulpExponent n d ≤ 0 → n % d = 0 ∨ d < 2 * (n % d * 2 ^ (-ulpExponent n d).toNat) ∨
    (2 * (n % d * 2 ^ (-ulpExponent n d).toNat) = d ∧ n / d * 2 ^ (-ulpExponent n d).toNat % 2 = 1)

instance (n d : ℕ) : Decidable (CeilExact n d) :=
  decidable_of_iff ((0 < ulpExponent n d → _) ∧ (ulpExponent n d ≤ 0 → _))
    ⟨fun h => ⟨h.1, h.2⟩, fun h => ⟨h.large, h.small⟩⟩

section Ceiling

variable {n d : ℕ}

/-- A ceiling is the quotient, or the next number where there is a rest. -/
theorem ceilDiv_eq (hd : 0 < d) : n ⌈/⌉ d = if n % d = 0 then n / d else n / d + 1 := by
  have hdiv := Nat.div_add_mod n d
  rw [Nat.ceilDiv_eq_add_pred_div]
  split
  · next hrest =>
    rw [Nat.add_sub_assoc hd]
    refine Nat.div_eq_of_lt_le ?_ ?_
    · rw [Nat.mul_comm]; omega
    · rw [Nat.succ_mul, Nat.mul_comm]; omega
  · next hrest =>
    have hlt := Nat.mod_lt n hd
    rw [Nat.add_sub_assoc hd]
    refine Nat.div_eq_of_lt_le ?_ ?_
    · rw [Nat.succ_mul, Nat.mul_comm]; omega
    · rw [Nat.succ_mul, Nat.succ_mul, Nat.mul_comm]; omega

/-- Rounding takes one of the two neighbours. -/
theorem roundDivEven_cases (n d : ℕ) :
    roundDivEven n d = n / d ∨ roundDivEven n d = n / d + 1 := by
  unfold roundDivEven
  simp only
  split
  · exact .inl rfl
  · exact .inr rfl

/-- A quotient in parts of one. -/
theorem mul_parts (n d p : ℕ) :
    n * p / d = n / d * p + n % d * p / d ∧ n * p % d = n % d * p % d := by
  have hparts : n * p = n % d * p + d * (n / d * p) := by
    conv_lhs => rw [← Nat.mod_add_div n d, Nat.add_mul, Nat.mul_assoc]
  rcases Nat.eq_zero_or_pos d with rfl | hd
  · simp
  · rw [hparts, Nat.add_mul_div_left _ _ hd, Nat.add_mul_mod_self_left, Nat.add_comm]
    exact ⟨rfl, rfl⟩

/-- On a grid of parts of one, a quotient is rounded between the whole numbers around it. -/
theorem roundDivEven_parts (hd : 0 < d) (p : ℕ) :
    n / d * p ≤ roundDivEven (n * p) d ∧ roundDivEven (n * p) d ≤ n ⌈/⌉ d * p := by
  obtain ⟨hdiv, hmod⟩ := mul_parts n d p
  rw [ceilDiv_eq hd]
  split
  · next hwhole =>
    have hexact : roundDivEven (n * p) d = n / d * p := by
      unfold roundDivEven
      simp only [hdiv, hmod, hwhole, Nat.zero_mul, Nat.zero_div, Nat.zero_mod, Nat.add_zero]
      exact if_pos (.inl (by omega))
    omega
  · rcases Nat.eq_zero_or_pos p with rfl | hp
    · simp only [roundDivEven, Nat.mul_zero, Nat.zero_div, Nat.zero_mod]
      rw [if_pos (.inl hd)]
      exact ⟨le_rfl, le_rfl⟩
    · have hrest : n % d * p / d < p :=
        Nat.div_lt_of_lt_mul (Nat.mul_lt_mul_of_pos_right (Nat.mod_lt n hd) hp)
      rw [Nat.succ_mul]
      rcases roundDivEven_cases (n * p) d with h | h <;> rw [h, hdiv]
      · exact ⟨Nat.le_add_right _ _, Nat.add_le_add_left hrest.le _⟩
      · exact ⟨(Nat.le_add_right _ _).trans (Nat.le_succ _), Nat.add_le_add_left hrest _⟩

/-- On such a grid, a quotient is not rounded down to a whole number exactly if it is more than half
a part above one, or half a part above an odd number of parts. -/
theorem lt_roundDivEven_iff (hd : 0 < d) (p : ℕ) :
    n / d * p < roundDivEven (n * p) d ↔
      d < 2 * (n % d * p) ∨ (2 * (n % d * p) = d ∧ n / d * p % 2 = 1) := by
  obtain ⟨hdiv, hmod⟩ := mul_parts n d p
  have hrest := Nat.div_add_mod (n % d * p) d
  unfold roundDivEven
  simp only [hdiv, hmod]
  by_cases hsmall : n % d * p < d
  · rw [Nat.div_eq_of_lt hsmall, Nat.mod_eq_of_lt hsmall, Nat.add_zero]
    split <;> omega
  · have hpart : 1 ≤ n % d * p / d := (Nat.one_le_div_iff hd).mpr (Nat.le_of_not_lt hsmall)
    split <;> omega

/-- The quotient has at most one bit more than a significand above its last bit's weight. -/
theorem lt_of_ulpExponent (hd : 0 < d) {m : ℕ} (hm : ulpExponent n d = -(m : ℤ)) :
    n * 2 ^ m < d * 2 ^ 55 := by
  have hexponent : (n.log2 : ℤ) - d.log2 - 53 ≤ -(m : ℤ) := by
    rw [← hm, ulpExponent]
    split <;> omega
  have hn : n < 2 ^ (n.log2 + 1) := Nat.lt_log2_self
  have hself : 2 ^ d.log2 ≤ d := Nat.log2_self_le hd.ne'
  calc n * 2 ^ m < 2 ^ (n.log2 + 1) * 2 ^ m := Nat.mul_lt_mul_of_pos_right hn (Nat.two_pow_pos m)
    _ = 2 ^ (n.log2 + 1 + m) := (Nat.pow_add ..).symm
    _ ≤ 2 ^ (d.log2 + 55) := Nat.pow_le_pow_right (by decide) (by omega)
    _ = 2 ^ d.log2 * 2 ^ 55 := Nat.pow_add ..
    _ ≤ d * 2 ^ 55 := Nat.mul_le_mul_right _ hself

/-- The last bit of a quotient below `2 ^ 53` weighs at most one. -/
theorem ulpExponent_nonpos (h : n < d * 2 ^ 53) : ulpExponent n d ≤ 0 := by
  by_contra hpos
  refine absurd h (Nat.not_lt.mpr ?_)
  simp only [ulpExponent] at hpos
  split at hpos
  · next hle =>
    have hs : 53 ≤ (n.log2 : ℤ) - d.log2 := by omega
    have hneg : (-((n.log2 : ℤ) - d.log2)).toNat = 0 := by omega
    rw [hneg, Nat.pow_zero, Nat.mul_one] at hle
    exact (Nat.mul_le_mul_left d (Nat.pow_le_pow_right (by decide) (by omega))).trans hle
  · have hself : 2 ^ n.log2 ≤ n := Nat.log2_self_le (by rintro rfl; simp at hpos)
    have hlt : d < 2 ^ (d.log2 + 1) := Nat.lt_log2_self
    calc d * 2 ^ 53 ≤ 2 ^ (d.log2 + 1) * 2 ^ 53 := Nat.mul_le_mul_right _ hlt.le
      _ = 2 ^ (d.log2 + 1 + 53) := (Nat.pow_add ..).symm
      _ ≤ 2 ^ n.log2 := Nat.pow_le_pow_right (by decide) (by omega)
      _ ≤ n := hself

theorem log2_lt_iff {k : ℕ} (hk : 0 < k) : n.log2 < k ↔ n < 2 ^ k := by
  rcases Nat.eq_zero_or_pos n with rfl | hn
  · exact iff_of_true hk (Nat.two_pow_pos k)
  · exact Nat.log2_lt hn.ne'

/-- A ceiling is less than one above the quotient. -/
theorem mul_ceilDiv_lt (hd : 0 < d) : d * (n ⌈/⌉ d) < n + d := by
  have hdiv := Nat.div_add_mod n d
  rw [ceilDiv_eq hd]
  split
  · omega
  · rw [Nat.mul_succ]
    omega

/-- A quotient is rounded to the number that it is nearer to than to any other. -/
theorem roundDivEven_eq {u : ℕ} (hlow : 2 * (d * u) < 2 * n + d) (hhigh : 2 * n < 2 * (d * u) + d) :
    roundDivEven n d = u := by
  have hd : 0 < d := by omega
  have hdiv := Nat.div_add_mod n d
  have hrest := Nat.mod_lt n hd
  have hle : n / d ≤ u := by
    refine Nat.le_of_lt_succ (Nat.lt_of_mul_lt_mul_left (a := d) ?_)
    rw [Nat.mul_succ]
    omega
  have hge : u ≤ n / d + 1 := by
    refine Nat.le_of_lt_succ (Nat.lt_of_mul_lt_mul_left (a := d) ?_)
    rw [Nat.mul_succ, Nat.mul_succ]
    omega
  unfold roundDivEven
  rcases Nat.eq_or_lt_of_le hle with rfl | hlt
  · exact if_pos (.inl (by omega))
  · obtain rfl : u = n / d + 1 := by omega
    rw [Nat.mul_succ] at hlow
    exact if_neg (by omega)

/-- A ceiling that is a multiple of a part greater than one is what its quotient is rounded to. -/
theorem roundDivEven_of_dvd (hd : 0 < d) {q : ℕ} (hq : 2 ≤ q) (hdvd : q ∣ n ⌈/⌉ d) :
    roundDivEven n (d * q) * q = n ⌈/⌉ d := by
  have hle : n ≤ d * (n ⌈/⌉ d) := (ceilDiv_le_iff_le_mul hd).mp le_rfl
  have hlt := mul_ceilDiv_lt (n := n) hd
  obtain ⟨u, hu⟩ := hdvd
  have hpart : d * 2 ≤ d * q := Nat.mul_le_mul_left d hq
  rw [hu, ← Nat.mul_assoc] at hle hlt
  have hround : roundDivEven n (d * q) = u := roundDivEven_eq (by omega) (by omega)
  rw [hround, hu, Nat.mul_comm]

/-- Where the last significand bit weighs at most one, the ceiling is that of the rounded parts. -/
theorem ceilDiv?_of_nonpos (hd : 0 < d) (he : ulpExponent n d ≤ 0) :
    let p := 2 ^ (-ulpExponent n d).toNat
    ceilDiv? n d = some (roundDivEven (n * p) d ⌈/⌉ p) := by
  intro p
  have hp : 0 < p := Nat.two_pow_pos _
  have hunit : (ulpExponent n d).toNat = 0 := Int.toNat_of_nonpos he
  have hsignificand : significand n d = roundDivEven (n * p) d := by
    rw [significand, hunit, Nat.pow_zero, Nat.mul_one]
  have hparts : n * p < d * 2 ^ 55 := by
    refine lt_of_ulpExponent hd ?_
    omega
  have hrounded : roundDivEven (n * p) d ≤ 2 ^ 55 := by
    have hdiv : n * p / d < 2 ^ 55 := Nat.div_lt_of_lt_mul hparts
    rcases roundDivEven_cases (n * p) d with h | h <;> omega
  have hfinite : ¬1024 ≤ (roundDivEven (n * p) d).log2 := by
    have hbits : (roundDivEven (n * p) d).log2 < 56 :=
      (log2_lt_iff (by decide)).mpr (hrounded.trans_lt
        (Nat.pow_lt_pow_right (by decide) (by decide)))
    omega
  rw [ceilDiv?]
  simp only [hsignificand, hunit, Nat.pow_zero, Nat.mul_one, if_neg hfinite]
  rw [Nat.ceilDiv_eq_add_pred_div, Nat.add_sub_assoc hp]

/-- The binary64 quotient has the ceiling of the exact one exactly under `CeilExact`. -/
theorem ceilDiv?_eq_some_iff (hd : 0 < d) : ceilDiv? n d = some (n ⌈/⌉ d) ↔ CeilExact n d := by
  by_cases he : 0 < ulpExponent n d
  · have hq : 2 ≤ 2 ^ (ulpExponent n d).toNat := by
      calc 2 = 2 ^ 1 := rfl
        _ ≤ 2 ^ (ulpExponent n d).toNat := Nat.pow_le_pow_right (by decide) (by omega)
    have hunit : (-ulpExponent n d).toNat = 0 := by omega
    have hceil : ceilDiv? n d =
        if 1024 ≤ (significand n d * 2 ^ (ulpExponent n d).toNat).log2 then none
          else some (significand n d * 2 ^ (ulpExponent n d).toNat) := by
      simp [ceilDiv?, hunit]
    have hsignificand : significand n d = roundDivEven n (d * 2 ^ (ulpExponent n d).toNat) := by
      rw [significand, hunit, Nat.pow_zero, Nat.mul_one]
    have hexact : CeilExact n d ↔ _ :=
      ⟨fun h => h.large he, fun h => ⟨fun _ => h, fun hle => absurd he (Int.not_lt.mpr hle)⟩⟩
    rw [hexact, hceil]
    constructor
    · intro h
      split at h
      · cases h
      · next hfinite =>
        have hvalue := Option.some.inj h
        rw [← hvalue]
        exact ⟨Nat.dvd_mul_left _ _, (log2_lt_iff (by decide)).mp (Nat.lt_of_not_le hfinite)⟩
    · rintro ⟨hdvd, hfinite⟩
      rw [hsignificand, roundDivEven_of_dvd hd hq hdvd, if_neg]
      exact Nat.not_le.mpr ((log2_lt_iff (by decide)).mpr hfinite)
  · have hexact : CeilExact n d ↔ _ :=
      ⟨fun h => h.small (Int.not_lt.mp he), fun h => ⟨fun hlt => absurd hlt he, fun _ => h⟩⟩
    rw [hexact]
    set p := 2 ^ (-ulpExponent n d).toNat with hp
    have hpos : 0 < p := Nat.two_pow_pos _
    obtain ⟨hlow, hhigh⟩ := roundDivEven_parts (n := n) hd p
    rw [ceilDiv?_of_nonpos hd (Int.not_lt.mp he), Option.some_inj, ← hp]
    by_cases hwhole : n % d = 0
    · rw [ceilDiv_eq hd, if_pos hwhole] at hhigh ⊢
      have hsame : roundDivEven (n * p) d = n / d * p := le_antisymm hhigh hlow
      refine iff_of_true ?_ (.inl hwhole)
      rw [hsame, Nat.mul_comm, ← smul_eq_mul, smul_ceilDiv hpos]
    · rw [ceilDiv_eq hd, if_neg hwhole] at hhigh ⊢
      rw [← lt_roundDivEven_iff hd p, or_iff_right hwhole]
      have hle : roundDivEven (n * p) d ⌈/⌉ p ≤ n / d + 1 :=
        (ceilDiv_le_iff_le_mul hpos).mpr (hhigh.trans (Nat.mul_comm _ _).le)
      have hlt : roundDivEven (n * p) d ⌈/⌉ p ≤ n / d ↔ roundDivEven (n * p) d ≤ n / d * p := by
        rw [ceilDiv_le_iff_le_mul hpos, Nat.mul_comm p]
      omega

/-- Below `2 ^ 53` the ceiling of the binary64 quotient is at most that of the exact one. -/
theorem ceilDiv?_le (hd : 0 < d) (h : n < d * 2 ^ 53) :
    ∃ c, ceilDiv? n d = some c ∧ c ≤ n ⌈/⌉ d := by
  refine ⟨_, ceilDiv?_of_nonpos hd (ulpExponent_nonpos h), ?_⟩
  exact (ceilDiv_le_iff_le_mul (Nat.two_pow_pos _)).mpr
    ((roundDivEven_parts hd _).2.trans (Nat.mul_comm _ _).le)

end Ceiling
end Binary64

end Magistrate
