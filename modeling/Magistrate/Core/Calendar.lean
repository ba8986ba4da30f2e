import Mathlib.Algebra.Order.Ring.Int

/-!
# The civil calendar

Years and months of days counted from 1970-01-01 in UTC, and the first day of a
month. Years are counted from March, so that the leap day ends them, in eras of
400 years.
-/

namespace Magistrate

/-- The year and the month of a day counted from 1970-01-01. -/
def civilMonth (day : ℤ) : ℤ × ℤ :=
  let shifted := day + 719468
  let era := shifted / 146097
  let dayOfEra := shifted - era * 146097
  let yearOfEra := (dayOfEra - dayOfEra / 1460 + dayOfEra / 36524 - dayOfEra / 146096) / 365
  let dayOfYear := dayOfEra - (365 * yearOfEra + yearOfEra / 4 - yearOfEra / 100)
  -- months are counted from March, so that the leap day ends the year
  let fromMarch := (5 * dayOfYear + 2) / 153
  let month := if fromMarch < 10 then fromMarch + 3 else fromMarch - 9
  let year := yearOfEra + era * 400
  (if month ≤ 2 then year + 1 else year, month)

/-- The first day of a month, counted from 1970-01-01. -/
def firstDayOf (yearMonth : ℤ × ℤ) : ℤ :=
  let (year, month) := yearMonth
  let yearFromMarch := if month ≤ 2 then year - 1 else year
  let era := yearFromMarch / 400
  let yearOfEra := yearFromMarch - era * 400
  let fromMarch := if month ≤ 2 then month + 9 else month - 3
  let dayOfYear := (153 * fromMarch + 2) / 5
  era * 146097 + (365 * yearOfEra + yearOfEra / 4 - yearOfEra / 100 + dayOfYear) - 719468

example : civilMonth 19782 = (2024, 2) ∧ firstDayOf (2024, 2) = 19754 := by decide

/-- An era has 400 years. -/
theorem yearOfEra_bounds {dayOfEra yearOfEra : ℤ} (hnonneg : 0 ≤ dayOfEra)
    (hlt : dayOfEra < 146097) (hyear : yearOfEra =
      (dayOfEra - dayOfEra / 1460 + dayOfEra / 36524 - dayOfEra / 146096) / 365) :
    0 ≤ yearOfEra ∧ yearOfEra ≤ 399 := by
  omega

/-- A year has at most 366 days. -/
theorem dayOfYear_bounds {dayOfEra yearOfEra : ℤ} (hnonneg : 0 ≤ dayOfEra)
    (hlt : dayOfEra < 146097) (hyear : yearOfEra =
      (dayOfEra - dayOfEra / 1460 + dayOfEra / 36524 - dayOfEra / 146096) / 365) :
    0 ≤ dayOfEra - (365 * yearOfEra + yearOfEra / 4 - yearOfEra / 100) ∧
      dayOfEra - (365 * yearOfEra + yearOfEra / 4 - yearOfEra / 100) ≤ 365 := by
  -- with the centuries fixed, the days are linear in the years
  have hcentury : dayOfEra / 36524 = 0 ∨ dayOfEra / 36524 = 1 ∨ dayOfEra / 36524 = 2 ∨
      dayOfEra / 36524 = 3 ∨ dayOfEra / 36524 = 4 := by omega
  have hyears : yearOfEra / 100 = 0 ∨ yearOfEra / 100 = 1 ∨ yearOfEra / 100 = 2 ∨
      yearOfEra / 100 = 3 := by omega
  have hlast : dayOfEra / 146096 = 0 ∨ dayOfEra / 146096 = 1 := by omega
  rcases hcentury with hc | hc | hc | hc | hc <;> rcases hyears with hy | hy | hy | hy <;>
    rcases hlast with hl | hl <;> rw [hc, hl] at hyear <;> rw [hy] <;> omega

/-- A month starts no later than its days. -/
theorem firstDayOf_civilMonth_le (day : ℤ) : firstDayOf (civilMonth day) ≤ day := by
  unfold civilMonth
  simp only
  set dayOfEra := day + 719468 - (day + 719468) / 146097 * 146097 with hday
  set yearOfEra := (dayOfEra - dayOfEra / 1460 + dayOfEra / 36524 - dayOfEra / 146096) / 365
    with hyear
  have hnonneg : 0 ≤ dayOfEra := by omega
  have hlt : dayOfEra < 146097 := by omega
  obtain ⟨hfirst, hlast⟩ := yearOfEra_bounds hnonneg hlt hyear
  obtain ⟨hdays, hdays'⟩ := dayOfYear_bounds hnonneg hlt hyear
  set dayOfYear := dayOfEra - (365 * yearOfEra + yearOfEra / 4 - yearOfEra / 100) with hdoy
  clear_value yearOfEra
  set month := (5 * dayOfYear + 2) / 153 with hmonth
  have hyears : (yearOfEra + (day + 719468) / 146097 * 400) / 400 = (day + 719468) / 146097 := by
    omega
  simp only [firstDayOf]
  by_cases hspring : month < 10
  · simp only [if_pos hspring, if_neg (show ¬month + 3 ≤ 2 by omega), hyears]
    have hstart : (153 * (month + 3 - 3) + 2) / 5 ≤ dayOfYear := by omega
    have hrest : yearOfEra + (day + 719468) / 146097 * 400 - (day + 719468) / 146097 * 400 =
        yearOfEra := by omega
    rw [hrest]
    omega
  · have hjanuary : month - 9 ≤ 2 := by omega
    have hshift : yearOfEra + (day + 719468) / 146097 * 400 + 1 - 1 =
        yearOfEra + (day + 719468) / 146097 * 400 := by omega
    simp only [if_neg hspring, if_pos hjanuary, hshift, hyears]
    have hstart : (153 * (month - 9 + 9) + 2) / 5 ≤ dayOfYear := by omega
    have hrest : yearOfEra + (day + 719468) / 146097 * 400 - (day + 719468) / 146097 * 400 =
        yearOfEra := by omega
    rw [hrest]
    omega

/-- The months up to a day, counted from March of the year 0. -/
def marchMonth (day : ℤ) : ℤ :=
  let shifted := day + 719468
  let era := shifted / 146097
  let dayOfEra := shifted - era * 146097
  let yearOfEra := (dayOfEra - dayOfEra / 1460 + dayOfEra / 36524 - dayOfEra / 146096) / 365
  let dayOfYear := dayOfEra - (365 * yearOfEra + yearOfEra / 4 - yearOfEra / 100)
  (yearOfEra + era * 400) * 12 + (5 * dayOfYear + 2) / 153

/-- A month, counted from March of the year 0, as a year and a month. -/
def ofMarchMonth (index : ℤ) : ℤ × ℤ :=
  let month := if index % 12 < 10 then index % 12 + 3 else index % 12 - 9
  (if month ≤ 2 then index / 12 + 1 else index / 12, month)

/-- Years and months follow from the months counted from March. -/
theorem civilMonth_eq (day : ℤ) : civilMonth day = ofMarchMonth (marchMonth day) := by
  unfold civilMonth marchMonth ofMarchMonth
  simp only
  set dayOfEra := day + 719468 - (day + 719468) / 146097 * 146097 with hday
  set yearOfEra := (dayOfEra - dayOfEra / 1460 + dayOfEra / 36524 - dayOfEra / 146096) / 365
    with hyear
  have hnonneg : 0 ≤ dayOfEra := by omega
  have hlt : dayOfEra < 146097 := by omega
  obtain ⟨hdays, hdays'⟩ := dayOfYear_bounds hnonneg hlt hyear
  set dayOfYear := dayOfEra - (365 * yearOfEra + yearOfEra / 4 - yearOfEra / 100) with hdoy
  clear_value yearOfEra
  set month := (5 * dayOfYear + 2) / 153 with hmonth
  have hfirst : 0 ≤ month := by omega
  have hlast : month < 12 := by omega
  set year := yearOfEra + (day + 719468) / 146097 * 400 with hy
  clear_value year month
  have hmod : (year * 12 + month) % 12 = month := by omega
  have hdiv : (year * 12 + month) / 12 = year := by omega
  rw [hmod, hdiv]

/-- A month is counted once. -/
theorem ofMarchMonth_inj {i j : ℤ} (h : ofMarchMonth i = ofMarchMonth j) : i = j := by
  obtain ⟨hyear, hmonth⟩ := Prod.ext_iff.mp h
  simp only [ofMarchMonth] at hyear hmonth
  have hmod : i % 12 = j % 12 := by split at hmonth <;> split at hmonth <;> omega
  rw [hmod] at hyear
  have hdiv : i / 12 = j / 12 := by
    split at hyear <;> split at hyear <;> omega
  omega

/-- Years of an era do not go back. -/
theorem yearOfEra_mono {a b : ℤ} (ha : 0 ≤ a) (hb : b < 146097) (h : a ≤ b) :
    (a - a / 1460 + a / 36524 - a / 146096) / 365 ≤
      (b - b / 1460 + b / 36524 - b / 146096) / 365 := by
  have h1 : a - a / 1460 ≤ b - b / 1460 := by omega
  have h2 : a / 36524 - a / 146096 ≤ b / 36524 - b / 146096 := by omega
  omega

/-- The parts of the months of a day, counted from March of the year 0. -/
theorem marchMonth_eq (day : ℤ) : ∃ dayOfEra yearOfEra dayOfYear : ℤ,
    dayOfEra = (day + 719468) % 146097 ∧
    yearOfEra = (dayOfEra - dayOfEra / 1460 + dayOfEra / 36524 - dayOfEra / 146096) / 365 ∧
    dayOfYear = dayOfEra - (365 * yearOfEra + yearOfEra / 4 - yearOfEra / 100) ∧
    marchMonth day =
      (yearOfEra + (day + 719468) / 146097 * 400) * 12 + (5 * dayOfYear + 2) / 153 ∧
    0 ≤ yearOfEra ∧ yearOfEra ≤ 399 ∧ 0 ≤ (5 * dayOfYear + 2) / 153 ∧
      (5 * dayOfYear + 2) / 153 ≤ 11 := by
  have hera : day + 719468 - (day + 719468) / 146097 * 146097 = (day + 719468) % 146097 := by omega
  refine ⟨_, _, _, rfl, rfl, rfl, ?_, ?_⟩
  · rw [marchMonth, hera]
  · have hnonneg : 0 ≤ (day + 719468) % 146097 := by omega
    have hlt : (day + 719468) % 146097 < 146097 := by omega
    obtain ⟨hfirst, hlast⟩ := yearOfEra_bounds hnonneg hlt rfl
    obtain ⟨hdays, hdays'⟩ := dayOfYear_bounds hnonneg hlt rfl
    refine ⟨hfirst, hlast, ?_, ?_⟩ <;> omega

/-- Months do not go back. -/
theorem marchMonth_mono {a b : ℤ} (h : a ≤ b) : marchMonth a ≤ marchMonth b := by
  obtain ⟨doeA, yoeA, doyA, hdoeA, hyoeA, hdoyA, hindexA, hA⟩ := marchMonth_eq a
  obtain ⟨doeB, yoeB, doyB, hdoeB, hyoeB, hdoyB, hindexB, hB⟩ := marchMonth_eq b
  rw [hindexA, hindexB]
  have hera : (a + 719468) / 146097 ≤ (b + 719468) / 146097 := by omega
  rcases hera.lt_or_eq with hlt | hsame
  · omega
  · have hdoe : doeA ≤ doeB := by omega
    have hyear : yoeA ≤ yoeB := hyoeA ▸ hyoeB ▸ yearOfEra_mono (by omega) (by omega) hdoe
    rw [hsame]
    rcases hyear.lt_or_eq with hlt | rfl
    · omega
    · have hdoy : doyA ≤ doyB := by omega
      omega

/-- The days of one month are consecutive. -/
theorem civilMonth_between {a b c : ℤ} (hab : a ≤ b) (hbc : b ≤ c)
    (h : civilMonth a = civilMonth c) : civilMonth b = civilMonth c := by
  rw [civilMonth_eq, civilMonth_eq] at h ⊢
  have hac := ofMarchMonth_inj h
  have hle := marchMonth_mono hab
  have hle' := marchMonth_mono hbc
  rw [show marchMonth b = marchMonth c by omega]

end Magistrate
