import Mathlib.Algebra.Order.Group.Defs
import Mathlib.Algebra.Order.Group.MinMax
import Mathlib.Tactic.Abel
import Mathlib.Tactic.Linarith

/-!
# Wallets and postings

A wallet holds the free credits of an owner, the credits held for running work,
and what was spent in the current period. Every change is one posting. Caps
survive every posting up to the accumulated overrun, the amount by which charges
exceeded what had been held for them.
-/

namespace Magistrate

/-- Free credits, held credits, and the spend of the current period. -/
@[ext] structure Wallet (M : Type*) where
  /-- Credits free to use. -/
  available : M
  /-- Credits held for running work. -/
  reserved : M
  /-- Credits spent since the period began. -/
  spend : M

/-- A change of a wallet. -/
inductive Posting (M : Type*) where
  | keep
  | renew (granted : M)
  | topup (amount : M)
  | hold (estimate : M)
  | release (estimate : M)
  | settle (estimate actual : M)
  | refund (amount : M)

variable {M : Type*} [AddCommGroup M] [LinearOrder M]

namespace Posting

/-- The wallet after a posting; a refund never makes the spend negative. -/
def apply : Posting M → Wallet M → Wallet M
  | keep, w => w
  | renew granted, w => { w with available := w.available + granted, spend := 0 }
  | topup amount, w => { w with available := w.available + amount }
  | hold estimate, w =>
    { w with available := w.available - estimate, reserved := w.reserved + estimate }
  | release estimate, w =>
    { w with available := w.available + estimate, reserved := w.reserved - estimate }
  | settle estimate actual, w =>
    { available := w.available + (estimate - actual), reserved := w.reserved - estimate
      spend := w.spend + actual }
  | refund amount, w =>
    { w with available := w.available + amount, spend := max 0 (w.spend - amount) }

/-- What a posting adds to the free credits. -/
def amount : Posting M → M
  | keep => 0
  | renew granted => granted
  | topup amount => amount
  | hold estimate => -estimate
  | release estimate => estimate
  | settle estimate actual => estimate - actual
  | refund amount => amount

/-- What a posting adds to the held credits. -/
def held : Posting M → M
  | hold estimate => estimate
  | release estimate => -estimate
  | settle estimate _ => -estimate
  | _ => 0

/-- By how much a posting exceeds what was held for it. -/
def overrun : Posting M → M
  | settle estimate actual => max 0 (actual - estimate)
  | _ => 0

/-- Free credits move by the amount of the posting. -/
theorem available_apply (p : Posting M) (w : Wallet M) :
    (p.apply w).available = w.available + p.amount := by
  cases p <;> simp [apply, amount, sub_eq_add_neg]

/-- Held credits move by what the posting holds. -/
theorem reserved_apply (p : Posting M) (w : Wallet M) :
    (p.apply w).reserved = w.reserved + p.held := by
  cases p <;> simp [apply, held, sub_eq_add_neg]

/-- A posting whose amounts are not negative, and whose hold respects the caps. -/
def Within (limit : M) (w : Wallet M) : Posting M → Prop
  | keep => True
  | renew granted => 0 ≤ granted
  | topup amount => 0 ≤ amount
  | hold estimate => estimate ≤ w.available ∧ w.spend + w.reserved + estimate ≤ limit
  | release estimate => 0 ≤ estimate
  | settle _ actual => 0 ≤ actual
  | refund amount => 0 ≤ amount

end Posting

/-- A wallet within a spend limit, up to an overrun. -/
structure Wallet.Capped (limit overrun : M) (w : Wallet M) : Prop where
  /-- The spend is not negative. -/
  spend_nonneg : 0 ≤ w.spend
  /-- Overruns are the only debt. -/
  funded : 0 ≤ w.available + overrun
  /-- Overruns are the only excess. -/
  limited : w.spend + w.reserved ≤ limit + overrun

variable [IsOrderedAddMonoid M] {limit overrun : M} {w : Wallet M} {p : Posting M}

/-- Caps survive a posting that respects them, with its overrun added. -/
theorem Wallet.Capped.apply (h : w.Capped limit overrun) (ho : 0 ≤ overrun)
    (hp : p.Within limit w) : (p.apply w).Capped limit (overrun + p.overrun) := by
  obtain ⟨hspend, hfunded, hlimited⟩ := h
  cases p with
  | keep => exact ⟨hspend, by simpa [Posting.apply, Posting.overrun] using hfunded,
      by simpa [Posting.apply, Posting.overrun] using hlimited⟩
  | renew granted =>
    have hg : 0 ≤ granted := hp
    refine ⟨le_rfl, ?_, ?_⟩
    · calc 0 ≤ w.available + overrun + granted := add_nonneg hfunded hg
        _ = _ := by simp only [Posting.apply, Posting.overrun]; abel
    · calc 0 + w.reserved ≤ w.spend + w.reserved := by gcongr
        _ ≤ limit + overrun := hlimited
        _ = _ := by simp [Posting.overrun]
  | topup amount =>
    have ha : 0 ≤ amount := hp
    refine ⟨hspend, ?_, by simpa [Posting.apply, Posting.overrun] using hlimited⟩
    calc 0 ≤ w.available + overrun + amount := add_nonneg hfunded ha
      _ = _ := by simp only [Posting.apply, Posting.overrun]; abel
  | hold estimate =>
    obtain ⟨ha, hl⟩ : estimate ≤ w.available ∧ w.spend + w.reserved + estimate ≤ limit := hp
    refine ⟨hspend, ?_, ?_⟩
    · calc 0 ≤ w.available - estimate + overrun := add_nonneg (sub_nonneg.mpr ha) ho
        _ = _ := by simp [Posting.apply, Posting.overrun]
    · calc w.spend + (w.reserved + estimate) = w.spend + w.reserved + estimate := by abel
        _ ≤ limit := hl
        _ ≤ limit + overrun := le_add_of_nonneg_right ho
        _ = _ := by simp [Posting.overrun]
  | release estimate =>
    have he : 0 ≤ estimate := hp
    refine ⟨hspend, ?_, ?_⟩
    · calc 0 ≤ w.available + overrun + estimate := add_nonneg hfunded he
        _ = _ := by simp only [Posting.apply, Posting.overrun]; abel
    · calc w.spend + (w.reserved - estimate) ≤ w.spend + w.reserved := by
            gcongr
            exact sub_le_self _ he
        _ ≤ limit + overrun := hlimited
        _ = _ := by simp [Posting.overrun]
  | settle estimate actual =>
    have ha : 0 ≤ actual := hp
    have hmax : actual - estimate ≤ max 0 (actual - estimate) := le_max_right _ _
    refine ⟨add_nonneg hspend ha, ?_, ?_⟩
    · calc 0 ≤ w.available + overrun + (max 0 (actual - estimate) - (actual - estimate)) :=
            add_nonneg hfunded (sub_nonneg.mpr hmax)
        _ = _ := by simp only [Posting.apply, Posting.overrun]; abel
    · calc w.spend + actual + (w.reserved - estimate)
          = w.spend + w.reserved + (actual - estimate) := by abel
        _ ≤ limit + overrun + max 0 (actual - estimate) := add_le_add hlimited hmax
        _ = _ := by simp only [Posting.overrun]; abel
  | refund amount =>
    have ha : 0 ≤ amount := hp
    refine ⟨le_max_left _ _, ?_, ?_⟩
    · calc 0 ≤ w.available + overrun + amount := add_nonneg hfunded ha
        _ = _ := by simp only [Posting.apply, Posting.overrun]; abel
    · have hle : max 0 (w.spend - amount) ≤ w.spend := max_le hspend (sub_le_self _ ha)
      calc max 0 (w.spend - amount) + w.reserved ≤ w.spend + w.reserved := by gcongr
        _ ≤ limit + overrun := hlimited
        _ = _ := by simp [Posting.overrun]

end Magistrate
