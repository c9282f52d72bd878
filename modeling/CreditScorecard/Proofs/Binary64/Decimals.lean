import CreditScorecard.Proofs.Binary64.Rounding

/-! # The number nearest to a decimal

A decimal is a quotient of naturals, and its number is that quotient rounded, however large or small
the exponent is.
-/

namespace CreditScorecard

namespace Decimal

/-- The numerator of a decimal as a quotient of naturals. -/
def num (d : Decimal) : ℕ :=
  d.digits * 10 ^ d.exponent.toNat

/-- The denominator of a decimal as a quotient of naturals. -/
def den (d : Decimal) : ℕ :=
  10 ^ (-d.exponent).toNat

theorem den_pos (d : Decimal) : 0 < d.den :=
  Nat.pow_pos (by decide)

theorem num_natCast (digits e : ℕ) : num ⟨digits, e⟩ = digits * 10 ^ e :=
  rfl

theorem den_natCast (digits e : ℕ) : den ⟨digits, e⟩ = 1 := by
  rw [den, Int.toNat_neg_natCast, pow_zero]

theorem num_negSucc (digits e : ℕ) : num ⟨digits, .negSucc e⟩ = digits := by
  rw [num, Int.toNat_negSucc, pow_zero, Nat.mul_one]

theorem den_negSucc (digits e : ℕ) : den ⟨digits, .negSucc e⟩ = 10 ^ (e + 1) := by
  rw [den, Int.neg_negSucc, Int.toNat_natCast]

end Decimal

namespace Binary64

variable {num den n : ℕ}

theorem two_pow_mul_three_le (e : ℕ) : 2 ^ (3 * e) ≤ 10 ^ e := by
  rw [pow_mul]
  exact Nat.pow_le_pow_left (by decide) e

theorem nearestMagnitude_eq_zero (h : 2 * num < den) : nearestMagnitude num den = 0 := by
  have hquot : num / den = 0 := Nat.div_eq_of_lt (by omega)
  have hspacing : spacing (num / den) = 1 := by
    rw [hquot]
    exact spacing_eq_one (by decide)
  rw [nearestMagnitude, hspacing, Nat.mul_one, Nat.mul_one, roundDiv]
  simp only [Nat.mod_eq_of_lt (show num < den by omega), if_pos h, hquot]

theorem ofUnits_eq_finite {negative : Bool} (h : Representable n)
    (heq : nearestMagnitude num den = n) : ofUnits negative num den = .finite negative n h := by
  rw [ofUnits, ofMagnitude, heq, dif_pos h]

theorem ofUnits_eq_zero (negative : Bool) (h : 2 * num < den) :
    ofUnits negative num den = zero negative :=
  ofUnits_eq_finite representable_zero (nearestMagnitude_eq_zero h)

theorem spacing_two_pow_dvd (k : ℕ) : spacing (2 ^ k) ∣ 2 ^ k := by
  have h : spacing (1 * 2 ^ k) ∣ 1 * 2 ^ k := spacing_dvd_of_le (by decide) k
  rwa [Nat.one_mul] at h

/-- The units in one as a power, of which the exponent stays a variable so that no tactic computes
the power. -/
theorem exists_unitsPerOne_eq : ∃ k, k = 1074 ∧ unitsPerOne = 2 ^ k := by
  refine ⟨1074, rfl, ?_⟩
  unfold unitsPerOne
  generalize 1074 = k
  rfl

theorem exists_magnitudeBound_eq : ∃ k, k = 2098 ∧ magnitudeBound = 2 ^ k := by
  refine ⟨magnitudeBits, rfl, ?_⟩
  unfold magnitudeBound
  generalize magnitudeBits = k
  rfl

theorem ofUnits_eq_infinite (negative : Bool) (hden : 0 < den) (h : magnitudeBound * den ≤ num) :
    ofUnits negative num den = .infinite negative := by
  obtain ⟨k, -, hbound⟩ := exists_magnitudeBound_eq
  have hlarge : magnitudeBound ≤ nearestMagnitude num den := by
    rw [hbound] at h ⊢
    exact le_nearestMagnitude (spacing_two_pow_dvd k) hden h
  rw [ofUnits, ofMagnitude, dif_neg fun hrep => Nat.not_lt_of_le hlarge hrep.1]

/-- A power of ten above `10 ^ 400` takes any decimal out of the format. -/
theorem magnitudeBound_le_of_lt {digits e : ℕ} (hdigits : digits ≠ 0) (h : 400 < e) :
    magnitudeBound ≤ digits * 10 ^ e * unitsPerOne := by
  obtain ⟨k, hk, hbound⟩ := exists_magnitudeBound_eq
  obtain ⟨j, hj, hunits⟩ := exists_unitsPerOne_eq
  rw [hbound, hunits]
  calc 2 ^ k ≤ 2 ^ (3 * e + j) := Nat.pow_le_pow_right (by decide) (by omega)
    _ = 2 ^ (3 * e) * 2 ^ j := pow_add 2 (3 * e) j
    _ ≤ digits * 10 ^ e * 2 ^ j := by
      apply Nat.mul_le_mul_right
      exact (two_pow_mul_three_le e).trans
        (Nat.le_mul_of_pos_left _ (Nat.pos_of_ne_zero hdigits))

/-- With so few digits a decimal is less than half of the least magnitude. -/
theorem two_mul_lt_of_log2_lt {digits e : ℕ} (h : digits.log2 + 1081 < 3 * e) :
    2 * (digits * unitsPerOne) < 10 ^ e := by
  obtain ⟨j, hj, hunits⟩ := exists_unitsPerOne_eq
  have hlog : digits < 2 ^ (digits.log2 + 1) := Nat.lt_log2_self
  rw [hunits]
  calc 2 * (digits * 2 ^ j) < 2 * (2 ^ (digits.log2 + 1) * 2 ^ j) := by
        have := Nat.mul_lt_mul_of_pos_right hlog (Nat.two_pow_pos j)
        omega
    _ = 2 ^ (digits.log2 + 1 + j + 1) := by rw [← pow_add, ← pow_succ']
    _ ≤ 2 ^ (3 * e) := Nat.pow_le_pow_right (by decide) (by omega)
    _ ≤ 10 ^ e := two_pow_mul_three_le e

/-- The shortcuts for very large and very small decimals make no difference. -/
theorem ofDecimal_eq_ofUnits (negative : Bool) (d : Decimal) :
    ofDecimal negative d = ofUnits negative (d.num * unitsPerOne) d.den := by
  obtain ⟨digits, exponent⟩ := d
  unfold ofDecimal
  by_cases hdigits : digits = 0
  · subst hdigits
    rw [if_pos rfl, ofUnits_eq_zero]
    rw [Decimal.num, Nat.zero_mul, Nat.zero_mul]
    exact Decimal.den_pos _
  · rw [if_neg hdigits]
    cases exponent with
    | ofNat e =>
        dsimp only
        rw [show Int.ofNat e = (e : ℤ) from rfl, Decimal.num_natCast, Decimal.den_natCast]
        split
        · rename_i hlarge
          rw [ofUnits_eq_infinite negative Nat.one_pos]
          rw [Nat.mul_one]
          exact magnitudeBound_le_of_lt hdigits hlarge
        · rfl
    | negSucc e =>
        dsimp only
        rw [Decimal.num_negSucc, Decimal.den_negSucc]
        split
        · rename_i hsmall
          rw [ofUnits_eq_zero]
          exact two_mul_lt_of_log2_lt hsmall
        · rfl

end Binary64

end CreditScorecard
