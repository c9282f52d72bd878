import CreditScorecard.Json.Numeral
import CreditScorecard.Proofs.Binary64.Arithmetic
import CreditScorecard.Proofs.Binary64.Shortest

/-! # Scaling by a power of ten

The digits of a number are read as a double and multiplied or divided by powers of ten. For short
numbers this is one rounding of the exact value. It may go wrong in the last bit for longer ones,
but it does not overflow on a number that is the shortest decimal of a double.
-/

namespace CreditScorecard.Json.Numeral

open Binary64

/-! ## At the end of the range -/

/-- The largest magnitude. -/
def mostMagnitude : ℕ :=
  (2 ^ 53 - 1) * Nat.pow 2 2045

/-- More than this no shortest decimal comes to, unless it is that of the largest magnitude. -/
def mostProduct : ℕ :=
  (2 ^ 54 - 3) * Nat.pow 2 970

/-- What is known of the largest numbers by computing with them. -/
structure EndOfRange : Prop where
  magnitude : magnitudeOf (10 ^ 154 * 10 ^ 154) < magnitudeBound
  /-- The largest magnitude and the product that its shortest decimal is read as. -/
  shortest_most : shortest .even mostMagnitude = ⟨17976931348623157, 292⟩
  product_most :
    nearestMagnitude (magnitudeOf 17976931348623157 * magnitudeOf (10 ^ 146 * 10 ^ 146))
      unitsPerOne < magnitudeBound
  /-- For each of the large powers of ten, the greatest digits that may stand before it. -/
  product : ∀ i < 20,
    nearestMagnitude
      (magnitudeOf (min (20 * 2 ^ 53) (mostProduct / (10 ^ i * 10 ^ 145 * 10 ^ 144))) *
        magnitudeOf (10 ^ i * 10 ^ 145 * 10 ^ 144)) unitsPerOne < magnitudeBound
  mostProduct_lt : mostProduct < 10 ^ 20 * 10 ^ 145 * 10 ^ 144
  two_mul_mostProduct : 2 * (mostProduct * unitsPerOne) = (2 ^ 54 - 3) * Nat.pow 2 2045

theorem endOfRange : EndOfRange := by
  constructor <;> decide +kernel

/-! ## Powers of ten -/

theorem powerOfTen_eq (e : ℕ) : powerOfTen e = Binary64.ofInt (10 ^ e : ℕ) := by
  rw [powerOfTen, ofDecimal_natCast, Nat.one_mul]

theorem magnitudeOf_ten_pow_lt {e : ℕ} (he : e ≤ 308) :
    magnitudeOf (10 ^ e) < magnitudeBound := by
  have hhalves : ∀ k, e ≤ k + k → 10 ^ e ≤ 10 ^ k * 10 ^ k := fun k h => by
    rw [← pow_add]
    exact Nat.pow_le_pow_right (by decide) h
  exact Nat.lt_of_le_of_lt (magnitudeOf_le_magnitudeOf (hhalves 154 he)) endOfRange.magnitude

theorem exists_powerOfTen_eq {e : ℕ} (he : e ≤ 308) :
    ∃ h, powerOfTen e = .finite false (magnitudeOf (10 ^ e)) h :=
  ⟨_, (powerOfTen_eq e).trans (ofInt_natCast_of_lt (magnitudeOf_ten_pow_lt he))⟩

section

variable {digits e : ℕ}

theorem scale?_natCast (he : e ≤ 308) (hdigits : magnitudeOf digits < magnitudeBound) :
    scale? ⟨digits, e⟩ =
      some (ofUnits false (magnitudeOf digits * magnitudeOf (10 ^ e)) unitsPerOne) := by
  obtain ⟨hpower, heq⟩ := exists_powerOfTen_eq he
  simp only [scale?, if_pos he, heq, ofInt_natCast_of_lt hdigits]
  exact congrArg some (mul_finite false _ _)

theorem scale?_negSucc (he : e + 1 ≤ 308) (hdigits : magnitudeOf digits < magnitudeBound) :
    scale? ⟨digits, .negSucc e⟩ =
      some (ofUnits false (magnitudeOf digits * unitsPerOne) (magnitudeOf (10 ^ (e + 1)))) := by
  obtain ⟨hpower, heq⟩ := exists_powerOfTen_eq he
  have hpos : magnitudeOf (10 ^ (e + 1)) ≠ 0 := (magnitudeOf_pos (by positivity)).ne'
  simp only [scale?, divideOut, if_pos he, heq, ofInt_natCast_of_lt hdigits]
  exact congrArg some (div_finite _ _ hpos)

/-! ## Short numbers -/

/-- A number of few digits and a small exponent is read exactly. -/
theorem scale?_eq_ofDecimal {exponent : ℤ} (hdigits : digits ≤ 2 ^ 53)
    (hexponent : exponent.natAbs ≤ 22) :
    scale? ⟨digits, exponent⟩ = some (ofDecimal false ⟨digits, exponent⟩) := by
  have hfinite : magnitudeOf digits < magnitudeBound :=
    magnitudeOf_lt_of_le_two_pow hdigits (by decide)
  have hunits := unitsPerOne_pos
  rw [ofDecimal_eq_ofUnits]
  cases exponent with
  | ofNat e =>
      rw [Int.ofNat_eq_natCast] at hexponent ⊢
      rw [scale?_natCast (by omega) hfinite, magnitudeOf_eq_of_le hdigits,
        magnitudeOf_ten_pow (by omega), Decimal.num_natCast, Decimal.den_natCast]
      refine congrArg some (ofUnits_eq_of_mul_eq false hunits Nat.one_pos ?_)
      generalize unitsPerOne = units
      ring
  | negSucc e =>
      rw [scale?_negSucc (by omega) hfinite, magnitudeOf_eq_of_le hdigits,
        magnitudeOf_ten_pow (by omega), Decimal.num_negSucc, Decimal.den_negSucc]
      refine congrArg some (ofUnits_eq_of_mul_eq false ?_ (by positivity) ?_)
      · exact Nat.mul_pos (by positivity) hunits
      · generalize unitsPerOne = units
        ring

/-! ## Small numbers -/

/-- Dividing by powers of ten never leaves the finite numbers. -/
theorem exists_divideOut_eq {m : ℕ} (h : Representable m) (e steps : ℕ) :
    ∃ k h', divideOut (.finite false m h) e steps = .finite false k h' := by
  have hdiv : ∀ {m e : ℕ} (h : Representable m), e ≤ 308 →
      ∃ k h', (Binary64.finite false m h).div (powerOfTen e) = .finite false k h' := by
    intro m e h he
    obtain ⟨hpower, heq⟩ := exists_powerOfTen_eq he
    rw [heq]
    exact exists_div_eq h hpower (unitsPerOne_le_magnitudeOf (by positivity))
  induction steps generalizing m e with
  | zero => exact ⟨m, h, rfl⟩
  | succ steps ih =>
      rw [divideOut]
      split
      · exact hdiv h (by assumption)
      · split
        · exact ⟨m, h, rfl⟩
        · obtain ⟨k, hk, heq⟩ := hdiv h (Nat.le_refl 308)
          rw [heq]
          exact ih hk _

theorem exists_scale?_negSucc (hdigits : magnitudeOf digits < magnitudeBound) :
    ∃ k h, scale? ⟨digits, .negSucc e⟩ = some (.finite false k h) := by
  obtain ⟨k, h, heq⟩ := exists_divideOut_eq
    (representable_nearestMagnitude Nat.one_pos hdigits) (e + 1) ((e + 1) / 308 + 1)
  refine ⟨k, h, ?_⟩
  rw [← heq, scale?, ofInt_natCast_of_lt hdigits]
  rfl

/-! ## Large numbers -/

theorem exists_scale?_natCast (he : e ≤ 308) (hdigits : magnitudeOf digits < magnitudeBound)
    (h : nearestMagnitude (magnitudeOf digits * magnitudeOf (10 ^ e)) unitsPerOne <
      magnitudeBound) :
    ∃ k h', scale? ⟨digits, e⟩ = some (.finite false k h') := by
  rw [scale?_natCast he hdigits, ofUnits_of_lt false unitsPerOne_pos h]
  exact ⟨_, _, rfl⟩

/-- The product grows with the digits. -/
theorem product_le_product {digits' : ℕ} (h : digits ≤ digits') (e : ℕ) :
    nearestMagnitude (magnitudeOf digits * magnitudeOf (10 ^ e)) unitsPerOne ≤
      nearestMagnitude (magnitudeOf digits' * magnitudeOf (10 ^ e)) unitsPerOne := by
  apply nearestMagnitude_le_nearestMagnitude unitsPerOne_pos unitsPerOne_pos
  exact Nat.mul_le_mul_right _ (Nat.mul_le_mul_right _ (magnitudeOf_le_magnitudeOf h))

theorem ten_pow_le_two_pow {e k : ℕ} (h : e ≤ 3 * k) : 10 ^ e ≤ 2 ^ (10 * k) := by
  calc 10 ^ e ≤ 10 ^ (3 * k) := Nat.pow_le_pow_right (by decide) h
    _ = (10 ^ 3) ^ k := pow_mul 10 3 k
    _ ≤ (2 ^ 10) ^ k := Nat.pow_le_pow_left (by norm_num) k
    _ = 2 ^ (10 * k) := (pow_mul 2 10 k).symm

/-- Far below the largest magnitude no product overflows. -/
theorem product_lt_of_le (hdigits : digits ≤ 20 * 2 ^ 53) (he : e ≤ 288) :
    nearestMagnitude (magnitudeOf digits * magnitudeOf (10 ^ e)) unitsPerOne < magnitudeBound := by
  obtain ⟨k, hk, hten⟩ : ∃ k, k = 960 ∧ 10 ^ e ≤ 1 * 2 ^ k := by
    refine ⟨10 * 96, rfl, ?_⟩
    rw [Nat.one_mul]
    exact ten_pow_le_two_pow (by omega)
  have hleft : magnitudeOf digits ≤ 1 * 2 ^ 58 * unitsPerOne := by
    rw [← magnitudeOf_eq (by decide) 58]
    exact magnitudeOf_le_magnitudeOf (hdigits.trans (by norm_num))
  have hright : magnitudeOf (10 ^ e) ≤ 1 * 2 ^ k * unitsPerOne := by
    rw [← magnitudeOf_eq (by decide) k]
    exact magnitudeOf_le_magnitudeOf hten
  have hproduct : magnitudeOf digits * magnitudeOf (10 ^ e) ≤
      2 ^ (58 + k) * unitsPerOne * unitsPerOne := by
    calc magnitudeOf digits * magnitudeOf (10 ^ e)
        ≤ 1 * 2 ^ 58 * unitsPerOne * (1 * 2 ^ k * unitsPerOne) := Nat.mul_le_mul hleft hright
      _ = 2 ^ (58 + k) * unitsPerOne * unitsPerOne := by
        rw [pow_add]
        generalize unitsPerOne = units
        ring
  obtain ⟨j, hj, hunits⟩ := exists_unitsPerOne_eq
  obtain ⟨b, hb, hbound⟩ := exists_magnitudeBound_eq
  have hpower : 2 ^ (58 + k) * unitsPerOne = 2 ^ (58 + k + j) := by rw [hunits, ← pow_add]
  rw [hpower] at hproduct
  apply Nat.lt_of_le_of_lt
    (nearestMagnitude_le (spacing_two_pow_dvd _) unitsPerOne_pos hproduct)
  rw [hbound]
  exact Nat.pow_lt_pow_right (by decide) (by omega)

/-- The reals that round to a magnitude below the largest one end well before the latter. -/
theorem two_mul_add_spacing_le {n : ℕ} (h : Representable n) (hne : n ≠ mostMagnitude) :
    2 * n + spacing n ≤ (2 ^ 54 - 3) * Nat.pow 2 2045 := by
  obtain ⟨b, hb, hbound⟩ := exists_magnitudeBound_eq
  obtain ⟨hlt, hdvd⟩ := h
  rw [hbound] at hlt
  have hlog : n.log2 ≤ 2097 := by
    by_cases hn : n = 0
    · subst hn
      decide
    · have := (Nat.log2_lt hn).mpr hlt
      omega
  unfold mostMagnitude at hne
  generalize hk : 2045 = k at hne ⊢
  rw [show Nat.pow 2 k = 2 ^ k from rfl] at hne ⊢
  rcases Nat.lt_or_eq_of_le hlog with hsmall | htop
  · have hn : n < 2 ^ 52 * 2 ^ k := by
      rw [← pow_add]
      exact Nat.lt_of_lt_of_le Nat.lt_log2_self (Nat.pow_le_pow_right (by decide) (by omega))
    have hspacing : spacing n ≤ 2 ^ k := by
      rw [spacing_eq_two_pow]
      exact Nat.pow_le_pow_right (by decide) (by omega)
    omega
  · have hspacing : spacing n = 2 ^ k := by
      rw [spacing_eq_two_pow, show n.log2 - 52 = k by omega]
    rw [hspacing] at hdvd ⊢
    obtain ⟨j, rfl⟩ := hdvd
    have hj : j < 2 ^ 53 := by
      have hpow : 2 ^ b = 2 ^ k * 2 ^ 53 := by
        rw [← pow_add, show b = k + 53 by omega]
      rw [hpow] at hlt
      exact Nat.lt_of_mul_lt_mul_left hlt
    have hj' : j ≠ 2 ^ 53 - 1 := by
      rintro rfl
      exact hne (Nat.mul_comm _ _)
    have hdouble : 2 * j + 1 ≤ 2 ^ 54 - 3 := by omega
    calc 2 * (2 ^ k * j) + 2 ^ k = (2 * j + 1) * 2 ^ k := by ring
      _ ≤ (2 ^ 54 - 3) * 2 ^ k := Nat.mul_le_mul_right _ hdouble

theorem product_lt_of_mul_le (hdigits : digits ≤ 20 * 2 ^ 53) (hlarge : 288 < e)
    (hzero : digits ≠ 0) (hmost : digits * 10 ^ e ≤ mostProduct) :
    e ≤ 308 ∧
      nearestMagnitude (magnitudeOf digits * magnitudeOf (10 ^ e)) unitsPerOne <
        magnitudeBound := by
  have hpower : ∀ k, 10 ^ (k + 145 + 144) = 10 ^ k * 10 ^ 145 * 10 ^ 144 := fun k => by
    rw [pow_add, pow_add]
  obtain ⟨i, rfl⟩ : ∃ i, e = i + 145 + 144 := ⟨e - 289, by omega⟩
  rw [hpower] at hmost ⊢
  have hi : i < 20 := by
    by_contra hge
    have hle : 10 ^ 20 ≤ 10 ^ i := Nat.pow_le_pow_right (by decide) (by omega)
    have hten : 10 ^ 20 * 10 ^ 145 * 10 ^ 144 ≤ 10 ^ i * 10 ^ 145 * 10 ^ 144 :=
      Nat.mul_le_mul_right _ (Nat.mul_le_mul_right _ hle)
    have hone := Nat.le_mul_of_pos_left (10 ^ i * 10 ^ 145 * 10 ^ 144) (Nat.pos_of_ne_zero hzero)
    exact absurd endOfRange.mostProduct_lt (Nat.not_lt_of_le ((hten.trans hone).trans hmost))
  refine ⟨by omega, ?_⟩
  have hpos : 0 < 10 ^ i * 10 ^ 145 * 10 ^ 144 := by positivity
  have hdiv : digits ≤ mostProduct / (10 ^ i * 10 ^ 145 * 10 ^ 144) :=
    (Nat.le_div_iff_mul_le hpos).mpr hmost
  have hgrow := product_le_product (Nat.le_min.mpr ⟨hdigits, hdiv⟩) (i + 145 + 144)
  rw [hpower] at hgrow
  exact Nat.lt_of_le_of_lt hgrow (endOfRange.product i hi)

/-- The shortest decimal of a number does not overflow when it is scaled. -/
theorem exists_scale?_shortest {n : ℕ} (h : Representable n)
    (hshortest : shortest .even n = ⟨digits, e⟩) :
    ∃ k h', scale? ⟨digits, e⟩ = some (.finite false k h') := by
  have hdigits : digits ≤ 20 * 2 ^ 53 := by
    have := digits_shortest_le .even n
    rwa [hshortest] at this
  have hfinite : magnitudeOf digits < magnitudeBound :=
    magnitudeOf_lt_of_le_two_pow (hdigits.trans (by norm_num : 20 * 2 ^ 53 ≤ 2 ^ 58)) (by decide)
  suffices hproduct : e ≤ 308 ∧
      nearestMagnitude (magnitudeOf digits * magnitudeOf (10 ^ e)) unitsPerOne <
        magnitudeBound from
    exists_scale?_natCast hproduct.1 hfinite hproduct.2
  rcases Nat.lt_or_ge 288 e with hlarge | hsmall
  · have hn : n ≠ 0 := by
      rintro rfl
      rw [shortest, if_pos rfl, Decimal.mk.injEq] at hshortest
      omega
    have hzero : digits ≠ 0 := by
      have := digits_shortest_ne_zero hn .even
      rwa [hshortest] at this
    by_cases hmost : n = mostMagnitude
    · rw [hmost, endOfRange.shortest_most] at hshortest
      obtain ⟨rfl, hexponent⟩ := Decimal.mk.inj hshortest
      obtain rfl : e = 146 + 146 := by omega
      have hpower : ∀ k, 10 ^ (k + k) = 10 ^ k * 10 ^ k := fun k => pow_add 10 k k
      refine ⟨by omega, ?_⟩
      rw [hpower]
      exact endOfRange.product_most
    · apply product_lt_of_mul_le hdigits hlarge hzero
      have hbound := (two_mul_shortest_le hn hshortest).trans (two_mul_add_spacing_le h hmost)
      rw [← endOfRange.two_mul_mostProduct] at hbound
      exact Nat.le_of_mul_le_mul_right (Nat.le_of_mul_le_mul_left hbound (by decide))
        unitsPerOne_pos
  · exact ⟨by omega, product_lt_of_le hdigits hsmall⟩

end

end CreditScorecard.Json.Numeral
