import CreditScorecard.Proofs.Binary64.Arithmetic
import CreditScorecard.Proofs.Evaluation.Total

/-! # Grading is exact

A cutoff is a number of fifths, of which the format has none: the cutoff is rounded, and so is its
product with the ceiling, or the ratio of the total to the ceiling. Up to a ceiling of `2 ^ 50` this
carries no total over a cutoff, and every comparison comes out as that of the exact numbers.
-/

namespace CreditScorecard

namespace Binary64

variable {n num den : ℕ}

/-- An excess of one part in `2 ^ 54` over a magnitude is rounded away. -/
theorem nearestMagnitude_le_of_excess (hn : spacing n ∣ n) (hden : 0 < den)
    (h : 2 ^ 54 * num ≤ (2 ^ 54 + 1) * (n * den)) : nearestMagnitude num den ≤ n := by
  have hround : RoundsTo n ((2 ^ 54 + 1) * n) (2 ^ 54) := by
    have hspacing := lt_mul_spacing n
    have hgap := Nat.mul_le_mul_right (2 ^ 54) (Nat.sub_le (4 * n) (gapBelow n))
    constructor
    · omega
    · omega
    · intro heq
      have hzero : n = 0 := by omega
      rw [hzero, Nat.zero_div]
    · intro heq
      omega
  calc nearestMagnitude num den
      ≤ nearestMagnitude ((2 ^ 54 + 1) * n) (2 ^ 54) := by
        apply nearestMagnitude_le_nearestMagnitude hden (Nat.two_pow_pos 54)
        calc num * 2 ^ 54 = 2 ^ 54 * num := Nat.mul_comm _ _
          _ ≤ (2 ^ 54 + 1) * (n * den) := h
          _ = (2 ^ 54 + 1) * n * den := (Nat.mul_assoc _ _ _).symm
    _ = n := nearestMagnitude_eq_of_roundsTo hn (Nat.two_pow_pos 54) hround

/-- The units in `2 ^ -53`. -/
def grain : ℕ :=
  Nat.pow 2 1021

theorem exists_grain_eq : ∃ k, grain = 2 ^ k ∧ unitsPerOne = 2 ^ 53 * grain := by
  obtain ⟨k, hk, hunits⟩ := exists_unitsPerOne_eq
  have hgrain : ∃ j, j = 1021 ∧ grain = 2 ^ j := by
    refine ⟨1021, rfl, ?_⟩
    unfold grain
    generalize 1021 = j
    rfl
  obtain ⟨j, hj, hgrain⟩ := hgrain
  refine ⟨j, hgrain, ?_⟩
  rw [hunits, hgrain, ← pow_add, hk, hj]

theorem grain_pos : 0 < grain := by
  obtain ⟨k, hgrain, -⟩ := exists_grain_eq
  rw [hgrain]
  exact Nat.two_pow_pos k

/-- A magnitude of few grains is a number of the format. -/
theorem spacing_dvd_mul_grain {m : ℕ} (hm : m ≤ 2 ^ 53) (j : ℕ) :
    spacing (m * (2 ^ j * grain)) ∣ m * (2 ^ j * grain) := by
  obtain ⟨k, hgrain, -⟩ := exists_grain_eq
  rw [hgrain, ← pow_add]
  exact spacing_dvd_of_le hm (j + k)

end Binary64

open Binary64

namespace Grade

/-! ## Cutoffs -/

/-- A double that stands for a number of fifths: the nearest multiple of `2 ^ -53`. -/
structure IsCutoff (cutoff : Binary64) (fifths significand : ℕ) : Prop where
  value : ∃ h, cutoff = .finite false (significand * grain) h
  nearest : nearestMagnitude (fifths * unitsPerOne) 5 = significand * grain
  two_le : 2 ≤ fifths
  le_five : fifths ≤ 5
  le_significand : fifths * 2 ^ 53 ≤ 5 * significand + 1
  significand_le : 5 * significand ≤ fifths * 2 ^ 53 + 1

/-- The cutoff of low risk is less than three fifths. -/
theorem isCutoff_low : IsCutoff lowCutoff 3 5404319552844595 where
  value := ⟨by decide +kernel, by decide +kernel⟩
  nearest := by decide +kernel
  two_le := by decide
  le_five := by decide
  le_significand := by decide
  significand_le := by decide

/-- The cutoff of medium risk is more than two fifths. -/
theorem isCutoff_medium : IsCutoff mediumCutoff 2 3602879701896397 where
  value := ⟨by decide +kernel, by decide +kernel⟩
  nearest := by decide +kernel
  two_le := by decide
  le_five := by decide
  le_significand := by decide
  significand_le := by decide

/-- The rounded product of a cutoff and a ceiling, in units. -/
def product (significand m : ℕ) : ℕ :=
  nearestMagnitude (significand * grain * (m * unitsPerOne)) unitsPerOne

theorem magnitudeOf_value_lt (total : Points) :
    magnitudeOf total.value.natAbs < magnitudeBound :=
  magnitudeOf_natAbs_lt total.least_le (total.le_most.trans (by decide))

/-- A negative total does not meet any part of a ceiling. -/
theorem not_mul_le_of_neg {k : ℤ} (hk : k < 0) (fifths m : ℕ) : ¬ (fifths * m : ℤ) ≤ 5 * k := by
  have hproduct : (0 : ℤ) ≤ fifths * m := by positivity
  omega

namespace IsCutoff

variable {cutoff : Binary64} {fifths significand m t : ℕ}
variable (hc : IsCutoff cutoff fifths significand)

include hc

theorem significand_pos : 0 < significand := by
  have htwo := hc.two_le
  have hnear := hc.le_significand
  omega

theorem significand_le_two_pow : significand ≤ 2 ^ 53 := by
  have hfive := hc.le_five
  have hnear := hc.significand_le
  omega

theorem fifths_mul_le (hm : m ≤ 2 ^ 50) : fifths * m ≤ 5 * 2 ^ 50 :=
  Nat.mul_le_mul hc.le_five hm

/-! ## The error of a cutoff

A cutoff is off by a fifth of `2 ^ -53` at most, and a ceiling scales that error.
-/

theorem fifths_mul_le_significand_mul (m : ℕ) :
    2 ^ 53 * (fifths * m) ≤ 5 * (significand * m) + m := by
  have hle := Nat.mul_le_mul_right m hc.le_significand
  nlinarith

theorem significand_mul_le_fifths_mul (m : ℕ) :
    5 * (significand * m) ≤ 2 ^ 53 * (fifths * m) + m := by
  have hle := Nat.mul_le_mul_right m hc.significand_le
  nlinarith

/-- The scaled error is less than the distance of a natural number from a fifth above it. -/
theorem eighth_above_le (hm : m ≤ 2 ^ 50) (h : 5 * t < fifths * m) :
    (8 * t + 1) * 2 ^ 50 ≤ significand * m := by
  have herror := hc.fifths_mul_le_significand_mul m
  omega

/-- The scaled error is at most one part in `2 ^ 54` of the exact product. -/
theorem significand_mul_le_excess (h : fifths * m ≤ 5 * t) :
    2 ^ 54 * (significand * m) ≤ (2 ^ 54 + 1) * (2 ^ 53 * t) := by
  have herror := hc.significand_mul_le_fifths_mul m
  have htwo := Nat.mul_le_mul_right m hc.two_le
  omega

/-- A ratio below the exact cutoff is below it by more than the distance of two doubles. -/
theorem le_below_mul {below : ℕ} (hm : m ≤ 2 ^ 50) (hbelow : significand = below + 1)
    (h : 5 * t < fifths * m) : t * 2 ^ 53 ≤ below * m := by
  have herror := hc.fifths_mul_le_significand_mul m
  have hsplit : significand * m = below * m + m := by
    rw [hbelow]
    exact Nat.succ_mul below m
  omega

/-- A comparison that is right for exact totals is right for all: beyond `2 ^ 53` a total is
rounded, but exceeds any ceiling. -/
theorem le_rounded_iff {bound : ℕ} {f : ℕ → ℕ} (hm : m ≤ 2 ^ 50) (hmono : Monotone f)
    (hexact : ∀ t ≤ 2 ^ 53, bound ≤ f (t * unitsPerOne) ↔ fifths * m ≤ 5 * t) :
    bound ≤ f (magnitudeOf t) ↔ fifths * m ≤ 5 * t := by
  have hceiling := hc.fifths_mul_le hm
  rcases Nat.le_total t (2 ^ 53) with ht | ht
  · rw [magnitudeOf_eq_of_le ht]
    exact hexact t ht
  · have hleast : bound ≤ f (magnitudeOf (2 ^ 53)) := by
      rw [magnitudeOf_eq_of_le le_rfl]
      exact (hexact _ le_rfl).mpr (hceiling.trans (by decide))
    exact iff_of_true (hleast.trans (hmono (magnitudeOf_le_magnitudeOf ht))) (by omega)

/-! ## The product of a cutoff and a ceiling -/

/-- An eighth above the total there is a number that the product does not fall below. -/
theorem lt_product (hm : m ≤ 2 ^ 50) (h : 5 * t < fifths * m) :
    t * unitsPerOne < product significand m := by
  obtain ⟨-, -, hunits⟩ := exists_grain_eq
  have hsmall : 8 * t + 1 ≤ 2 ^ 53 := by
    have hexact := hc.fifths_mul_le hm
    omega
  have hnext : (8 * t + 1) * (2 ^ 50 * grain) ≤ product significand m := by
    apply le_nearestMagnitude (spacing_dvd_mul_grain hsmall 50) unitsPerOne_pos
    calc (8 * t + 1) * (2 ^ 50 * grain) * unitsPerOne
        = (8 * t + 1) * 2 ^ 50 * (grain * unitsPerOne) := by ring
      _ ≤ significand * m * (grain * unitsPerOne) :=
        Nat.mul_le_mul_right _ (hc.eighth_above_le hm h)
      _ = significand * grain * (m * unitsPerOne) := by ring
  have hgrain := grain_pos
  apply Nat.lt_of_lt_of_le _ hnext
  rw [hunits]
  nlinarith

/-- What the product exceeds the total by is rounded away. -/
theorem product_le (ht : t ≤ 2 ^ 53) (h : fifths * m ≤ 5 * t) :
    product significand m ≤ t * unitsPerOne := by
  obtain ⟨-, -, hunits⟩ := exists_grain_eq
  have hexact : spacing (t * unitsPerOne) ∣ t * unitsPerOne := by
    rw [hunits]
    exact spacing_dvd_mul_grain ht 53
  apply nearestMagnitude_le_of_excess hexact unitsPerOne_pos
  calc 2 ^ 54 * (significand * grain * (m * unitsPerOne))
      = 2 ^ 54 * (significand * m) * (grain * unitsPerOne) := by ring
    _ ≤ (2 ^ 54 + 1) * (2 ^ 53 * t) * (grain * unitsPerOne) :=
      Nat.mul_le_mul_right _ (hc.significand_mul_le_excess h)
    _ = (2 ^ 54 + 1) * (t * (2 ^ 53 * grain) * unitsPerOne) := by ring
    _ = (2 ^ 54 + 1) * (t * unitsPerOne * unitsPerOne) := by rw [← hunits]

theorem product_lt (hm : m ≤ 2 ^ 50) : product significand m < magnitudeBound := by
  have hle : product significand m ≤ 2 ^ 50 * unitsPerOne :=
    hc.product_le (by decide) (hc.fifths_mul_le hm)
  rw [← magnitudeOf_eq_of_le (by decide)] at hle
  exact Nat.lt_of_le_of_lt hle (magnitudeOf_lt_of_le_two_pow le_rfl (by decide))

theorem product_le_magnitudeOf_iff (hm : m ≤ 2 ^ 50) :
    product significand m ≤ magnitudeOf t ↔ fifths * m ≤ 5 * t := by
  have hexact : ∀ t ≤ 2 ^ 53,
      product significand m ≤ id (t * unitsPerOne) ↔ fifths * m ≤ 5 * t := by
    intro t ht
    rw [id_eq]
    constructor
    · intro hproduct
      by_contra hlt
      exact absurd (hc.lt_product hm (Nat.lt_of_not_le hlt)) (Nat.not_lt_of_le hproduct)
    · exact hc.product_le ht
  have hrounded := hc.le_rounded_iff (t := t) hm monotone_id hexact
  rwa [id_eq] at hrounded

theorem order?_mul (hm : m ≤ 2 ^ 50) :
    (cutoff.mul (ofInt m)).order? = some (product significand m : ℤ) := by
  have hbound : magnitudeOf m < magnitudeBound := magnitudeOf_lt_of_le_two_pow hm (by decide)
  have hunits : magnitudeOf m = m * unitsPerOne := magnitudeOf_eq_of_le (hm.trans (by decide))
  have hmul : cutoff.mul (ofInt m) =
      ofUnits false (significand * grain * magnitudeOf m) unitsPerOne := by
    obtain ⟨hsignificand, hvalue⟩ := hc.value
    rw [hvalue, ofInt_natCast_of_lt hbound]
    exact mul_finite false _ _
  rw [hmul, hunits]
  exact order?_ofUnits_of_lt unitsPerOne_pos (hc.product_lt hm)

/-- A total meets the rounded product of a cutoff and a ceiling exactly if it meets the exact
product. -/
theorem le_mul_iff {total : Points} (hm : m ≤ 2 ^ 50) :
    le (cutoff.mul (ofInt m)) (ofInt total.value) = true ↔ (fifths * m : ℤ) ≤ 5 * total.value := by
  rw [le_iff (hc.order?_mul hm) (order?_ofInt (magnitudeOf_value_lt total))]
  rcases Int.lt_or_le total.value 0 with hneg | hnonneg
  · refine iff_of_false ?_ (not_mul_le_of_neg hneg fifths m)
    have hbelow := placeOf_neg hneg
    omega
  · obtain ⟨t, ht⟩ := Int.eq_ofNat_of_zero_le hnonneg
    rw [ht, placeOf_natCast]
    exact_mod_cast hc.product_le_magnitudeOf_iff hm

/-! ## The ratio of a total to a ceiling -/

/-- Below a cutoff there is a number that a lower ratio does not exceed. -/
theorem ratio_lt (hpos : 0 < m) (hm : m ≤ 2 ^ 50) (h : 5 * t < fifths * m) :
    nearestMagnitude (t * unitsPerOne * unitsPerOne) (m * unitsPerOne) <
      significand * grain := by
  obtain ⟨-, -, hunits⟩ := exists_grain_eq
  obtain ⟨below, hbelow⟩ := Nat.exists_eq_succ_of_ne_zero hc.significand_pos.ne'
  have hsmall : below ≤ 2 ^ 53 := (Nat.le_succ below).trans (hbelow ▸ hc.significand_le_two_pow)
  have hprevious : nearestMagnitude (t * unitsPerOne * unitsPerOne) (m * unitsPerOne) ≤
      below * (2 ^ 0 * grain) := by
    apply nearestMagnitude_le (spacing_dvd_mul_grain hsmall 0)
      (Nat.mul_pos hpos unitsPerOne_pos)
    calc t * unitsPerOne * unitsPerOne = t * (2 ^ 53 * grain) * unitsPerOne := by rw [← hunits]
      _ = t * 2 ^ 53 * (grain * unitsPerOne) := by ring
      _ ≤ below * m * (grain * unitsPerOne) :=
        Nat.mul_le_mul_right _ (hc.le_below_mul hm hbelow h)
      _ = below * (2 ^ 0 * grain) * (m * unitsPerOne) := by ring
  apply Nat.lt_of_le_of_lt hprevious
  rw [hbelow, pow_zero, Nat.one_mul]
  exact Nat.mul_lt_mul_of_pos_right (Nat.lt_succ_self below) grain_pos

/-- Rounding keeps the order of a ratio and the exact cutoff. -/
theorem le_ratio (hpos : 0 < m) (h : fifths * m ≤ 5 * t) :
    significand * grain ≤
      nearestMagnitude (t * unitsPerOne * unitsPerOne) (m * unitsPerOne) := by
  have hquotient : fifths * unitsPerOne * (m * unitsPerOne) ≤
      t * unitsPerOne * unitsPerOne * 5 := by
    calc fifths * unitsPerOne * (m * unitsPerOne)
        = fifths * m * (unitsPerOne * unitsPerOne) := by ring
      _ ≤ 5 * t * (unitsPerOne * unitsPerOne) := Nat.mul_le_mul_right _ h
      _ = t * unitsPerOne * unitsPerOne * 5 := by ring
  rw [← hc.nearest]
  exact nearestMagnitude_le_nearestMagnitude (Nat.succ_pos 4)
    (Nat.mul_pos hpos unitsPerOne_pos) hquotient

theorem le_ratio_iff (hpos : 0 < m) (hm : m ≤ 2 ^ 50) :
    significand * grain ≤ nearestMagnitude (magnitudeOf t * unitsPerOne) (m * unitsPerOne) ↔
      fifths * m ≤ 5 * t := by
  have hden : 0 < m * unitsPerOne := Nat.mul_pos hpos unitsPerOne_pos
  have hmono : Monotone fun n => nearestMagnitude (n * unitsPerOne) (m * unitsPerOne) := by
    intro n n' hn
    apply nearestMagnitude_le_nearestMagnitude hden hden
    exact Nat.mul_le_mul_right _ (Nat.mul_le_mul_right _ hn)
  apply hc.le_rounded_iff hm hmono
  intro t _
  constructor
  · intro hratio
    by_contra hlt
    exact absurd (hc.ratio_lt hpos hm (Nat.lt_of_not_le hlt)) (Nat.not_lt_of_le hratio)
  · exact hc.le_ratio hpos

theorem order?_eq : cutoff.order? = some ((significand * grain : ℕ) : ℤ) := by
  obtain ⟨hsignificand, hvalue⟩ := hc.value
  rw [hvalue]
  rfl

/-- A ratio meets a cutoff exactly if the total meets the exact product. -/
theorem le_div_iff {total : Points} (hpos : 0 < m) (hm : m ≤ 2 ^ 50) :
    le cutoff ((ofInt total.value).div (ofInt m)) = true ↔
      (fifths * m : ℤ) ≤ 5 * total.value := by
  have htotal := magnitudeOf_value_lt total
  have hbound : magnitudeOf m < magnitudeBound := magnitudeOf_lt_of_le_two_pow hm (by decide)
  rcases Int.lt_or_le total.value 0 with hneg | hnonneg
  · obtain ⟨a, ha, hratio⟩ := order?_div_of_neg hneg hpos.ne' htotal hbound
    have hcutoff : 0 < significand * grain := Nat.mul_pos hc.significand_pos grain_pos
    rw [le_iff hc.order?_eq hratio]
    refine iff_of_false (Int.not_le.mpr ?_) (not_mul_le_of_neg hneg fifths m)
    exact Int.lt_of_le_of_lt ha (Int.natCast_pos.mpr hcutoff)
  · obtain ⟨t, ht⟩ := Int.eq_ofNat_of_zero_le hnonneg
    have hunits : magnitudeOf m = m * unitsPerOne := magnitudeOf_eq_of_le (hm.trans (by decide))
    rw [ht, Int.natAbs_natCast] at htotal
    rw [ht, le_iff hc.order?_eq (order?_div_natCast hpos.ne' htotal hbound), hunits]
    exact_mod_cast hc.le_ratio_iff hpos hm

end IsCutoff

/-! ## Grades -/

/-- The grade by exact comparisons with three fifths and two fifths of the ceiling. -/
def ofExact (total ceiling : ℤ) : Grade :=
  if 3 * ceiling ≤ 5 * total then .low
  else if 2 * ceiling ≤ 5 * total then .medium
  else .high

theorem ofExact_eq_low_iff {total ceiling : ℤ} :
    ofExact total ceiling = .low ↔ 3 * ceiling ≤ 5 * total := by
  unfold ofExact
  split
  · simp [*]
  · split <;> simp [*]

/-- For a positive ceiling, a total that meets the higher cutoff meets the lower one. -/
theorem ofExact_eq_medium_or_low_iff {total ceiling : ℤ} (h : 0 ≤ ceiling) :
    ofExact total ceiling = .medium ∨ ofExact total ceiling = .low ↔
      2 * ceiling ≤ 5 * total := by
  unfold ofExact
  split
  · simp only [or_true, true_iff]
    omega
  · split <;> simp [*]

variable {total ceiling : Points}

/-- A total and its ceiling are graded as if nothing were rounded: the grade is that of the exact
comparisons, every evaluation of a scorecard carries it, and the ratio of an evaluation meets the
cutoffs of its grade and no other. -/
structure ExactlyGraded (total ceiling : Points) : Prop where
  ofScore_eq : ofScore total ceiling = ofExact total.value ceiling.value
  evaluate : ∀ (card : Scorecard) (inputs : Inputs), card.maxScore = ceiling →
    (card.evaluate inputs).totalScore = total →
      (card.evaluate inputs).grade = ofScore total ceiling
  low_ratio : ∀ evaluation : Evaluation, evaluation.totalScore = total →
    evaluation.maxScore = ceiling →
      (le lowCutoff evaluation.ratio = true ↔ ofScore total ceiling = .low)
  medium_ratio : ∀ evaluation : Evaluation, evaluation.totalScore = total →
    evaluation.maxScore = ceiling →
      (le mediumCutoff evaluation.ratio = true ↔
        ofScore total ceiling = .medium ∨ ofScore total ceiling = .low)

theorem ofScore_eq_ofExact {m : ℕ} (hm : m ≤ 2 ^ 50) (hceiling : ceiling.value = m) :
    ofScore total ceiling = ofExact total.value m := by
  have hlow : le (lowCutoff.mul (ofInt m)) (ofInt total.value) = true ↔
      ((3 : ℕ) * m : ℤ) ≤ 5 * total.value := isCutoff_low.le_mul_iff hm
  have hmedium : le (mediumCutoff.mul (ofInt m)) (ofInt total.value) = true ↔
      ((2 : ℕ) * m : ℤ) ≤ 5 * total.value := isCutoff_medium.le_mul_iff hm
  simp only [ofScore, ofExact, hceiling, hlow, hmedium]
  rfl

theorem le_ratio_iff {cutoff : Binary64} {fifths significand m : ℕ}
    (hc : IsCutoff cutoff fifths significand) (hpos : 0 < m) (hm : m ≤ 2 ^ 50)
    {evaluation : Evaluation} (hceiling : evaluation.maxScore.value = m) :
    le cutoff evaluation.ratio = true ↔ (fifths * m : ℤ) ≤ 5 * evaluation.totalScore.value := by
  have hne : (m : ℤ) ≠ 0 := by omega
  rw [Evaluation.ratio, hceiling, if_neg hne]
  exact hc.le_div_iff hpos hm

/-- Up to a ceiling of `2 ^ 50`, every total is graded as if nothing were rounded. -/
theorem exactlyGraded (hleast : 1 ≤ ceiling.value) (hmost : ceiling.value ≤ 2 ^ 50) :
    ExactlyGraded total ceiling := by
  obtain ⟨m, hceiling⟩ := Int.eq_ofNat_of_zero_le (Int.le_trans (by decide) hleast)
  have hpos : 0 < m := by omega
  have hm : m ≤ 2 ^ 50 := by
    rw [hceiling] at hmost
    exact_mod_cast hmost
  have hexact : ofScore total ceiling = ofExact total.value m := ofScore_eq_ofExact hm hceiling
  constructor
  case ofScore_eq => rw [hexact, hceiling]
  case evaluate =>
    intro card inputs hmax htotal
    rw [Scorecard.grade_evaluate, hmax, htotal]
  case low_ratio =>
    intro evaluation htotal hmax
    subst hmax htotal
    rw [le_ratio_iff isCutoff_low hpos hm hceiling, hexact, ofExact_eq_low_iff]
    rfl
  case medium_ratio =>
    intro evaluation htotal hmax
    subst hmax htotal
    rw [le_ratio_iff isCutoff_medium hpos hm hceiling, hexact,
      ofExact_eq_medium_or_low_iff (Int.natCast_nonneg m)]
    rfl

/-- At the greatest of these ceilings, a total that misses three fifths by two fifths of a point is
medium, and the next one is low. -/
theorem exactlyGraded_greatestCeiling :
    (1 ≤ (Points.clamp (2 ^ 50)).value ∧ (Points.clamp (2 ^ 50)).value ≤ 2 ^ 50) ∧
    ExactlyGraded (Points.clamp 675539944105574) (Points.clamp (2 ^ 50)) ∧
    ofExact 675539944105574 (2 ^ 50) = .medium ∧
    ofExact 675539944105575 (2 ^ 50) = .low :=
  ⟨by decide, exactlyGraded (by decide) (by decide), by decide, by decide⟩

end Grade

end CreditScorecard
