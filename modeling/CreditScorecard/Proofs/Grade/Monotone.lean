import CreditScorecard.Proofs.Grade.Exact

/-! # Grading is monotone

Totals and ceilings beyond `2 ^ 53` are rounded, and so is every product of a ceiling and a cutoff.
Each of these roundings keeps the order, below zero as well as above. Whatever the sizes, a higher
total is therefore graded no worse, and a higher ceiling grades no better.
-/

namespace CreditScorecard

namespace Binary64

/-! ## Magnitudes of integers -/

/-- A magnitude that depends on the size of an integer, with the sign of the integer. -/
def signed (f : ℕ → ℕ) (k : ℤ) : ℤ :=
  if k < 0 then -f k.natAbs else f k.natAbs

theorem signed_le_signed {f : ℕ → ℕ} (hf : Monotone f) {j k : ℤ} (h : j ≤ k) :
    signed f j ≤ signed f k := by
  unfold signed
  split
  case isTrue hj =>
    split
    case isTrue hk =>
      -- below zero the greater integer is the smaller one in size
      have hsize : f k.natAbs ≤ f j.natAbs := hf (by omega)
      omega
    case isFalse => omega
  case isFalse hj =>
    have hk : ¬k < 0 := by omega
    have hsize : f j.natAbs ≤ f k.natAbs := hf (by omega)
    rw [if_neg hk]
    exact_mod_cast hsize

theorem placeOf_le_placeOf {j k : ℤ} (h : j ≤ k) : placeOf j ≤ placeOf k :=
  signed_le_signed (fun _ _ => magnitudeOf_le_magnitudeOf) h

/-- The rounded product of a magnitude and a natural, which is rounded itself. -/
def scaled (n m : ℕ) : ℕ :=
  nearestMagnitude (n * magnitudeOf m) unitsPerOne

theorem monotone_scaled (n : ℕ) : Monotone (scaled n) := by
  intro m m' h
  apply nearestMagnitude_le_nearestMagnitude unitsPerOne_pos unitsPerOne_pos
  exact Nat.mul_le_mul_right _ (Nat.mul_le_mul_left n (magnitudeOf_le_magnitudeOf h))

/-- A factor of at most one does not lead beyond the natural. -/
theorem scaled_le {n : ℕ} (hone : n ≤ unitsPerOne) (m : ℕ) : scaled n m ≤ magnitudeOf m := by
  apply nearestMagnitude_le (spacing_dvd_nearestMagnitude Nat.one_pos) unitsPerOne_pos
  calc n * magnitudeOf m ≤ unitsPerOne * magnitudeOf m := Nat.mul_le_mul_right _ hone
    _ = magnitudeOf m * unitsPerOne := Nat.mul_comm _ _

theorem order?_mul_ofInt {n : ℕ} {k : ℤ} (hn : Representable n) (hone : n ≤ unitsPerOne)
    (hk : magnitudeOf k.natAbs < magnitudeBound) :
    (mul (.finite false n hn) (ofInt k)).order? = some (signed (scaled n) k) := by
  have hlt : scaled n k.natAbs < magnitudeBound := Nat.lt_of_le_of_lt (scaled_le hone _) hk
  have hmul : mul (.finite false n hn) (ofInt k) =
      ofUnits (decide (k < 0)) (n * magnitudeOf k.natAbs) unitsPerOne := by
    rw [ofInt_of_lt hk]
    exact mul_finite _ hn _
  rw [hmul, order?_ofUnits _ unitsPerOne_pos hlt]
  by_cases hneg : k < 0 <;> simp [signed, scaled, hneg]

end Binary64

open Binary64

namespace Grade

/-! ## Thresholds -/

/-- The place of a cutoff of a ceiling in the numerical order, once it is rounded. -/
def threshold (significand : ℕ) : ℤ → ℤ :=
  signed (scaled (significand * grain))

theorem threshold_le_threshold (significand : ℕ) {j k : ℤ} (h : j ≤ k) :
    threshold significand j ≤ threshold significand k :=
  signed_le_signed (monotone_scaled _) h

theorem IsCutoff.order?_mul_value {cutoff : Binary64} {fifths significand : ℕ}
    (hc : IsCutoff cutoff fifths significand) (ceiling : Points) :
    (cutoff.mul (ofInt ceiling.value)).order? = some (threshold significand ceiling.value) := by
  obtain ⟨hrepresentable, rfl⟩ := hc.value
  obtain ⟨-, -, hunits⟩ := exists_grain_eq
  have hone : significand * grain ≤ unitsPerOne := by
    rw [hunits]
    exact Nat.mul_le_mul_right grain hc.significand_le_two_pow
  exact order?_mul_ofInt hrepresentable hone (magnitudeOf_value_lt ceiling)

/-- The grade of a place by two thresholds, of which either may be the higher. -/
def ofThresholds (low medium place : ℤ) : Grade :=
  if low ≤ place then .low
  else if medium ≤ place then .medium
  else .high

theorem favour_ofThresholds_le {low medium place low' medium' place' : ℤ} (hlow : low' ≤ low)
    (hmedium : medium' ≤ medium) (hplace : place ≤ place') :
    (ofThresholds low medium place).favour ≤ (ofThresholds low' medium' place').favour := by
  by_cases hmeets : low' ≤ place'
  · have hgrade : ofThresholds low' medium' place' = .low := if_pos hmeets
    rw [hgrade]
    cases ofThresholds low medium place <;> decide
  · have hmisses : ¬low ≤ place := by omega
    rw [ofThresholds, ofThresholds, if_neg hmisses, if_neg hmeets]
    by_cases hmeets' : medium ≤ place
    · rw [if_pos hmeets', if_pos (by omega)]
    · rw [if_neg hmeets']
      exact Nat.zero_le _

theorem ofScore_eq_ofThresholds (total ceiling : Points) :
    ofScore total ceiling = ofThresholds (threshold 5404319552844595 ceiling.value)
      (threshold 3602879701896397 ceiling.value) (placeOf total.value) := by
  have htotal : (ofInt total.value).order? = some (placeOf total.value) :=
    order?_ofInt (magnitudeOf_value_lt total)
  simp only [ofScore, ofThresholds, le_iff (isCutoff_low.order?_mul_value ceiling) htotal,
    le_iff (isCutoff_medium.order?_mul_value ceiling) htotal]

/-! ## Grades -/

/-- A higher total is as favourable as a lower one, and so is a lower ceiling. -/
theorem favour_ofScore_le {total total' ceiling ceiling' : Points}
    (htotal : total.value ≤ total'.value) (hceiling : ceiling'.value ≤ ceiling.value) :
    (ofScore total ceiling).favour ≤ (ofScore total' ceiling').favour := by
  rw [ofScore_eq_ofThresholds, ofScore_eq_ofThresholds]
  exact favour_ofThresholds_le (threshold_le_threshold _ hceiling)
    (threshold_le_threshold _ hceiling) (placeOf_le_placeOf htotal)

/-- The second of two grades is as favourable as the first, and asks for no further document. -/
structure NoWorse (a b : Grade) : Prop where
  favour : a.favour ≤ b.favour
  documents : b.documents <+: a.documents

theorem noWorse_of_favour_le {a b : Grade} (h : a.favour ≤ b.favour) : a.NoWorse b :=
  ⟨h, documents_prefix_of_favour_le h⟩

/-- The second of two scores is graded no worse than the first as a total, and no better as a
ceiling. Two evaluations with these totals under one ceiling differ in the same way. -/
structure MonotoneGrading (a b : Points) : Prop where
  total : ∀ ceiling : Points, (ofScore a ceiling).NoWorse (ofScore b ceiling)
  ceiling : ∀ total : Points, (ofScore total b).NoWorse (ofScore total a)
  evaluate : ∀ (card card' : Scorecard) (inputs inputs' : Inputs), card.maxScore = card'.maxScore →
    (card.evaluate inputs).totalScore = a → (card'.evaluate inputs').totalScore = b →
      (card'.evaluate inputs').documents <+: (card.evaluate inputs).documents

/-- Grades are monotone in the total and antitone in the ceiling, over all scores. -/
theorem monotoneGrading {a b : Points} (h : a.value ≤ b.value) : MonotoneGrading a b := by
  have htotal : ∀ ceiling : Points, (ofScore a ceiling).NoWorse (ofScore b ceiling) :=
    fun _ => noWorse_of_favour_le (favour_ofScore_le h le_rfl)
  constructor
  case total => exact htotal
  case ceiling => exact fun _ => noWorse_of_favour_le (favour_ofScore_le le_rfl h)
  case evaluate =>
    intro card card' inputs inputs' hceiling hscore hscore'
    rw [Scorecard.documents_evaluate, Scorecard.documents_evaluate, Scorecard.grade_evaluate,
      Scorecard.grade_evaluate, hscore, hscore', hceiling]
    exact (htotal card'.maxScore).documents

/-- Two totals that no double tells apart. The lower one misses three fifths of the ceiling by a
fraction of a point, which is rounded away: it is low, and so is the higher one. -/
theorem monotoneGrading_beyondExact :
    (Points.clamp (2 ^ 53)).value ≤ (Points.clamp (2 ^ 53 + 1)).value ∧
      MonotoneGrading (Points.clamp (2 ^ 53)) (Points.clamp (2 ^ 53 + 1)) ∧
      5 * 2 ^ 53 < 3 * 15011998757901654 ∧
      ofScore (Points.clamp (2 ^ 53)) (Points.clamp 15011998757901654) = .low :=
  ⟨by decide, monotoneGrading (by decide), by decide, by decide +kernel⟩

end Grade

end CreditScorecard
