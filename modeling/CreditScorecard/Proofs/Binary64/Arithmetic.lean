import CreditScorecard.Proofs.Binary64.Decimals

/-! # Products and quotients

Integers up to `2 ^ 53` and powers of ten up to `10 ^ 22` are numbers of the format, so a product or
quotient of two of them is rounded only once. Larger integers are rounded, and stay in order.
-/

namespace CreditScorecard.Binary64

variable {num den num' den' : ℕ}

theorem ofUnits_eq_of_mul_eq (negative : Bool) (hden : 0 < den) (hden' : 0 < den')
    (h : num * den' = num' * den) : ofUnits negative num den = ofUnits negative num' den' := by
  rw [ofUnits, ofUnits, nearestMagnitude_eq_of_mul_eq hden hden' h]

theorem unitsPerOne_pos : 0 < unitsPerOne := by
  obtain ⟨k, -, hunits⟩ := exists_unitsPerOne_eq
  rw [hunits]
  exact Nat.two_pow_pos k

/-! ## Naturals -/

/-- The magnitude nearest to a natural. -/
def magnitudeOf (m : ℕ) : ℕ :=
  nearestMagnitude (m * unitsPerOne) 1

theorem magnitudeOf_le_magnitudeOf {m m' : ℕ} (h : m ≤ m') : magnitudeOf m ≤ magnitudeOf m' :=
  nearestMagnitude_le_nearestMagnitude Nat.one_pos Nat.one_pos
    (Nat.mul_le_mul_right 1 (Nat.mul_le_mul_right unitsPerOne h))

/-- A natural of 53 significant bits is exact. -/
theorem magnitudeOf_eq {m : ℕ} (hm : m ≤ 2 ^ 53) (k : ℕ) :
    magnitudeOf (m * 2 ^ k) = m * 2 ^ k * unitsPerOne := by
  obtain ⟨j, -, hunits⟩ := exists_unitsPerOne_eq
  have hexact : spacing (m * 2 ^ k * 2 ^ j) ∣ m * 2 ^ k * 2 ^ j := by
    rw [Nat.mul_assoc, ← pow_add]
    exact spacing_dvd_of_le hm (k + j)
  have hnearest := nearestMagnitude_mul_self hexact Nat.one_pos
  rw [magnitudeOf, hunits]
  rwa [Nat.mul_one] at hnearest

theorem magnitudeOf_eq_of_le {m : ℕ} (hm : m ≤ 2 ^ 53) : magnitudeOf m = m * unitsPerOne := by
  have hexact := magnitudeOf_eq hm 0
  rwa [pow_zero, Nat.mul_one] at hexact

theorem magnitudeOf_ten_pow {e : ℕ} (he : e ≤ 22) :
    magnitudeOf (10 ^ e) = 10 ^ e * unitsPerOne := by
  have hfive : 5 ^ e ≤ 2 ^ 53 :=
    (Nat.pow_le_pow_right (by decide) he).trans (by norm_num)
  have hten : 10 ^ e = 5 ^ e * 2 ^ e := Nat.mul_pow 5 2 e
  rw [hten, magnitudeOf_eq hfive e]

theorem unitsPerOne_le_magnitudeOf {m : ℕ} (hm : m ≠ 0) : unitsPerOne ≤ magnitudeOf m := by
  have hone : magnitudeOf 1 = 1 * unitsPerOne := magnitudeOf_eq_of_le (by decide)
  rw [Nat.one_mul] at hone
  rw [← hone]
  exact magnitudeOf_le_magnitudeOf (Nat.pos_of_ne_zero hm)

theorem magnitudeOf_pos {m : ℕ} (hm : m ≠ 0) : 0 < magnitudeOf m :=
  Nat.lt_of_lt_of_le unitsPerOne_pos (unitsPerOne_le_magnitudeOf hm)

theorem magnitudeOf_lt_of_le_two_pow {m k : ℕ} (hm : m ≤ 2 ^ k) (hk : k < 1024) :
    magnitudeOf m < magnitudeBound := by
  obtain ⟨j, hj, hunits⟩ := exists_unitsPerOne_eq
  obtain ⟨b, hb, hbound⟩ := exists_magnitudeBound_eq
  have hpow : magnitudeOf (1 * 2 ^ k) = 1 * 2 ^ k * unitsPerOne := magnitudeOf_eq (by decide) k
  rw [Nat.one_mul] at hpow
  apply Nat.lt_of_le_of_lt (magnitudeOf_le_magnitudeOf hm)
  rw [hpow, hunits, hbound, ← pow_add]
  exact Nat.pow_lt_pow_right (by decide) (by omega)

/-! ## Finite numbers -/

theorem representable_nearestMagnitude (hden : 0 < den)
    (h : nearestMagnitude num den < magnitudeBound) : Representable (nearestMagnitude num den) :=
  ⟨h, spacing_dvd_nearestMagnitude hden⟩

theorem ofUnits_of_lt (negative : Bool) (hden : 0 < den)
    (h : nearestMagnitude num den < magnitudeBound) :
    ofUnits negative num den =
      .finite negative (nearestMagnitude num den) (representable_nearestMagnitude hden h) :=
  ofUnits_eq_finite _ rfl

theorem ofInt_natCast (m : ℕ) : ofInt m = ofUnits false (m * unitsPerOne) 1 := by
  rw [ofInt, Int.natAbs_natCast, decide_eq_false (by omega)]

theorem ofInt_natCast_of_lt {m : ℕ} (h : magnitudeOf m < magnitudeBound) :
    ofInt m = .finite false (magnitudeOf m) (representable_nearestMagnitude Nat.one_pos h) := by
  rw [ofInt_natCast]
  exact ofUnits_of_lt false Nat.one_pos h

theorem ofDecimal_natCast (digits e : ℕ) :
    ofDecimal false ⟨digits, e⟩ = ofInt (digits * 10 ^ e : ℕ) := by
  rw [ofDecimal_eq_ofUnits, Decimal.num_natCast, Decimal.den_natCast, ofInt_natCast]

theorem mul_finite {m n : ℕ} (negative : Bool) (hm : Representable m) (hn : Representable n) :
    mul (.finite false m hm) (.finite negative n hn) = ofUnits negative (m * n) unitsPerOne := by
  cases negative <;> rfl

theorem div_finite {m n : ℕ} (hm : Representable m) (hn : Representable n) (hzero : n ≠ 0) :
    div (.finite false m hm) (.finite false n hn) = ofUnits false (m * unitsPerOne) n :=
  if_neg hzero

/-- A number divided by one that is not less than one stays finite. -/
theorem exists_div_eq {m n : ℕ} (hm : Representable m) (hn : Representable n)
    (hone : unitsPerOne ≤ n) :
    ∃ k h, div (.finite false m hm) (.finite false n hn) = .finite false k h := by
  have hpos : 0 < n := Nat.lt_of_lt_of_le unitsPerOne_pos hone
  have hle : nearestMagnitude (m * unitsPerOne) n ≤ m :=
    nearestMagnitude_le hm.2 hpos (Nat.mul_le_mul_left m hone)
  rw [div_finite hm hn hpos.ne', ofUnits_of_lt false hpos (Nat.lt_of_le_of_lt hle hm.1)]
  exact ⟨_, _, rfl⟩

/-! ## Integers in the numerical order -/

/-- The place of an integer in the numerical order, once it is rounded. -/
def placeOf (k : ℤ) : ℤ :=
  if k < 0 then -magnitudeOf k.natAbs else magnitudeOf k.natAbs

theorem placeOf_natCast (m : ℕ) : placeOf m = magnitudeOf m := by
  rw [placeOf, if_neg (Int.not_lt.mpr (Int.natCast_nonneg m)), Int.natAbs_natCast]

theorem placeOf_of_neg {k : ℤ} (h : k < 0) : placeOf k = -magnitudeOf k.natAbs :=
  if_pos h

theorem placeOf_neg {k : ℤ} (h : k < 0) : placeOf k < 0 := by
  have hpos : 0 < magnitudeOf k.natAbs := magnitudeOf_pos (Int.natAbs_ne_zero.mpr h.ne)
  rw [placeOf_of_neg h]
  omega

theorem ofInt_of_lt {k : ℤ} (h : magnitudeOf k.natAbs < magnitudeBound) :
    ofInt k = .finite (decide (k < 0)) (magnitudeOf k.natAbs)
      (representable_nearestMagnitude Nat.one_pos h) :=
  ofUnits_of_lt _ Nat.one_pos h

theorem order?_ofInt {k : ℤ} (h : magnitudeOf k.natAbs < magnitudeBound) :
    (ofInt k).order? = some (placeOf k) := by
  rw [ofInt_of_lt h]
  by_cases hk : k < 0 <;> simp [order?, placeOf, hk]

theorem magnitudeOf_natAbs_lt {k : ℤ} (hlow : -0x8000000000000000 ≤ k)
    (hhigh : k ≤ 0xFFFFFFFFFFFFFFFF) : magnitudeOf k.natAbs < magnitudeBound := by
  apply magnitudeOf_lt_of_le_two_pow (k := 64) _ (by decide)
  omega

theorem le_iff {x y : Binary64} {a b : ℤ} (hx : x.order? = some a) (hy : y.order? = some b) :
    le x y = true ↔ a ≤ b := by
  simp [le, compareBy, hx, hy]

theorem order?_ofUnits (negative : Bool) (hden : 0 < den)
    (h : nearestMagnitude num den < magnitudeBound) :
    (ofUnits negative num den).order? =
      some (if negative then -(nearestMagnitude num den : ℤ) else nearestMagnitude num den) :=
  congrArg order? (ofUnits_of_lt negative hden h)

theorem order?_ofUnits_of_lt (hden : 0 < den) (h : nearestMagnitude num den < magnitudeBound) :
    (ofUnits false num den).order? = some (nearestMagnitude num den : ℤ) :=
  order?_ofUnits false hden h

theorem order?_ofUnits_nonpos (num den : ℕ) :
    ∃ a ≤ 0, (ofUnits true num den).order? = some a := by
  have hneg : ∀ n : ℕ, -(n : ℤ) ≤ 0 := fun n => Int.neg_nonpos_of_nonneg (Int.natCast_nonneg n)
  unfold ofUnits ofMagnitude
  split
  · exact ⟨_, hneg (nearestMagnitude num den), rfl⟩
  · exact ⟨_, hneg magnitudeBound, rfl⟩

theorem order?_div_natCast {m n : ℕ} (hn : n ≠ 0) (hm : magnitudeOf m < magnitudeBound)
    (hlt : magnitudeOf n < magnitudeBound) :
    ((ofInt m).div (ofInt n)).order? =
      some (nearestMagnitude (magnitudeOf m * unitsPerOne) (magnitudeOf n) : ℤ) := by
  have hden : 0 < magnitudeOf n := magnitudeOf_pos hn
  have hdiv : (ofInt m).div (ofInt n) =
      ofUnits false (magnitudeOf m * unitsPerOne) (magnitudeOf n) := by
    rw [ofInt_natCast_of_lt hm, ofInt_natCast_of_lt hlt]
    exact div_finite _ _ hden.ne'
  have hle : nearestMagnitude (magnitudeOf m * unitsPerOne) (magnitudeOf n) ≤ magnitudeOf m :=
    nearestMagnitude_le (spacing_dvd_nearestMagnitude Nat.one_pos) hden
      (Nat.mul_le_mul_left _ (unitsPerOne_le_magnitudeOf hn))
  rw [hdiv]
  exact order?_ofUnits_of_lt hden (Nat.lt_of_le_of_lt hle hm)

/-- A negative number divided by a positive one is not positive. -/
theorem order?_div_of_neg {k : ℤ} {n : ℕ} (hk : k < 0) (hn : n ≠ 0)
    (hlt : magnitudeOf k.natAbs < magnitudeBound) (hlt' : magnitudeOf n < magnitudeBound) :
    ∃ a ≤ 0, ((ofInt k).div (ofInt n)).order? = some a := by
  have hdiv : (ofInt k).div (ofInt n) =
      ofUnits true (magnitudeOf k.natAbs * unitsPerOne) (magnitudeOf n) := by
    rw [ofInt_of_lt hlt, ofInt_natCast_of_lt hlt', decide_eq_true hk]
    exact if_neg (magnitudeOf_pos hn).ne'
  rw [hdiv]
  exact order?_ofUnits_nonpos _ _

end CreditScorecard.Binary64
