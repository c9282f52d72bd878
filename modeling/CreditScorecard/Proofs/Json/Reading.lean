import CreditScorecard.Proofs.Json.Numeral
import CreditScorecard.Proofs.Json.TenPowers

/-! # Reading the numbers that are written

The numeral of a double holds its shortest decimal, all digits of which fit into 64 bits. So what
is read depends on that decimal only: its digits as a double, multiplied or divided by a power of
ten.
-/

namespace CreditScorecard.Json

/-! ## The digits that are taken up -/

theorem le_ofDigitChars (cs : List Char) (n : ℕ) : n ≤ Nat.ofDigitChars 10 cs n := by
  induction cs generalizing n with
  | nil => exact Nat.le_refl n
  | cons c cs ih =>
      rw [Nat.ofDigitChars_cons]
      exact Nat.le_trans (by omega) (ih _)

theorem ofDigitChars_replicate_zero (k n : ℕ) :
    Nat.ofDigitChars 10 (List.replicate k '0') n = n * 10 ^ k := by
  induction k generalizing n with
  | zero => simp
  | succ k ih =>
      rw [List.replicate_succ, Nat.ofDigitChars_cons, ih, pow_succ']
      simp only [Nat.sub_self, Nat.add_zero]
      ring

namespace Numeral

theorem takeWhole_eq {cs : List Char} {s : Significand}
    (h : Nat.ofDigitChars 10 cs s.value < 0x10000000000000000) :
    takeWhole s cs = ⟨Nat.ofDigitChars 10 cs s.value, s.exponent⟩ := by
  induction cs generalizing s with
  | nil => rfl
  | cons c cs ih =>
      rw [Nat.ofDigitChars_cons, Nat.mul_comm] at h
      have hfits : s.fits c = true :=
        decide_eq_true (Nat.lt_of_le_of_lt (le_ofDigitChars cs _) h)
      rw [takeWhole, if_pos hfits, ih h, Nat.ofDigitChars_cons, Nat.mul_comm]
      simp [Significand.push]

theorem takeFraction_eq {cs : List Char} {s : Significand}
    (h : Nat.ofDigitChars 10 cs s.value < 0x10000000000000000) :
    takeFraction s cs = ⟨Nat.ofDigitChars 10 cs s.value, s.exponent - cs.length⟩ := by
  induction cs generalizing s with
  | nil => simp [takeFraction, Nat.ofDigitChars]
  | cons c cs ih =>
      rw [Nat.ofDigitChars_cons, Nat.mul_comm] at h
      have hfits : s.fits c = true :=
        decide_eq_true (Nat.lt_of_le_of_lt (le_ofDigitChars cs _) h)
      rw [takeFraction, if_pos hfits, ih h, Nat.ofDigitChars_cons, Nat.mul_comm]
      simp only [Significand.push, List.length_cons, Significand.mk.injEq, true_and]
      push_cast
      ring

/-- The exponent of a numeral. -/
def power (n : Numeral) : ℤ :=
  match n.exponent with
  | none => 0
  | some (negative, digits) =>
    if negative then -(Nat.ofDigitChars 10 digits 0 : ℤ) else Nat.ofDigitChars 10 digits 0

/-- The decimal of a numeral, its sign aside. -/
def decimal (n : Numeral) : Decimal :=
  .ofDigits n.whole n.fraction n.power

theorem takeFraction_takeWhole {n : Numeral} (h : n.decimal.digits < 0x10000000000000000) :
    takeFraction (takeWhole ⟨0, 0⟩ n.whole) n.fraction =
      ⟨n.decimal.digits, -(n.fraction.length : ℤ)⟩ := by
  have hdigits : n.decimal.digits =
      Nat.ofDigitChars 10 n.fraction (Nat.ofDigitChars 10 n.whole 0) :=
    Nat.ofDigitChars_append 0
  rw [hdigits] at h ⊢
  rw [takeWhole_eq (Nat.lt_of_le_of_lt (le_ofDigitChars n.fraction _) h), takeFraction_eq h,
    Int.zero_sub]

/-- A numeral of which all digits fit is read as its decimal. -/
theorem readReal?_eq {n : Numeral} (hdigits : n.decimal.digits < 0x10000000000000000)
    (hpower : n.power.natAbs < 0x80000000)
    (hexponent : n.decimal.exponent.natAbs < 0x80000000) :
    n.readReal? =
      (scale? ⟨n.decimal.digits, n.decimal.exponent⟩).bind (real? n.negative) := by
  have hdecimal : n.decimal.exponent = n.power - n.fraction.length := rfl
  simp only [readReal?, takeFraction_takeWhole hdigits]
  cases hwritten : n.exponent with
  | none =>
      have hpower : n.power = 0 := by simp only [power, hwritten]
      rw [hdecimal, hpower, Int.zero_sub]
  | some e =>
      obtain ⟨negative, digits⟩ := e
      have hvalue : n.power = if negative then -(Nat.ofDigitChars 10 digits 0 : ℤ)
          else Nat.ofDigitChars 10 digits 0 := by
        simp only [power, hwritten]
      have hsize : Nat.ofDigitChars 10 digits 0 < 0x80000000 := by
        rw [hvalue] at hpower
        split at hpower <;> omega
      have hclamped : max (-0x80000000) (min n.decimal.exponent 0x7FFFFFFF) =
          n.decimal.exponent := by
        omega
      dsimp only
      rw [if_pos hsize, ← hvalue, Int.add_comm, ← Int.sub_eq_add_neg, ← hdecimal, hclamped]

end Numeral

/-! ## The decimal of a numeral -/

/-- The decimal that is written for another one: a whole number in positional notation has a zero
after the point. -/
def writtenDecimal (d : Decimal) : Decimal :=
  let point := (Nat.toDigits 10 d.digits).length + d.exponent
  if -5 < point ∧ point ≤ 16 ∧ 0 ≤ d.exponent then
    ⟨d.digits * 10 ^ (d.exponent.toNat + 1), -1⟩
  else d

theorem ofDigits_eq {whole fraction : List Char} {d : Decimal} {exponent : ℤ}
    (hdigits : Nat.ofDigitChars 10 (whole ++ fraction) 0 = d.digits)
    (hexponent : exponent - fraction.length = d.exponent) :
    Decimal.ofDigits whole fraction exponent = d := by
  obtain ⟨digits, e⟩ := d
  rw [Decimal.ofDigits, hdigits, hexponent]

theorem decimal_decimalNumeral (negative : Bool) (d : Decimal) :
    (decimalNumeral negative d).decimal = writtenDecimal d := by
  have hvalue : Nat.ofDigitChars 10 (Nat.toDigits 10 d.digits) 0 = d.digits :=
    Nat.ofDigitChars_ten_toDigits
  have hlength : 0 < (Nat.toDigits 10 d.digits).length := Nat.length_toDigits_pos
  unfold decimalNumeral writtenDecimal
  dsimp only
  by_cases hpoint : -5 < ((Nat.toDigits 10 d.digits).length : ℤ) + d.exponent ∧
      ((Nat.toDigits 10 d.digits).length : ℤ) + d.exponent ≤ 16
  · rw [if_pos hpoint]
    cases hexponent : d.exponent with
    | ofNat zeros =>
        rw [hexponent] at hpoint
        rw [if_pos ⟨hpoint.1, hpoint.2, Int.natCast_nonneg zeros⟩]
        apply ofDigits_eq
        · rw [List.append_assoc, ← List.replicate_succ', Nat.ofDigitChars_append, hvalue,
            ofDigitChars_replicate_zero]
          rfl
        · rfl
    | negSucc places =>
        rw [if_neg fun h => absurd h.2.2 (by omega)]
        dsimp only
        split
        · apply ofDigits_eq
          · rw [List.take_append_drop, hvalue]
          · change (0 : ℤ) - _ = _
            rw [List.length_drop, hexponent]
            omega
        · apply ofDigits_eq
          · rw [List.cons_append, List.nil_append, Nat.ofDigitChars_cons, Nat.ofDigitChars_append,
              ofDigitChars_replicate_zero]
            simp [hvalue]
          · change (0 : ℤ) - _ = _
            rw [List.length_append, List.length_replicate, hexponent]
            omega
  · rw [if_neg hpoint, if_neg fun h => hpoint ⟨h.1, h.2.1⟩]
    apply ofDigits_eq
    · rw [List.take_append_drop, hvalue]
    · simp only [Numeral.power, Nat.ofDigitChars_ten_toDigits, List.length_drop,
        decide_eq_true_eq]
      split <;> omega

theorem isInteger_decimalNumeral (negative : Bool) (d : Decimal) :
    (decimalNumeral negative d).isInteger = false := by
  have hlength : 0 < (Nat.toDigits 10 d.digits).length := Nat.length_toDigits_pos
  unfold decimalNumeral Numeral.isInteger
  dsimp only
  split
  · cases d.exponent with
    | ofNat zeros => rfl
    | negSucc places =>
        dsimp only
        split
        · have hdrop : (Nat.toDigits 10 d.digits).length - (places + 1) <
              (Nat.toDigits 10 d.digits).length := by omega
          simp [hdrop]
        · simp
  · simp

theorem natAbs_power_decimalNumeral_le (negative : Bool) (d : Decimal) :
    (decimalNumeral negative d).power.natAbs ≤
      (Nat.toDigits 10 d.digits).length + d.exponent.natAbs := by
  have hlength : 0 < (Nat.toDigits 10 d.digits).length := Nat.length_toDigits_pos
  unfold decimalNumeral
  dsimp only
  split
  · split
    · exact Nat.zero_le _
    · split <;> exact Nat.zero_le _
  · simp only [Numeral.power, Nat.ofDigitChars_ten_toDigits]
    split <;> omega

/-! ## Shortest decimals -/

section

variable {n : ℕ} (negative : Bool)

/-- All digits of a shortest decimal fit, and so do those that are written for it. -/
theorem digits_writtenDecimal_lt (n : ℕ) :
    (writtenDecimal (Binary64.shortest .even n)).digits < 0x10000000000000000 := by
  have hdigits := Binary64.digits_shortest_le .even n
  generalize Binary64.shortest .even n = d at hdigits ⊢
  have hlength : d.digits < 10 ^ (Nat.toDigits 10 d.digits).length :=
    (Nat.length_toDigits_le_iff (by decide) Nat.length_toDigits_pos).mp (Nat.le_refl _)
  unfold writtenDecimal
  dsimp only
  split
  · rename_i hpoint
    have hplaces : (Nat.toDigits 10 d.digits).length + (d.exponent.toNat + 1) ≤ 17 := by omega
    calc d.digits * 10 ^ (d.exponent.toNat + 1)
        ≤ 10 ^ (Nat.toDigits 10 d.digits).length * 10 ^ (d.exponent.toNat + 1) :=
          Nat.mul_le_mul_right _ hlength.le
      _ = 10 ^ ((Nat.toDigits 10 d.digits).length + (d.exponent.toNat + 1)) :=
          (pow_add 10 _ _).symm
      _ ≤ 10 ^ 17 := Nat.pow_le_pow_right (by decide) hplaces
      _ < _ := by norm_num
  · exact Nat.lt_of_le_of_lt hdigits (by norm_num)

/-- A written double is read by scaling the decimal that is written. -/
theorem toNumber?_decimalNumeral (h : Binary64.Representable n) :
    (decimalNumeral negative (Binary64.shortest .even n)).toNumber? =
      (Numeral.scale? ⟨(writtenDecimal (Binary64.shortest .even n)).digits,
        (writtenDecimal (Binary64.shortest .even n)).exponent⟩).bind
          (Numeral.real? negative) := by
  obtain ⟨hleast, hmost⟩ := Binary64.exponent_shortest_bounds h .even
  have hlength := Binary64.length_toDigits_shortest_le .even n
  have hdigits := digits_writtenDecimal_lt n
  have hpower := natAbs_power_decimalNumeral_le negative (Binary64.shortest .even n)
  have hexponent : (writtenDecimal (Binary64.shortest .even n)).exponent.natAbs < 0x80000000 := by
    unfold writtenDecimal
    dsimp only
    split
    · exact (by decide : (-1 : ℤ).natAbs < 0x80000000)
    · omega
  rw [← decimal_decimalNumeral negative] at hdigits hexponent ⊢
  simp only [Numeral.toNumber?, isInteger_decimalNumeral, Bool.false_eq_true, false_and, if_false]
  rw [Numeral.readReal?_eq hdigits (by omega) hexponent, negative_decimalNumeral]

/-- A written double is read as some double of the same sign. -/
theorem exists_toNumber?_eq (h : Binary64.Representable n) :
    ∃ k h', (decimalNumeral negative (Binary64.shortest .even n)).toNumber? =
      some (.real (.finite negative k h') rfl) := by
  obtain ⟨k, hk, hscale⟩ : ∃ k h', Numeral.scale?
      ⟨(writtenDecimal (Binary64.shortest .even n)).digits,
        (writtenDecimal (Binary64.shortest .even n)).exponent⟩ =
          some (.finite false k h') := by
    have hdigits := digits_writtenDecimal_lt n
    cases hexponent : (writtenDecimal (Binary64.shortest .even n)).exponent with
    | ofNat e =>
        -- in positional notation there is always a place after the point
        have hself : writtenDecimal (Binary64.shortest .even n) = Binary64.shortest .even n := by
          unfold writtenDecimal at hexponent ⊢
          dsimp only at hexponent ⊢
          split at hexponent
          · cases hexponent
          · rename_i hpoint
            rw [if_neg hpoint]
        rw [hself] at hexponent ⊢
        apply Numeral.exists_scale?_shortest h
        rw [← Int.ofNat_eq_natCast, ← hexponent]
    | negSucc e =>
        apply Numeral.exists_scale?_negSucc
        exact Binary64.magnitudeOf_lt_of_le_two_pow
          (hdigits.le.trans (by norm_num : 0x10000000000000000 ≤ 2 ^ 64)) (by decide)
  refine ⟨k, hk, ?_⟩
  rw [toNumber?_decimalNumeral negative h, hscale]
  rfl

/-- The zero after the point does not change the number. -/
theorem ofDecimal_writtenDecimal (d : Decimal) :
    Binary64.ofDecimal negative (writtenDecimal d) = Binary64.ofDecimal negative d := by
  unfold writtenDecimal
  dsimp only
  split
  · rename_i hpoint
    obtain ⟨digits, exponent⟩ := d
    obtain ⟨e, rfl⟩ : ∃ e : ℕ, exponent = e := ⟨exponent.toNat, by simp_all⟩
    rw [Binary64.ofDecimal_eq_ofUnits, Binary64.ofDecimal_eq_ofUnits]
    apply Binary64.ofUnits_eq_of_mul_eq negative (Decimal.den_pos _) (Decimal.den_pos _)
    rw [Decimal.num_natCast, Decimal.den_natCast, Int.toNat_natCast,
      show (-1 : ℤ) = .negSucc 0 from rfl, Decimal.num_negSucc, Decimal.den_negSucc]
    generalize Binary64.unitsPerOne = units
    ring
  · rfl

/-- The decimal that is written for a magnitude stands for it. -/
theorem ofDecimal_writtenDecimal_shortest (h : Binary64.Representable n) :
    Binary64.ofDecimal negative (writtenDecimal (Binary64.shortest .even n)) =
      .finite negative n h :=
  (ofDecimal_writtenDecimal negative _).trans (Binary64.ofDecimal_shortest h .even negative)

end

/-! ## Doubles -/

/-- A number with few digits as they are written, and few places. -/
def Number.Short : Number → Prop
  | .real (.finite _ n _) _ =>
    (writtenDecimal (Binary64.shortest .even n)).digits ≤ 2 ^ 53 ∧
      (writtenDecimal (Binary64.shortest .even n)).exponent.natAbs ≤ 22
  | _ => False

/-- Short numbers are read as they are written. -/
theorem Number.Short.exact {n : Number} (h : n.Short) : n.numeral.toNumber? = some n := by
  cases n with
  | integer k => cases h
  | real x finite =>
      cases x with
      | nan => cases h
      | infinite negative => cases h
      | finite negative m hm =>
          obtain ⟨hdigits, hexponent⟩ := h
          rw [numeral, toNumber?_decimalNumeral negative hm,
            Numeral.scale?_eq_ofDecimal hdigits hexponent,
            ofDecimal_writtenDecimal_shortest false hm]
          rfl

/-- Reading a written double never fails. -/
theorem exists_toNumber?_real {x : Binary64} (hx : x.isFinite = true) :
    ∃ y hy, (Number.real x hx).numeral.toNumber? = some (.real y hy) := by
  cases x with
  | nan => cases hx
  | infinite negative => cases hx
  | finite negative n h =>
      obtain ⟨k, hk, heq⟩ := exists_toNumber?_eq negative h
      exact ⟨_, _, heq⟩

/-- Different doubles are written differently. -/
theorem numeral_real_injective {x y : Binary64} {hx : x.isFinite = true} {hy : y.isFinite = true}
    (h : (Number.real x hx).numeral = (Number.real y hy).numeral) : x = y := by
  cases x with
  | nan => cases hx
  | infinite negative => cases hx
  | finite negative m hm =>
      cases y with
      | nan => cases hy
      | infinite negative => cases hy
      | finite negative' n hn =>
          simp only [Number.numeral] at h
          have hsign := congrArg Numeral.negative h
          have hdecimal := congrArg Numeral.decimal h
          rw [negative_decimalNumeral, negative_decimalNumeral] at hsign
          rw [decimal_decimalNumeral, decimal_decimalNumeral] at hdecimal
          rw [← ofDecimal_writtenDecimal_shortest negative hm, hdecimal, hsign,
            ofDecimal_writtenDecimal_shortest negative' hn]

end CreditScorecard.Json
