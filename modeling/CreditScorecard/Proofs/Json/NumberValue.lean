import CreditScorecard.Proofs.Decimal.Spelling
import CreditScorecard.Proofs.Json.NumberText
import CreditScorecard.Proofs.Json.Record

/-! # The value of a number's texts

Both texts of a number lead back to it: an input by way of a numeral that may have an exponent, a
literal by way of the plain form. Each is rounded at most once. A literal does not keep the sign of
a zero, which no comparison can tell.
-/

namespace CreditScorecard

open Text

/-! ## Numerals as decimals -/

/-- What it takes to read a numeral as a decimal. Zeros in front of other digits do no harm. -/
structure Json.Numeral.Legible (n : Json.Numeral) : Prop where
  whole : ∀ c ∈ n.whole, c.isDigit = true
  whole_ne : n.whole ≠ []
  fraction : ∀ c ∈ n.fraction, c.isDigit = true
  exponent : ∀ e ∈ n.exponent, e.2 ≠ [] ∧ ∀ c ∈ e.2, c.isDigit = true

theorem Json.Numeral.WellFormed.legible {n : Json.Numeral} (h : n.WellFormed) : n.Legible where
  whole := h.whole.isDigit
  whole_ne := h.whole.ne_nil
  fraction := h.fraction
  exponent := h.exponent

namespace Decimal

theorem spanSign_signText {negative : Bool} {cs : List Char}
    (h : ∀ c ∈ cs.head?, c.isDigit = true) :
    spanSign (Binary64.signText negative ++ cs) = (negative, cs) := by
  cases negative with
  | true => rfl
  | false =>
      have hsign : [] ∈ [[], ['+'], ['-']] := by simp
      exact spanSign_sign hsign fun c hc => ne_sign_of_isDigit (h c hc)

variable {n : Json.Numeral}

theorem spanExponent_exponentChars (h : n.Legible) :
    spanExponent n.exponentChars = (n.power, []) := by
  cases he : n.exponent with
  | none => simp [Json.Numeral.exponentChars, Json.Numeral.power, he, spanExponent]
  | some e =>
      obtain ⟨negative, digits⟩ := e
      obtain ⟨hne, hdigits⟩ := h.exponent (negative, digits) (by simp [he])
      cases negative <;>
        simp [Json.Numeral.exponentChars, Json.Numeral.power, he, spanExponent, spanSign,
          spanDigits_self hdigits, hne]

/-- A numeral is read as its decimal, from end to end. -/
theorem read?_unsignedChars (h : n.Legible) : read? n.unsignedChars = some n.decimal := by
  obtain ⟨hexponent, hpoint⟩ := Json.Tree.stops_exponentChars n (stops_nil Json.continuesNumber)
  rw [List.append_nil] at hexponent hpoint
  have hwhole : spanDigits n.unsignedChars = (n.whole, n.fractionChars ++ n.exponentChars) := by
    rw [Json.Numeral.unsignedChars, List.append_assoc]
    exact spanDigits_append h.whole (Json.Tree.stops_fractionChars n hexponent)
  have hprefix : n.whole ≠ [] → readPrefix? n.unsignedChars =
      some (ofDigits n.whole n.fraction (spanExponent n.exponentChars).1,
        (spanExponent n.exponentChars).2) := by
    intro hne
    unfold readPrefix?
    rw [hwhole]
    by_cases hf : n.fraction = []
    · have hchars : n.fractionChars = [] := by simp [Json.Numeral.fractionChars, hf]
      rw [hchars, List.nil_append]
      cases he : n.exponentChars with
      | nil => simp [hne, hf]
      | cons c cs =>
          have hc : c ≠ '.' := fun h => hpoint cs (by rw [he, h])
          simp [hne, hf, hc]
    · have hchars : n.fractionChars = '.' :: n.fraction := by
        simp [Json.Numeral.fractionChars, hf]
      simp [hchars, spanDigits_append h.fraction hexponent, hne]
  rw [read?, hprefix h.whole_ne, spanExponent_exponentChars h]
  rfl

end Decimal

/-! ## The plain form as a numeral -/

namespace Json

variable (negative : Bool) (d : Decimal)

/-- The layout of a decimal in plain form: zeros instead of an exponent. -/
def positionalNumeral : Numeral :=
  let digits := Nat.toDigits 10 d.digits
  match d.exponent with
  | .ofNat zeros => ⟨negative, digits ++ List.replicate zeros '0', [], none⟩
  | .negSucc places =>
    let places := places + 1
    if places < digits.length then
      ⟨negative, digits.take (digits.length - places), digits.drop (digits.length - places), none⟩
    else ⟨negative, ['0'], List.replicate (places - digits.length) '0' ++ digits, none⟩

@[simp] theorem negative_positionalNumeral :
    (positionalNumeral negative d).negative = negative := by
  unfold positionalNumeral
  dsimp only
  split
  · rfl
  · split <;> rfl

theorem unsignedChars_positionalNumeral :
    (positionalNumeral negative d).unsignedChars = d.positional := by
  have hne : Nat.toDigits 10 d.digits ≠ [] := Nat.toDigits_ne_nil
  unfold positionalNumeral Decimal.positional
  dsimp only
  cases d.exponent with
  | ofNat zeros =>
      simp [Numeral.unsignedChars, Numeral.fractionChars, Numeral.exponentChars]
  | negSucc places =>
      dsimp only
      split
      · have hdrop : (Nat.toDigits 10 d.digits).length - (places + 1) <
            (Nat.toDigits 10 d.digits).length := by omega
        simp [Numeral.unsignedChars, Numeral.fractionChars, Numeral.exponentChars, hdrop]
      · simp [Numeral.unsignedChars, Numeral.fractionChars, Numeral.exponentChars, hne]

theorem isDigit_of_mem_zeros_and_digits {digits : List Char}
    (hdigits : ∀ c ∈ digits, c.isDigit = true) (k : ℕ) :
    (∀ c ∈ digits ++ List.replicate k '0', c.isDigit = true) ∧
      ∀ c ∈ List.replicate k '0' ++ digits, c.isDigit = true := by
  have hzero : Char.isDigit '0' = true := by decide
  constructor
  · simpa [or_imp, forall_and, hzero] using hdigits
  · simpa [or_imp, forall_and, hzero] using hdigits

theorem legible_positionalNumeral : (positionalNumeral negative d).Legible := by
  have hdigits : ∀ c ∈ Nat.toDigits 10 d.digits, c.isDigit = true :=
    fun c hc => isDigit_of_mem_toDigits hc
  unfold positionalNumeral
  dsimp only
  split
  · refine ⟨(isDigit_of_mem_zeros_and_digits hdigits _).1, ?_, by simp, by simp⟩
    simp
  · split
    · refine ⟨fun c hc => hdigits c (List.mem_of_mem_take hc), ?_,
        fun c hc => hdigits c (List.mem_of_mem_drop hc), by simp⟩
      simp
      omega
    · refine ⟨by simp, by simp, (isDigit_of_mem_zeros_and_digits hdigits _).2, by simp⟩

/-- Zeros at the end are as good as an exponent. -/
theorem ofDecimal_mul_pow (digits zeros : ℕ) :
    Binary64.ofDecimal negative ⟨digits * 10 ^ zeros, 0⟩ =
      Binary64.ofDecimal negative ⟨digits, zeros⟩ := by
  have hzero : (0 : ℤ) = (0 : ℕ) := rfl
  rw [Binary64.ofDecimal_eq_ofUnits, Binary64.ofDecimal_eq_ofUnits, hzero, Decimal.num_natCast,
    Decimal.num_natCast, Decimal.den_natCast, Decimal.den_natCast, pow_zero, mul_one]

theorem ofDecimal_positionalNumeral :
    Binary64.ofDecimal negative (positionalNumeral negative d).decimal =
      Binary64.ofDecimal negative d := by
  obtain ⟨digits, exponent⟩ := d
  have hvalue : Nat.ofDigitChars 10 (Nat.toDigits 10 digits) 0 = digits :=
    Nat.ofDigitChars_ten_toDigits
  unfold positionalNumeral
  dsimp only
  cases exponent with
  | ofNat zeros =>
      rw [Int.ofNat_eq_natCast, ← ofDecimal_mul_pow]
      congr 1
      apply ofDigits_eq
      · rw [List.append_nil, Nat.ofDigitChars_append, hvalue, ofDigitChars_replicate_zero]
      · rfl
  | negSucc places =>
      congr 1
      dsimp only
      split
      · apply ofDigits_eq
        · rw [List.take_append_drop, hvalue]
        · change (0 : ℤ) - _ = Int.negSucc places
          rw [List.length_drop]
          omega
      · apply ofDigits_eq
        · rw [List.cons_append, List.nil_append, Nat.ofDigitChars_cons, Nat.ofDigitChars_append,
            ofDigitChars_replicate_zero]
          simp [hvalue]
        · change (0 : ℤ) - _ = Int.negSucc places
          rw [List.length_append, List.length_replicate]
          omega

end Json

/-! ## Reading the texts -/

namespace Binary64

variable {n : Json.Numeral}

theorem read?_numeral (h : n.Legible) :
    read? (signText n.negative ++ n.unsignedChars) = some (ofDecimal n.negative n.decimal) := by
  have hhead : ∀ c ∈ n.unsignedChars.head?, c.isDigit = true := by
    obtain ⟨first, digits, hwhole⟩ := List.exists_cons_of_ne_nil h.whole_ne
    simpa [Json.Numeral.unsignedChars, hwhole] using h.whole first (by simp [hwhole])
  rw [read?, Decimal.spanSign_signText hhead]
  simp only [Decimal.read?_unsignedChars h]

/-- A text without white space that is a numeral is read as the number of its decimal. -/
theorem readFinite?_eq {s : String} (h : n.Legible)
    (hs : s.toList = signText n.negative ++ n.unsignedChars)
    (hblank : ∀ c ∈ s.toList, isBlank c = false)
    (hfinite : (ofDecimal n.negative n.decimal).isFinite = true) :
    readFinite? s = some (ofDecimal n.negative n.decimal) := by
  have htrim : trimChars s.toList = s.toList := by
    rw [← toList_trim, trim_eq_self hblank]
  rw [readFinite?, htrim, hs, read?_numeral h]
  exact Option.filter_some_pos hfinite

theorem toList_display {negative : Bool} {m : ℕ} {hm : Representable m} :
    (finite negative m hm).display.toList = signText negative ++
      (Json.positionalNumeral negative (shortest .greater m)).unsignedChars := by
  rw [display, String.toList_ofList, Json.unsignedChars_positionalNumeral]

/-- The plain form of a double is read as that double. -/
theorem readFinite?_display {x : Binary64} (hx : x.isFinite = true) :
    readFinite? x.display = some x := by
  cases x with
  | nan => cases hx
  | infinite negative => cases hx
  | finite negative m hm =>
      have hvalue : ofDecimal negative
          (Json.positionalNumeral negative (shortest .greater m)).decimal =
            .finite negative m hm := by
        rw [Json.ofDecimal_positionalNumeral]
        exact ofDecimal_shortest hm .greater negative
      have hblank : ∀ c ∈ (finite negative m hm).display.toList, isBlank c = false :=
        fun c hc => (inert_of_isPlain (isPlain_of_mem_display (by simp) hc)).1
      have hread := readFinite?_eq (Json.legible_positionalNumeral negative (shortest .greater m))
        (by rw [Json.negative_positionalNumeral, toList_display]) hblank
        (by rw [Json.negative_positionalNumeral, hvalue]; rfl)
      rwa [Json.negative_positionalNumeral, hvalue] at hread

end Binary64

/-- The text of a number in a rule or report is read as a number of the same place in the order. -/
theorem Scalar.exists_readFinite?_display {x : Binary64} (hx : x.isFinite = true) :
    ∃ y, Binary64.readFinite? (Scalar.number x).display = some y ∧ y.order? = x.order? := by
  by_cases hzero : x.order? = some 0
  · rw [Scalar.display_of_order?_eq_zero hzero, hzero]
    exact ⟨.zero false, by decide +kernel, Binary64.order?_zero false⟩
  · rw [Scalar.display_of_order?_ne_zero hzero]
    exact ⟨x, Binary64.readFinite?_display hx, rfl⟩

/-! ## Numbers -/

namespace Json.Number

/-- The integers of 64 bits, with or without a sign, and all finite doubles. -/
def InRange : Number → Prop
  | .integer k => -0x8000000000000000 ≤ k ∧ k < 0x10000000000000000
  | .real _ _ => True

/-- What is read from JSON text is in range. -/
theorem inRange_of_toNumber? {n : Numeral} {number : Number} (h : n.toNumber? = some number) :
    number.InRange := by
  cases number with
  | real x finite => trivial
  | integer k =>
      unfold Numeral.toNumber? at h
      dsimp only at h
      split at h
      · cases h
        simp only [InRange]
        omega
      · split at h
        · cases h
          simp only [InRange]
          omega
        · exact absurd h (Tree.readReal?_ne_integer n k)

theorem isFinite_toBinary64 {n : Number} (h : n.InRange) : n.toBinary64.isFinite = true := by
  cases n with
  | real x finite => exact finite
  | integer k =>
      have hlt := Binary64.magnitudeOf_natAbs_lt h.1 (Int.le_of_lt_add_one h.2)
      rw [toBinary64, Binary64.ofInt_of_lt hlt]
      rfl

/-- The double nearest to a number is that of its numeral. -/
theorem ofDecimal_numeral (n : Number) :
    Binary64.ofDecimal n.numeral.negative n.numeral.decimal = n.toBinary64 := by
  cases n with
  | integer k =>
      have hdecimal : (numeral (integer k)).decimal = ⟨k.natAbs, (0 : ℕ)⟩ := by
        apply ofDigits_eq
        · exact (congrArg (Nat.ofDigitChars 10 · 0) (List.append_nil _)).trans
            Nat.ofDigitChars_ten_toDigits
        · rfl
      rw [hdecimal, Binary64.ofDecimal_eq_ofUnits, Decimal.num_natCast, Decimal.den_natCast,
        pow_zero, mul_one]
      rfl
  | real x finite =>
      cases x with
      | nan => cases finite
      | infinite negative => cases finite
      | finite negative m hm =>
          rw [numeral, negative_decimalNumeral, decimal_decimalNumeral]
          exact ofDecimal_writtenDecimal_shortest negative hm

/-- An input is rounded once, to the double nearest to the number. -/
theorem readFinite?_text {n : Number} (h : n.InRange) :
    Binary64.readFinite? n.text = some n.toBinary64 := by
  have hfinite := isFinite_toBinary64 h
  rw [← ofDecimal_numeral] at hfinite ⊢
  exact Binary64.readFinite?_eq (wellFormed_numeral n).legible (toList_text n)
    (fun c hc => isBlank_of_mem_text hc) hfinite

theorem exists_readFinite?_literal {n : Number} (h : n.InRange) :
    ∃ y, Binary64.readFinite? n.literal = some y ∧ y.order? = n.toBinary64.order? := by
  cases n with
  | real x finite => exact Scalar.exists_readFinite?_display finite
  | integer k =>
      cases hrange : Points.ofInt? k with
      | some a =>
          have htext : (integer k).literal = (integer k).text := literal_integer_of_inRange hrange
          exact ⟨(integer k).toBinary64, htext ▸ readFinite?_text h, rfl⟩
      | none =>
          have hdisplay : (integer k).literal = (Scalar.number (.ofInt k)).display := by
            rw [literal, hrange]
          have hvalue : (integer k).toBinary64 = .ofInt k := rfl
          have hfinite := isFinite_toBinary64 h
          rw [hvalue] at hfinite
          rw [hdisplay, hvalue]
          exact Scalar.exists_readFinite?_display hfinite

end Json.Number

end CreditScorecard
