import CreditScorecard.Proofs.Binary64.Arithmetic
import CreditScorecard.Proofs.Json.Reading
import CreditScorecard.Proofs.Text.Trim
import CreditScorecard.Scorecard.Document

/-! # The two texts of a number

The input of an applicant has a number's JSON text, the literal of a rule its plain form, which
knows no exponent and has no point in a whole number. They are the same text for the integers of 64
bits with a sign, and for fractions that JSON writes in positional notation.
-/

namespace CreditScorecard

open Text

/-! ## Positional notation -/

namespace Decimal

variable {d : Decimal}

theorem isDigit_of_mem_positional {zeros : ℕ} (h : d.exponent = zeros) {c : Char}
    (hc : c ∈ d.positional) : c.isDigit = true := by
  unfold positional at hc
  rw [h] at hc
  rcases List.mem_append.mp hc with hc | hc
  · exact isDigit_of_mem_toDigits hc
  · rw [List.eq_of_mem_replicate hc]
    decide

theorem point_mem_positional (h : d.exponent < 0) : '.' ∈ d.positional := by
  obtain ⟨places, hplaces⟩ := Int.eq_negSucc_of_lt_zero h
  unfold positional
  rw [hplaces]
  dsimp only
  split <;> simp

theorem isDigit_or_eq_point_of_mem_positional {c : Char} (hc : c ∈ d.positional) :
    c.isDigit = true ∨ c = '.' := by
  unfold positional at hc
  have hdigit : ∀ c ∈ Nat.toDigits 10 d.digits, c.isDigit = true :=
    fun c hc => isDigit_of_mem_toDigits hc
  dsimp only at hc
  split at hc
  · rcases List.mem_append.mp hc with hc | hc
    · exact .inl (hdigit c hc)
    · rw [List.eq_of_mem_replicate hc]
      decide
  · split at hc
    · rcases List.mem_append.mp hc with hc | hc
      · exact .inl (hdigit c (List.mem_of_mem_take hc))
      · rcases List.mem_cons.mp hc with hc | hc
        · exact .inr hc
        · exact .inl (hdigit c (List.mem_of_mem_drop hc))
    · simp only [List.cons_append, List.mem_cons, List.mem_append] at hc
      rcases hc with rfl | hc | hc | hc
      · decide
      · exact .inr hc
      · rw [List.eq_of_mem_replicate hc]
        decide
      · exact .inl (hdigit c hc)

/-- The digits on both sides of the point are those of the decimal, after zeros. -/
theorem ofDigitChars_filter_positional (h : d.exponent < 0) :
    Nat.ofDigitChars 10 (d.positional.filter Char.isDigit) 0 = d.digits := by
  have hfilter : (Nat.toDigits 10 d.digits).filter Char.isDigit = Nat.toDigits 10 d.digits :=
    List.filter_eq_self.mpr fun c hc => isDigit_of_mem_toDigits hc
  have hzeros : ∀ {k : ℕ}, ∀ c ∈ List.replicate k '0', c.isDigit = true := by
    intro k c hc
    rw [List.eq_of_mem_replicate hc]
    decide
  have hpoint : Char.isDigit '.' = false := rfl
  obtain ⟨places, hplaces⟩ := Int.eq_negSucc_of_lt_zero h
  unfold positional
  rw [hplaces]
  dsimp only
  split
  · rw [List.filter_append, List.filter_cons_of_neg (by simp [hpoint]), ← List.filter_append,
      List.take_append_drop, hfilter, Nat.ofDigitChars_ten_toDigits]
  · rw [List.cons_append, List.cons_append, List.filter_cons_of_pos (by decide),
      List.filter_cons_of_neg (by simp [hpoint]), List.filter_append, hfilter,
      List.filter_eq_self.mpr hzeros, Nat.ofDigitChars_cons, Nat.ofDigitChars_append,
      Json.ofDigitChars_replicate_zero]
    simp

theorem positional_injective {a b : Decimal} (hexponent : a.exponent = b.exponent)
    (ha : a.exponent < 0) (h : a.positional = b.positional) : a = b := by
  have hdigits : a.digits = b.digits := by
    rw [← ofDigitChars_filter_positional ha, h, ofDigitChars_filter_positional (hexponent ▸ ha)]
  cases a
  cases b
  simp_all

/-- The decimal is a natural number, its exponent the zeros at the end. -/
def Denotes (d : Decimal) (k : ℕ) : Prop :=
  ∃ zeros : ℕ, d.exponent = zeros ∧ d.digits * 10 ^ zeros = k

theorem toDigits_mul_pow {n : ℕ} (hn : n ≠ 0) (zeros : ℕ) :
    Nat.toDigits 10 (n * 10 ^ zeros) = Nat.toDigits 10 n ++ List.replicate zeros '0' := by
  induction zeros with
  | zero => simp
  | succ zeros ih =>
      have hpos : 0 < n * 10 ^ zeros := by positivity
      rw [pow_succ, ← mul_assoc, Nat.toDigits_of_base_le (by decide) (by omega),
        Nat.mul_div_cancel _ (by decide), ih, Nat.mul_mod_left, List.replicate_succ',
        List.append_assoc]
      rfl

/-- The natural numbers that a decimal writes out are those it denotes. -/
theorem positional_eq_toDigits_iff {k : ℕ} (hzero : d.digits = 0 → d.exponent = 0) :
    d.positional = Nat.toDigits 10 k ↔ d.Denotes k := by
  have hwhole : ∀ {zeros : ℕ}, d.exponent = zeros →
      d.positional = Nat.toDigits 10 (d.digits * 10 ^ zeros) := by
    intro zeros hzeros
    have hpositional : d.positional = Nat.toDigits 10 d.digits ++ List.replicate zeros '0' := by
      rw [positional, hzeros]
    by_cases hd : d.digits = 0
    · have : zeros = 0 := by simpa [hzeros] using hzero hd
      rw [hpositional, this, List.replicate_zero, List.append_nil, pow_zero, mul_one]
    · rw [hpositional, toDigits_mul_pow hd]
  constructor
  · intro h
    -- a point is no digit
    have hexponent : 0 ≤ d.exponent := by
      by_contra hneg
      have hpoint := point_mem_positional (by omega : d.exponent < 0)
      rw [h] at hpoint
      exact absurd (isDigit_of_mem_toDigits hpoint) (by decide)
    obtain ⟨zeros, hzeros⟩ := Int.eq_ofNat_of_zero_le hexponent
    refine ⟨zeros, hzeros, ?_⟩
    rw [← Nat.ofDigitChars_ten_toDigits (n := d.digits * 10 ^ zeros), ← hwhole hzeros, h,
      Nat.ofDigitChars_ten_toDigits]
  · rintro ⟨zeros, hzeros, rfl⟩
    exact hwhole hzeros

end Decimal

/-! ## The characters of both texts -/

/-- The characters of a plain form; letters occur in the names of the infinities alone. -/
def isPlain (c : Char) : Bool :=
  c.isDigit || ['-', '.', 'i', 'n', 'f'].contains c

theorem isPlain_iff {c : Char} :
    isPlain c = true ↔ c.isDigit = true ∨ c ∈ ['-', '.', 'i', 'n', 'f'] := by
  simp [isPlain]

theorem toLower_of_isDigit {c : Char} (h : c.isDigit = true) : c.toLower = c := by
  have hrange : 48 ≤ c.toNat ∧ c.toNat ≤ 57 := by
    simpa [Char.isDigit, UInt32.le_iff_toNat_le] using h
  unfold Char.toLower
  rw [dif_neg]
  rintro ⟨hupper, -⟩
  have hupper : 65 ≤ c.toNat := UInt32.le_iff_toNat_le.mp hupper
  omega

/-- Nothing in a plain form separates items, is stripped, or spells a boolean. -/
theorem inert_of_isPlain {c : Char} (h : isPlain c = true) :
    isBlank c = false ∧ c ≠ ',' ∧ c.toLower ≠ 'e' := by
  rcases isPlain_iff.mp h with hdigit | hmem
  · refine ⟨isBlank_eq_false_of_isDigit hdigit, ne_of_isDigit hdigit (by decide), ?_⟩
    rw [toLower_of_isDigit hdigit]
    exact ne_of_isDigit hdigit (by decide)
  · simp only [List.mem_cons, List.not_mem_nil, or_false] at hmem
    rcases hmem with rfl | rfl | rfl | rfl | rfl <;> decide

theorem isPlain_of_mem_signText {negative : Bool} {c : Char}
    (h : c ∈ Binary64.signText negative) : isPlain c = true := by
  cases negative with
  | false => cases h
  | true =>
      rw [List.mem_singleton.mp h]
      decide

theorem Decimal.isPlain_of_mem_positional {d : Decimal} {c : Char} (h : c ∈ d.positional) :
    isPlain c = true := by
  rcases isDigit_or_eq_point_of_mem_positional h with hdigit | rfl
  · exact isPlain_iff.mpr (.inl hdigit)
  · decide

theorem Binary64.isPlain_of_mem_display {x : Binary64} (hx : x ≠ .nan) {c : Char}
    (h : c ∈ x.display.toList) : isPlain c = true := by
  cases x with
  | nan => exact absurd rfl hx
  | infinite negative =>
      have hname : (display (.infinite negative)).toList.all isPlain = true := by
        cases negative <;> decide
      exact List.all_eq_true.mp hname c h
  | finite negative n _ =>
      rw [display, String.toList_ofList] at h
      exact (List.mem_append.mp h).elim isPlain_of_mem_signText Decimal.isPlain_of_mem_positional

theorem Scalar.isPlain_of_mem_display {x : Binary64} (hx : x ≠ .nan) {c : Char}
    (h : c ∈ (Scalar.number x).display.toList) : isPlain c = true := by
  rw [display] at h
  split at h
  · have hzero : "0".toList.all isPlain = true := by decide
    exact List.all_eq_true.mp hzero c h
  · exact Binary64.isPlain_of_mem_display hx h

namespace Json

theorem toList_intText (k : ℤ) :
    (intText k).toList = Binary64.signText (k < 0) ++ Nat.toDigits 10 k.natAbs := by
  by_cases hk : k < 0 <;> simp [intText, hk, Binary64.signText]

theorem ofInt_ne_nan (k : ℤ) : Binary64.ofInt k ≠ .nan := by
  unfold Binary64.ofInt Binary64.ofUnits Binary64.ofMagnitude
  intro h
  split at h <;> cases h

theorem Numeral.WellFormed.isBlank_of_mem_fractionChars {n : Numeral} (hn : n.WellFormed) {c : Char}
    (h : c ∈ n.fractionChars) : isBlank c = false := by
  unfold Numeral.fractionChars at h
  split at h
  · cases h
  · rcases List.mem_cons.mp h with rfl | h
    · decide
    · exact isBlank_eq_false_of_isDigit (hn.fraction c h)

theorem Numeral.WellFormed.isBlank_of_mem_exponentChars {n : Numeral} (hn : n.WellFormed) {c : Char}
    (h : c ∈ n.exponentChars) : isBlank c = false := by
  unfold Numeral.exponentChars at h
  split at h
  · cases h
  · rename_i negative digits heq
    rw [List.mem_cons, List.mem_cons] at h
    rcases h with rfl | rfl | h
    · decide
    · cases negative <;> decide
    · exact isBlank_eq_false_of_isDigit ((hn.exponent _ heq).2 c h)

namespace Number

theorem literal_integer_of_inRange {k : ℤ} {a : Points} (h : Points.ofInt? k = some a) :
    (integer k).literal = intText k := by
  rw [literal, h, ← Points.ofInt?_eq_some_iff.mp h]
  rfl

theorem isPlain_of_mem_literal {n : Number} {c : Char} (h : c ∈ n.literal.toList) :
    isPlain c = true := by
  cases n with
  | integer k =>
      cases hrange : Points.ofInt? k with
      | some a =>
          rw [literal_integer_of_inRange hrange, toList_intText] at h
          rcases List.mem_append.mp h with h | h
          · exact isPlain_of_mem_signText h
          · exact isPlain_iff.mpr (.inl (isDigit_of_mem_toDigits h))
      | none =>
          rw [literal, hrange] at h
          exact Scalar.isPlain_of_mem_display (ofInt_ne_nan k) h
  | real x finite =>
      refine Scalar.isPlain_of_mem_display ?_ h
      rintro rfl
      cases finite

theorem text_ne_empty (n : Number) : n.text ≠ "" := by
  intro h
  have hlist := toList_text n
  rw [h, String.toList_empty] at hlist
  obtain ⟨-, hunsigned⟩ := List.append_eq_nil_iff.mp hlist.symm
  rw [Numeral.unsignedChars, List.append_assoc] at hunsigned
  exact (wellFormed_numeral n).whole.ne_nil (List.append_eq_nil_iff.mp hunsigned).1

theorem isBlank_of_mem_text {n : Number} {c : Char} (h : c ∈ n.text.toList) :
    isBlank c = false := by
  have hnumeral := wellFormed_numeral n
  rw [toList_text, Numeral.unsignedChars, List.mem_append, List.mem_append, List.mem_append] at h
  rcases h with h | (h | h) | h
  · exact (inert_of_isPlain (isPlain_of_mem_signText h)).1
  · exact isBlank_eq_false_of_isDigit (hnumeral.whole.isDigit c h)
  · exact hnumeral.isBlank_of_mem_fractionChars h
  · exact hnumeral.isBlank_of_mem_exponentChars h

theorem trim_text (n : Number) : trim n.text = n.text :=
  trim_eq_self fun _ hc => isBlank_of_mem_text hc

theorem blank_text (n : Number) : blank n.text = false := by
  rw [Bool.eq_false_iff, Ne, ← trim_eq_empty_iff, trim_text]
  exact text_ne_empty n

end Number

end Json

/-! ## Where the texts agree -/

theorem Scalar.display_of_order?_eq_zero {x : Binary64} (h : x.order? = some 0) :
    (Scalar.number x).display = "0" := by
  rw [display, if_pos (Binary64.numEq_iff.mpr ⟨0, h, Binary64.order?_zero false⟩)]

theorem Scalar.display_of_order?_ne_zero {x : Binary64} (h : x.order? ≠ some 0) :
    (Scalar.number x).display = x.display := by
  have hzero : x.numEq (.zero false) = false := by
    rw [Bool.eq_false_iff, Ne, Binary64.numEq_iff, Binary64.order?_zero]
    rintro ⟨a, ha, ⟨⟩⟩
    exact h ha
  rw [display, if_neg (by simp [hzero])]

theorem Scalar.toList_display_of_ne_zero {negative : Bool} {n : ℕ} {h : Binary64.Representable n}
    (hn : n ≠ 0) :
    (Scalar.number (.finite negative n h)).display.toList =
      Binary64.signText negative ++ (Binary64.shortest .greater n).positional := by
  rw [display_of_order?_ne_zero, Binary64.display, String.toList_ofList]
  cases negative <;> simp [Binary64.order?, hn]

theorem Scalar.letter_mem_display_infinite (negative : Bool) :
    'n' ∈ (Scalar.number (.infinite negative)).display.toList := by
  rw [display_of_order?_ne_zero]
  · cases negative <;> decide
  · have hpos := Binary64.magnitudeBound_pos
    rw [Binary64.order?]
    generalize Binary64.magnitudeBound = bound at hpos
    cases negative <;> simp [Nat.ne_of_gt hpos]

namespace Json.Number

/-- The text of an input and the literal of a rule are the same for this number: an integer in the
range of scores, or one that is the shortest decimal of its double; or a fraction that stands in
positional notation, with one shortest decimal. -/
def HasOneText : Number → Prop
  | .integer k => (∃ a : Points, a.value = k) ∨
    ∃ negative n h, Binary64.ofInt k = .finite negative n h ∧
      (Binary64.shortest .greater n).Denotes k.natAbs
  | .real (.finite _ n _) _ =>
    let d := Binary64.shortest .even n
    let point := (Nat.toDigits 10 d.digits).length + d.exponent
    d.exponent < 0 ∧ -5 < point ∧ point ≤ 16 ∧ Binary64.shortest .greater n = d
  | .real _ _ => False

theorem eq_of_ofInt_eq_finite {k : ℤ} {negative : Bool} {n : ℕ} {h : Binary64.Representable n}
    (hk : Binary64.ofInt k = .finite negative n h) :
    negative = decide (k < 0) ∧ n = Binary64.magnitudeOf k.natAbs := by
  unfold Binary64.ofInt Binary64.ofUnits Binary64.ofMagnitude at hk
  split at hk
  · cases hk
    exact ⟨rfl, rfl⟩
  · cases hk

theorem isDigit_or_eq_minus_of_mem_intText {k : ℤ} {c : Char} (h : c ∈ (intText k).toList) :
    c.isDigit = true ∨ c = '-' := by
  rw [toList_intText] at h
  rcases List.mem_append.mp h with h | h
  · right
    revert h
    cases decide (k < 0) <;> simp [Binary64.signText]
  · exact .inl (isDigit_of_mem_toDigits h)

/-- The way through a double leads back to an integer that is the shortest decimal there. -/
theorem display_ofInt_eq_intText_iff {k : ℤ} (hk : k ≠ 0) :
    (Scalar.number (.ofInt k)).display = intText k ↔
      ∃ negative n h, Binary64.ofInt k = .finite negative n h ∧
        (Binary64.shortest .greater n).Denotes k.natAbs := by
  cases hx : Binary64.ofInt k with
  | nan => exact absurd hx (ofInt_ne_nan k)
  | infinite negative =>
      -- the name of an infinity has letters, an integer has none
      constructor
      · intro h
        have hletter := Scalar.letter_mem_display_infinite negative
        rw [h] at hletter
        rcases isDigit_or_eq_minus_of_mem_intText hletter with h | h <;> exact absurd h (by decide)
      · rintro ⟨_, _, _, hfinite, -⟩
        cases hfinite
  | finite negative n h =>
      obtain ⟨rfl, hmagnitude⟩ := eq_of_ofInt_eq_finite hx
      have hn : n ≠ 0 := by
        rw [hmagnitude]
        exact Nat.ne_of_gt (Binary64.magnitudeOf_pos (Int.natAbs_ne_zero.mpr hk))
      rw [← String.toList_inj, toList_intText, Scalar.toList_display_of_ne_zero hn,
        List.append_cancel_left_eq,
        Decimal.positional_eq_toDigits_iff Binary64.exponent_shortest_of_digits_eq_zero]
      constructor
      · exact fun hdenotes => ⟨_, n, h, rfl, hdenotes⟩
      · rintro ⟨_, _, _, ⟨⟩, hdenotes⟩
        exact hdenotes

theorem literal_integer_eq_text_iff {k : ℤ} :
    (integer k).literal = (integer k).text ↔ (integer k).HasOneText := by
  cases hrange : Points.ofInt? k with
  | some a =>
      have hvalue : a.value = k := Points.ofInt?_eq_some_iff.mp hrange
      exact iff_of_true (literal_integer_of_inRange hrange) (.inl ⟨a, hvalue⟩)
  | none =>
      have hbeyond : ¬∃ a : Points, a.value = k := by
        rintro ⟨a, ha⟩
        rw [Points.ofInt?_eq_some_iff.mpr ha] at hrange
        cases hrange
      have hk : k ≠ 0 := by
        rintro rfl
        cases hrange
      rw [literal, hrange, HasOneText, or_iff_right hbeyond]
      exact display_ofInt_eq_intText_iff hk

/-- A text with a point or an exponent is no plain form of a whole number. -/
theorem positional_ne_withPoint {d d' : Decimal} (h : 0 ≤ d.exponent) (h' : 0 ≤ d'.exponent) :
    d.positional ≠ Binary64.withPoint d' := by
  obtain ⟨zeros, hzeros⟩ := Int.eq_ofNat_of_zero_le h
  have hmark : ∃ c ∈ Binary64.withPoint d', c.isDigit = false := by
    unfold Binary64.withPoint
    dsimp only
    split
    · exact ⟨'.', by simp, rfl⟩
    · exact ⟨'e', by simp, rfl⟩
  obtain ⟨c, hc, hdigit⟩ := hmark
  intro heq
  rw [← heq] at hc
  rw [Decimal.isDigit_of_mem_positional hzeros hc] at hdigit
  cases hdigit

/-- Of one exponent below zero, the plain form is the text in positional notation. -/
theorem positional_eq_withPoint_iff {d d' : Decimal} (hexponent : d.exponent = d'.exponent)
    (h : d'.exponent < 0) :
    d.positional = Binary64.withPoint d' ↔
      -5 < (Nat.toDigits 10 d'.digits).length + d'.exponent ∧
        (Nat.toDigits 10 d'.digits).length + d'.exponent ≤ 16 ∧ d = d' := by
  unfold Binary64.withPoint
  dsimp only
  split
  · rename_i hpoint
    rw [if_neg (Int.not_le.mpr h), List.append_nil, ← and_assoc, and_iff_right hpoint]
    exact ⟨Decimal.positional_injective hexponent (hexponent ▸ h), congrArg _⟩
  · rename_i hpoint
    rw [← and_assoc]
    refine iff_of_false (fun heq => ?_) (fun hwritten => hpoint hwritten.1)
    have hmark : 'e' ∈ d.positional := by
      rw [heq]
      simp
    rcases Decimal.isDigit_or_eq_point_of_mem_positional hmark with h | h <;>
      exact absurd h (by decide)

theorem literal_real_eq_text_iff {x : Binary64} {finite : x.isFinite = true} :
    (real x finite).literal = (real x finite).text ↔ (real x finite).HasOneText := by
  cases x with
  | nan => cases finite
  | infinite negative => cases finite
  | finite negative n h =>
      by_cases hn : n = 0
      · -- both zeros have the literal `0`, and neither that text
        subst hn
        have hliteral : (real (.finite negative 0 h) finite).literal = "0" := by
          cases negative <;> rfl
        have htext : (real (.finite negative 0 h) finite).text =
            if negative then "-0.0" else "0.0" := by
          cases negative <;> rfl
        refine iff_of_false ?_ (fun hfraction => absurd hfraction.1 (by decide))
        rw [hliteral, htext]
        cases negative <;> decide
      · have hexponent := Binary64.exponent_shortest .greater .even n
        have htexts : (real (.finite negative n h) finite).literal =
            (real (.finite negative n h) finite).text ↔
              (Binary64.shortest .greater n).positional =
                Binary64.withPoint (Binary64.shortest .even n) := by
          rw [← String.toList_inj, literal, Scalar.toList_display_of_ne_zero hn, text,
            Binary64.jsonText, String.toList_ofList, List.append_cancel_left_eq]
        rw [htexts, HasOneText]
        by_cases hneg : (Binary64.shortest .even n).exponent < 0
        · rw [positional_eq_withPoint_iff hexponent hneg]
          exact (and_iff_right hneg).symm
        · refine iff_of_false (positional_ne_withPoint ?_ ?_) (fun hfraction => hneg hfraction.1)
          · omega
          · omega

/-- The literal of a rule is the text of an input exactly for the numbers of one text. -/
theorem literal_eq_text_iff (n : Number) : n.literal = n.text ↔ n.HasOneText := by
  cases n with
  | integer k => exact literal_integer_eq_text_iff
  | real x finite => exact literal_real_eq_text_iff

/-- An integer beyond the range of scores is rounded in a rule. -/
example : (integer 0x8000000000000001).literal = "9223372036854776000" ∧
    (integer 0x8000000000000001).text = "9223372036854775809" := by
  decide +kernel

end Json.Number

end CreditScorecard
