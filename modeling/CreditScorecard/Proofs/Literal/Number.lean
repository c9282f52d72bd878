import CreditScorecard.Binary64.Text
import CreditScorecard.Proofs.Binary64.Arithmetic
import CreditScorecard.Proofs.Literal.Layout

/-! # The layout of a number

A finite number is laid out as a written decimal with or without a sign, with white space around it.
Every text that is read as a finite number has such a layout. Where two layouts stand for one value,
with or without an exponent, a point or a sign in front of a zero, the numbers nearest to it have
one place in the numerical order.
-/

namespace CreditScorecard.Binary64

open Text Decimal

/-! ## Reading a layout -/

/-- The layout of a text that is read as a number. -/
structure Layout where
  left : Blanks
  sign : List Char
  unsigned : Spelling
  right : Blanks
  isSign : sign ∈ [[], ['+'], ['-']]

namespace Layout

variable (l : Layout)

def negative : Bool :=
  l.sign = ['-']

/-- The text between the white space. -/
def inner : List Char :=
  l.sign ++ l.unsigned.chars

def text : String :=
  String.ofList (l.left.val ++ l.inner ++ l.right.val)

/-- The number nearest to what is written. -/
def nearest : Binary64 :=
  ofDecimal l.negative l.unsigned.decimal

theorem isBlank_eq_false_of_mem_inner {c : Char} (h : c ∈ l.inner) : isBlank c = false := by
  rcases List.mem_append.mp h with hsign | hunsigned
  · exact isBlank_eq_false_of_mem_marks (mem_marks_of_mem_sign l.isSign hsign)
  · exact l.unsigned.isBlank_eq_false_of_mem_chars hunsigned

theorem trimChars_text : trimChars l.text.toList = l.inner := by
  rw [text, String.toList_ofList, trimChars_padded l.left.property l.right.property]
  exact Trimmed.trimChars_eq
    ⟨fun _ hc => l.isBlank_eq_false_of_mem_inner (List.mem_of_mem_head? hc),
      fun _ hc => l.isBlank_eq_false_of_mem_inner (List.mem_of_mem_getLast? hc)⟩

theorem spanSign_inner : spanSign l.inner = (l.negative, l.unsigned.chars) := by
  apply spanSign_sign l.isSign
  intro c hc
  rw [← List.append_nil l.unsigned.chars] at hc
  exact l.unsigned.ne_sign_of_mem_head? hc

theorem readFinite?_text : readFinite? l.text = (some l.nearest).filter isFinite := by
  have hread : Binary64.read? l.inner = some l.nearest := by
    simp only [Binary64.read?, l.spanSign_inner, l.unsigned.read?_chars, nearest]
  rw [readFinite?, l.trimChars_text, hread]

end Layout

/-- A text that is not a decimal, a sign aside, is at most the name of a number that is not
finite. -/
theorem readFinite?_eq_none {text : String}
    (h : Decimal.read? (spanSign (trimChars text.toList)).2 = none) : readFinite? text = none := by
  unfold readFinite? Binary64.read?
  simp only [h]
  split_ifs <;> rfl

/-- Every text that is read as a finite number has a layout. -/
theorem exists_layout_of_readFinite? {s : String} {x : Binary64} (h : readFinite? s = some x) :
    ∃ l : Layout, l.text = s ∧ l.nearest = x := by
  obtain ⟨left, right, hleft, hright, hs⟩ := exists_eq_padded_trimChars s.toList
  rcases hspan : spanSign (trimChars s.toList) with ⟨negative, unsigned⟩
  cases hread : Decimal.read? unsigned with
  | none =>
      have hnone : readFinite? s = none := readFinite?_eq_none (by rw [hspan, hread])
      rw [hnone] at h
      cases h
  | some d =>
      obtain ⟨sign, hsign, htrim, -⟩ := exists_sign_of_spanSign hspan
      obtain ⟨spelling, rfl, -⟩ := Spelling.exists_of_read? hread
      let l : Layout := ⟨⟨left, hleft⟩, sign, spelling, ⟨right, hright⟩, hsign⟩
      have htext : l.text = s := by
        rw [← String.toList_inj, hs, htrim]
        exact String.toList_ofList
      refine ⟨l, htext, ?_⟩
      rw [← htext, l.readFinite?_text] at h
      exact Option.some.inj (Option.filter_eq_some_iff.mp h).1

/-! ## The value of a layout -/

theorem ofDecimal_eq_of_mul_eq {d d' : Decimal} (h : d.num * d'.den = d'.num * d.den)
    (negative : Bool) : ofDecimal negative d = ofDecimal negative d' := by
  have hunits : d.num * unitsPerOne * d'.den = d'.num * unitsPerOne * d.den := by
    rw [Nat.mul_right_comm, h, Nat.mul_right_comm]
  rw [ofDecimal_eq_ofUnits, ofDecimal_eq_ofUnits,
    ofUnits_eq_of_mul_eq negative d.den_pos d'.den_pos hunits]

theorem ofDecimal_eq_zero {d : Decimal} (h : d.num = 0) (negative : Bool) :
    ofDecimal negative d = zero negative := by
  have hdigits : d.digits = 0 := (Nat.mul_eq_zero.mp h).resolve_right (Nat.pow_pos (by decide)).ne'
  rw [ofDecimal, if_pos hdigits]

/-- Only zero is on both sides of zero. -/
theorem eq_zero_of_neg_mul_eq {a b p q : ℕ} (hp : 0 < p) (hq : 0 < q)
    (h : -(a : ℤ) * q = b * p) : a = 0 ∧ b = 0 := by
  have hsum : a * q + b * p = 0 := by
    zify
    linarith
  obtain ⟨ha, hb⟩ := Nat.add_eq_zero_iff.mp hsum
  exact ⟨(Nat.mul_eq_zero.mp ha).resolve_right hq.ne', (Nat.mul_eq_zero.mp hb).resolve_right hp.ne'⟩

namespace Layout

/-- What is written, before it is rounded. -/
def value (l : Layout) : Rat :=
  let numerator : ℤ := if l.negative then -l.unsigned.decimal.num else l.unsigned.decimal.num
  mkRat numerator l.unsigned.decimal.den

/-- However a value is written, the number nearest to it has the same place in the numerical
order. -/
theorem order?_nearest_eq {l l' : Layout} (h : l.value = l'.value) :
    l.nearest.order? = l'.nearest.order? := by
  have hpos := l.unsigned.decimal.den_pos
  have hpos' := l'.unsigned.decimal.den_pos
  have hcross := (Rat.mkRat_eq_iff hpos.ne' hpos'.ne').mp h
  cases hsign : l.negative <;> cases hsign' : l'.negative <;>
    simp only [hsign, hsign', nearest, if_true, if_false, Bool.false_eq_true] at hcross ⊢
  case false.false => rw [ofDecimal_eq_of_mul_eq (by exact_mod_cast hcross)]
  case true.true =>
    rw [neg_mul, neg_mul, neg_inj] at hcross
    rw [ofDecimal_eq_of_mul_eq (by exact_mod_cast hcross)]
  case true.false =>
    obtain ⟨hzero, hzero'⟩ := eq_zero_of_neg_mul_eq hpos hpos' hcross
    rw [ofDecimal_eq_zero hzero, ofDecimal_eq_zero hzero', order?_zero, order?_zero]
  case false.true =>
    obtain ⟨hzero', hzero⟩ := eq_zero_of_neg_mul_eq hpos' hpos hcross.symm
    rw [ofDecimal_eq_zero hzero, ofDecimal_eq_zero hzero', order?_zero, order?_zero]

end Layout

end CreditScorecard.Binary64
