import CreditScorecard.Proofs.Json.NumberValue
import CreditScorecard.Proofs.Literal.Items
import CreditScorecard.Proofs.Literal.Number
import CreditScorecard.Proofs.Matching.Numbers

/-! # The plain form stands for the number

The operators of lists and the search for a text meet a number as its plain form, all others as its
value. Two finite numbers have one plain form exactly if they are equal, and no list divides it, so
both ways agree. Numbers that are equal get the same answer from every operator.
-/

namespace CreditScorecard

open Text

/-! ## Plain forms -/

namespace Scalar

variable {x y : Binary64}

theorem display_eq_of_order?_eq (h : x.order? = y.order?) :
    (number x).display = (number y).display := by
  by_cases hzero : x.order? = some 0
  · rw [display_of_order?_eq_zero hzero, display_of_order?_eq_zero (h ▸ hzero)]
  · rw [Binary64.eq_of_order?_eq h hzero]

theorem exists_readFinite?_display_numEq (hx : x.isFinite = true) :
    ∃ z, Binary64.readFinite? (number x).display = some z ∧ z.numEq x = true := by
  obtain ⟨z, hread, horder⟩ := exists_readFinite?_display hx
  obtain ⟨a, ha⟩ := Binary64.exists_order?_eq hx
  exact ⟨z, hread, Binary64.numEq_iff.mpr ⟨a, horder.trans ha, ha⟩⟩

/-- Two finite numbers have one plain form exactly if they are equal, as both zeros are. -/
theorem display_eq_iff (hx : x.isFinite = true) (hy : y.isFinite = true) :
    (number x).display = (number y).display ↔ x.numEq y = true := by
  constructor
  · intro h
    obtain ⟨z, hread, hz⟩ := exists_readFinite?_display hx
    obtain ⟨z', hread', hz'⟩ := exists_readFinite?_display hy
    have heq : z = z' := by
      rw [h, hread'] at hread
      exact (Option.some.inj hread).symm
    obtain ⟨a, ha⟩ := Binary64.exists_order?_eq hx
    exact Binary64.numEq_iff.mpr ⟨a, ha, by rw [← hz', ← heq, hz, ha]⟩
  · intro h
    exact display_eq_of_order?_eq (Binary64.order?_eq_of_numEq h)

theorem inert_of_mem_display (hx : x.isFinite = true) {c : Char}
    (h : c ∈ (number x).display.toList) : isBlank c = false ∧ c ≠ ',' ∧ c.toLower ≠ 'e' := by
  apply inert_of_isPlain (isPlain_of_mem_display _ h)
  rintro rfl
  cases hx

theorem display_ne_empty (hx : x.isFinite = true) : (number x).display ≠ "" := by
  intro hempty
  obtain ⟨z, hread, -⟩ := exists_readFinite?_display hx
  rw [hempty] at hread
  cases hread

/-- As a list literal, a plain form has itself as its only item. -/
theorem listItems_display (hx : x.isFinite = true) :
    listItems (number x).display = [(number x).display] := by
  apply (isItem_of_ne_empty (display_ne_empty hx) _).listItems_eq
  intro c hc
  obtain ⟨hblank, hcomma, -⟩ := inert_of_mem_display hx hc
  exact ⟨hblank, hcomma⟩

theorem ofRaw?_number (raw : String) :
    ofRaw? .number raw = (Binary64.readFinite? raw).map number := by
  unfold ofRaw?
  split
  · rename_i hblank
    have htrim : trimChars raw.toList = [] :=
      trimChars_eq_nil_iff.mpr (List.all_eq_true.mp hblank)
    rw [Binary64.readFinite?, htrim]
    rfl
  · rfl

end Scalar

/-! ## Operators -/

namespace Operator

variable {x y : Binary64}

theorem literalEquals?_display (hy : y.isFinite = true) :
    literalEquals? (Scalar.number y).display (.number x) = some (x.numEq y) := by
  obtain ⟨z, hread, horder⟩ := Scalar.exists_readFinite?_display hy
  have hnumEq : x.numEq z = x.numEq y := by
    rw [Binary64.numEq, Binary64.compareBy, Binary64.compareBy, horder]
  rw [literalEquals?, hread, Option.map_some, hnumEq]

/-- A list of one number asks for equality with it. -/
theorem contains_listItems_display (hx : x.isFinite = true) (hy : y.isFinite = true) :
    (listItems (Scalar.number y).display).contains (Scalar.number x).display = x.numEq y := by
  rw [Bool.eq_iff_iff, List.contains_iff_mem, Scalar.listItems_display hy, List.mem_singleton]
  exact Scalar.display_eq_iff hx hy

theorem holds_oneOf_display (hx : x.isFinite = true) (hy : y.isFinite = true) :
    oneOf.holds (Scalar.number y).display (.number x) =
      equal.holds (Scalar.number y).display (.number x) := by
  rw [holds, holds, literalEquals?_display hy, contains_listItems_display hx hy]
  rfl

theorem holds_noneOf_display (hx : x.isFinite = true) (hy : y.isFinite = true) :
    noneOf.holds (Scalar.number y).display (.number x) =
      notEqual.holds (Scalar.number y).display (.number x) := by
  rw [holds, holds, literalEquals?_display hy, contains_listItems_display hx hy,
    Scalar.listItems_display hy]
  rfl

theorem exceeds_number_congr {test : Binary64 → Binary64 → Bool} (h : ∀ t, test x t = test y t)
    (literal : String) : exceeds test literal (.number x) = exceeds test literal (.number y) := by
  cases hread : Binary64.readFinite? literal with
  | none => simp only [exceeds, Scalar.number?, hread]
  | some t => rw [exceeds_number test hread, exceeds_number test hread, h]

/-- Nothing of a number but its place in the numerical order makes a difference to an operator. -/
theorem holds_eq_of_order?_eq (h : x.order? = y.order?) (op : Operator) (literal : String) :
    op.holds literal (.number x) = op.holds literal (.number y) := by
  have hleft : ∀ test z, Binary64.compareBy test x z = Binary64.compareBy test y z := by
    intro test z
    rw [Binary64.compareBy, Binary64.compareBy, h]
  have hright : ∀ test z, Binary64.compareBy test z x = Binary64.compareBy test z y := by
    intro test z
    rw [Binary64.compareBy, Binary64.compareBy, h]
  have hnumEq : x.numEq = y.numEq := funext (hleft _)
  have hdisplay := Scalar.display_eq_of_order?_eq h
  cases op with
  | equal => simp only [holds, literalEquals?, hnumEq]
  | notEqual => simp only [holds, literalEquals?, hnumEq]
  | greater => exact exceeds_number_congr (hright _) literal
  | less => exact exceeds_number_congr (hleft _) literal
  | atLeast => exact exceeds_number_congr (hright _) literal
  | atMost => exact exceeds_number_congr (hleft _) literal
  | between =>
      have hcontains : ∀ range : Range, range.contains x = range.contains y := by
        intro range
        simp only [Range.contains, Binary64.le, hleft, hright]
      cases hread : Range.read? literal with
      | none => simp only [holds, Scalar.number?, hread]
      | some range => simp only [holds, Scalar.number?, hread, hcontains]
  | oneOf => simp only [holds, hdisplay]
  | noneOf => simp only [holds, hdisplay]
  | contains => simp only [holds, hdisplay]

/-- An applicant gets the same answer for a value however it is written, none included. -/
theorem map_holds_text_eq {l l' : Binary64.Layout} (h : l.value = l'.value) (op : Operator)
    (literal : String) :
    (Scalar.ofRaw? .number l.text).map (op.holds literal) =
      (Scalar.ofRaw? .number l'.text).map (op.holds literal) := by
  have horder := Binary64.Layout.order?_nearest_eq h
  have hfinite := Binary64.isFinite_eq_of_order?_eq horder
  have hholds := holds_eq_of_order?_eq horder op literal
  rw [Scalar.ofRaw?_number, Scalar.ofRaw?_number, l.readFinite?_text, l'.readFinite?_text]
  cases hl : l.nearest.isFinite with
  | false => simp [Option.filter, hl, ← hfinite]
  | true => simp [Option.filter, hl, ← hfinite, hholds]

/-- The plain form keeps nothing of a point, an exponent or the sign of a zero, so a list item with
that sign is the form of no number. -/
example : ["25", "+25.0", " 2.5e1"].map (Scalar.ofRaw? .number) =
      List.replicate 3 (some (.number (.ofInt 25))) ∧
    (Scalar.ofRaw? .number "-0").map Scalar.display = some "0" ∧
    oneOf.holds " -0, 25" (.number (.zero true)) = false := by
  decide +kernel

end Operator

/-! ## Numbers by their value -/

/-- The plain forms of two finite numbers stand for the numbers. -/
structure FaithfulForm (x y : Binary64) : Prop where
  read : ∃ z, Binary64.readFinite? (Scalar.number x).display = some z ∧ z.numEq x = true
  one_iff : (Scalar.number x).display = (Scalar.number y).display ↔ x.numEq y = true
  inert : ∀ c ∈ (Scalar.number x).display.toList,
    isBlank c = false ∧ c ≠ ',' ∧ c.toLower ≠ 'e'
  oneOf : Operator.oneOf.holds (Scalar.number y).display (.number x) =
    Operator.equal.holds (Scalar.number y).display (.number x)
  noneOf : Operator.noneOf.holds (Scalar.number y).display (.number x) =
    Operator.notEqual.holds (Scalar.number y).display (.number x)

/-- Numbers are judged by their value: by way of the plain form, if they are equal, and if an
applicant writes one value in two ways. -/
structure JudgedByValue : Prop where
  form : ∀ x y : Binary64, x.isFinite = true → y.isFinite = true → FaithfulForm x y
  equal : ∀ x y : Binary64, x.numEq y = true → ∀ (op : Operator) (literal : String),
    op.holds literal (.number x) = op.holds literal (.number y)
  written : ∀ l l' : Binary64.Layout, l.value = l'.value → ∀ (op : Operator) (literal : String),
    (Scalar.ofRaw? .number l.text).map (op.holds literal) =
      (Scalar.ofRaw? .number l'.text).map (op.holds literal)

theorem judgedByValue : JudgedByValue where
  form := by
    intro x y hx hy
    constructor
    case read => exact Scalar.exists_readFinite?_display_numEq hx
    case one_iff => exact Scalar.display_eq_iff hx hy
    case inert => exact fun _ hc => Scalar.inert_of_mem_display hx hc
    case oneOf => exact Operator.holds_oneOf_display hx hy
    case noneOf => exact Operator.holds_noneOf_display hx hy
  equal := fun _ _ h => Operator.holds_eq_of_order?_eq (Binary64.order?_eq_of_numEq h)
  written := fun _ _ h => Operator.map_holds_text_eq h

/-- The text `+40.0`. -/
def fortyWithPoint : Binary64.Layout where
  left := noBlanks
  sign := ['+']
  unsigned :=
    { whole := ['4', '0']
      fraction := some ['0']
      isDigit_whole := List.all_eq_true.mp rfl
      isDigit_fraction := fun _ h => Option.some.inj h ▸ List.all_eq_true.mp rfl
      digits_ne := fun h => List.cons_ne_nil _ _ h.1 }
  right := noBlanks
  isSign := .tail _ (.head _)

/-- The text `4e1`. -/
def fortyWithExponent : Binary64.Layout where
  left := noBlanks
  sign := []
  unsigned :=
    { Decimal.Spelling.ofWhole ['4'] (List.all_eq_true.mp rfl) (List.cons_ne_nil _ _) with
      exponent := some
        { letter := 'e'
          sign := []
          digits := ['1']
          isLetter := rfl
          isSign := .head _
          isDigit := List.all_eq_true.mp rfl
          digits_ne := List.cons_ne_nil _ _ } }
  right := noBlanks
  isSign := .head _

/-- Both zeros, and two ways to write 40. -/
theorem judgedByValue_zerosAndForty :
    (Binary64.zero true).isFinite = true ∧ (Binary64.zero false).isFinite = true ∧
      FaithfulForm (.zero true) (.zero false) ∧
    (Binary64.zero true).numEq (.zero false) = true ∧
      Operator.contains.holds "0" (.number (.zero true)) =
        Operator.contains.holds "0" (.number (.zero false)) ∧
    fortyWithPoint.text = "+40.0" ∧ fortyWithExponent.text = "4e1" ∧
      fortyWithPoint.value = fortyWithExponent.value ∧
      (Scalar.ofRaw? .number fortyWithPoint.text).map (Operator.oneOf.holds "40") =
        (Scalar.ofRaw? .number fortyWithExponent.text).map (Operator.oneOf.holds "40") := by
  have hzeros : (Binary64.zero true).numEq (.zero false) = true := by decide +kernel
  have hvalue : fortyWithPoint.value = fortyWithExponent.value := by decide +kernel
  exact ⟨rfl, rfl, judgedByValue.form _ _ rfl rfl, hzeros, judgedByValue.equal _ _ hzeros _ _,
    rfl, rfl, hvalue, judgedByValue.written _ _ hvalue _ _⟩

end CreditScorecard
