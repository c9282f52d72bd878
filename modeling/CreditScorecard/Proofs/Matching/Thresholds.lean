import CreditScorecard.Proofs.Literal.Scripts
import CreditScorecard.Proofs.Matching.Numbers

/-! # Bands and thresholds

A value is between two bounds exactly if it is at least the one and at most the other, each taken as
a threshold by itself. A threshold that is a number divides all numbers, so bands that meet at a
bound neither leave a gap nor count a number on both sides.
-/

namespace CreditScorecard

/-! ## Bands -/

/-- A band is one threshold from below and one from above, whatever the bounds are read as. -/
theorem Operator.holds_between_bounds (low high : Bound) (value : Scalar) :
    Operator.between.holds (low.text ++ "," ++ high.text) value =
      (Operator.atLeast.holds low.text value && Operator.atMost.holds high.text value) := by
  simp only [holds, exceeds, Range.read?_bounds]
  cases value.number? with
  | none => rfl
  | some x =>
      cases Binary64.readFinite? low.text with
      | none => rfl
      | some y =>
          cases Binary64.readFinite? high.text with
          | none => simp
          | some z => rfl

/-- An upper bound that is too large for a double is none, in a band and by itself. -/
example : Operator.between.holds "5,1e400" (.number (.ofInt 7)) = false ∧
    Operator.atMost.holds "1e400" (.number (.ofInt 7)) = false := by
  decide +kernel

/-! ## Thresholds -/

/-- A number meets exactly one comparison with a threshold of each set that leaves no number out. -/
structure DividedAt (threshold : String) (x : Binary64) : Prop where
  less_or_atLeast : [Operator.less, .atLeast].countP (·.holds threshold (.number x)) = 1
  atMost_or_greater : [Operator.atMost, .greater].countP (·.holds threshold (.number x)) = 1
  less_equal_or_greater :
    [Operator.less, .equal, .greater].countP (·.holds threshold (.number x)) = 1

theorem Binary64.exists_order?_of_ne_nan {x : Binary64} (h : x ≠ .nan) :
    ∃ a, x.order? = some a := by
  cases x with
  | nan => exact absurd rfl h
  | infinite negative => exact ⟨_, rfl⟩
  | finite negative n hn => exact ⟨_, rfl⟩

theorem dividedAt {threshold : String} {x y : Binary64}
    (hread : Binary64.readFinite? threshold = some y) (hx : x ≠ .nan) : DividedAt threshold x := by
  obtain ⟨a, ha⟩ := Binary64.exists_order?_of_ne_nan hx
  have hfinite : y.isFinite = true := (Option.filter_eq_some_iff.mp hread).2
  obtain ⟨b, hb⟩ := Binary64.exists_order?_eq hfinite
  have hcompares : ∀ op ∈ Operator.comparisons,
      op.holds threshold (.number x) = true ↔ op.Compares a b :=
    fun op hop => Operator.holds_iff_compares hop hread ha hb
  have hless := hcompares .less (by decide)
  have hatMost := hcompares .atMost (by decide)
  have hequal := hcompares .equal (by decide)
  have hgreater := hcompares .greater (by decide)
  have hatLeast := hcompares .atLeast (by decide)
  simp only [Operator.Compares] at hless hatMost hequal hgreater hatLeast
  constructor
  case less_or_atLeast =>
    simp only [List.countP_cons, List.countP_nil, hless, hatLeast]
    split_ifs <;> omega
  case atMost_or_greater =>
    simp only [List.countP_cons, List.countP_nil, hatMost, hgreater]
    split_ifs <;> omega
  case less_equal_or_greater =>
    simp only [List.countP_cons, List.countP_nil, hless, hequal, hgreater]
    split_ifs <;> omega

/-! ## Both -/

/-- Bands are made of thresholds, and every threshold that is a number divides the numbers. -/
structure BandsAndThresholds : Prop where
  between : ∀ (low high : Bound) (value : Scalar),
    Operator.between.holds (low.text ++ "," ++ high.text) value =
      (Operator.atLeast.holds low.text value && Operator.atMost.holds high.text value)
  divided : ∀ (threshold : String) (x : Binary64),
    (Binary64.readFinite? threshold).isSome = true → x ≠ .nan → DividedAt threshold x

theorem bandsAndThresholds : BandsAndThresholds where
  between := Operator.holds_between_bounds
  divided := by
    intro threshold x hsome hx
    obtain ⟨y, hread⟩ := Option.isSome_iff_exists.mp hsome
    exact dividedAt hread hx

/-- A zero is equal to a threshold of zero with the other sign, and neither below nor above it. -/
theorem bandsAndThresholds_zeros :
    (Binary64.readFinite? "-0").isSome = true ∧ Binary64.zero false ≠ .nan ∧
      DividedAt "-0" (.zero false) := by
  have hthreshold : (Binary64.readFinite? "-0").isSome = true := by decide +kernel
  have hvalue : Binary64.zero false ≠ .nan := nofun
  exact ⟨hthreshold, hvalue, bandsAndThresholds.divided _ _ hthreshold hvalue⟩

end CreditScorecard
