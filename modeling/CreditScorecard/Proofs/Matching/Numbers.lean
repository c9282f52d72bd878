import CreditScorecard.Matching
import Mathlib.Data.Int.Notation

/-! # Operators on numbers

An operator that compares a number with one other meets two places in the numerical order, and
nothing else of the numbers matters to it.
-/

namespace CreditScorecard

namespace Binary64

variable {x y : Binary64} {a b : ℤ}

theorem exists_order?_eq (hx : x.isFinite = true) : ∃ a, x.order? = some a := by
  cases x with
  | finite negative n h => exact ⟨_, rfl⟩
  | _ => cases hx

theorem order?_eq_of_numEq (h : x.numEq y = true) : x.order? = y.order? := by
  obtain ⟨a, hx, hy⟩ := numEq_iff.mp h
  rw [hx, hy]

theorem eq_of_signed_eq {negative negative' : Bool} {m n : Nat}
    (h : (if negative then -(m : ℤ) else m) = if negative' then -(n : ℤ) else n) :
    m = n ∧ (negative = negative' ∨ m = 0) := by
  cases negative <;> cases negative' <;>
    simp only [reduceCtorEq, if_true, if_false, true_or, false_or, and_true] at h ⊢ <;>
    omega

/-- The two zeros are the only numbers that share a place. -/
theorem eq_of_order?_eq (h : x.order? = y.order?) (hzero : x.order? ≠ some 0) : x = y := by
  cases x with
  | nan =>
      cases y with
      | nan => rfl
      | _ => cases h
  | infinite negative =>
      cases y with
      | nan => cases h
      | infinite negative' =>
          have hsign := (eq_of_signed_eq (Option.some.inj h)).2
          rw [hsign.resolve_right (Nat.ne_of_gt magnitudeBound_pos)]
      | finite negative' n hn =>
          exact absurd (eq_of_signed_eq (Option.some.inj h)).1 (Nat.ne_of_gt hn.1)
  | finite negative m hm =>
      cases y with
      | nan => cases h
      | infinite negative' =>
          exact absurd (eq_of_signed_eq (Option.some.inj h)).1 (Nat.ne_of_lt hm.1)
      | finite negative' n hn =>
          obtain ⟨rfl, hsign⟩ := eq_of_signed_eq (Option.some.inj h)
          have hm : m ≠ 0 := by
            rintro rfl
            exact hzero (order?_zero negative)
          rw [hsign.resolve_right hm]

theorem isFinite_of_order?_eq_zero (h : x.order? = some 0) : x.isFinite = true := by
  cases x with
  | nan => cases h
  | infinite negative =>
      have hpos := magnitudeBound_pos
      simp only [order?, Option.some_inj] at h
      split at h <;> omega
  | finite negative n hn => rfl

theorem isFinite_eq_of_order?_eq (h : x.order? = y.order?) : x.isFinite = y.isFinite := by
  by_cases hzero : x.order? = some 0
  · rw [isFinite_of_order?_eq_zero hzero, isFinite_of_order?_eq_zero (h ▸ hzero)]
  · rw [eq_of_order?_eq h hzero]

theorem compareBy_eq (hx : x.order? = some a) (hy : y.order? = some b) (test : ℤ → ℤ → Bool) :
    compareBy test x y = test a b := by
  simp only [compareBy, hx, hy]

end Binary64

namespace Operator

/-- The operators that compare a number with one other. -/
def comparisons : List Operator :=
  [.equal, .notEqual, .less, .atMost, .greater, .atLeast]

/-- The comparison of two places in the numerical order that an operator stands for. -/
def Compares : Operator → ℤ → ℤ → Prop
  | .equal, a, b => a = b
  | .notEqual, a, b => a ≠ b
  | .less, a, b => a < b
  | .atMost, a, b => a ≤ b
  | .greater, a, b => b < a
  | .atLeast, a, b => b ≤ a
  | _, _, _ => False

variable {op : Operator} {literal : String} {x y : Binary64} {a b : ℤ}

theorem exceeds_number (test : Binary64 → Binary64 → Bool)
    (hread : Binary64.readFinite? literal = some y) :
    exceeds test literal (.number x) = test x y := by
  simp only [exceeds, Scalar.number?, hread]

/-- An operator meets the places of the value and of the literal in the numerical order. -/
theorem holds_iff_compares (hop : op ∈ comparisons)
    (hread : Binary64.readFinite? literal = some y) (hx : x.order? = some a)
    (hy : y.order? = some b) : op.holds literal (.number x) = true ↔ op.Compares a b := by
  have hequal : literalEquals? literal (.number x) = some (a == b) := by
    rw [literalEquals?, hread, Option.map_some, Binary64.numEq, Binary64.compareBy_eq hx hy]
  have hless : x.lt y = decide (a < b) := Binary64.compareBy_eq hx hy _
  have hatMost : x.le y = decide (a ≤ b) := Binary64.compareBy_eq hx hy _
  have hgreater : y.lt x = decide (b < a) := Binary64.compareBy_eq hy hx _
  have hatLeast : y.le x = decide (b ≤ a) := Binary64.compareBy_eq hy hx _
  simp only [comparisons, List.mem_cons, List.not_mem_nil, or_false] at hop
  rcases hop with rfl | rfl | rfl | rfl | rfl | rfl
  · simp [holds, hequal, Compares]
  · simp [holds, hequal, Compares]
  · simp [holds, exceeds_number _ hread, hless, Compares]
  · simp [holds, exceeds_number _ hread, hatMost, Compares]
  · simp [holds, exceeds_number _ hread, hgreater, Compares]
  · simp [holds, exceeds_number _ hread, hatLeast, Compares]

end Operator

end CreditScorecard
