import CreditScorecard.Rule
import Mathlib.Order.Lattice

/-! # The order of kinds

One rule is enough to make a field a number, whatever the other rules of the field are, and one
boolean literal keeps it from being text. So the kinds stand in an order, and the rules of a field
give it the highest kind that any of them asks for.
-/

namespace CreditScorecard

namespace Kind

/-- The place of a kind: text, then booleans, then numbers. -/
def rank : Kind → Nat
  | .text => 0
  | .boolean => 1
  | .number => 2

theorem rank_injective : Function.Injective rank := by
  intro a b h
  cases a <;> cases b <;> first | rfl | cases h

instance : LinearOrder Kind :=
  LinearOrder.lift' rank rank_injective

/-- The kind of two lists of rules together is the higher of their kinds. -/
theorem infer_append (rules others : List Rule) :
    infer (rules ++ others) = max (infer rules) (infer others) := by
  simp only [infer, List.any_append]
  cases rules.any (·.operator.comparesNumbers) <;>
    cases others.any (·.operator.comparesNumbers) <;>
      cases rules.any (fun rule => (readBool? rule.literal).isSome) <;>
        cases others.any (fun rule => (readBool? rule.literal).isSome) <;> rfl

theorem infer_append_cons (rules : List Rule) (rule : Rule) (others : List Rule) :
    infer (rules ++ rule :: others) = max (infer rules) (max (infer [rule]) (infer others)) := by
  rw [infer_append, ← List.singleton_append, infer_append]

/-- A rule asks for the kind of its field by its operator and by its literal as a boolean. -/
theorem infer_singleton_eq {rule other : Rule} (hoperator : rule.operator = other.operator)
    (hliteral : readBool? rule.literal = readBool? other.literal) :
    infer [rule] = infer [other] := by
  simp [infer, hoperator, hliteral]

end Kind

end CreditScorecard
