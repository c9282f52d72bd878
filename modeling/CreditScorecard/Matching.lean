import CreditScorecard.Literal.Items
import CreditScorecard.Literal.Range
import CreditScorecard.Operator
import CreditScorecard.Scalar

/-! # Matching a value against a rule's literal

Literals are stored as text and read here, against a value whose type is known. A literal that
cannot be read for its operator never matches, under the negated operators too.
-/

namespace CreditScorecard

/-- Whether a literal equals a value, read as the value's type; none where it cannot be read. -/
def literalEquals? (literal : String) : Scalar → Option Bool
  | .number x => (Binary64.readFinite? literal).map x.numEq
  | .boolean b => (readBool? literal).map (b == ·)
  | .text s => some (s == Text.trim literal)

/-- Compares a number with a threshold; false for any other value or literal. -/
def exceeds (test : Binary64 → Binary64 → Bool) (literal : String) (actual : Scalar) : Bool :=
  match actual.number?, Binary64.readFinite? literal with
  | some x, some threshold => test x threshold
  | _, _ => false

namespace Operator

/-- Whether a value satisfies an operator with a literal. -/
def holds (op : Operator) (literal : String) (actual : Scalar) : Bool :=
  match op with
  | .equal => (literalEquals? literal actual).getD false
  | .notEqual => ((literalEquals? literal actual).map (!·)).getD false
  | .greater => exceeds (fun x t => t.lt x) literal actual
  | .less => exceeds (fun x t => x.lt t) literal actual
  | .atLeast => exceeds (fun x t => t.le x) literal actual
  | .atMost => exceeds (fun x t => x.le t) literal actual
  | .between =>
    match actual.number?, Range.read? literal with
    | some x, some range => range.contains x
    | _, _ => false
  | .oneOf => (listItems literal).contains actual.display
  | .noneOf =>
    let items := listItems literal
    !items.isEmpty && !items.contains actual.display
  | .contains =>
    !Text.blank literal &&
      Text.occursIn (Text.lower literal.toList) (Text.lower actual.display.toList)

end Operator

end CreditScorecard
