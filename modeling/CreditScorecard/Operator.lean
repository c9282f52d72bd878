import CreditScorecard.Text.Blank

/-! # Comparison operators -/

namespace CreditScorecard

/-- How a rule compares an applicant's value with its literal. -/
inductive Operator where
  | equal
  | notEqual
  | greater
  | less
  | atLeast
  | atMost
  | between
  | oneOf
  | noneOf
  | contains
deriving DecidableEq, Repr

namespace Operator

def all : List Operator :=
  [.equal, .notEqual, .greater, .less, .atLeast, .atMost, .between, .oneOf, .noneOf, .contains]

/-- The text of an operator in a scorecard. -/
def symbol : Operator → String
  | .equal => "=="
  | .notEqual => "!="
  | .greater => ">"
  | .less => "<"
  | .atLeast => ">="
  | .atMost => "<="
  | .between => "between"
  | .oneOf => "in"
  | .noneOf => "notin"
  | .contains => "contains"

/-- The operator of a symbol, white space around it aside. -/
def ofSymbol? (s : String) : Option Operator :=
  all.find? (·.symbol == Text.trim s)

/-- What is said of a text that is no operator. -/
def unknownMessage (s : String) : String :=
  "Unknown operator: '" ++ Text.trim s ++ "'"

/-- The operators that only make sense for numbers. -/
def comparesNumbers : Operator → Bool
  | .greater | .less | .atLeast | .atMost | .between => true
  | _ => false

theorem mem_all (op : Operator) : op ∈ all := by
  cases op <;> decide

end Operator

end CreditScorecard
