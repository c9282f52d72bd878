import CreditScorecard.Operator
import CreditScorecard.Points
import CreditScorecard.Scalar

/-! # Rules and the kinds of fields

A rule tests one field of an applicant and awards points where the test holds. Nothing declares
whether a field holds numbers, booleans or text: its kind is read off the rules that name it.
-/

namespace CreditScorecard

/-- A test of one field, with the points for passing it. -/
structure Rule where
  field : String
  operator : Operator
  literal : String
  points : Points
deriving DecidableEq

/-- How the raw text of a field is read. -/
inductive Kind where
  | number
  | boolean
  | text
deriving DecidableEq, Repr

namespace Kind

def name : Kind → String
  | .number => "number"
  | .boolean => "boolean"
  | .text => "string"

def ofName? (name : String) : Option Kind :=
  [number, boolean, text].find? (·.name == name)

/-- The kind of a field with these rules: a number as soon as one rule compares numbers, else a
boolean as soon as one literal is a boolean, else text. -/
def infer (rules : List Rule) : Kind :=
  if rules.any (·.operator.comparesNumbers) then .number
  else if rules.any fun rule => (readBool? rule.literal).isSome then .boolean
  else .text

end Kind

/-- The value of raw text read as a kind. Blank text has no value, nor has text that cannot be
read. -/
def Scalar.ofRaw? (kind : Kind) (raw : String) : Option Scalar :=
  if Text.blank raw then none
  else match kind with
    | .number => (Binary64.readFinite? raw).map .number
    | .boolean => (readBool? raw).map .boolean
    | .text => some (.text (Text.trim raw))

@[simp]
theorem Kind.infer_nil : Kind.infer [] = .text :=
  rfl

theorem Scalar.ofRaw?_of_blank (kind : Kind) {raw : String} (h : Text.blank raw = true) :
    Scalar.ofRaw? kind raw = none := by
  simp [Scalar.ofRaw?, h]

end CreditScorecard
