import CreditScorecard.Inputs
import CreditScorecard.Json.Basic
import CreditScorecard.Scalar

/-! # Inputs as documents -/

namespace CreditScorecard.Inputs

/-- The raw text of a scalar: what an applicant would have typed. Null is blank. -/
def rawOfJson? : Json → Option String
  | .text s => some s
  | .number n => some n.text
  | .boolean b => some (boolText b)
  | .null => some ""
  | .list _ | .object _ => none

/-- Adds the members of an object to inputs; the first one without a raw text is reported. -/
def addMembers (inputs : Inputs) : List (String × Json) → Except InputsError Inputs
  | [] => .ok inputs
  | (field, value) :: members =>
    match rawOfJson? value with
    | some raw => addMembers (inputs.insert field raw) members
    | none => .error (.notScalar field)

/-- Reads inputs from a mapping of fields to scalars. -/
def ofJson : Json → Except InputsError Inputs
  | .object members => addMembers empty members
  | _ => .error .notMapping

end CreditScorecard.Inputs
