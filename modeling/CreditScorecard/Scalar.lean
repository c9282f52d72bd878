import CreditScorecard.Binary64.Text
import CreditScorecard.Text.Case

/-! # Scalar values -/

namespace CreditScorecard

/-- A value of an applicant's field. -/
inductive Scalar where
  | number (x : Binary64)
  | boolean (b : Bool)
  | text (s : String)
deriving DecidableEq

/-- Reads `true` or `false` in any case, white space around it aside. -/
def readBool? (s : String) : Option Bool :=
  let word := Text.lowerAscii (Text.trim s)
  if word = "true" then some true
  else if word = "false" then some false
  else none

def boolText (b : Bool) : String :=
  if b then "true" else "false"

namespace Scalar

def number? : Scalar → Option Binary64
  | .number x => some x
  | _ => none

def boolean? : Scalar → Option Bool
  | .boolean b => some b
  | _ => none

/-- The plain text of a value. Both zeros are written alike. -/
def display : Scalar → String
  | .number x => if x.numEq (.zero false) then "0" else x.display
  | .boolean b => boolText b
  | .text s => s

end Scalar

end CreditScorecard
