import CreditScorecard.Text.Blank

/-! # List literals -/

namespace CreditScorecard

/-- The items of a list literal: the pieces between commas, trimmed, without the empty ones. -/
def listItems (literal : String) : List String :=
  (((Text.splitAt ',' literal.toList).map Text.trimChars).filter (!·.isEmpty)).map String.ofList

end CreditScorecard
