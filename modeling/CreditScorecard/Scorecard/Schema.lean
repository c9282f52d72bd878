import CreditScorecard.Operator
import CreditScorecard.Schema.Basic

/-! # The shape of a scorecard document -/

namespace CreditScorecard.Schema

def rule : Schema :=
  objectOf
    [("field", nonEmptyText),
      ("operator", oneOf (Operator.all.map (·.symbol))),
      ("value", ofTypes [.boolean, .number, .text]),
      ("score", integer)]
    ["operator", "value", "score"]

def group : Schema :=
  objectOf
    [("field", nonEmptyText),
      ("description", text),
      ("rules", listOf rule)]
    ["field"]

/-- Scorecard documents. -/
def scorecard : Schema :=
  objectOf
    [("scoreCardId", nonEmptyText),
      ("name", nonEmptyText),
      ("description", text),
      ("maxScore", positiveInteger),
      ("createdAt", text),
      ("updatedAt", text),
      ("fields", listOf group)]
    ["scoreCardId", "name", "maxScore", "fields"]

end CreditScorecard.Schema
