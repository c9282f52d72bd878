import CreditScorecard.Evaluation.Basic
import CreditScorecard.Json.Record
import CreditScorecard.Json.Text

/-! # Evaluations in JSON text -/

namespace CreditScorecard

namespace Scalar

/-- A value as JSON. Numbers are doubles even where they are whole. -/
def toJson : Scalar → Json
  | .number x => .ofBinary64 x
  | .boolean b => .boolean b
  | .text s => .text s

def ofTree? : Json.Tree → Option Scalar
  | .number n => n.toNumber?.map fun n => .number n.toBinary64
  | .boolean b => some (.boolean b)
  | .text glyphs => (Json.Glyph.text? glyphs).map .text
  | _ => none

end Scalar

namespace Outcome

def toJson (outcome : Outcome) : Json :=
  .object
    [("field", .text outcome.field),
      ("operator", .text outcome.operator.symbol),
      ("value", .text outcome.literal),
      ("score", .ofPoints outcome.points),
      ("description", .text outcome.description),
      ("matched", .boolean outcome.matched),
      ("actual", (outcome.actual.map Scalar.toJson).getD .null),
      ("skippedBecauseMissingInput", .boolean outcome.skipped)]

def ofTree? (tree : Json.Tree) : Option Outcome := do
  let parts ← tree.parts? ["field", "operator", "value", "score", "description", "matched",
    "actual", "skippedBecauseMissingInput"]
  let field ← (← parts.lookup "field").text?
  let operator ← Operator.ofSymbol? (← (← parts.lookup "operator").text?)
  let literal ← (← parts.lookup "value").text?
  let points ← (← parts.lookup "score").points?
  let description ← (← parts.lookup "description").text?
  let matched ← (← parts.lookup "matched").boolean?
  let actual ← (match parts.lookup "actual" with
    | none | some .null => some none
    | some tree => (Scalar.ofTree? tree).map some)
  let skipped ← (← parts.lookup "skippedBecauseMissingInput").boolean?
  pure ⟨field, operator, literal, points, description, matched, actual, skipped⟩

end Outcome

namespace Evaluation

def toJson (evaluation : Evaluation) : Json :=
  .object
    [("maxScore", .ofPoints evaluation.maxScore),
      ("totalScore", .ofPoints evaluation.totalScore),
      ("matchedRules", .ofInt evaluation.matchedRules),
      ("riskGrade", .text evaluation.grade.name),
      ("minDocs", .list (evaluation.documents.map fun document => .text document.code)),
      ("breakdown", .list (evaluation.outcomes.map Outcome.toJson))]

/-- The text of an evaluation. -/
def jsonText (evaluation : Evaluation) : String :=
  evaluation.toJson.compact

def ofTree? (tree : Json.Tree) : Option Evaluation := do
  let parts ← tree.parts? ["maxScore", "totalScore", "matchedRules", "riskGrade", "minDocs",
    "breakdown"]
  let maxScore ← (← parts.lookup "maxScore").points?
  let totalScore ← (← parts.lookup "totalScore").points?
  let matchedRules ← (← parts.lookup "matchedRules").count?
  let grade ← Grade.ofName? (← (← parts.lookup "riskGrade").constant?)
  let documents ← (← parts.lookup "minDocs").listOf? fun tree =>
    tree.constant?.bind Document.ofCode?
  let outcomes ← (← parts.lookup "breakdown").listOf? Outcome.ofTree?
  pure ⟨maxScore, totalScore, matchedRules, grade, documents, outcomes⟩

/-- Reads the text of an evaluation. -/
def ofJsonText? (text : String) : Option Evaluation :=
  (Json.Tree.ofText? text).bind ofTree?

end Evaluation

end CreditScorecard
