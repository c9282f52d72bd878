import CreditScorecard.Json.Record
import CreditScorecard.Scorecard.Document

/-! # Rules in JSON text -/

namespace CreditScorecard.Rule

/-- The literal of a rule in a record. -/
def literalOfTree? : Json.Tree → Option String
  | .text glyphs => Json.Glyph.text? glyphs
  | .boolean b => some (boolText b)
  | .number n => n.toNumber?.map (·.literal)
  | _ => none

/-- Reads a rule from the record of its field, operator, value and score. The field may be left
out, and is then empty. -/
def ofTree? (tree : Json.Tree) : Option Rule := do
  let parts ← tree.parts? ["field", "operator", "value", "score"]
  let field ← (match parts.lookup "field" with
    | some field => field.text?
    | none => some "")
  let symbol ← (← parts.lookup "operator").text?
  let operator ← Operator.ofSymbol? symbol
  let literal ← literalOfTree? (← parts.lookup "value")
  let points ← (← parts.lookup "score").points?
  pure ⟨field, operator, literal, points⟩

/-- Reads the text of a rule. -/
def ofJsonText? (text : String) : Option Rule :=
  (Json.Tree.ofText? text).bind ofTree?

end CreditScorecard.Rule
