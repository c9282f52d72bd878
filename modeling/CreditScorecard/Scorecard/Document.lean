import CreditScorecard.Json.Read
import CreditScorecard.Scorecard.Schema
import CreditScorecard.Scorecard.Validity
import CreditScorecard.Timestamp.Text

/-! # Scorecards as documents

`Scorecard.toJson` writes a scorecard, `Scorecard.ofJson` loads one in four stages: the shape of
the document is checked against the schema, its parts are read, rules without a field get that of
their group, and the result is validated. The first stage that fails decides the error.
-/

namespace CreditScorecard

/-- The literal of a rule whose value is a number: integers of 64 bits in digits, any other number
in the plain form of its double. -/
def Json.Number.literal : Json.Number → String
  | .integer k =>
    match Points.ofInt? k with
    | some a => a.text
    | none => (Scalar.number (.ofInt k)).display
  | .real x _ => (Scalar.number x).display

/-- Why a part of a well-shaped document cannot be read. -/
inductive PartError where
  | fractional (x : Binary64)
  | tooLarge (k : Int)
  | timestamp (error : TimestampError)
  | wrongShape
deriving DecidableEq

def PartError.message : PartError → String
  | .fractional x => "invalid type: floating point \x60" ++ x.jsonText ++ "\x60, expected i64"
  | .tooLarge k => "invalid value: integer \x60" ++ Json.intText k ++ "\x60, expected i64"
  | .timestamp error => error.message
  | .wrongShape => "unexpected value"

/-- Why a document is no scorecard. -/
inductive LoadError where
  | notJson
  | notYaml
  | misshapen (violations : List Violation)
  | unreadable (error : PartError)
  | defective (defect : Defect)

def LoadError.message : LoadError → String
  | .notJson => "Failed to parse JSON"
  | .notYaml => "Failed to parse YAML"
  | .misshapen violations =>
    "Scorecard does not match schema: " ++ Text.join "; " (violations.map (·.message))
  | .unreadable error => "Scorecard validation failed: Invalid scorecard: " ++ error.message
  | .defective defect => defect.message

namespace Json

/-- A reader of one part of a document. -/
abbrev Part (α : Type) := Json → Except PartError α

def asText : Part String
  | .text s => .ok s
  | _ => .error .wrongShape

def asPoints : Part Points
  | .number (.integer k) =>
    match Points.ofInt? k with
    | some a => .ok a
    | none => .error (.tooLarge k)
  | .number (.real x _) => .error (.fractional x)
  | _ => .error .wrongShape

def asTimestamp : Part Timestamp
  | .text s => (Timestamp.read s).mapError .timestamp
  | _ => .error .wrongShape

/-- The literal of a rule: a text as it is, a number or boolean in the form of a text. -/
def asLiteral : Part String
  | .text s => .ok s
  | .number n => .ok n.literal
  | .boolean b => .ok (boolText b)
  | _ => .error .wrongShape

def asOperator : Part Operator
  | .text s =>
    match Operator.ofSymbol? s with
    | some operator => .ok operator
    | none => .error .wrongShape
  | _ => .error .wrongShape

def asList {α : Type} (item : Part α) : Part (List α)
  | .list items => items.mapM item
  | _ => .error .wrongShape

/-- The value of a member that may be absent. -/
def member? {α : Type} (members : List (String × Json)) (key : String) (part : Part α) :
    Except PartError (Option α) :=
  match members.lookup key with
  | some value => (part value).map some
  | none => .ok none

/-- The value of a member that has to be present. -/
def member {α : Type} (members : List (String × Json)) (key : String) (part : Part α) :
    Except PartError α :=
  match members.lookup key with
  | some value => part value
  | none => .error .wrongShape

end Json

namespace Rule

def toJson (rule : Rule) : Json :=
  .object
    [("field", .text rule.field),
      ("operator", .text rule.operator.symbol),
      ("value", .text rule.literal),
      ("score", .ofPoints rule.points)]

/-- The text of a rule. -/
def jsonText (rule : Rule) : String :=
  rule.toJson.compact

/-- Reads a rule. Its members are taken in the order of their keys. -/
def ofPart : Json.Part Rule
  | .object members => do
    let field ← Json.member? members "field" Json.asText
    let operator ← Json.member members "operator" Json.asOperator
    let points ← Json.member members "score" Json.asPoints
    let literal ← Json.member members "value" Json.asLiteral
    pure ⟨field.getD "", operator, literal, points⟩
  | _ => .error .wrongShape

end Rule

namespace Group

def toJson (group : Group) : Json :=
  .object <|
    ("field", .text group.field) ::
      (group.description.map fun s => ("description", Json.text s)).toList ++
      [("rules", .list (group.rules.map Rule.toJson))]

def ofPart : Json.Part Group
  | .object members => do
    let description ← Json.member? members "description" Json.asText
    let field ← Json.member members "field" Json.asText
    let rules ← Json.member? members "rules" (Json.asList Rule.ofPart)
    pure ⟨field, description, rules.getD []⟩
  | _ => .error .wrongShape

end Group

namespace Scorecard

def toJson (card : Scorecard) : Json :=
  .object <|
    [("scoreCardId", .text card.id), ("name", .text card.name)] ++
      (card.description.map fun s => ("description", Json.text s)).toList ++
      [("maxScore", .ofPoints card.maxScore),
        ("fields", .list (card.groups.map Group.toJson))] ++
      (card.createdAt.map fun t => ("createdAt", Json.text t.text)).toList ++
      (card.updatedAt.map fun t => ("updatedAt", Json.text t.text)).toList

/-- The text of a scorecard. -/
def jsonText (card : Scorecard) : String :=
  card.toJson.compact

/-- Reads the parts of a scorecard, in the order of their keys. -/
def ofPart : Json.Part Scorecard
  | .object members => do
    let createdAt ← Json.member? members "createdAt" Json.asTimestamp
    let description ← Json.member? members "description" Json.asText
    let groups ← Json.member? members "fields" (Json.asList Group.ofPart)
    let maxScore ← Json.member members "maxScore" Json.asPoints
    let name ← Json.member members "name" Json.asText
    let id ← Json.member members "scoreCardId" Json.asText
    let updatedAt ← Json.member? members "updatedAt" Json.asTimestamp
    pure ⟨id, name, description, maxScore, groups.getD [], createdAt, updatedAt⟩
  | _ => .error .wrongShape

/-- Loads a scorecard from a document. -/
def ofJson (document : Json) : Except LoadError Scorecard := do
  let violations := Schema.scorecard.violations document
  unless violations.isEmpty do throw (.misshapen violations)
  let card ← (ofPart document).mapError .unreadable
  card.normalize.mapError .defective

/-- Loads a scorecard from JSON text. -/
def ofJsonText (text : String) : Except LoadError Scorecard :=
  match Json.read? text with
  | some document => ofJson document
  | none => .error .notJson

end Scorecard

end CreditScorecard
