import CreditScorecard.Evaluation.Stored

/-! # Reports

An evaluation is reported as text, a line for each rule, or as JSON together with the moment it
was made. The fields of a scorecard are listed with their labels and kinds.
-/

namespace CreditScorecard.Report

/-- A text filled with spaces at the end up to a width in characters. -/
def padRight (width : Nat) (s : String) : String :=
  s ++ String.ofList (List.replicate (width - s.length) ' ')

/-- A text filled with spaces at the start up to a width in characters. -/
def padLeft (width : Nat) (s : String) : String :=
  String.ofList (List.replicate (width - s.length) ' ') ++ s

/-- Points with a sign, even if they are positive or zero. -/
def signed (a : Points) : String :=
  if a.value < 0 then a.text else "+" ++ a.text

/-- The line of one rule. Labels are filled up to a common width. -/
def outcomeLine (width : Nat) (outcome : Outcome) : String :=
  let mark := if outcome.matched then "x" else " "
  let detail :=
    match outcome.actual with
    | some actual => "actual " ++ actual.display
    | none => "skipped (missing input)"
  "  [" ++ mark ++ "] " ++ padRight width outcome.description ++ "  " ++
    padRight 24 (outcome.operator.symbol ++ " " ++ outcome.literal) ++ " " ++
    padLeft 5 (signed outcome.points) ++ "  " ++ detail ++ "\n"

/-- The width of the longest label. -/
def labelWidth (outcomes : List Outcome) : Nat :=
  outcomes.foldl (fun width outcome => max width outcome.description.length) 0

/-- The report of an evaluation as text. -/
def evaluation (card : Scorecard) (result : Evaluation) : String :=
  let width := labelWidth result.outcomes
  let skipped := result.skippedFields
  card.name ++ " (" ++ card.id ++ ")\n" ++
    "Score: " ++ result.totalScore.text ++ " / " ++ result.maxScore.text ++
    "   Risk grade: " ++ result.grade.name ++
    "   Matched rules: " ++ Nat.repr result.matchedRules ++ "\n" ++
    "Required documents: " ++ Text.join ", " (result.documents.map (·.code)) ++ "\n" ++
    "\n" ++
    String.join (result.outcomes.map (outcomeLine width)) ++
    (if skipped.isEmpty then ""
     else "\nMissing input: " ++ Text.join ", " skipped ++ "\n")

/-- The line of one group: field, label, kind and number of rules. -/
def groupLine (group : Group) : String :=
  "  " ++ padRight 20 group.field ++ " " ++ padRight 28 group.label ++ " " ++
    padRight 8 group.kind.name ++ " " ++ Nat.repr group.rules.length ++ " rule(s)\n"

/-- The list of the fields of a scorecard as text. -/
def fields (card : Scorecard) : String :=
  card.name ++ " (" ++ card.id ++ "), max score " ++ card.maxScore.text ++ "\n" ++
    String.join (card.groups.map groupLine)

/-- The report of an evaluation as JSON, with the moment it was made. -/
def evaluationJson (moment : String) (card : Scorecard) (result : Evaluation) : Json :=
  .object
    [("scoreCardId", .text card.id),
      ("name", .text card.name),
      ("evaluatedAt", .text moment),
      ("result", result.toJson)]

/-- The list of the fields of a scorecard as JSON. -/
def fieldsJson (card : Scorecard) : Json :=
  .list <| card.groups.map fun group =>
    .object
      [("field", .text group.field),
        ("description", .text group.label),
        ("kind", .text group.kind.name),
        ("rules", .ofInt group.rules.length)]

end CreditScorecard.Report
