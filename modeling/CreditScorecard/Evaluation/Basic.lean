import CreditScorecard.Grade
import CreditScorecard.Inputs
import CreditScorecard.Matching
import CreditScorecard.Scorecard.Label

/-! # Evaluating a scorecard

Every rule is judged by itself against the applicant's text, read as the kind of its field. The
points of the rules that match are added up and held below the ceiling. Nothing here fails: a text
that cannot be read counts as missing, and a rule on a missing value is skipped.
-/

namespace CreditScorecard

/-- What became of one rule. -/
structure Outcome where
  field : String
  operator : Operator
  literal : String
  points : Points
  description : String
  matched : Bool
  actual : Option Scalar
  skipped : Bool
deriving DecidableEq

/-- The result of applying a scorecard to an applicant's inputs. -/
structure Evaluation where
  maxScore : Points
  totalScore : Points
  matchedRules : Nat
  grade : Grade
  documents : List Document
  outcomes : List Outcome
deriving DecidableEq

/-- What becomes of a rule under a label, given the value of its field. -/
def Rule.outcome (rule : Rule) (label : String) (actual : Option Scalar) : Outcome :=
  { field := rule.field
    operator := rule.operator
    literal := rule.literal
    points := rule.points
    description := label
    matched := actual.any (rule.operator.holds rule.literal)
    actual := actual
    skipped := actual.isNone }

/-! ## The kinds of fields -/

/-- Adds a rule to those of its field. -/
def gather (rule : Rule) : List (String × List Rule) → List (String × List Rule)
  | [] => [(rule.field, [rule])]
  | entry :: rest =>
    if entry.1 = rule.field then (entry.1, entry.2 ++ [rule]) :: rest
    else entry :: gather rule rest

/-- The kind of each field, inferred once, from every rule that names it. -/
def inferKinds (labelled : List (Rule × String)) : List (String × Kind) :=
  (labelled.foldl (fun fields entry => gather entry.1 fields) []).map fun fields =>
    (fields.1, Kind.infer fields.2)

/-! ## Judging the rules -/

/-- What the rules judged so far have come to. -/
structure Progress where
  outcomes : List Outcome := []
  unparsed : List String := []
  warnings : List (String × Kind) := []

namespace Progress

/-- Warns that the text of a field cannot be read, unless that has been said before. -/
def warn (progress : Progress) (field : String) (kind : Kind) : Progress :=
  if progress.unparsed.contains field then progress
  else
    { progress with
      unparsed := progress.unparsed ++ [field]
      warnings := progress.warnings ++ [(field, kind)] }

/-- Judges one more rule. -/
def judge (kinds : List (String × Kind)) (inputs : Inputs) (progress : Progress)
    (labelled : Rule × String) : Progress :=
  let field := labelled.1.field
  let kind := (kinds.lookup field).getD .text
  let raw := inputs.raw field
  let actual := Scalar.ofRaw? kind raw
  let warned := if actual.isNone && !Text.blank raw then progress.warn field kind else progress
  { warned with outcomes := warned.outcomes ++ [labelled.1.outcome labelled.2 actual] }

end Progress

namespace Scorecard

/-- All rules in order, each with the label of its group. -/
def labelledRules (card : Scorecard) : List (Rule × String) :=
  card.groups.flatMap fun group => group.rules.map fun rule => (rule, group.label)

/-- Judges all rules in order. -/
def judge (card : Scorecard) (inputs : Inputs) : Progress :=
  card.labelledRules.foldl (Progress.judge (inferKinds card.labelledRules) inputs) {}

/-- The fields whose text is not blank and still cannot be read, each once with its kind, in the
order of the rules. -/
def warnings (card : Scorecard) (inputs : Inputs) : List (String × Kind) :=
  (card.judge inputs).warnings

end Scorecard

namespace Evaluation

/-- The points of the rules that match, added in order. -/
def rawTotal (outcomes : List Outcome) : Points :=
  (outcomes.filter (·.matched)).foldl (fun total outcome => total.add outcome.points)
    (Points.clamp 0)

/-- The evaluation with these outcomes under a ceiling. -/
def ofOutcomes (maxScore : Points) (outcomes : List Outcome) : Evaluation :=
  let total := (rawTotal outcomes).lower maxScore
  let grade := Grade.ofScore total maxScore
  { maxScore := maxScore
    totalScore := total
    matchedRules := (outcomes.filter (·.matched)).length
    grade := grade
    documents := grade.documents
    outcomes := outcomes }

/-- The outcomes of the rules that match, in order. -/
def matched (evaluation : Evaluation) : List Outcome :=
  evaluation.outcomes.filter (·.matched)

/-- The fields with a skipped rule, each once, in order of first appearance. -/
def skippedFields (evaluation : Evaluation) : List String :=
  ((evaluation.outcomes.filter (·.skipped)).map (·.field)).eraseDups

/-- The total as a part of the ceiling; zero for a ceiling of zero. -/
def ratio (evaluation : Evaluation) : Binary64 :=
  if evaluation.maxScore.value = 0 then .zero false
  else (Binary64.ofInt evaluation.totalScore.value).div
    (Binary64.ofInt evaluation.maxScore.value)

end Evaluation

namespace Scorecard

/-- Applies a scorecard to inputs. -/
def evaluate (card : Scorecard) (inputs : Inputs) : Evaluation :=
  .ofOutcomes card.maxScore (card.judge inputs).outcomes

end Scorecard

end CreditScorecard
