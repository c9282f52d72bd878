import CreditScorecard.Scorecard.Document
import CreditScorecard.Yaml.Read

/-! # Scorecards in YAML -/

namespace CreditScorecard.Scorecard

/-- Loads a scorecard from YAML text. -/
def ofYamlText (text : String) : Except LoadError Scorecard :=
  match Yaml.read? text with
  | some document => ofJson document
  | none => .error .notYaml

end CreditScorecard.Scorecard
