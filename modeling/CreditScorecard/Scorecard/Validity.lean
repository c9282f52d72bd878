import CreditScorecard.Scorecard.Basic

/-! # Valid scorecards

`Scorecard.validate` reports the first defect in the order id, name, ceiling, then group by group.
A scorecard without defects has distinct field names that are not blank, and each of its rules
names the field of its group.
-/

namespace CreditScorecard

/-- What makes a scorecard unusable. -/
inductive Defect where
  | missing (name : String)
  | ceilingNotPositive (maxScore : Points)
  | duplicateField (field : String)
  | misplacedRule (ruleField groupField : String)
deriving DecidableEq

def Defect.message : Defect → String
  | .missing name => "Missing required field: " ++ name
  | .ceilingNotPositive maxScore =>
    "Scorecard validation failed: maxScore must be positive, got " ++ maxScore.text
  | .duplicateField field => "Scorecard validation failed: Duplicate field: " ++ field
  | .misplacedRule ruleField groupField =>
    "Scorecard validation failed: Rule on '" ++ ruleField ++ "' is nested under field '" ++
      groupField ++ "'"

namespace Group

/-- The first defect of a group that stands at an index after groups of the given fields. -/
def defect? (group : Group) (index : Nat) (earlier : List String) : Option Defect :=
  if Text.blank group.field then
    some (.missing ("fields[" ++ Nat.repr index ++ "].field"))
  else if earlier.contains group.field then some (.duplicateField group.field)
  else (group.rules.find? (·.field != group.field)).map fun rule =>
    .misplacedRule rule.field group.field

/-- The first defect of a list of groups that continues another one. -/
def firstDefect? (earlier : List String) : List Group → Option Defect
  | [] => none
  | group :: groups =>
    match group.defect? earlier.length earlier with
    | some defect => some defect
    | none => firstDefect? (earlier ++ [group.field]) groups

end Group

namespace Scorecard

/-- The first defect of a scorecard. -/
def defect? (card : Scorecard) : Option Defect :=
  if Text.blank card.id then some (.missing "scoreCardId")
  else if Text.blank card.name then some (.missing "name")
  else if card.maxScore.value ≤ 0 then some (.ceilingNotPositive card.maxScore)
  else Group.firstDefect? [] card.groups

def validate (card : Scorecard) : Except Defect Unit :=
  match card.defect? with
  | some defect => .error defect
  | none => .ok ()

/-- Gives every rule that names no field the field of its group. -/
def fillRules (card : Scorecard) : Scorecard :=
  { card with groups := card.groups.map Group.fillRules }

/-- The scorecard with its rules filled, if that is valid. -/
def normalize (card : Scorecard) : Except Defect Scorecard := do
  card.fillRules.validate
  pure card.fillRules

theorem validate_eq_ok_iff {card : Scorecard} : card.validate = .ok () ↔ card.defect? = none := by
  unfold validate
  split <;> simp_all

end Scorecard

end CreditScorecard
