import CreditScorecard.Rule
import CreditScorecard.Timestamp.Basic

/-! # Scorecards -/

namespace CreditScorecard

/-- The rules of one field, with an optional description of it. -/
structure Group where
  field : String
  description : Option String := none
  rules : List Rule := []
deriving DecidableEq

/-- A named set of rules grouped by field, with a ceiling on the score. -/
structure Scorecard where
  id : String
  name : String
  description : Option String := none
  maxScore : Points
  groups : List Group := []
  createdAt : Option Timestamp := none
  updatedAt : Option Timestamp := none
deriving DecidableEq

namespace Group

/-- Adds a rule on the field of the group. -/
def pushRule (group : Group) (operator : Operator) (literal : String) (points : Points) : Group :=
  { group with rules := group.rules ++ [⟨group.field, operator, literal, points⟩] }

def kind (group : Group) : Kind :=
  Kind.infer group.rules

/-- Gives the field of the group to the rules that name none. -/
def fillRules (group : Group) : Group :=
  { group with
    rules := group.rules.map fun rule =>
      if rule.field.isEmpty then { rule with field := group.field } else rule }

@[simp]
theorem field_fillRules (group : Group) : group.fillRules.field = group.field :=
  rfl

end Group

namespace Scorecard

/-- The first group of a field. -/
def group? (card : Scorecard) (field : String) : Option Group :=
  card.groups.find? (·.field == field)

/-- The kind of every group's field, in order. -/
def kinds (card : Scorecard) : List (String × Kind) :=
  card.groups.map fun group => (group.field, group.kind)

/-- All rules in order. -/
def rules (card : Scorecard) : List Rule :=
  card.groups.flatMap (·.rules)

def ruleCount (card : Scorecard) : Nat :=
  card.rules.length

end Scorecard

end CreditScorecard
