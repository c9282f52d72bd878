import CreditScorecard.Scorecard.Validity

/-! # Editing a scorecard -/

namespace CreditScorecard

namespace Scorecard

def withDescription (card : Scorecard) (description : String) : Scorecard :=
  { card with description := some description }

/-- Adds a group at the end, without any check. -/
def addGroup (card : Scorecard) (group : Group) : Scorecard :=
  { card with groups := card.groups ++ [group] }

/-- Changes the first group of a list that belongs to a field. -/
def updateFirst (field : String) (change : Group → Group) : List Group → List Group
  | [] => []
  | group :: groups =>
    if group.field = field then change group :: groups
    else group :: updateFirst field change groups

/-- Adds a rule to the first group of a field; none where the scorecard has no such group. -/
def pushRule? (card : Scorecard) (field : String) (operator : Operator) (literal : String)
    (points : Points) : Option Scorecard :=
  if card.groups.any (·.field = field) then
    some { card with
      groups := updateFirst field (·.pushRule operator literal points) card.groups }
  else none

/-- Replaces all groups at once. The new groups are filled and validated first; where they have a
defect nothing is replaced. -/
def replaceGroups (card : Scorecard) (groups : List Group) : Except Defect Scorecard :=
  { card with groups := groups }.normalize

/-! ## Editing in place -/

/-- A change of the scorecard that is being edited. A change that fails leaves a scorecard too. -/
abbrev Change := ExceptT Defect (StateM Scorecard)

/-- What a change reports, and the scorecard that stands after it. -/
def Change.applyTo {α : Type} (change : Change α) (card : Scorecard) :
    Except Defect α × Scorecard :=
  (change.run.run card).run

/-- Fills the rules of the scorecard, then validates what stands. -/
def normalizeInPlace : Change Unit := do
  modify fillRules
  MonadExcept.ofExcept (← get).validate

/-- Replaces all groups in place. The new groups stand while they are filled and validated; where
they have a defect the former groups are put back. -/
def replaceInPlace (groups : List Group) : Change Unit := do
  let former := (← get).groups
  modify fun card => { card with groups := groups }
  tryCatch normalizeInPlace fun defect => do
    modify fun card => { card with groups := former }
    throw defect

end Scorecard

end CreditScorecard
