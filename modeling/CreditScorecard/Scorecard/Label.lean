import CreditScorecard.Scorecard.Basic
import CreditScorecard.Text.Case

/-! # Labels of fields

A field without a description is shown by its own name, with its words set apart: `monthlyIncome`
becomes `Monthly Income`, and `employment_type` becomes `Employment type`.
-/

namespace CreditScorecard

namespace Label

/-- Puts a space between a small letter or digit and the capital after it, ASCII letters only. -/
def splitWords : List Char → List Char
  | a :: b :: cs =>
    if (a.isLower || a.isDigit) && b.isUpper then a :: ' ' :: splitWords (b :: cs)
    else a :: splitWords (b :: cs)
  | cs => cs

/-- The characters that stand between words. -/
def isSeparator (c : Char) : Bool :=
  c == '_' || Text.isBlank c

/-- The longest runs of characters that are not separators. -/
def words : List Char → List (List Char)
  | [] => []
  | c :: cs =>
    if isSeparator c then words cs
    else match cs with
      | [] => [[c]]
      | d :: _ =>
        if isSeparator d then [c] :: words cs
        else match words cs with
          | [] => [[c]]
          | word :: others => (c :: word) :: others

/-- Joins words by single spaces. -/
def unwords : List (List Char) → List Char
  | [] => []
  | [word] => word
  | word :: others => word ++ ' ' :: unwords others

/-- Turns the first character into its upper-case form. -/
def capitalize : List Char → List Char
  | [] => []
  | c :: cs => Text.upperChar c ++ cs

/-- The label of a field's name. -/
def humanize (field : String) : String :=
  String.ofList (capitalize (unwords (words (splitWords field.toList))))

end Label

/-- The description of a group, trimmed, or the label of its field's name where that is blank. -/
def Group.label (group : Group) : String :=
  match group.description with
  | some description =>
    if Text.blank description then Label.humanize group.field else Text.trim description
  | none => Label.humanize group.field

end CreditScorecard
