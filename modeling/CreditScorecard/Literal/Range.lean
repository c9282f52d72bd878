import CreditScorecard.Binary64.Basic
import CreditScorecard.Text.Blank

/-! # Range literals

A range is two unsigned decimals around a delimiter: a comma, the word `to`, a minus, or two or
more points, with white space anywhere between them. A point can belong to a bound or to the
delimiter, so some texts divide in several ways. `Range.readings` lists the ways, those first that
give most to the lower bound and then most to the delimiter, and the first one counts.
-/

namespace CreditScorecard

/-- The bounds of a range of numbers. -/
structure Range where
  low : Binary64
  high : Binary64
deriving DecidableEq

namespace Range

/-- The bounds that can stand at the start of a text, each with the text after it. The digits
before a point make a second, shorter reading. -/
def bounds (cs : List Char) : List (Decimal × List Char) :=
  let (whole, rest) := Decimal.spanDigits cs
  let shorter :=
    match rest with
    | '.' :: _ => if whole.isEmpty then [] else [(Decimal.ofDigits whole [] 0, rest)]
    | _ => []
  (Decimal.readPrefix? cs).toList ++ shorter

/-- The texts after a run of points of which at least two are taken, longest run first. -/
def afterPoints : List Char → List (List Char)
  | '.' :: '.' :: cs => afterPoints ('.' :: cs) ++ [cs]
  | _ => []

/-- The texts after a delimiter at the start of a text. -/
def afterDelimiter : List Char → List (List Char)
  | ',' :: cs => [cs]
  | '-' :: cs => [cs]
  | '.' :: cs => afterPoints ('.' :: cs)
  | t :: o :: cs => if t.toLower = 't' ∧ o.toLower = 'o' then [cs] else []
  | _ => []

/-- The ways to read a text as two bounds, in order of preference. -/
def readings (cs : List Char) : List (Decimal × Decimal) :=
  (bounds (Text.trimLeft cs)).flatMap fun (low, rest) =>
    (afterDelimiter (Text.trimLeft rest)).flatMap fun rest =>
      (bounds (Text.trimLeft rest)).filterMap fun (high, rest) =>
        if rest.all Text.isBlank then some (low, high) else none

/-- The range of a literal. Both bounds have to be finite. -/
def read? (literal : String) : Option Range :=
  match readings literal.toList with
  | [] => none
  | (low, high) :: _ =>
    let range : Range := ⟨.ofDecimal false low, .ofDecimal false high⟩
    if range.low.isFinite && range.high.isFinite then some range else none

/-- Whether a number lies between the bounds, the bounds included. -/
def contains (range : Range) (x : Binary64) : Bool :=
  range.low.le x && x.le range.high

end Range

end CreditScorecard
