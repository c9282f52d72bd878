import CreditScorecard.Binary64.Shortest
import CreditScorecard.Text.Blank

/-! # Numbers as text

`read?` accepts an optionally signed decimal, and the names of the infinities and of NaN. Two
written forms share the shortest digits: `display` never uses an exponent and writes whole numbers
without a point, `jsonText` keeps one decimal place and uses an exponent outside `1e-5 … 1e16`.
-/

namespace CreditScorecard.Binary64

/-- Reads a number, rounded to nearest. -/
def read? (cs : List Char) : Option Binary64 :=
  let (negative, unsigned) := Decimal.spanSign cs
  match Decimal.read? unsigned with
  | some d => some (ofDecimal negative d)
  | none =>
    let name := String.ofList (unsigned.map Char.toLower)
    if name = "inf" ∨ name = "infinity" then some (.infinite negative)
    else if name = "nan" then some .nan
    else none

/-- Reads a finite number, white space around it aside. -/
def readFinite? (s : String) : Option Binary64 :=
  (read? (Text.trimChars s.toList)).filter isFinite

def signText (negative : Bool) : List Char :=
  if negative then ['-'] else []

/-- The plain form: shortest digits, no exponent, no point in a whole number. Of two equally near
decimals it writes the greater. -/
def display : Binary64 → String
  | .nan => "NaN"
  | .infinite negative => if negative then "-inf" else "inf"
  | .finite negative n _ =>
    String.ofList (signText negative ++ (shortest .greater n).positional)

/-- A decimal with a point: at least one place in positional notation, or a sign in the exponent
where the first digit stands outside `10 ^ -5 … 10 ^ 15`. -/
def withPoint (d : Decimal) : List Char :=
  let digits := Nat.toDigits 10 d.digits
  let point := digits.length + d.exponent
  if -5 < point ∧ point ≤ 16 then
    d.positional ++ (if 0 ≤ d.exponent then ['.', '0'] else [])
  else
    let (first, others) := (digits.take 1, digits.drop 1)
    let power := point - 1
    first ++ (if others.isEmpty then [] else '.' :: others) ++
      ['e', if power < 0 then '-' else '+'] ++ Nat.toDigits 10 power.natAbs

/-- The form of a number in JSON text. Of two equally near decimals it writes the even one; a
number that is not finite has no form and is written `null`. -/
def jsonText : Binary64 → String
  | .finite negative n _ =>
    String.ofList (signText negative ++ withPoint (shortest .even n))
  | _ => "null"

end CreditScorecard.Binary64
