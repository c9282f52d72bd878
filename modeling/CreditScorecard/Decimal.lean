/-! # Decimal notation

A decimal is a natural number of digits and a power of ten. `Decimal.readPrefix?` reads the
notation `12`, `12.`, `12.5` or `.5`, with an optional exponent `e-3`, at the start of a text.
-/

namespace CreditScorecard

/-- The number `digits · 10 ^ exponent`. -/
structure Decimal where
  digits : Nat
  exponent : Int
deriving DecidableEq, Repr

namespace Decimal

/-- The number written by the digits before a point and those after it, times a power of ten. -/
def ofDigits (whole fraction : List Char) (exponent : Int) : Decimal :=
  ⟨Nat.ofDigitChars 10 (whole ++ fraction) 0, exponent - fraction.length⟩

/-- The digits at the start of a text, and the text after them. -/
def spanDigits (cs : List Char) : List Char × List Char :=
  (cs.takeWhile Char.isDigit, cs.dropWhile Char.isDigit)

/-- A sign at the start of a text: whether it is a minus, and the text after it. -/
def spanSign : List Char → Bool × List Char
  | '-' :: cs => (true, cs)
  | '+' :: cs => (false, cs)
  | cs => (false, cs)

/-- An exponent at the start of a text, with the text after it. Where there is none, or its
digits are missing, the exponent is zero and nothing is read. -/
def spanExponent : List Char → Int × List Char
  | [] => (0, [])
  | e :: cs =>
    if e = 'e' ∨ e = 'E' then
      let (negative, unsigned) := spanSign cs
      let (digits, rest) := spanDigits unsigned
      if digits.isEmpty then (0, e :: cs)
      else
        let size : Int := Nat.ofDigitChars 10 digits 0
        (if negative then -size else size, rest)
    else (0, e :: cs)

/-- Reads the longest unsigned decimal at the start of a text. -/
def readPrefix? (cs : List Char) : Option (Decimal × List Char) :=
  let (whole, rest) := spanDigits cs
  let (fraction, rest') :=
    match rest with
    | '.' :: more => spanDigits more
    | _ => ([], rest)
  if whole.isEmpty && fraction.isEmpty then none
  else
    let (exponent, rest'') := spanExponent rest'
    some (ofDigits whole fraction exponent, rest'')

/-- Reads a text that is one unsigned decimal from end to end. -/
def read? (cs : List Char) : Option Decimal :=
  match readPrefix? cs with
  | some (d, []) => some d
  | _ => none

/-- Writes a decimal without an exponent, and without a point where it is whole. -/
def positional (d : Decimal) : List Char :=
  let digits := Nat.toDigits 10 d.digits
  match d.exponent with
  | .ofNat zeros => digits ++ List.replicate zeros '0'
  | .negSucc places =>
    let places := places + 1
    if places < digits.length then
      digits.take (digits.length - places) ++ '.' :: digits.drop (digits.length - places)
    else '0' :: '.' :: List.replicate (places - digits.length) '0' ++ digits

end Decimal

end CreditScorecard
