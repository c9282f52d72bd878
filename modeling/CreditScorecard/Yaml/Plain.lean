import CreditScorecard.Binary64.Text
import CreditScorecard.Json.Basic
import CreditScorecard.Text.Hexadecimal

/-! # The values of plain scalars

A plain scalar is null, a boolean, an integer or a number if it is written like one, and text
otherwise. Integers are decimal, or have one of the marks `0x`, `0o` and `0b` before their digits.
-/

namespace CreditScorecard.Yaml

def nullWords : List String := ["null", "Null", "NULL", "~"]

def readBoolean? (text : String) : Option Bool :=
  if text ∈ ["true", "True", "TRUE"] then some true
  else if text ∈ ["false", "False", "FALSE"] then some false
  else none

/-- The natural number written by one or more digits of a base. -/
def natOfBase? (base : Nat) (digits : List Char) : Option Nat :=
  if digits.isEmpty then none
  else digits.foldlM
    (fun n c => ((Text.hexValue? c).filter (· < base)).map (base * n + ·)) 0

/-- The digits after the mark of a base, with the base. -/
def afterBaseMark : List Char → Option (Nat × List Char)
  | '0' :: 'x' :: digits => some (16, digits)
  | '0' :: 'o' :: digits => some (8, digits)
  | '0' :: 'b' :: digits => some (2, digits)
  | _ => none

/-- Whether a scalar has digits only, after a sign perhaps, and begins with a zero that does not
count. Such a scalar is text. -/
def hasLeadingZero (cs : List Char) : Bool :=
  match (Decimal.spanSign cs).2 with
  | '0' :: c :: digits => (c :: digits).all Char.isDigit
  | _ => false

/-- The integer that a scalar writes. -/
def readInteger? (cs : List Char) : Option Int :=
  let (negative, unsigned) := Decimal.spanSign cs
  match (afterBaseMark unsigned).bind fun (base, digits) => natOfBase? base digits with
  | some n => some (if negative then -(n : Int) else n)
  | none =>
    if hasLeadingZero cs then none
    else (natOfBase? 10 unsigned).map fun n => if negative then -(n : Int) else n

/-- The number that a scalar writes, if it is finite. An infinity or NaN is `some none`. -/
def readFloat? (cs : List Char) : Option (Option Binary64) :=
  let text := String.ofList cs
  if text ∈ [".inf", ".Inf", ".INF", "+.inf", "+.Inf", "+.INF", "-.inf", "-.Inf", "-.INF",
    ".nan", ".NaN", ".NAN"] then some none
  else
    let unsigned :=
      match cs with
      | '+' :: '+' :: _ | '+' :: '-' :: _ => none
      | _ => Binary64.read? cs
    match unsigned with
    | some x => if x.isFinite then some (some x) else none
    | none => none

/-- Integers outside 64 bits have no value, unless they are too large even for 128 bits. -/
inductive IntegerSize where
  | word
  | doubleWord
  | larger
deriving DecidableEq

def integerSize (k : Int) : IntegerSize :=
  if -0x8000000000000000 ≤ k ∧ k < 0x10000000000000000 then .word
  else if -0x80000000000000000000000000000000 ≤ k ∧ k < 0x100000000000000000000000000000000 then
    .doubleWord
  else .larger

/-- The value of an integer: none if the scalar is no integer of 128 bits, and `some none` if it
is one without a value. -/
def integerValue? (cs : List Char) : Option (Option Json) :=
  match readInteger? cs with
  | none => none
  | some k =>
    match integerSize k with
    | .word => some (some (.ofInt k))
    | .doubleWord => some none
    | .larger => none

def floatValue? (cs : List Char) : Option Json :=
  (readFloat? cs).map fun x? => (x?.map Json.ofBinary64).getD .null

/-- The value of a plain scalar without a tag. -/
def plainValue? (cs : List Char) : Option Json :=
  let text := String.ofList cs
  if cs.isEmpty ∨ text ∈ nullWords then some .null
  else match readBoolean? text with
    | some b => some (.boolean b)
    | none =>
      match integerValue? cs with
      | some value => value
      | none =>
        if hasLeadingZero cs then some (.text text)
        else some ((floatValue? cs).getD (.text text))

end CreditScorecard.Yaml
