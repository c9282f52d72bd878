import CreditScorecard.Json.Basic
import CreditScorecard.Json.Tree

/-! # The value of a JSON number

Integers of 64 bits are read exactly. Any other number is read fast rather than exactly: its first
digits, as many as fit into 64 bits, make a double, which is then multiplied or divided by powers
of ten, rounding at every step.
-/

namespace CreditScorecard.Json.Numeral

/-- The digits of a number that are taken up so far, and the power of ten they stand for. -/
structure Significand where
  value : Nat
  exponent : Int
deriving DecidableEq, Repr

/-- Whether one more digit fits into 64 bits. -/
def Significand.fits (s : Significand) (c : Char) : Bool :=
  s.value * 10 + (c.toNat - '0'.toNat) < 0x10000000000000000

/-- Takes up a digit and gives it a place. -/
def Significand.push (s : Significand) (c : Char) (place : Int) : Significand :=
  ⟨s.value * 10 + (c.toNat - '0'.toNat), s.exponent + place⟩

/-- Takes up the digits before the point. From the first one that does not fit, each digit only
raises the power of ten. -/
def takeWhole (s : Significand) : List Char → Significand
  | [] => s
  | c :: cs =>
    if s.fits c then takeWhole (s.push c 0) cs
    else ⟨s.value, s.exponent + (cs.length + 1)⟩

/-- Takes up the digits after the point. From the first one that does not fit, all are dropped. -/
def takeFraction (s : Significand) : List Char → Significand
  | [] => s
  | c :: cs => if s.fits c then takeFraction (s.push c (-1)) cs else s

def powerOfTen (e : Nat) : Binary64 :=
  .ofDecimal false ⟨1, e⟩

/-- Divides by a power of ten, in steps of at most `1e308`, until nothing is left. -/
def divideOut (x : Binary64) (e : Nat) : Nat → Binary64
  | 0 => x
  | steps + 1 =>
    if e ≤ 308 then x.div (powerOfTen e)
    else if x.numEq (.zero false) then x
    else divideOut (x.div (powerOfTen 308)) (e - 308) steps

/-- The magnitude of a significand: none where it is too large for a double. -/
def scale? (s : Significand) : Option Binary64 :=
  let x := Binary64.ofInt s.value
  match s.exponent with
  | .ofNat e =>
    if e ≤ 308 then some (x.mul (powerOfTen e))
    else if s.value = 0 then some x
    else none
  | .negSucc e => some (divideOut x (e + 1) ((e + 1) / 308 + 1))

def isInteger (n : Numeral) : Bool :=
  n.fraction.isEmpty && n.exponent.isNone

/-- A magnitude with a sign as a number, if it is finite. -/
def real? (negative : Bool) : Binary64 → Option Number
  | .finite _ n h => some (.real (.finite negative n h) rfl)
  | _ => none

/-- The value of a number that is no integer of 64 bits. An exponent of more than 31 bits makes
the number too large, or zero. -/
def readReal? (n : Numeral) : Option Number :=
  let whole := takeWhole ⟨0, 0⟩ n.whole
  let s := takeFraction whole n.fraction
  match n.exponent with
  | none => (scale? s).bind (real? n.negative)
  | some (negative, digits) =>
    let e := Nat.ofDigitChars 10 digits 0
    if e < 0x80000000 then
      let exponent := s.exponent + (if negative then -(e : Int) else e)
      (scale? ⟨s.value, max (-0x80000000) (min exponent 0x7FFFFFFF)⟩).bind (real? n.negative)
    else if s.value = 0 ∨ negative then some (.real (.zero n.negative) rfl)
    else none

/-- The value of a number: none where it is too large. A negative zero is no integer. -/
def toNumber? (n : Numeral) : Option Number :=
  let size := Nat.ofDigitChars 10 n.whole 0
  if n.isInteger ∧ ¬n.negative ∧ size < 0x10000000000000000 then some (.integer size)
  else if n.isInteger ∧ n.negative ∧ 0 < size ∧ size ≤ 0x8000000000000000 then
    some (.integer (-size))
  else n.readReal?

end CreditScorecard.Json.Numeral
