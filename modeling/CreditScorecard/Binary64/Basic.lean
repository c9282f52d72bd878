import CreditScorecard.Decimal

/-! # Double-precision numbers

A finite number of the binary64 format is a sign and a magnitude, counted in units of the least
positive number `2 ^ -1074`. The magnitudes of the format are the naturals below `2 ^ 2098` that
have at most 53 significant bits. Every operation computes its exact value as a quotient of
naturals and rounds it once, to the nearest number, ties to the even one.
-/

namespace CreditScorecard

namespace Binary64

/-- The distance between neighbouring magnitudes at the size of `n`. -/
def spacing (n : Nat) : Nat :=
  Nat.pow 2 (n.log2 - 52)

theorem spacing_pos (n : Nat) : 0 < spacing n :=
  Nat.two_pow_pos _

/-- The bits of the largest magnitude. -/
def magnitudeBits : Nat :=
  2098

/-- The first magnitude that is too large for the format. -/
def magnitudeBound : Nat :=
  Nat.pow 2 magnitudeBits

/-- The magnitudes of the format, in units of `2 ^ -1074`. -/
def Representable (n : Nat) : Prop :=
  n < magnitudeBound ∧ spacing n ∣ n

instance (n : Nat) : Decidable (Representable n) :=
  inferInstanceAs (Decidable (_ ∧ _))

theorem magnitudeBound_pos : 0 < magnitudeBound := by
  unfold magnitudeBound
  generalize magnitudeBits = n
  exact Nat.two_pow_pos n

theorem representable_zero : Representable 0 :=
  ⟨magnitudeBound_pos, Nat.dvd_zero _⟩

/-- The units in one. -/
def unitsPerOne : Nat :=
  Nat.pow 2 1074

end Binary64

/-- A number of the binary64 format. -/
inductive Binary64 where
  | nan
  | infinite (negative : Bool)
  | finite (negative : Bool) (magnitude : Nat) (representable : Binary64.Representable magnitude)
deriving DecidableEq

namespace Binary64

def zero (negative : Bool) : Binary64 :=
  .finite negative 0 representable_zero

instance : Inhabited Binary64 :=
  ⟨zero false⟩

def isFinite : Binary64 → Bool
  | .finite .. => true
  | _ => false

/-- The number of a magnitude; a magnitude outside the format is infinite. -/
def ofMagnitude (negative : Bool) (n : Nat) : Binary64 :=
  if h : Representable n then .finite negative n h else .infinite negative

/-- The natural nearest to a quotient, the even one of two that are equally near. -/
def roundDiv (num den : Nat) : Nat :=
  let quotient := num / den
  let rest := num % den
  if 2 * rest < den then quotient
  else if den < 2 * rest then quotient + 1
  else if quotient % 2 = 0 then quotient else quotient + 1

/-- The magnitude of 53 significant bits nearest to a quotient of units, of any size. -/
def nearestMagnitude (num den : Nat) : Nat :=
  let step := spacing (num / den)
  roundDiv num (den * step) * step

/-- The number nearest to a quotient of units. -/
def ofUnits (negative : Bool) (num den : Nat) : Binary64 :=
  ofMagnitude negative (nearestMagnitude num den)

/-- The number nearest to an integer. -/
def ofInt (k : Int) : Binary64 :=
  ofUnits (k < 0) (k.natAbs * unitsPerOne) 1

/-- The number nearest to a decimal. The first and last branches only spare the work on a power
of ten that is too large or too small to matter. -/
def ofDecimal (negative : Bool) (d : Decimal) : Binary64 :=
  if d.digits = 0 then zero negative
  else match d.exponent with
    | .ofNat e =>
      if 400 < e then .infinite negative
      else ofUnits negative (d.digits * Nat.pow 10 e * unitsPerOne) 1
    | .negSucc e =>
      if d.digits.log2 + 1081 < 3 * (e + 1) then zero negative
      else ofUnits negative (d.digits * unitsPerOne) (Nat.pow 10 (e + 1))

/-- The place of a number in the numerical order, in units; the infinities lie just outside the
finite numbers, both zeros at zero, and a NaN has no place. -/
def order? : Binary64 → Option Int
  | .nan => none
  | .infinite negative => some (if negative then -magnitudeBound else magnitudeBound)
  | .finite negative magnitude _ => some (if negative then -magnitude else magnitude)

/-- Compares two numbers by their places; a comparison with a NaN fails. -/
def compareBy (test : Int → Int → Bool) (x y : Binary64) : Bool :=
  match x.order?, y.order? with
  | some a, some b => test a b
  | _, _ => false

/-- Numerical equality: the zeros are equal, and a NaN differs from itself. -/
def numEq : Binary64 → Binary64 → Bool :=
  compareBy (· == ·)

def lt : Binary64 → Binary64 → Bool :=
  compareBy (· < ·)

def le : Binary64 → Binary64 → Bool :=
  compareBy (· ≤ ·)

def isNegative : Binary64 → Bool
  | .nan => false
  | .infinite negative => negative
  | .finite negative _ _ => negative

def mul (x y : Binary64) : Binary64 :=
  let negative := x.isNegative != y.isNegative
  match x, y with
  | .nan, _ | _, .nan => .nan
  | .infinite _, .infinite _ => .infinite negative
  | .infinite _, .finite _ n _ | .finite _ n _, .infinite _ =>
    if n = 0 then .nan else .infinite negative
  | .finite _ m _, .finite _ n _ => ofUnits negative (m * n) unitsPerOne

def div (x y : Binary64) : Binary64 :=
  let negative := x.isNegative != y.isNegative
  match x, y with
  | .nan, _ | _, .nan => .nan
  | .infinite _, .infinite _ => .nan
  | .infinite _, .finite .. => .infinite negative
  | .finite .., .infinite _ => zero negative
  | .finite _ m _, .finite _ n _ =>
    if n = 0 then (if m = 0 then .nan else .infinite negative)
    else ofUnits negative (m * unitsPerOne) n

@[simp]
theorem order?_zero (negative : Bool) : (zero negative).order? = some 0 := by
  cases negative <;> rfl

theorem numEq_iff {x y : Binary64} :
    numEq x y = true ↔ ∃ a, x.order? = some a ∧ y.order? = some a := by
  unfold numEq compareBy
  constructor
  · intro h
    split at h
    · rename_i a b ha hb
      exact ⟨a, ha, by rw [hb, eq_of_beq h]⟩
    · exact absurd h (by decide)
  · rintro ⟨a, ha, hb⟩
    rw [ha, hb]
    exact beq_self_eq_true a

end Binary64

end CreditScorecard
