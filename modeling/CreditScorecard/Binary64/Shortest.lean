import CreditScorecard.Binary64.Basic

/-! # The fewest digits that read back

`shortest tie n` is the decimal with the fewest digits among those that round to the magnitude
`n`, and of these the nearest to it. Grids of multiples of a power of ten are tried from coarse
to fine; on each only the two neighbours of the number matter.
-/

namespace CreditScorecard.Binary64

/-- Which of two equally near decimals is taken: the greater one, or the one with an even last
digit. -/
inductive Tie where
  | greater
  | even
deriving DecidableEq, Repr

/-- The quantities of the search for a positive magnitude, scaled to naturals: four times the
number and the bounds of the interval of numbers that round to it, in units of `10 ^ -1074`. -/
structure Interval where
  value : Nat
  low : Nat
  high : Nat
  closed : Bool

/-- The reals that round to a positive magnitude. The gap below a power of two is half as wide as
the gap above it, and the ends belong to the interval of an even significand. -/
def interval (n : Nat) : Interval :=
  let step := spacing n
  let below := if n = Nat.pow 2 n.log2 ∧ 1 < step then step else 2 * step
  let scale := Nat.pow 5 1074
  { value := 4 * n * scale
    low := (4 * n - below) * scale
    high := (4 * n + 2 * step) * scale
    closed := n / step % 2 == 0 }

def Interval.contains (i : Interval) (x : Nat) : Bool :=
  if i.closed then i.low ≤ x && x ≤ i.high else i.low < x && x < i.high

/-- The nearest point of the interval on the grid of multiples of `10 ^ g`, if it has any. -/
def Interval.onGrid (i : Interval) (tie : Tie) (g : Nat) : Option Nat :=
  let step := 4 * Nat.pow 10 g
  let lower := i.value / step
  let upper := lower + 1
  match i.contains (lower * step), i.contains (upper * step) with
  | false, false => none
  | true, false => some lower
  | false, true => some upper
  | true, true =>
    let rest := i.value % step
    if 2 * rest < step then some lower
    else if step < 2 * rest then some upper
    else match tie with
      | .greater => some upper
      | .even => some (if lower % 2 = 0 then lower else upper)

/-- The first grid, from `10 ^ g` down to one, that has a point in the interval; the number itself
lies on the last grid. -/
def Interval.search (i : Interval) (tie : Tie) : Nat → Nat × Nat
  | 0 => (i.value / 4, 0)
  | g + 1 =>
    match i.onGrid tie (g + 1) with
    | some digits => (digits, g + 1)
    | none => i.search tie g

/-- The shortest decimal in an interval. The search begins with a grid coarser than the number. -/
def Interval.shortest (i : Interval) (tie : Tie) : Decimal :=
  let found := i.search tie (i.value.log2 * 302 / 1000 + 2)
  ⟨found.1, found.2 - 1074⟩

/-- The shortest decimal that rounds to a magnitude. -/
def shortest (tie : Tie) (n : Nat) : Decimal :=
  if n = 0 then ⟨0, 0⟩ else (interval n).shortest tie

end CreditScorecard.Binary64
