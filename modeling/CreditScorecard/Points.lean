/-! # Points

Scores are integers of 64 bits with a sign. Adding two of them stops at the ends of the range.
-/

namespace CreditScorecard

/-- A score: an integer from `-2 ^ 63` up to `2 ^ 63 - 1`. -/
structure Points where
  value : Int
  least_le : -0x8000000000000000 ≤ value
  le_most : value ≤ 0x7FFFFFFFFFFFFFFF
deriving DecidableEq

namespace Points

/-- The integer as a score, if it is in range. -/
def ofInt? (k : Int) : Option Points :=
  if h : -0x8000000000000000 ≤ k ∧ k ≤ 0x7FFFFFFFFFFFFFFF then some ⟨k, h.1, h.2⟩ else none

/-- The score nearest to an integer. -/
def clamp (k : Int) : Points :=
  ⟨max (-0x8000000000000000) (min k 0x7FFFFFFFFFFFFFFF), by omega, by omega⟩

instance : Inhabited Points :=
  ⟨clamp 0⟩

/-- The sum of two scores, held at the ends of the range. -/
def add (a b : Points) : Points :=
  clamp (a.value + b.value)

/-- The lower of two scores. -/
def lower (a b : Points) : Points :=
  if a.value ≤ b.value then a else b

/-- A score in decimal digits, with a minus below zero. -/
def text (a : Points) : String :=
  if a.value < 0 then "-" ++ Nat.repr a.value.natAbs else Nat.repr a.value.natAbs

theorem ext_value {a b : Points} (h : a.value = b.value) : a = b := by
  cases a; cases b; simp_all

@[simp]
theorem value_clamp (k : Int) :
    (clamp k).value = max (-0x8000000000000000) (min k 0x7FFFFFFFFFFFFFFF) :=
  rfl

@[simp]
theorem clamp_value (a : Points) : clamp a.value = a := by
  apply ext_value
  have := a.least_le
  have := a.le_most
  rw [value_clamp]
  omega

theorem value_lower (a b : Points) : (lower a b).value = min a.value b.value := by
  unfold lower
  split <;> omega

theorem ofInt?_eq_some_iff {k : Int} {a : Points} : ofInt? k = some a ↔ a.value = k := by
  unfold ofInt?
  split
  · constructor
    · rintro ⟨⟩; rfl
    · rintro rfl; rfl
  · rename_i h
    constructor
    · exact fun h => nomatch h
    · rintro rfl
      exact absurd ⟨a.least_le, a.le_most⟩ h

end Points

end CreditScorecard
