import CreditScorecard.Binary64.Text
import CreditScorecard.Points

/-! # JSON values

The members of an object stand in a list. Objects that are read keep their members sorted by key,
one for each key; `put` maintains that order.
-/

namespace CreditScorecard

/-- A JSON number is an integer or a finite double. -/
inductive Json.Number where
  | integer (k : Int)
  | real (x : Binary64) (finite : x.isFinite = true)
deriving DecidableEq

inductive Json where
  | null
  | boolean (b : Bool)
  | number (n : Json.Number)
  | text (s : String)
  | list (items : List Json)
  | object (members : List (String × Json))

namespace Json

/-- The double nearest to a number. -/
def Number.toBinary64 : Number → Binary64
  | .integer k => .ofInt k
  | .real x _ => x

/-- Whether a number has no fractional part. -/
def Number.isWhole : Number → Bool
  | .integer _ => true
  | .real (.finite _ n _) _ => n % Binary64.unitsPerOne == 0
  | .real _ _ => false

def Number.isPositive : Number → Bool
  | .integer k => 0 < k
  | .real x _ => (Binary64.zero false).lt x

def ofInt (k : Int) : Json :=
  .number (.integer k)

def ofPoints (a : Points) : Json :=
  ofInt a.value

/-- A double as a JSON value. There is no JSON number for an infinity or NaN, so those are null. -/
def ofBinary64 (x : Binary64) : Json :=
  if h : x.isFinite = true then .number (.real x h) else .null

/-- An integer in decimal digits, with a minus below zero. -/
def intText (k : Int) : String :=
  if k < 0 then "-" ++ Nat.repr k.natAbs else Nat.repr k.natAbs

def Number.text : Number → String
  | .integer k => intText k
  | .real x _ => x.jsonText

/-- Adds a member to a sorted list of members. A member of the same key is replaced. -/
def put (key : String) (value : Json) : List (String × Json) → List (String × Json)
  | [] => [(key, value)]
  | (k, v) :: rest =>
    if key < k then (key, value) :: (k, v) :: rest
    else if key = k then (key, value) :: rest
    else (k, v) :: put key value rest

/-- The sorted members of a list in which the last of several values for a key counts. -/
def sortMembers (members : List (String × Json)) : List (String × Json) :=
  members.foldl (fun sorted (key, value) => put key value sorted) []

theorem lookup_put (key other : String) (value : Json) (members : List (String × Json)) :
    (put key value members).lookup other =
      if other = key then some value else members.lookup other := by
  induction members with
  | nil =>
    by_cases h : other = key
    · simp [put, h]
    · have : (other == key) = false := beq_false_of_ne h
      simp [put, List.lookup_cons, this, h]
  | cons member rest ih =>
    obtain ⟨k, v⟩ := member
    simp only [put]
    split
    · by_cases h : other = key
      · simp [h]
      · have : (other == key) = false := beq_false_of_ne h
        simp [List.lookup_cons, this, h]
    · split
      · rename_i h
        subst h
        by_cases h : other = key
        · simp [h]
        · have : (other == key) = false := beq_false_of_ne h
          simp [List.lookup_cons, this, h]
      · rename_i _ hk
        by_cases h : other = k
        · subst h
          simp [Ne.symm hk]
        · have : (other == k) = false := beq_false_of_ne h
          simp only [List.lookup_cons, this, ih]

end Json

end CreditScorecard
