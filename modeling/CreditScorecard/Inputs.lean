import CreditScorecard.Text.Blank

/-! # Applicant inputs

The raw text of an applicant's fields, as a form captures it. A field has at most one text.
-/

namespace CreditScorecard

/-- The texts of fields, one entry for a field. -/
structure Inputs where
  entries : List (String × String) := []
deriving DecidableEq, Repr

namespace Inputs

def empty : Inputs :=
  {}

/-- Replaces the text of a field in a list of entries, or adds it at the end. -/
def put (field text : String) : List (String × String) → List (String × String)
  | [] => [(field, text)]
  | entry :: rest =>
    if entry.1 = field then (field, text) :: rest else entry :: put field text rest

/-- Sets the text of a field. -/
def insert (inputs : Inputs) (field text : String) : Inputs :=
  ⟨put field text inputs.entries⟩

/-- The text of a field. -/
def get? (inputs : Inputs) (field : String) : Option String :=
  inputs.entries.lookup field

/-- The text of a field, empty where there is none. -/
def raw (inputs : Inputs) (field : String) : String :=
  (inputs.get? field).getD ""

def ofList (entries : List (String × String)) : Inputs :=
  entries.foldl (fun inputs entry => inputs.insert entry.1 entry.2) empty

@[simp]
theorem get?_empty (field : String) : empty.get? field = none :=
  rfl

theorem get?_insert (inputs : Inputs) (field text other : String) :
    (inputs.insert field text).get? other =
      if other = field then some text else inputs.get? other := by
  obtain ⟨entries⟩ := inputs
  simp only [insert, get?]
  induction entries with
  | nil =>
    by_cases h : other = field
    · simp [put, h]
    · have : (other == field) = false := beq_false_of_ne h
      simp [put, List.lookup_cons, this, h]
  | cons entry rest ih =>
    obtain ⟨key, value⟩ := entry
    by_cases hk : key = field
    · subst hk
      by_cases h : other = key
      · simp [put, h]
      · have : (other == key) = false := beq_false_of_ne h
        simp [put, List.lookup_cons, this, h]
    · by_cases h : other = key
      · subst h
        simp [put, hk]
      · have : (other == key) = false := beq_false_of_ne h
        simp only [put, if_neg hk, List.lookup_cons, this, ih]

end Inputs

/-- Why a text is no assignment of a field. -/
inductive InputsError where
  | noEquals (text : String)
  | noField (text : String)
  | notMapping
  | notScalar (field : String)
deriving DecidableEq, Repr

def InputsError.message : InputsError → String
  | .noEquals text => "Expected field=value, got '" ++ text ++ "'"
  | .noField text => "Missing field name in '" ++ text ++ "'"
  | .notMapping => "Inputs must be a mapping of field name to value"
  | .notScalar field => "Input '" ++ field ++ "' must be a scalar value"

namespace Inputs

/-- Reads `field=value`. The field is trimmed; the value is all that follows the first `=`. -/
def readAssignment (text : String) : Except InputsError (String × String) :=
  let before := text.toList.takeWhile (· != '=')
  match text.toList.dropWhile (· != '=') with
  | [] => .error (.noEquals text)
  | _ :: value =>
    let field := Text.trimChars before
    if field.isEmpty then .error (.noField text)
    else .ok (String.ofList field, String.ofList value)

/-- Overrides inputs by assignments, one after the other; the first malformed one is reported. -/
def merge (inputs : Inputs) : List String → Except InputsError Inputs
  | [] => .ok inputs
  | text :: texts => do
    let (field, value) ← readAssignment text
    merge (inputs.insert field value) texts

end Inputs

end CreditScorecard
