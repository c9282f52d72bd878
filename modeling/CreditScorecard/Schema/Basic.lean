import CreditScorecard.Json.Text

/-! # Checking the shape of JSON values

A schema is a pair of functions on JSON values: `violations` lists every fault with its place, and
`admits` only decides whether there is any. Schemas of objects and lists are put together from the
schemas of their parts.
-/

namespace CreditScorecard

/-- The types of JSON values that a schema can ask for. -/
inductive JsonType where
  | boolean
  | integer
  | number
  | text
  | list
  | object
deriving DecidableEq, Repr

namespace JsonType

def name : JsonType → String
  | .boolean => "boolean"
  | .integer => "integer"
  | .number => "number"
  | .text => "string"
  | .list => "array"
  | .object => "object"

/-- Whether a value has a type. A double without a fractional part is an integer too. -/
def has : JsonType → Json → Bool
  | .boolean, .boolean _ => true
  | .integer, .number n => n.isWhole
  | .number, .number _ => true
  | .text, .text _ => true
  | .list, .list _ => true
  | .object, .object _ => true
  | _, _ => false

end JsonType

/-- A step from a JSON value to one of its parts. -/
inductive Json.Step where
  | key (name : String)
  | index (i : Nat)
deriving DecidableEq, Repr

namespace Json

/-- The part of a value at the end of a path, if the path leads to one. -/
def part? : Json → List Step → Option Json
  | v, [] => some v
  | .object members, .key name :: path => (members.lookup name).bind (part? · path)
  | .list items, .index i :: path => (items[i]?).bind (part? · path)
  | _, _ :: _ => none

/-- A step as it is written in a JSON pointer. -/
def Step.text : Step → List Char
  | .key name =>
    '/' :: name.toList.flatMap fun c =>
      if c = '~' then ['~', '0'] else if c = '/' then ['~', '1'] else [c]
  | .index i => '/' :: Nat.toDigits 10 i

/-- The JSON pointer of a path; empty for the whole value. -/
def pointer (path : List Step) : String :=
  String.ofList (path.flatMap Step.text)

end Json

/-- How a value fails a schema. -/
inductive Fault where
  | wrongType (value : Json) (types : List JsonType)
  | tooShort (value : Json)
  | notAbove (value : Json) (bound : Int)
  | notListed (value : Json) (options : List String)
  | unexpected (names : List String)
  | missing (name : String)

def quoted (s : String) : String :=
  String.ofList (Json.quote s)

def Fault.message : Fault → String
  | .wrongType value [type] => value.compact ++ " is not of type \"" ++ type.name ++ "\""
  | .wrongType value types =>
    value.compact ++ " is not of types " ++ Text.join ", " (types.map (quoted ·.name))
  | .tooShort value => value.compact ++ " is shorter than 1 character"
  | .notAbove value bound =>
    value.compact ++ " is less than or equal to the minimum of " ++ Json.intText bound
  | .notListed value options =>
    value.compact ++ " is not one of " ++ (Json.list (options.map .text)).compact
  | .unexpected names =>
    "Additional properties are not allowed (" ++
      Text.join ", " (names.map fun name => "'" ++ name ++ "'") ++
      (if names.length = 1 then " was" else " were") ++ " unexpected)"
  | .missing name => quoted name ++ " is a required property"

/-- A fault and the path to the value that has it. -/
structure Violation where
  path : List Json.Step
  fault : Fault

namespace Violation

/-- A violation of a part, seen from the value that holds the part. -/
def within (step : Json.Step) (v : Violation) : Violation :=
  { v with path := step :: v.path }

def message (v : Violation) : String :=
  v.fault.message ++ " at " ++ Json.pointer v.path

end Violation

/-- A condition on JSON values. -/
structure Schema where
  violations : Json → List Violation
  admits : Json → Bool

namespace Schema

/-- The faults of a value itself, not of its parts. -/
def here (faults : List Fault) : List Violation :=
  faults.map (⟨[], ·⟩)

/-- Values of one of several types. -/
def ofTypes (types : List JsonType) : Schema where
  violations v := here (if types.any (·.has v) then [] else [.wrongType v types])
  admits v := types.any (·.has v)

/-- Any text. -/
def text : Schema :=
  ofTypes [.text]

/-- A text of at least one character. -/
def nonEmptyText : Schema where
  violations v := here <|
    match v with
    | .text s => if s.isEmpty then [.tooShort v] else []
    | _ => [.wrongType v [.text]]
  admits
    | .text s => !s.isEmpty
    | _ => false

def integer : Schema :=
  ofTypes [.integer]

/-- An integer above zero. Any number is compared with zero, an integer or not. -/
def positiveInteger : Schema where
  violations v := here <|
    (match v with
    | .number n => if n.isPositive then [] else [.notAbove v 0]
    | _ => []) ++ (if JsonType.integer.has v then [] else [.wrongType v [.integer]])
  admits
    | .number n => n.isPositive && n.isWhole
    | _ => false

/-- One of several texts. -/
def oneOf (options : List String) : Schema where
  violations v := here <|
    match v with
    | .text s => if options.contains s then [] else [.notListed v options]
    | _ => [.notListed v options]
  admits
    | .text s => options.contains s
    | _ => false

/-- The violations of items that begin at an index. -/
def itemViolations (item : Schema) (start : Nat) : List Json → List Violation
  | [] => []
  | v :: vs =>
    (item.violations v).map (·.within (.index start)) ++ itemViolations item (start + 1) vs

/-- A list whose items all meet a schema. -/
def listOf (item : Schema) : Schema where
  violations
    | .list items => itemViolations item 0 items
    | v => here [.wrongType v [.list]]
  admits
    | .list items => items.all item.admits
    | _ => false

/-- The violations of the known members of an object, member by member. -/
def memberViolations (known : List (String × Schema)) (members : List (String × Json)) :
    List Violation :=
  members.flatMap fun (key, value) =>
    match known.lookup key with
    | some schema => (schema.violations value).map (·.within (.key key))
    | none => []

def unexpectedNames (known : List (String × Schema)) (members : List (String × Json)) :
    List String :=
  (members.map (·.1)).filter fun key => (known.lookup key).isNone

def missingNames (required : List String) (members : List (String × Json)) : List String :=
  required.filter fun name => (members.lookup name).isNone

/-- An object that has only known members, each meeting its schema, and all required ones. -/
def objectOf (known : List (String × Schema)) (required : List String) : Schema where
  violations
    | .object members =>
      let unexpected := unexpectedNames known members
      memberViolations known members ++
        here (if unexpected.isEmpty then [] else [.unexpected unexpected]) ++
        here ((missingNames required members).map .missing)
    | v => here [.wrongType v [.object]]
  admits
    | .object members =>
      (members.all fun (key, value) =>
        match known.lookup key with
        | some schema => schema.admits value
        | none => false) &&
      required.all fun name => (members.lookup name).isSome
    | _ => false

/-- A schema is sound when its two functions agree. -/
def Sound (schema : Schema) : Prop :=
  ∀ v, schema.admits v = true ↔ schema.violations v = []

theorem sound_ofTypes (types : List JsonType) : (ofTypes types).Sound := by
  intro v
  simp only [ofTypes, here]
  split <;> simp_all

end Schema

end CreditScorecard
