import CreditScorecard.Json.Numeral

/-! # Reading JSON values

`Json.read?` reads a text as a value: keys and texts have to be free of lone surrogates, numbers
have to fit a double, and at most 127 lists and objects may lie inside one another. Of several
members with one key the last counts.
-/

namespace CreditScorecard.Json

mutual

/-- The value of a syntax tree, if all its parts have one. -/
def ofTree? : Tree → Option Json
  | .null => some .null
  | .boolean b => some (.boolean b)
  | .number n => n.toNumber?.map .number
  | .text glyphs => (Glyph.text? glyphs).map .text
  | .list items => (ofItems? items).map .list
  | .object members => (ofMembers? members).map fun members => .object (sortMembers members)

def ofItems? : List Tree → Option (List Json)
  | [] => some []
  | item :: items => do
    let v ← ofTree? item
    let vs ← ofItems? items
    pure (v :: vs)

def ofMembers? : List (List Glyph × Tree) → Option (List (String × Json))
  | [] => some []
  | (key, value) :: members => do
    let k ← Glyph.text? key
    let v ← ofTree? value
    let kvs ← ofMembers? members
    pure ((k, v) :: kvs)

end

/-- Reads a JSON text. -/
def read? (text : String) : Option Json :=
  (Tree.read? 127 text.toList).bind ofTree?

end CreditScorecard.Json
