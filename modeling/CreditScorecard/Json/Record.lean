import CreditScorecard.Json.Numeral

/-! # Records in JSON text

A record is written as an object, in any order of its members, or as a list of all its parts in
their own order. Unknown members are passed over whatever they hold; a known one must not be
repeated.
-/

namespace CreditScorecard.Json.Tree

/-- The members of an object with their keys decoded. -/
def decodeKeys? : List (List Glyph × Tree) → Option (List (String × Tree))
  | [] => some []
  | (key, value) :: members => do
    let k ← Glyph.text? key
    let kvs ← decodeKeys? members
    pure ((k, value) :: kvs)

/-- The parts of a record by name, each with its value if it has one. -/
def parts? (names : List String) : Tree → Option (List (String × Tree))
  | .object members => do
    let members ← decodeKeys? members
    let known := members.filter fun member => names.contains member.1
    if (known.map (·.1)).Nodup then some known else none
  | .list items => if items.length = names.length then some (names.zip items) else none
  | _ => none

def text? : Tree → Option String
  | .text glyphs => Glyph.text? glyphs
  | _ => none

def boolean? : Tree → Option Bool
  | .boolean b => some b
  | _ => none

def number? : Tree → Option Number
  | .number n => n.toNumber?
  | _ => none

def points? (tree : Tree) : Option Points :=
  match tree.number? with
  | some (.integer k) => Points.ofInt? k
  | _ => none

/-- A number of things, of 64 bits. -/
def count? (tree : Tree) : Option Nat :=
  match tree.number? with
  | some (.integer k) => if 0 ≤ k ∧ k < 0x10000000000000000 then some k.toNat else none
  | _ => none

def listOf? {α : Type} (item : Tree → Option α) : Tree → Option (List α)
  | .list items => items.mapM item
  | _ => none

/-- The name of a constant, which may also be written as an object of one member without value. -/
def constant? : Tree → Option String
  | .text glyphs => Glyph.text? glyphs
  | .object [(key, .null)] => Glyph.text? key
  | _ => none

/-- Reads a whole text. -/
def ofText? (text : String) : Option Tree :=
  read? text.utf8ByteSize text.toList

end CreditScorecard.Json.Tree
