import CreditScorecard.Yaml.Node
import CreditScorecard.Yaml.Plain

/-! # Reading YAML as JSON values

`Yaml.read?` reads a text of at most one document. Aliases are replaced by what they stand for;
they may be followed a hundred times for each part of the document, and at most 128 collections
may lie inside one another.
-/

namespace CreditScorecard.Yaml

/-- The value of a scalar by its tag. Quoted scalars without a tag are text. -/
def scalarValue? (tag : Option Tag) (plain : Bool) (cs : List Char) : Option Json :=
  let text := String.ofList cs
  match tag with
  | none => if plain then plainValue? cs else some (.text text)
  | some .boolean => (readBoolean? text).map .boolean
  | some .integer => (integerValue? cs).bind id
  | some .float => floatValue? cs
  | some .null => if text ∈ nullWords then some .null else none
  | some .own => none
  | some .garbled => if plain then plainValue? cs else some (.text text)
  | some .other => some (.text text)

/-- The aliases that may still be followed. -/
abbrev Expansion := StateT Nat Option

/-- The node that an alias stands for; any other node stands for itself. Where several nodes share
a number, the last one counts. -/
def target (anchored : List (Nat × Node)) : Node → Expansion Node
  | .alias anchor => do
    match ← get with
    | 0 => failure
    | jumps + 1 =>
      set jumps
      match anchored.reverse.lookup anchor with
      | some node => pure node
      | none => failure
  | node => pure node

/-- The key of an entry is the text of its scalar, whatever its tag. -/
def keyText (anchored : List (Nat × Node)) (node : Node) : Expansion String := do
  match ← target anchored node with
  | .scalar _ _ text => pure (String.ofList text)
  | _ => failure

/-- Whether a tag leaves a collection as it is. -/
def keepsCollection (properties : Properties) : Bool :=
  properties.tag != some .own

/-- The value of a node with room for so many collections inside one another. -/
def expand (anchored : List (Nat × Node)) : Nat → Node → Expansion Json
  | room, node => do
    match ← target anchored node with
    | .alias _ => failure
    | .scalar properties plain text => StateT.lift (scalarValue? properties.tag plain text)
    | .sequence properties items =>
      match room with
      | 0 => failure
      | room + 1 =>
        if keepsCollection properties then
          pure (.list (← items.mapM (expand anchored room)))
        else failure
    | .mapping properties entries =>
      match room with
      | 0 => failure
      | room + 1 =>
        if keepsCollection properties then do
          let members ← entries.mapM fun (key, value) => do
            let key ← keyText anchored key
            pure (key, ← expand anchored room value)
          pure (.object (Json.sortMembers members))
        else failure

/-- Reads a YAML text. A text without a document is null. -/
def read? (text : String) : Option Json := do
  let tokens ← tokens? text.toList
  match ← Node.ofTokens? tokens with
  | none => pure .null
  | some node =>
    let (value, _) ← (expand node.anchored 128 node).run (100 * node.size)
    pure value

end CreditScorecard.Yaml
