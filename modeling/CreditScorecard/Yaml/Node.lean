import CreditScorecard.Yaml.Token

/-! # The nodes of a YAML document

A document is a tree of scalars, sequences, mappings and aliases. Anchors have numbers here: an
anchor gets the number of names known before it, and an alias stands for the number its name has
at that place.
-/

namespace CreditScorecard.Yaml

/-- What a tag says about the type of a node. A local tag names a type of an application; the text
of a garbled one is not well formed. -/
inductive Tag where
  | boolean
  | integer
  | float
  | null
  | own
  | garbled
  | other
deriving DecidableEq

/-- The kind of a resolved tag. A byte of zero ends it. -/
def Tag.ofBytes (bytes : List UInt8) : Tag :=
  let bytes := bytes.takeWhile (· != 0)
  let core (name : String) : Bool := bytes == ("tag:yaml.org,2002:" ++ name).toUTF8.toList
  if core "bool" then .boolean
  else if core "int" then .integer
  else if core "float" then .float
  else if core "null" then .null
  else match bytes with
    | 33 :: name => if (String.fromUTF8? ⟨name.toArray⟩).isSome then .own else .garbled
    | _ => .other

/-- The anchor and tag of a node. -/
structure Properties where
  anchor : Option Nat := none
  tag : Option Tag := none
deriving DecidableEq

inductive Node where
  | alias (anchor : Nat)
  | scalar (properties : Properties) (plain : Bool) (text : List Char)
  | sequence (properties : Properties) (items : List Node)
  | mapping (properties : Properties) (entries : List (Node × Node))

namespace Node

/-- A scalar without text, where a node is left out. -/
def empty (properties : Properties) : Node :=
  .scalar properties true []

/-- What the reader of nodes carries along: the tokens that are left, the shorthands for tags, and
the number of each anchor's name. -/
structure Source where
  tokens : List Token
  shorthands : List (List Char × List UInt8) := []
  anchors : List (List Char × Nat) := []

abbrev Reader := StateT Source Option

def peek : Reader (Option Token) :=
  return (← get).tokens.head?

def advance : Reader Unit :=
  modify fun s => { s with tokens := s.tokens.drop 1 }

/-- Takes the next token if it is the given one. -/
def accept (t : Token) : Reader Bool := do
  if (← peek) = some t then
    advance
    pure true
  else pure false

/-- Whether the next token is one of those given. -/
def nextIsOneOf (ts : List Token) : Reader Bool := do
  match ← peek with
  | some t => pure (ts.contains t)
  | none => pure false

/-- Whether a part of a collection in brackets is set apart from the one before it, if any. -/
def separated (first : Bool) : Reader Bool :=
  if first then pure true else accept .comma

/-- Gives a name its number. A name that is used again keeps its place among the names. -/
def defineAnchor (name : List Char) : Reader Nat := do
  let s ← get
  let number := s.anchors.length
  let others := s.anchors.filter (·.1 != name)
  set { s with anchors := (name, number) :: others }
  pure number

/-- The bytes of a tag with its shorthand written out. -/
def resolveTag (handle : List Char) (suffix : List UInt8) : Reader (List UInt8) := do
  if handle.isEmpty then pure suffix
  else
    match (← get).shorthands.lookup handle with
    | some uri => pure (uri ++ suffix)
    | none => failure

/-- An anchor's name and a tag, in either order. -/
def readProperties : Reader (Option (List Char) × Option (List UInt8)) := do
  match ← peek with
  | some (.anchor name) =>
    advance
    match ← peek with
    | some (.tag handle suffix) =>
      advance
      pure (some name, some (← resolveTag handle suffix))
    | _ => pure (some name, none)
  | some (.tag handle suffix) =>
    advance
    match ← peek with
    | some (.anchor name) =>
      advance
      pure (some name, some (← resolveTag handle suffix))
    | _ => pure (none, some (← resolveTag handle suffix))
  | _ => pure (none, none)

mutual

/-- A node. Blocks are only read where they are allowed, and a sequence without indentation of its
own only as a part of a mapping. -/
def read (block unindented : Bool) : Nat → Reader Node
  | 0 => failure
  | fuel + 1 => do
    match ← peek with
    | some (.alias name) =>
      advance
      match (← get).anchors.lookup name with
      | some number => pure (.alias number)
      | none => failure
    | _ => do
      let (name, bytes) ← readProperties
      let properties : Reader Properties := do
        match name with
        | some name => pure ⟨some (← defineAnchor name), bytes.map Tag.ofBytes⟩
        | none => pure ⟨none, bytes.map Tag.ofBytes⟩
      match ← peek with
      | some .entry =>
        if unindented then do
          let properties ← properties
          pure (.sequence properties (← readUnindented fuel))
        else if name.isSome || bytes.isSome then pure (.empty (← properties))
        else failure
      | some (.scalar plain text) => do
        advance
        let properties ← properties
        let tag := if bytes = some [33] then none else properties.tag
        pure (.scalar { properties with tag := tag } plain text)
      | some .flowSequence => do
        advance
        let properties ← properties
        pure (.sequence properties (← readFlowItems true fuel))
      | some .flowMapping => do
        advance
        let properties ← properties
        pure (.mapping properties (← readFlowEntries true fuel))
      | some t =>
        if block ∧ t = .blockSequence then do
          advance
          let properties ← properties
          pure (.sequence properties (← readItems fuel))
        else if block ∧ t = .blockMapping then do
          advance
          let properties ← properties
          pure (.mapping properties (← readEntries fuel))
        else if name.isSome || bytes.isSome then pure (.empty (← properties))
        else failure
      | none => if name.isSome || bytes.isSome then pure (.empty (← properties)) else failure

/-- A node, or an empty one before certain tokens. -/
def readUnless (stops : List Token) (block unindented : Bool) : Nat → Reader Node
  | 0 => failure
  | fuel + 1 => do
    if ← nextIsOneOf stops then pure (.empty {})
    else read block unindented fuel

/-- The items of a block sequence. -/
def readItems : Nat → Reader (List Node)
  | 0 => failure
  | fuel + 1 => do
    if ← accept .entry then
      let item ← readUnless [.entry, .blockEnd] true false fuel
      pure (item :: (← readItems fuel))
    else if ← accept .blockEnd then pure []
    else failure

/-- The items of a sequence at the indentation of its mapping. -/
def readUnindented : Nat → Reader (List Node)
  | 0 => failure
  | fuel + 1 => do
    if ← accept .entry then
      let item ← readUnless [.entry, .key, .value, .blockEnd] true false fuel
      pure (item :: (← readUnindented fuel))
    else pure []

/-- The entries of a block mapping. -/
def readEntries : Nat → Reader (List (Node × Node))
  | 0 => failure
  | fuel + 1 => do
    if ← accept .key then
      let key ← readUnless [.key, .value, .blockEnd] true true fuel
      let value ←
        if ← accept .value then readUnless [.key, .value, .blockEnd] true true fuel
        else pure (.empty {})
      pure ((key, value) :: (← readEntries fuel))
    else if ← accept .blockEnd then pure []
    else failure

/-- The items of a sequence in brackets. An item with a key is a mapping of one entry. -/
def readFlowItems (first : Bool) : Nat → Reader (List Node)
  | 0 => failure
  | fuel + 1 => do
    if ← accept .flowSequenceEnd then return []
    unless ← separated first do failure
    if ← accept .key then
      let entry ← readFlowPair fuel
      pure (.mapping {} [entry] :: (← readFlowItems false fuel))
    else if ← accept .flowSequenceEnd then pure []
    else
      let item ← read false false fuel
      pure (item :: (← readFlowItems false fuel))

/-- The entry of a mapping within a sequence in brackets. A key that is left out takes the token in
its place with it. -/
def readFlowPair : Nat → Reader (Node × Node)
  | 0 => failure
  | fuel + 1 => do
    let key ←
      if ← nextIsOneOf [.value, .comma, .flowSequenceEnd] then
        advance
        pure (.empty {})
      else read false false fuel
    let value ←
      if ← accept .value then readUnless [.comma, .flowSequenceEnd] false false fuel
      else pure (.empty {})
    pure (key, value)

/-- The entries of a mapping in braces. -/
def readFlowEntries (first : Bool) : Nat → Reader (List (Node × Node))
  | 0 => failure
  | fuel + 1 => do
    if ← accept .flowMappingEnd then return []
    unless ← separated first do failure
    if ← accept .key then
      let key ← readUnless [.value, .comma, .flowMappingEnd] false false fuel
      let value ←
        if ← accept .value then readUnless [.comma, .flowMappingEnd] false false fuel
        else pure (.empty {})
      pure ((key, value) :: (← readFlowEntries false fuel))
    else if ← accept .flowMappingEnd then pure []
    else
      let key ← read false false fuel
      pure ((key, .empty {}) :: (← readFlowEntries false fuel))

end

/-- The directives before a document. A version may be given once, and so may each shorthand. -/
def readDirectives (versionSeen : Bool) : Nat → Reader Unit
  | 0 => failure
  | fuel + 1 => do
    match ← peek with
    | some (.version major minor) =>
      if versionSeen ∨ major ≠ 1 ∨ (minor ≠ 1 ∧ minor ≠ 2) then failure
      else
        advance
        readDirectives true fuel
    | some (.tagShorthand handle uri) =>
      let s ← get
      if (s.shorthands.lookup handle).isSome then failure
      else
        set { s with tokens := s.tokens.drop 1, shorthands := (handle, uri) :: s.shorthands }
        readDirectives versionSeen fuel
    | _ => pure ()

/-- The shorthands that need no directive. -/
def standardShorthands : List (List Char × List UInt8) :=
  [(['!'], [33]), (['!', '!'], "tag:yaml.org,2002:".toUTF8.toList)]

def isDirective : Token → Bool
  | .version .. | .tagShorthand .. => true
  | _ => false

/-- The one document of a text; none for a text without a document. -/
def readDocument (fuel : Nat) : Reader (Option Node) := do
  match ← peek with
  | none => pure none
  | some t =>
    let node ←
      if isDirective t ∨ t = .documentStart then do
        readDirectives false fuel
        modify fun s => { s with shorthands := s.shorthands ++ standardShorthands }
        if ← accept .documentStart then
          match ← peek with
          | none => pure (.empty {})
          | some t =>
            if isDirective t ∨ t = .documentStart ∨ t = .documentEnd then pure (.empty {})
            else read true false fuel
        else failure
      else do
        modify fun s => { s with shorthands := standardShorthands }
        read true false fuel
    modify fun s => { s with tokens := s.tokens.dropWhile (· == .documentEnd) }
    if (← peek).isNone then pure (some node) else failure

/-- Reads the document of a list of tokens. -/
def ofTokens? (tokens : List Token) : Option (Option Node) :=
  ((readDocument (4 * tokens.length + 8)).run { tokens := tokens }).map (·.1)

mutual

/-- The nodes with an anchor, in the order in which they begin. -/
def anchored : Node → List (Nat × Node)
  | .alias _ => []
  | .scalar properties plain text =>
    (properties.anchor.map fun n => (n, .scalar properties plain text)).toList
  | .sequence properties items =>
    (properties.anchor.map fun n => (n, .sequence properties items)).toList ++ anchoredItems items
  | .mapping properties entries =>
    (properties.anchor.map fun n => (n, .mapping properties entries)).toList ++
      anchoredEntries entries

def anchoredItems : List Node → List (Nat × Node)
  | [] => []
  | item :: items => anchored item ++ anchoredItems items

def anchoredEntries : List (Node × Node) → List (Nat × Node)
  | [] => []
  | (key, value) :: entries => anchored key ++ anchored value ++ anchoredEntries entries

/-- The size of a document: one for each scalar and alias, two for each collection. -/
def size : Node → Nat
  | .alias _ => 1
  | .scalar .. => 1
  | .sequence _ items => sizeItems items + 2
  | .mapping _ entries => sizeEntries entries + 2

def sizeItems : List Node → Nat
  | [] => 0
  | item :: items => size item + sizeItems items

def sizeEntries : List (Node × Node) → Nat
  | [] => 0
  | (key, value) :: entries => size key + size value + sizeEntries entries

end

end Node

end CreditScorecard.Yaml
