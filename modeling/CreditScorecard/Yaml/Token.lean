import CreditScorecard.Yaml.Scalar

/-! # Tokens of a YAML text

The text is cut into tokens, and indentation becomes tokens of its own: blocks start where a line
is indented further than the block around it, and end where a line is indented less. That something
is a key shows only at the colon after it. So the place of every possible key is remembered, and
its token is put there once the colon is met.
-/

namespace CreditScorecard.Yaml

inductive Token where
  | version (major minor : Nat)
  | tagShorthand (handle : List Char) (uri : List UInt8)
  | documentStart
  | documentEnd
  | blockSequence
  | blockMapping
  | blockEnd
  | flowSequence
  | flowSequenceEnd
  | flowMapping
  | flowMappingEnd
  | entry
  | comma
  | key
  | value
  | alias (name : List Char)
  | anchor (name : List Char)
  | tag (handle : List Char) (suffix : List UInt8)
  | scalar (plain : Bool) (text : List Char)
deriving DecidableEq

/-- Where a key may have begun: the number of tokens before it and its place. A required key is one
that stands at the indentation of its block. -/
structure PossibleKey where
  tokens : Nat
  index : Nat
  line : Nat
  column : Nat
  required : Bool

/-- The tokens so far and what the next ones depend on. The indentation of the text outside all
blocks is `-1`. There is one possible key for the text outside all brackets and one for each open
bracket, innermost first. -/
structure Scanner where
  cursor : Cursor
  tokens : Array Token := #[]
  indent : Int := -1
  outerIndents : List Int := []
  keys : List (Option PossibleKey) := [none]
  keyAllowed : Bool := true

namespace Scanner

def inFlow (s : Scanner) : Bool :=
  1 < s.keys.length

def push (s : Scanner) (t : Token) : Scanner :=
  { s with tokens := s.tokens.push t }

def move (s : Scanner) (cursor : Cursor) : Scanner :=
  { s with cursor := cursor }

def skip (s : Scanner) (n : Nat) : Scanner :=
  s.move (s.cursor.skip n)

/-- Opens a block at a column, unless one of that indentation is open. Its token goes to a given
place among the tokens. -/
def openBlock (s : Scanner) (column place : Nat) (t : Token) : Scanner :=
  if !s.inFlow ∧ s.indent < column then
    { s with
      indent := column
      outerIndents := s.indent :: s.outerIndents
      tokens := s.tokens.insertIdxIfInBounds place t }
  else s

/-- Closes the blocks indented further than a column. -/
def closeBlocks (s : Scanner) (column : Int) : Scanner :=
  if s.inFlow then s else go s s.outerIndents
where
  go (s : Scanner) : List Int → Scanner
    | [] => s
    | outer :: outers =>
      if column < s.indent then
        go { s.push .blockEnd with indent := outer, outerIndents := outers } outers
      else s

/-- Gives up the innermost possible key, which must not be required. -/
def dropKey (s : Scanner) : Option Scanner :=
  match s.keys with
  | some key :: keys => if key.required then none else some { s with keys := none :: keys }
  | _ => some s

/-- Remembers that a key may begin here, if one is allowed. -/
def saveKey (s : Scanner) : Option Scanner :=
  if s.keyAllowed then do
    let s ← s.dropKey
    let c := s.cursor
    let key : PossibleKey :=
      ⟨s.tokens.size, c.index, c.line, c.column, !s.inFlow && s.indent == c.column⟩
    pure { s with keys := some key :: s.keys.drop 1 }
  else some s

/-- Gives up the possible keys that began on an earlier line or over 1024 characters ago. -/
def dropStaleKeys (s : Scanner) : Option Scanner := do
  let keys ← s.keys.mapM fun key? =>
    match key? with
    | none => some none
    | some key =>
      if key.line < s.cursor.line ∨ key.index + 1024 < s.cursor.index then
        if key.required then none else some none
      else some (some key)
  pure { s with keys := keys }

/-- Moves over white space, comments and line breaks. Outside brackets, a new line allows a key;
a tab may not stand where a key is allowed. -/
def toNextToken (s : Scanner) : Nat → Scanner
  | 0 => s
  | fuel + 1 =>
    let c := s.cursor
    let c := if c.index = 0 ∧ c.rest.head? = some '\ufeff' then c.skip 1 else c
    let c := c.skipWhile fun ch => ch == ' ' || ((s.inFlow || !s.keyAllowed) && ch == '\t')
    let c := if c.rest.head? = some '#' then c.skipWhile (!isBreak ·) else c
    if c.rest.head?.any isBreak then
      toNextToken { s with cursor := c.skipBreak, keyAllowed := s.keyAllowed || !s.inFlow } fuel
    else s.move c

/-! ## Directives, anchors and tags -/

/-- A number of a version, of one to nine digits. -/
def readVersionNumber (c : Cursor) : Option (Nat × Cursor) :=
  let digits := c.rest.takeWhile Char.isDigit
  if digits.isEmpty ∨ 9 < digits.length then none
  else some (Nat.ofDigitChars 10 digits 0, c.skip digits.length)

/-- The handle of a tag: an exclamation mark, perhaps word characters and another one. -/
def readTagHandle (c : Cursor) : Option (List Char × Cursor) :=
  match c.rest with
  | '!' :: cs =>
    let word := cs.takeWhile isWordChar
    let closing := if (cs.drop word.length).head? = some '!' then ['!'] else []
    let handle := '!' :: word ++ closing
    some (handle, c.skip handle.length)
  | _ => none

/-- The number of bytes of a character by its first byte. -/
def byteCount? (b : Nat) : Option Nat :=
  if b < 0x80 then some 1
  else if 0xC0 ≤ b ∧ b < 0xE0 then some 2
  else if 0xE0 ≤ b ∧ b < 0xF0 then some 3
  else if 0xF0 ≤ b ∧ b < 0xF8 then some 4
  else none

/-- The characters of a tag apart from escapes. Commas and brackets belong to it only where the
whole URI is written out. -/
def isTagChar (verbatim : Bool) (c : Char) : Bool :=
  isWordChar c ||
    [';', '/', '?', ':', '@', '&', '=', '+', '$', '.', '!', '~', '*', '\'', '(', ')'].contains c ||
    (verbatim && [',', '[', ']'].contains c)

/-- The bytes of a tag at the start of a text, with the number of characters they are written in.
An escape gives one byte. `more` bytes are still to come of a character of several, and `skip`
characters belong to an escape that is already taken up. -/
def readTagBytes (verbatim : Bool) : Nat → Nat → List Char → Option (List UInt8 × Nat)
  | 0, _, [] => some ([], 0)
  | _ + 1, _, [] => none
  | more, skip + 1, _ :: cs =>
    (readTagBytes verbatim more skip cs).map fun (bytes, n) => (bytes, n + 1)
  | more, 0, c :: cs =>
    if c = '%' then
      match cs with
      | high :: low :: _ => do
        let b ← Text.hexNumber? [high, low]
        let more ←
          if more = 0 then (byteCount? b).map (· - 1)
          else if 0x80 ≤ b ∧ b < 0xC0 then some (more - 1)
          else none
        let (bytes, n) ← readTagBytes verbatim more 2 cs
        pure (b.toUInt8 :: bytes, n + 1)
      | _ => none
    else if 0 < more then none
    else if isTagChar verbatim c then
      (readTagBytes verbatim 0 0 cs).map fun (bytes, n) => (c.toNat.toUInt8 :: bytes, n + 1)
    else some ([], 0)

/-- Reads a part of a tag. -/
def readTagPart (verbatim : Bool) (c : Cursor) : Option (List UInt8 × Cursor) :=
  (readTagBytes verbatim 0 0 c.rest).map fun (bytes, n) => (bytes, c.skip n)

/-- A tag at the start of a text: its handle and suffix. The handle is empty where the whole URI
is written out, and for the tag that is an exclamation mark alone. -/
def readTag (c : Cursor) : Option (Token × Cursor) :=
  match c.rest with
  | '!' :: '<' :: _ => do
    let (uri, c) ← readTagPart true (c.skip 2)
    if uri.isEmpty ∨ c.rest.head? ≠ some '>' then none
    else pure (.tag [] uri, c.skip 1)
  | _ => do
    let (handle, c) ← readTagHandle c
    let closed := 1 < handle.length ∧ handle.getLast? = some '!'
    let (part, c) ← readTagPart false c
    if closed then
      if part.isEmpty then none else pure (.tag handle part, c)
    else
      let suffix := handle.drop 1 |>.map (·.toNat.toUInt8)
      if (suffix ++ part).isEmpty then pure (.tag [] [33], c)
      else pure (.tag ['!'] (suffix ++ part), c)

/-- The name of an anchor or alias after its mark. -/
def readAnchorName (c : Cursor) : Option (List Char × Cursor) :=
  let name := c.rest.takeWhile isWordChar
  let c := c.skip name.length
  let ended :=
    gapNext c.rest ||
      c.rest.head?.any fun d => ['?', ':', ',', ']', '\x7d', '%', '@', '\x60'].contains d
  if name.isEmpty ∨ !ended then none else some (name, c)

/-- A directive after its percent sign, up to the end of the line. -/
def readDirective (c : Cursor) : Option (Token × Cursor) := do
  let name := c.rest.takeWhile isWordChar
  let c := c.skip name.length
  if !gapNext c.rest then none
  else
    let c := c.skipWhile isSpace
    let (token, c) ←
      if name = "YAML".toList then do
        let (major, c) ← readVersionNumber c
        if c.rest.head? ≠ some '.' then none
        else
          let (minor, c) ← readVersionNumber (c.skip 1)
          pure (Token.version major minor, c)
      else if name = "TAG".toList then do
        let (handle, c) ← readTagHandle c
        if handle ≠ ['!'] ∧ handle.getLast? ≠ some '!' then none
        else if !c.rest.head?.any isSpace then none
        else
          let (uri, c) ← readTagPart true (c.skipWhile isSpace)
          if uri.isEmpty ∨ !gapNext c.rest then none
          else pure (Token.tagShorthand handle uri, c)
      else none
    let c := c.skipWhile isSpace
    let c := if c.rest.head? = some '#' then c.skipWhile (!isBreak ·) else c
    if breakNext c.rest then pure (token, c.skipBreak) else none

/-! ## The next token -/

/-- Adds the tokens of something that stands outside all blocks. -/
def atTop (s : Scanner) : Option Scanner := do
  let s ← (s.closeBlocks (-1)).dropKey
  pure { s with keyAllowed := false }

/-- A bracket that opens a collection. -/
def openFlow (s : Scanner) (t : Token) : Option Scanner := do
  let s ← s.saveKey
  pure { (s.push t).skip 1 with keys := none :: s.keys, keyAllowed := true }

/-- A bracket that closes a collection. -/
def closeFlow (s : Scanner) (t : Token) : Option Scanner := do
  let s ← s.dropKey
  let keys := if s.inFlow then s.keys.drop 1 else s.keys
  pure { (s.push t).skip 1 with keys := keys, keyAllowed := false }

/-- A dash before an item of a block sequence. -/
def takeEntry (s : Scanner) : Option Scanner := do
  if !s.inFlow ∧ !s.keyAllowed then none
  else
    let s ← (s.openBlock s.cursor.column s.tokens.size .blockSequence).dropKey
    pure { (s.push .entry).skip 1 with keyAllowed := true }

/-- A question mark before a key. -/
def takeKey (s : Scanner) : Option Scanner := do
  if !s.inFlow ∧ !s.keyAllowed then none
  else
    let s ← (s.openBlock s.cursor.column s.tokens.size .blockMapping).dropKey
    pure { (s.push .key).skip 1 with keyAllowed := !s.inFlow }

/-- A colon before a value. What began at the possible key is a key now. -/
def takeValue (s : Scanner) : Option Scanner :=
  match s.keys with
  | some key :: keys =>
    let s := { s with tokens := s.tokens.insertIdxIfInBounds key.tokens .key, keys := none :: keys }
    let s := s.openBlock key.column key.tokens .blockMapping
    some { (s.push .value).skip 1 with keyAllowed := false }
  | _ =>
    if !s.inFlow ∧ !s.keyAllowed then none
    else
      let s := s.openBlock s.cursor.column s.tokens.size .blockMapping
      some { (s.push .value).skip 1 with keyAllowed := !s.inFlow }

/-- A token that may begin a key. -/
def takeNode (s : Scanner) (read : Cursor → Option (Token × Cursor)) : Option Scanner := do
  let s ← s.saveKey
  let (t, c) ← read s.cursor
  pure { s.push t with cursor := c, keyAllowed := false }

def takeTag (s : Scanner) : Option Scanner := do
  let s ← s.takeNode readTag
  if gapNext s.cursor.rest ∨ (s.inFlow ∧ s.cursor.rest.head? = some ',') then pure s else none

def takeBlockScalar (s : Scanner) (literal : Bool) : Option Scanner := do
  let s ← s.dropKey
  let (text, c) ← readBlock literal s.indent (s.cursor.skip 1)
  pure { s.push (.scalar false text) with cursor := c, keyAllowed := true }

def takePlain (s : Scanner) : Option Scanner := do
  let s ← s.saveKey
  let (text, c, lineLeft) ← readPlain s.inFlow (s.indent + 1).toNat s.cursor
  pure { s.push (.scalar true text) with cursor := c, keyAllowed := lineLeft }

/-- The characters with which a plain scalar does not begin. -/
def indicators : List Char :=
  ['-', '?', ':', ',', '[', ']', '\x7b', '\x7d', '#', '&', '*', '!', '|', '>', '\'', '"', '%',
    '@', '\x60']

/-- Whether a plain scalar begins here. A dash, question mark or colon begins one before a
character that it does not separate. -/
def plainNext (inFlow : Bool) : List Char → Bool
  | [] => false
  | c :: cs =>
    (!isGap c && !indicators.contains c) || (c == '-' && !cs.head?.any isSpace) ||
      (!inFlow && (c == '?' || c == ':') && !gapNext cs)

/-- Takes the next token of a text that is not at its end. -/
def takeToken (s : Scanner) (first : Char) (others : List Char) : Option Scanner :=
  if s.cursor.column = 0 ∧ first = '%' then do
    let s ← s.atTop
    let (t, c) ← readDirective (s.cursor.skip 1)
    pure ((s.push t).move c)
  else if s.cursor.atDocumentMark then do
    let s ← s.atTop
    pure ((s.push (if first = '-' then .documentStart else .documentEnd)).skip 3)
  else if first = '[' then s.openFlow .flowSequence
  else if first = '\x7b' then s.openFlow .flowMapping
  else if first = ']' then s.closeFlow .flowSequenceEnd
  else if first = '\x7d' then s.closeFlow .flowMappingEnd
  else if first = ',' then do
    let s ← s.dropKey
    pure { (s.push .comma).skip 1 with keyAllowed := true }
  else if first = '-' ∧ gapNext others then s.takeEntry
  else if first = '?' ∧ (s.inFlow ∨ gapNext others) then s.takeKey
  else if first = ':' ∧ (s.inFlow ∨ gapNext others) then s.takeValue
  else if first = '*' then
    s.takeNode fun c => (readAnchorName (c.skip 1)).map fun (name, c) => (.alias name, c)
  else if first = '&' then
    s.takeNode fun c => (readAnchorName (c.skip 1)).map fun (name, c) => (.anchor name, c)
  else if first = '!' then s.takeTag
  else if first = '|' ∧ !s.inFlow then s.takeBlockScalar true
  else if first = '>' ∧ !s.inFlow then s.takeBlockScalar false
  else if first = '\'' ∨ first = '"' then
    s.takeNode fun c => (readQuoted first (c.skip 1)).map fun (text, c) => (.scalar false text, c)
  else if plainNext s.inFlow (first :: others) then s.takePlain
  else none

/-- Takes the tokens up to the end of the text, where all blocks end. -/
def takeAll (s : Scanner) : Nat → Option (List Token)
  | 0 => none
  | fuel + 1 => do
    let s ← (s.toNextToken (s.cursor.rest.length + 1)).dropStaleKeys
    let s := s.closeBlocks s.cursor.column
    match s.cursor.rest with
    | [] =>
      let s ← s.atTop
      pure s.tokens.toList
    | first :: others => takeAll (← s.takeToken first others) fuel

end Scanner

/-- The tokens of a YAML text. -/
def tokens? (text : List Char) : Option (List Token) :=
  if text.all isAllowed then Scanner.takeAll { cursor := { rest := text } } (text.length + 1)
  else none

end CreditScorecard.Yaml
