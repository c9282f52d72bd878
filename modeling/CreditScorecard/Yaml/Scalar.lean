import CreditScorecard.Text.Hexadecimal
import CreditScorecard.Yaml.Cursor

/-! # Scalars in YAML text

Plain, quoted and block scalars. White space inside a plain or quoted scalar is folded: within a
line it stays, a single line break becomes a space, and of several line breaks the first is
dropped. Each reader gives the text of the scalar and the place after it, or fails.
-/

namespace CreditScorecard.Yaml

/-- The text that a gap inside a scalar stands for. After an escaped line break all further line
breaks are kept. -/
def foldGap (afterEscape : Bool) (gap : List Char) : List Char :=
  match splitLines gap with
  | (run, []) => if afterEscape then [] else run
  | (_, (first, _) :: others) =>
    if afterEscape then first :: others.map (·.1)
    else if first = '\n' then (if others.isEmpty then [' '] else others.map (·.1))
    else first :: others.map (·.1)

/-- Whether a tab stands left of an indentation, on a line after the first one of a gap. -/
def tabInIndent (indent : Nat) (gap : List Char) : Bool :=
  (splitLines gap).2.any fun (_, run) => (run.take indent).contains '\t'

/-! ## Plain scalars -/

/-- The characters of a plain scalar up to white space, or to what ends the scalar. -/
def plainChunk (inFlow : Bool) : List Char → Option (List Char)
  | [] => some []
  | c :: cs =>
    if isGap c then some []
    else if c = ':' then
      match cs with
      | [] => some []
      | d :: _ =>
        if inFlow ∧ d ∈ [',', '?', '[', ']', '\x7b', '\x7d'] then none
        else if isGap d then some []
        else (plainChunk inFlow cs).map (c :: ·)
    else if inFlow ∧ c ∈ [',', '[', ']', '\x7b', '\x7d'] then some []
    else (plainChunk inFlow cs).map (c :: ·)

/-- The rest of a plain scalar after the text so far and a gap: its text, the place after it, and
whether a line was left behind. -/
def readPlainFrom (inFlow : Bool) (indent : Nat) (text gap : List Char) (cursor : Cursor) :
    Nat → Option (List Char × Cursor × Bool)
  | 0 => none
  | fuel + 1 =>
    let lineLeft := !(splitLines gap).2.isEmpty
    if cursor.atDocumentMark ∨ cursor.rest.head? = some '#' then some (text, cursor, lineLeft)
    else do
      let chunk ← plainChunk inFlow cursor.rest
      let text := if chunk.isEmpty then text else text ++ foldGap false gap ++ chunk
      let lineLeft := chunk.isEmpty && lineLeft
      let cursor := cursor.skip chunk.length
      let gap := cursor.rest.takeWhile isGap
      if gap.isEmpty then pure (text, cursor, lineLeft)
      else if tabInIndent indent gap then none
      else
        let next := cursor.skipGap
        if !inFlow && next.column < indent then
          pure (text, next, lineLeft || !(splitLines gap).2.isEmpty)
        else readPlainFrom inFlow indent text gap next fuel

/-- Reads a plain scalar whose continuation lines are indented at least so far. -/
def readPlain (inFlow : Bool) (indent : Nat) (cursor : Cursor) :
    Option (List Char × Cursor × Bool) :=
  readPlainFrom inFlow indent [] [] cursor (cursor.rest.length + 1)

/-! ## Quoted scalars -/

/-- The character of a code point that is not a surrogate. -/
def charOfCode? (code : Nat) : Option Char :=
  if h : code.isValidChar then some (Char.ofNatAux code h) else none

/-- The character that a letter after a backslash stands for. -/
def escapedChar? : Char → Option Char
  | '0' => some '\x00'
  | 'a' => some '\x07'
  | 'b' => some '\x08'
  | 't' => some '\t'
  | '\t' => some '\t'
  | 'n' => some '\n'
  | 'v' => some '\x0b'
  | 'f' => some '\x0c'
  | 'r' => some '\r'
  | 'e' => some '\x1b'
  | ' ' => some ' '
  | '"' => some '"'
  | '/' => some '/'
  | '\\' => some '\\'
  | 'N' => some '\x85'
  | '_' => some '\xa0'
  | 'L' => some '\u2028'
  | 'P' => some '\u2029'
  | _ => none

/-- The digits of an escape that gives a code point. -/
def escapeLength (c : Char) : Nat :=
  if c = 'x' then 2 else if c = 'u' then 4 else if c = 'U' then 8 else 0

/-- The characters of a quoted scalar up to white space, the closing quote, or an escaped line
break, with the number of characters they are written in. `skip` characters belong to an escape
that is already taken up. -/
def quotedChunk (quote : Char) : Nat → List Char → Option (List Char × Nat)
  | _, [] => some ([], 0)
  | skip + 1, _ :: cs => (quotedChunk quote skip cs).map fun (text, n) => (text, n + 1)
  | 0, c :: cs =>
    let taking (skip : Nat) (c : Char) : Option (List Char × Nat) :=
      (quotedChunk quote skip cs).map fun (text, n) => (c :: text, n + 1)
    if isGap c then some ([], 0)
    else if c = quote then
      if quote = '\'' ∧ cs.head? = some '\'' then taking 1 '\'' else some ([], 0)
    else if quote = '"' ∧ c = '\\' then
      match cs with
      | [] => none
      | e :: digits =>
        if isBreak e then some ([], 0)
        else if escapeLength e = 0 then (escapedChar? e).bind (taking 1)
        else
          let code := digits.take (escapeLength e)
          if code.length < escapeLength e then none
          else (Text.hexNumber? code).bind fun n =>
            (charOfCode? n).bind (taking (escapeLength e + 1))
    else taking 0 c

/-- The rest of a quoted scalar after the text so far. -/
def readQuotedFrom (quote : Char) (text : List Char) (cursor : Cursor) :
    Nat → Option (List Char × Cursor)
  | 0 => none
  | fuel + 1 =>
    if cursor.atDocumentMark ∨ cursor.rest.isEmpty then none
    else do
      let (chunk, length) ← quotedChunk quote 0 cursor.rest
      let text := text ++ chunk
      let cursor := cursor.skip length
      let escaped := cursor.rest.head? = some '\\'
      let cursor := if escaped then (cursor.skip 1).skipBreak else cursor
      if cursor.rest.head? = some quote then pure (text, cursor.skip 1)
      else
        let gap := cursor.rest.takeWhile isGap
        readQuotedFrom quote (text ++ foldGap escaped gap) cursor.skipGap fuel

/-- Reads a quoted scalar after its opening quote. -/
def readQuoted (quote : Char) (cursor : Cursor) : Option (List Char × Cursor) :=
  readQuotedFrom quote [] cursor (cursor.rest.length + 1)

/-! ## Block scalars -/

/-- What becomes of the line breaks at the end of a block scalar. -/
inductive Chomping where
  | strip
  | clip
  | keep
deriving DecidableEq

def chomping? : Char → Option Chomping
  | '+' => some .keep
  | '-' => some .strip
  | _ => none

/-- The chomping and indentation indicators of a block scalar, in either order. An indentation of
zero is none, and must not be written. -/
def readIndicators (cursor : Cursor) : Option (Chomping × Nat × Cursor) :=
  let increment? (c : Cursor) : Option (Nat × Cursor) :=
    match c.rest with
    | d :: _ =>
      if d = '0' then none
      else if d.isDigit then some (d.toNat - '0'.toNat, c.skip 1)
      else some (0, c)
    | [] => some (0, c)
  match cursor.rest.head?.bind chomping? with
  | some chomping => (increment? (cursor.skip 1)).map fun (n, c) => (chomping, n, c)
  | none => do
    let (increment, cursor) ← increment? cursor
    if increment = 0 then pure (.clip, 0, cursor)
    else match cursor.rest.head?.bind chomping? with
      | some chomping => pure (chomping, increment, cursor.skip 1)
      | none => pure (.clip, increment, cursor)

/-- Moves over indentation and empty lines: the breaks kept, the greatest column met, and the
place of the next line. An indentation of zero is still to be found out. -/
def skipEmptyLines (indent : Nat) (breaks : List Char) (most : Nat) (cursor : Cursor) :
    Nat → Option (List Char × Nat × Cursor)
  | 0 => none
  | fuel + 1 =>
    let spaces := (cursor.rest.takeWhile (· == ' ')).length
    let cursor := cursor.skip (if indent = 0 then spaces else min spaces (indent - cursor.column))
    let most := max most cursor.column
    if (indent = 0 ∨ cursor.column < indent) ∧ cursor.rest.head? = some '\t' then none
    else
      match takeBreak cursor.rest with
      | ([], _) => some (breaks, most, cursor)
      | (kept, _) => skipEmptyLines indent (breaks ++ kept) most cursor.skipBreak fuel

/-- The lines of a block scalar: its text, and the last line's break and the breaks after it. -/
def readLines (literal : Bool) (indent : Nat) (text lineBreak breaks : List Char)
    (wasSpaced : Bool) (cursor : Cursor) : Nat → Option (List Char × List Char × List Char × Cursor)
  | 0 => none
  | fuel + 1 =>
    if cursor.column = indent ∧ !cursor.rest.isEmpty then do
      let spaced := cursor.rest.head?.any isSpace
      let folded := !literal && lineBreak = ['\n'] && !wasSpaced && !spaced
      let joint := if folded then (if breaks.isEmpty then [' '] else []) else lineBreak
      let line := cursor.rest.takeWhile (!isBreak ·)
      let cursor := cursor.skip line.length
      let (lineBreak, _) := takeBreak cursor.rest
      let cursor := cursor.skipBreak
      let (next, _, cursor) ← skipEmptyLines indent [] 0 cursor (cursor.rest.length + 1)
      readLines literal indent (text ++ joint ++ breaks ++ line) lineBreak next spaced cursor fuel
    else some (text, lineBreak, breaks, cursor)

/-- Reads a block scalar after its first character, inside a block of an indentation. -/
def readBlock (literal : Bool) (parentIndent : Int) (cursor : Cursor) :
    Option (List Char × Cursor) := do
  let (chomping, increment, cursor) ← readIndicators cursor
  let cursor := cursor.skipWhile isSpace
  let cursor :=
    if cursor.rest.head? = some '#' then cursor.skipWhile (!isBreak ·) else cursor
  if !breakNext cursor.rest then none
  else
    let cursor := cursor.skipBreak
    let declared := if increment = 0 then 0 else (max parentIndent 0).toNat + increment
    let (breaks, most, cursor) ←
      skipEmptyLines declared [] 0 cursor (cursor.rest.length + 1)
    let indent :=
      if declared = 0 then max (max most (parentIndent + 1).toNat) 1 else declared
    let (text, lineBreak, breaks, cursor) ←
      readLines literal indent [] [] breaks false cursor (cursor.rest.length + 1)
    let text := if chomping = .strip then text else text ++ lineBreak
    pure (if chomping = .keep then text ++ breaks else text, cursor)

end CreditScorecard.Yaml
