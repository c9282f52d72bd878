/-! # A place in a YAML text

A cursor is the text that is left, with the number of characters, lines and columns before it.
-/

namespace CreditScorecard.Yaml

/-- The characters that may stand in a YAML stream. -/
def isAllowed (c : Char) : Bool :=
  let n := c.toNat
  n == 0x09 || n == 0x0A || n == 0x0D || (0x20 ≤ n && n ≤ 0x7E) || n == 0x85 ||
    (0xA0 ≤ n && n ≤ 0xD7FF) || (0xE000 ≤ n && n ≤ 0xFFFD) || 0x10000 ≤ n

def isSpace (c : Char) : Bool :=
  c == ' ' || c == '\t'

/-- The characters that end a line. -/
def isBreak (c : Char) : Bool :=
  c == '\n' || c == '\r' || c == '\x85' || c == '\u2028' || c == '\u2029'

def isGap (c : Char) : Bool :=
  isSpace c || isBreak c

/-- The characters of anchors, tag handles and directive names. -/
def isWordChar (c : Char) : Bool :=
  c.isAlphanum || c == '_' || c == '-'

/-- Whether white space or the end of the text comes next. -/
def gapNext : List Char → Bool
  | [] => true
  | c :: _ => isGap c

/-- Whether a line ends here. -/
def breakNext : List Char → Bool
  | [] => true
  | c :: _ => isBreak c

/-- What a line break is kept as: the two separators of Unicode stay, any other is a newline. -/
def keptBreak (c : Char) : Char :=
  if c == '\u2028' || c == '\u2029' then c else '\n'

/-- The line break at the start of a text as it is kept, with the text after it. A carriage return
and the newline after it are one break. -/
def takeBreak : List Char → List Char × List Char
  | '\r' :: '\n' :: cs => (['\n'], cs)
  | c :: cs => if isBreak c then ([keptBreak c], cs) else ([], c :: cs)
  | [] => ([], [])

/-- The run before the first line break of a text, and each break with the run after it. -/
def splitLines : List Char → List Char × List (Char × List Char)
  | [] => ([], [])
  | '\r' :: '\n' :: cs =>
    let (run, lines) := splitLines cs
    ([], ('\n', run) :: lines)
  | c :: cs =>
    let (run, lines) := splitLines cs
    if isBreak c then ([], (keptBreak c, run) :: lines) else (c :: run, lines)

/-- A place in a text. -/
structure Cursor where
  rest : List Char
  index : Nat := 0
  line : Nat := 0
  column : Nat := 0

namespace Cursor

/-- Moves over characters of the current line. -/
def skip (c : Cursor) (n : Nat) : Cursor :=
  { c with rest := c.rest.drop n, index := c.index + n, column := c.column + n }

/-- Moves over the characters that pass a test; they have to lie on the current line. -/
def skipWhile (c : Cursor) (test : Char → Bool) : Cursor :=
  c.skip (c.rest.takeWhile test).length

/-- Moves over a line break, if one is next. -/
def skipBreak (c : Cursor) : Cursor :=
  let (kept, rest) := takeBreak c.rest
  if kept.isEmpty then c
  else ⟨rest, c.index + (c.rest.length - rest.length), c.line + 1, 0⟩

/-- Moves over all white space and line breaks. -/
def skipGap (c : Cursor) : Cursor :=
  let gap := c.rest.takeWhile isGap
  let rest := c.rest.drop gap.length
  match (splitLines gap).2.getLast? with
  | none => c.skip gap.length
  | some (_, last) =>
    ⟨rest, c.index + gap.length, c.line + (splitLines gap).2.length, last.length⟩

/-- Whether a line of three dashes or three points starts here. -/
def atDocumentMark (c : Cursor) : Bool :=
  c.column == 0 &&
    match c.rest with
    | '-' :: '-' :: '-' :: cs => gapNext cs
    | '.' :: '.' :: '.' :: cs => gapNext cs
    | _ => false

end Cursor

end CreditScorecard.Yaml
