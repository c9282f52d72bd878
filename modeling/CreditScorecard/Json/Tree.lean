import CreditScorecard.Text.Hexadecimal

/-! # JSON syntax

A JSON text is read in two steps. `Tree.read?` checks its syntax alone and keeps every detail of
it: repeated keys, the digits of numbers, and surrogates that may have no partner. What the parts
mean is decided by whoever uses them, so a part that is not used need not have a meaning.
-/

namespace CreditScorecard.Json

/-- A unit of a quoted text: a character, or half of one written as an escape. -/
inductive Glyph where
  | char (c : Char)
  | surrogate (code : Nat)
deriving DecidableEq, Repr

/-- A number as it is written: its sign, the digits before and after the point, and an exponent
with a sign of its own. There is a point exactly if the fraction has digits. -/
structure Numeral where
  negative : Bool
  whole : List Char
  fraction : List Char
  exponent : Option (Bool × List Char)
deriving DecidableEq, Repr

/-- The syntax of a JSON text. -/
inductive Tree where
  | null
  | boolean (b : Bool)
  | number (n : Numeral)
  | text (glyphs : List Glyph)
  | list (items : List Tree)
  | object (members : List (List Glyph × Tree))

/-- The text of glyphs, if every leading surrogate stands before a trailing one and every trailing
one after a leading one. -/
def Glyph.decode? : List Glyph → Option (List Char)
  | [] => some []
  | .char c :: glyphs => (decode? glyphs).map (c :: ·)
  | .surrogate high :: .surrogate low :: glyphs =>
    if high < 0xDC00 ∧ 0xDC00 ≤ low then
      (decode? glyphs).map
        (Char.ofNat (0x10000 + (high - 0xD800) * 0x400 + (low - 0xDC00)) :: ·)
    else none
  | .surrogate _ :: _ => none

/-- The text of glyphs. -/
def Glyph.text? (glyphs : List Glyph) : Option String :=
  (decode? glyphs).map String.ofList

namespace Tree

/-- A reader takes a value from the start of a text, or fails. -/
abbrev Reader (α : Type) := List Char → Option (α × List Char)

/-- Removes the white space of JSON at the start of a text. -/
def skipSpace (cs : List Char) : List Char :=
  cs.dropWhile fun c => c = ' ' || c = '\t' || c = '\n' || c = '\r'

def glyphOfCode (code : Nat) : Glyph :=
  if 0xD800 ≤ code ∧ code ≤ 0xDFFF then .surrogate code else .char (Char.ofNat code)

/-- The character that a letter after a backslash stands for. -/
def unescape? : Char → Option Char
  | '"' => some '"'
  | '\\' => some '\\'
  | '/' => some '/'
  | 'b' => some '\x08'
  | 'f' => some '\x0c'
  | 'n' => some '\n'
  | 'r' => some '\r'
  | 't' => some '\t'
  | _ => none

/-- The rest of a quoted text after its opening quote. -/
def readQuoted : Reader (List Glyph)
  | [] => none
  | '"' :: cs => some ([], cs)
  | '\\' :: 'u' :: a :: b :: c :: d :: cs => do
    let code ← Text.hexNumber? [a, b, c, d]
    let (glyphs, rest) ← readQuoted cs
    pure (glyphOfCode code :: glyphs, rest)
  | '\\' :: e :: cs => do
    let c ← unescape? e
    let (glyphs, rest) ← readQuoted cs
    pure (.char c :: glyphs, rest)
  | c :: cs => do
    if c = '\\' ∨ c.toNat < 0x20 then none
    else
      let (glyphs, rest) ← readQuoted cs
      pure (.char c :: glyphs, rest)

/-- The fraction of a number, empty where there is no point. -/
def readFraction : Reader (List Char)
  | '.' :: cs =>
    let digits := cs.takeWhile Char.isDigit
    if digits.isEmpty then none else some (digits, cs.dropWhile Char.isDigit)
  | cs => some ([], cs)

/-- The exponent of a number, with its sign. -/
def readExponent : Reader (Option (Bool × List Char))
  | [] => some (none, [])
  | e :: cs =>
    if e = 'e' ∨ e = 'E' then
      let (negative, unsigned) :=
        match cs with
        | '-' :: rest => (true, rest)
        | '+' :: rest => (false, rest)
        | _ => (false, cs)
      let digits := unsigned.takeWhile Char.isDigit
      if digits.isEmpty then none
      else some (some (negative, digits), unsigned.dropWhile Char.isDigit)
    else some (none, e :: cs)

/-- A number, of which a minus may have been taken already. -/
def readNumeral (negative : Bool) : Reader Numeral := fun cs => do
  let whole := cs.takeWhile Char.isDigit
  if whole.isEmpty ∨ (whole.head? = some '0' ∧ 1 < whole.length) then none
  else
    let rest := cs.dropWhile Char.isDigit
    let (fraction, rest) ← readFraction rest
    let (exponent, rest) ← readExponent rest
    pure (⟨negative, whole, fraction, exponent⟩, rest)

mutual

/-- A value, in which at most `room` lists and objects lie inside one another. The fuel bounds the
steps; twice the length of the text is enough. -/
def readValue (room : Nat) : Nat → Reader Tree
  | 0, _ => none
  | fuel + 1, cs =>
    match skipSpace cs with
    | 'n' :: 'u' :: 'l' :: 'l' :: rest => some (.null, rest)
    | 't' :: 'r' :: 'u' :: 'e' :: rest => some (.boolean true, rest)
    | 'f' :: 'a' :: 'l' :: 's' :: 'e' :: rest => some (.boolean false, rest)
    | '"' :: rest => (readQuoted rest).map fun (glyphs, rest) => (.text glyphs, rest)
    | '[' :: rest =>
      match room, skipSpace rest with
      | 0, _ => none
      | _, ']' :: rest => some (.list [], rest)
      | room + 1, rest => (readItems room fuel rest).map fun (items, rest) => (.list items, rest)
    | '\x7b' :: rest =>
      match room, skipSpace rest with
      | 0, _ => none
      | _, '\x7d' :: rest => some (.object [], rest)
      | room + 1, rest =>
        (readMembers room fuel rest).map fun (members, rest) => (.object members, rest)
    | '-' :: rest => (readNumeral true rest).map fun (n, rest) => (.number n, rest)
    | rest => (readNumeral false rest).map fun (n, rest) => (.number n, rest)

/-- The items of a list up to its closing bracket. -/
def readItems (room : Nat) : Nat → Reader (List Tree)
  | 0, _ => none
  | fuel + 1, cs => do
    let (item, rest) ← readValue room fuel cs
    match skipSpace rest with
    | ']' :: rest => pure ([item], rest)
    | ',' :: rest =>
      let (items, rest) ← readItems room fuel rest
      pure (item :: items, rest)
    | _ => none

/-- The members of an object up to its closing brace. -/
def readMembers (room : Nat) : Nat → Reader (List (List Glyph × Tree))
  | 0, _ => none
  | fuel + 1, cs =>
    match skipSpace cs with
    | '"' :: rest => do
      let (key, rest) ← readQuoted rest
      match skipSpace rest with
      | ':' :: rest =>
        let (value, rest) ← readValue room fuel rest
        match skipSpace rest with
        | '\x7d' :: rest => pure ([(key, value)], rest)
        | ',' :: rest =>
          let (members, rest) ← readMembers room fuel rest
          pure ((key, value) :: members, rest)
        | _ => none
      | _ => none
    | _ => none

end

/-- Reads a whole text with a bound on the nesting. -/
def read? (room : Nat) (cs : List Char) : Option Tree :=
  match readValue room (2 * cs.length + 2) cs with
  | some (tree, rest) => if (skipSpace rest).isEmpty then some tree else none
  | none => none

end Tree

end CreditScorecard.Json
