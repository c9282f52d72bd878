import CreditScorecard.Json.Basic
import CreditScorecard.Text.Hexadecimal

/-! # Writing JSON

`Json.compact` writes a value without any white space. `Json.indented` gives each item and member
a line of its own, indented by two spaces for each level.
-/

namespace CreditScorecard.Json

/-- The characters that stand for a character between quotes. -/
def escape (c : Char) : List Char :=
  if c = '"' then ['\\', '"']
  else if c = '\\' then ['\\', '\\']
  else if c = '\n' then ['\\', 'n']
  else if c = '\r' then ['\\', 'r']
  else if c = '\t' then ['\\', 't']
  else if c.toNat = 8 then ['\\', 'b']
  else if c.toNat = 12 then ['\\', 'f']
  else if c.toNat < 0x20 then
    ['\\', 'u', '0', '0', Text.hexDigit (c.toNat / 16), Text.hexDigit c.toNat]
  else [c]

/-- A text between quotes. -/
def quote (s : String) : List Char :=
  '"' :: s.toList.flatMap escape ++ ['"']

mutual

/-- A value without white space. -/
def compactChars : Json → List Char
  | .null => "null".toList
  | .boolean b => if b then "true".toList else "false".toList
  | .number n => n.text.toList
  | .text s => quote s
  | .list [] => ['[', ']']
  | .list (item :: items) => '[' :: compactChars item ++ compactItems items ++ [']']
  | .object [] => ['\x7b', '\x7d']
  | .object ((key, value) :: members) =>
    '\x7b' :: quote key ++ ':' :: compactChars value ++ compactMembers members ++ ['\x7d']

/-- The items after the first, each after a comma. -/
def compactItems : List Json → List Char
  | [] => []
  | item :: items => ',' :: compactChars item ++ compactItems items

/-- The members after the first, each after a comma. -/
def compactMembers : List (String × Json) → List Char
  | [] => []
  | (key, value) :: members =>
    ',' :: quote key ++ ':' :: compactChars value ++ compactMembers members

end

/-- The compact text of a value. -/
def compact (v : Json) : String :=
  String.ofList (compactChars v)

/-- The start of a line at a level of nesting. -/
def newLine (level : Nat) : List Char :=
  '\n' :: List.replicate (2 * level) ' '

mutual

/-- A value on several lines, of which the first is at a level of nesting. -/
def indentedChars (level : Nat) : Json → List Char
  | .null => "null".toList
  | .boolean b => if b then "true".toList else "false".toList
  | .number n => n.text.toList
  | .text s => quote s
  | .list [] => ['[', ']']
  | .list (item :: items) =>
    '[' :: newLine (level + 1) ++ indentedChars (level + 1) item ++
      indentedItems (level + 1) items ++ newLine level ++ [']']
  | .object [] => ['\x7b', '\x7d']
  | .object ((key, value) :: members) =>
    '\x7b' :: newLine (level + 1) ++ quote key ++ ':' :: ' ' :: indentedChars (level + 1) value ++
      indentedMembers (level + 1) members ++ newLine level ++ ['\x7d']

def indentedItems (level : Nat) : List Json → List Char
  | [] => []
  | item :: items =>
    ',' :: newLine level ++ indentedChars level item ++ indentedItems level items

def indentedMembers (level : Nat) : List (String × Json) → List Char
  | [] => []
  | (key, value) :: members =>
    ',' :: newLine level ++ quote key ++ ':' :: ' ' :: indentedChars level value ++
      indentedMembers level members

end

/-- The text of a value on indented lines. -/
def indented (v : Json) : String :=
  String.ofList (indentedChars 0 v)

end CreditScorecard.Json
