/-! # White space and trimming

The 25 characters of the Unicode property `White_Space`. `trim` strips them from both ends of a
text; a text is blank when it holds nothing else, which is when trimming leaves it empty.
-/

namespace CreditScorecard.Text

/-- The characters that separate words: the Unicode property `White_Space`. -/
def isBlank (c : Char) : Bool :=
  let n := c.toNat
  (9 ≤ n && n ≤ 13) || n == 0x20 || n == 0x85 || n == 0xA0 || n == 0x1680 ||
    (0x2000 ≤ n && n ≤ 0x200A) || n == 0x2028 || n == 0x2029 || n == 0x202F || n == 0x205F ||
    n == 0x3000

/-- Removes white space at the start. -/
def trimLeft (cs : List Char) : List Char :=
  cs.dropWhile isBlank

/-- Removes white space at the end. -/
def trimRight (cs : List Char) : List Char :=
  (cs.reverse.dropWhile isBlank).reverse

/-- Removes white space at both ends. -/
def trimChars (cs : List Char) : List Char :=
  trimRight (trimLeft cs)

/-- Removes white space at both ends of a text. -/
def trim (s : String) : String :=
  String.ofList (trimChars s.toList)

/-- A text is blank when it holds white space only. -/
def blank (s : String) : Bool :=
  s.toList.all isBlank

/-- The pieces of a text between the occurrences of a separator; always at least one. -/
def splitAt (separator : Char) : List Char → List (List Char)
  | [] => [[]]
  | c :: cs =>
    if c = separator then [] :: splitAt separator cs
    else match splitAt separator cs with
      | [] => [[c]]
      | piece :: pieces => (c :: piece) :: pieces

/-- Joins texts, with a separator between each two. -/
def join (separator : String) : List String → String
  | [] => ""
  | [s] => s
  | s :: rest => s ++ separator ++ join separator rest

theorem trimLeft_eq_nil_iff {cs : List Char} : trimLeft cs = [] ↔ cs.all isBlank := by
  induction cs with
  | nil => simp [trimLeft]
  | cons c cs ih =>
    by_cases h : isBlank c
    · simp only [trimLeft, List.dropWhile_cons, h, if_true, List.all_cons, Bool.true_and]
      exact ih
    · simp [trimLeft, h]

theorem splitAt_ne_nil (separator : Char) (cs : List Char) : splitAt separator cs ≠ [] := by
  cases cs with
  | nil => simp [splitAt]
  | cons c cs =>
    simp only [splitAt]
    split
    · simp
    · split <;> simp

@[simp]
theorem toList_trim (s : String) : (trim s).toList = trimChars s.toList := by
  simp [trim]

end CreditScorecard.Text
