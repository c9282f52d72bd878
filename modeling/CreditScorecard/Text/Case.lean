import CreditScorecard.Text.CaseTable

/-! # Changing the case of a text

`lower` is the full lower-case mapping of the Unicode standard, in which a capital sigma at the
end of a word becomes a final sigma. `upperChar` is the full upper-case mapping of one character.
`lowerAscii` changes the letters `A` to `Z` only, as `Char.toLower` does.
-/

namespace CreditScorecard.Text

/-- The image of a character under the first run that covers it, or the character itself. -/
def mapCase (runs : List CaseRun) (c : Char) : Char :=
  match runs.find? (·.covers c.toNat) with
  | some run => Char.ofNat (run.apply c.toNat)
  | none => c

def inRuns (runs : List (Nat × Nat)) (c : Char) : Bool :=
  runs.any fun run => run.1 ≤ c.toNat && c.toNat ≤ run.2

/-- The upper-case form of a character, which may have up to three characters. -/
def upperChar (c : Char) : List Char :=
  match upperExpansions.find? (·.1 == c.toNat) with
  | some expansion => expansion.2.map Char.ofNat
  | none => [mapCase upperRuns c]

def isCased (c : Char) : Bool :=
  inRuns casedRuns c

def isCaseIgnorable (c : Char) : Bool :=
  inRuns caseIgnorableRuns c

/-- Whether a cased character comes first once the ignorable ones are passed over. -/
def startsCased (cs : List Char) : Bool :=
  match cs.dropWhile isCaseIgnorable with
  | [] => false
  | c :: _ => isCased c

/-- The lower-case form of one character between the text before it, nearest character first, and
the text after it. A capital sigma that ends a word becomes a final sigma. -/
def lowerChar (before : List Char) (c : Char) (after : List Char) : List Char :=
  if c.toNat < 0x80 then [c.toLower]
  else if c = 'Σ' then [if startsCased before && !startsCased after then 'ς' else 'σ']
  else if c = 'İ' then ['i', Char.ofNat 0x307]
  else [mapCase lowerRuns c]

def lowerAfter (before : List Char) : List Char → List Char
  | [] => []
  | c :: cs => lowerChar before c cs ++ lowerAfter (c :: before) cs

/-- The lower-case form of a text. -/
def lower (cs : List Char) : List Char :=
  lowerAfter [] cs

/-- The lower-case form of a text in which the letters `A` to `Z` alone change. -/
def lowerAscii (s : String) : String :=
  String.ofList (s.toList.map Char.toLower)

/-- Whether one text occurs in another as a contiguous part. -/
def occursIn (part : List Char) : List Char → Bool
  | [] => part.isEmpty
  | c :: cs => part.isPrefixOf (c :: cs) || occursIn part cs

theorem occursIn_iff_isInfix {part whole : List Char} :
    occursIn part whole = true ↔ part <:+: whole := by
  induction whole with
  | nil => simp [occursIn]
  | cons c cs ih =>
    simp only [occursIn, Bool.or_eq_true, List.isPrefixOf_iff_prefix, ih, List.infix_cons_iff]

end CreditScorecard.Text
