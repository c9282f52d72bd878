import CreditScorecard.Text.Blank
import CreditScorecard.Timestamp.Basic

/-! # Instants as text

Instants are written in the form of RFC 3339, in universal time. They are read leniently: white
space may stand around the parts of the date and time, the hour need not have two digits, and the
offset may be `Z`, `UTC` or hours and minutes with or without a colon.
-/

namespace CreditScorecard

/-- Why a text is not an instant. -/
inductive TimestampError where
  | outOfRange
  | impossible
  | invalid
  | tooShort
  | tooLong
deriving DecidableEq, Repr

def TimestampError.message : TimestampError → String
  | .outOfRange => "input is out of range"
  | .impossible => "no possible date and time matching input"
  | .invalid => "input contains invalid characters"
  | .tooShort => "premature end of input"
  | .tooLong => "trailing input"

namespace Timestamp

/-- A reader takes its value from the start of the text that is left. -/
abbrev Reader := StateT (List Char) (Except TimestampError)

def skipBlanks : Reader Unit :=
  modify Text.trimLeft

/-- A number of one to `width` digits. Its value has to stay below `2 ^ 63`. -/
def readNumber (width : Nat) : Reader Nat := do
  let cs ← get
  let digits := (cs.take width).takeWhile Char.isDigit
  let value := Nat.ofDigitChars 10 digits 0
  if cs.isEmpty then throw .tooShort
  else if digits.isEmpty then throw .invalid
  else if value < 0x8000000000000000 then
    set (cs.drop digits.length)
    pure value
  else throw .outOfRange

/-- A number in a range, white space before it aside. -/
def readField (least most : Nat) : Reader Nat := do
  skipBlanks
  let value ← readNumber 2
  if least ≤ value ∧ value ≤ most then pure value else throw .outOfRange

/-- A year of 32 bits: four digits at most, or any number of them after a sign. -/
def readYear : Reader Int := do
  skipBlanks
  let year ← (do
    match ← get with
    | '-' :: rest =>
      set rest
      pure (-(← readNumber rest.length : Int))
    | '+' :: rest =>
      set rest
      pure (← readNumber rest.length : Int)
    | _ => pure (← readNumber 4 : Int) : Reader Int)
  if -0x80000000 ≤ year ∧ year < 0x80000000 then pure year else throw .outOfRange

/-- One of the given marks. -/
def readMark (marks : List Char) : Reader Unit := do
  match ← get with
  | [] => throw .tooShort
  | c :: rest => if c ∈ marks then set rest else throw .invalid

/-- The nanoseconds of an optional fraction of a second. Digits after the ninth do not count. -/
def readFraction : Reader Nat := do
  match ← get with
  | '.' :: cs =>
    let places := ((cs.take 9).takeWhile Char.isDigit).length
    set cs
    let value ← readNumber 9
    modify (·.dropWhile Char.isDigit)
    pure (value * Nat.pow 10 (9 - places))
  | _ => pure 0

/-- A number of two digits. A text of fewer than two bytes is too short for it. -/
def readTwoDigits : Reader Nat := do
  match ← get with
  | [] => throw .tooShort
  | [c] => throw (if c.utf8Size < 2 then .tooShort else .invalid)
  | c :: d :: rest =>
    if c.isDigit && d.isDigit then
      set rest
      pure (Nat.ofDigitChars 10 [c, d] 0)
    else throw .invalid

/-- The minutes by which a local clock is ahead of universal time. -/
def readOffset : Reader Int := do
  let cs ← get
  if (cs.take 3).map Char.toLower = ['u', 't', 'c'] then
    set (cs.drop 3)
    pure 0
  else match cs with
    | [] => throw .tooShort
    | c :: rest =>
      set rest
      if c = 'Z' ∨ c = 'z' then pure 0
      else if c = '+' ∨ c = '-' ∨ c = '−' then
        let hours ← readTwoDigits
        modify (·.dropWhile fun c => c = ':' || Text.isBlank c)
        let minutes ← readTwoDigits
        if 60 ≤ minutes then throw .outOfRange
        else
          let ahead : Int := 60 * hours + minutes
          pure (if c = '+' then ahead else -ahead)
      else throw .invalid

/-- A date of three numbers. The day is checked against its month later. -/
def readDate : Reader (Int × Nat × Nat) := do
  let year ← readYear
  skipBlanks
  readMark ['-']
  let month ← readField 1 12
  skipBlanks
  readMark ['-']
  let day ← readField 1 31
  pure (year, month, day)

/-- A time of day. Second 60 is a leap second. -/
def readTime : Reader TimeOfDay := do
  let hour ← readField 0 23
  skipBlanks
  readMark [':']
  let minute ← readField 0 59
  skipBlanks
  readMark [':']
  let second ← readField 0 60
  let nano ← readFraction
  let (second, nano) := if second = 60 then (59, nano + 1000000000) else (second, nano)
  if h : hour < 24 ∧ minute < 60 ∧ second < 60 ∧
      (nano < 1000000000 ∨ (second = 59 ∧ nano < 2000000000)) then
    pure ⟨hour, minute, second, nano, h.1, h.2.1, h.2.2.1, h.2.2.2⟩
  else throw .outOfRange

/-- An instant at the start of a text. -/
def readInstant : Reader Timestamp := do
  let (year, month, day) ← readDate
  readMark ['t', 'T', ' ']
  let time ← readTime
  skipBlanks
  let offset ← readOffset
  skipBlanks
  unless (← get).isEmpty do throw .tooLong
  let some date := Date.ofFields? year month day | throw .outOfRange
  if offset ≤ -1440 ∨ 1440 ≤ offset then throw .outOfRange
  let some instant := ofLocal? date time offset | throw .impossible
  pure instant

/-- Reads an instant. -/
def read (s : String) : Except TimestampError Timestamp :=
  (readInstant.run s.toList).map (·.1)

/-- A number in digits, with zeros in front up to a width. -/
def padded (width n : Nat) : List Char :=
  let digits := Nat.toDigits 10 n
  List.replicate (width - digits.length) '0' ++ digits

/-- A year of four digits, or with a sign and at least four digits outside `0 … 9999`. -/
def yearText (year : Int) : List Char :=
  if 0 ≤ year ∧ year ≤ 9999 then padded 4 year.natAbs
  else (if year < 0 then '-' else '+') :: padded 4 year.natAbs

/-- A fraction of a second in three, six or nine digits, the fewest that lose nothing. -/
def fractionText (nano : Nat) : List Char :=
  if nano = 0 then []
  else if nano % 1000000 = 0 then '.' :: padded 3 (nano / 1000000)
  else if nano % 1000 = 0 then '.' :: padded 6 (nano / 1000)
  else '.' :: padded 9 nano

/-- Writes an instant. A leap second is written as second 60. -/
def text (t : Timestamp) : String :=
  let (second, nano) :=
    if t.time.nano < 1000000000 then (t.time.second, t.time.nano)
    else (t.time.second + 1, t.time.nano - 1000000000)
  String.ofList <|
    yearText t.date.year ++ '-' :: padded 2 t.date.month ++ '-' :: padded 2 t.date.day ++
      'T' :: padded 2 t.time.hour ++ ':' :: padded 2 t.time.minute ++ ':' :: padded 2 second ++
      fractionText nano ++ ['Z']

end Timestamp

end CreditScorecard
