import CreditScorecard.Decimal
import CreditScorecard.Proofs.Text.Digits
import Mathlib.Data.List.TakeWhile

/-! # Written decimals

An unsigned decimal is digits with or without a point, digits that follow the point, and perhaps an
exponent. Reading takes exactly the spelling where what follows it cannot be part of it, and what it
takes from any text is a spelling.
-/

namespace CreditScorecard.Decimal

open Text

/-! ## Digits -/

theorem spanDigits_append {digits rest : List Char} (hdigits : ∀ c ∈ digits, c.isDigit = true)
    (hrest : Stops Char.isDigit rest) : spanDigits (digits ++ rest) = (digits, rest) := by
  rw [spanDigits, takeWhile_append_of_stops hdigits hrest, dropWhile_append_of_stops hdigits hrest]

theorem spanDigits_self {digits : List Char} (hdigits : ∀ c ∈ digits, c.isDigit = true) :
    spanDigits digits = (digits, []) := by
  have hspan := spanDigits_append hdigits (stops_nil Char.isDigit)
  rwa [List.append_nil] at hspan

theorem eq_append_of_spanDigits {cs digits rest : List Char}
    (h : spanDigits cs = (digits, rest)) :
    cs = digits ++ rest ∧ ∀ c ∈ digits, c.isDigit = true := by
  obtain ⟨rfl, rfl⟩ := Prod.mk.inj h
  exact ⟨List.takeWhile_append_dropWhile.symm, fun c hc => (List.mem_takeWhile_imp hc)⟩

/-! ## Exponents -/

/-- The letters that announce an exponent. -/
def isExponentLetter (c : Char) : Bool :=
  c == 'e' || c == 'E'

theorem isExponentLetter_iff {c : Char} : isExponentLetter c = true ↔ c = 'e' ∨ c = 'E' := by
  simp [isExponentLetter]

/-- An exponent as it is written. -/
structure WrittenExponent where
  letter : Char
  sign : List Char
  digits : List Char
  isLetter : isExponentLetter letter = true
  isSign : sign ∈ [[], ['+'], ['-']]
  isDigit : ∀ c ∈ digits, c.isDigit = true
  digits_ne : digits ≠ []

namespace WrittenExponent

def chars (e : WrittenExponent) : List Char :=
  e.letter :: (e.sign ++ e.digits)

def value (e : WrittenExponent) : Int :=
  if e.sign = ['-'] then -Nat.ofDigitChars 10 e.digits 0 else Nat.ofDigitChars 10 e.digits 0

end WrittenExponent

/-- The characters of a written decimal that are not digits. -/
def marks : List Char :=
  ['.', 'e', 'E', '+', '-']

theorem isBlank_eq_false_of_mem_marks {c : Char} (h : c ∈ marks) : isBlank c = false := by
  have hmarks : marks.all (!isBlank ·) = true := by decide
  exact (Bool.not_eq_true' _).mp (List.all_eq_true.mp hmarks c h)

theorem mem_marks_of_mem_sign {sign : List Char} (hsign : sign ∈ [[], ['+'], ['-']]) {c : Char}
    (h : c ∈ sign) : c ∈ marks := by
  simp only [List.mem_cons, List.not_mem_nil, or_false] at hsign
  rcases hsign with rfl | rfl | rfl
  · cases h
  · rw [List.mem_singleton.mp h]
    decide
  · rw [List.mem_singleton.mp h]
    decide

theorem WrittenExponent.isDigit_or_mem_marks {e : WrittenExponent} {c : Char} (h : c ∈ e.chars) :
    c.isDigit = true ∨ c ∈ marks := by
  rw [chars, List.mem_cons, List.mem_append] at h
  rcases h with rfl | hsign | hdigit
  · right
    rcases isExponentLetter_iff.mp e.isLetter with hletter | hletter <;> rw [hletter] <;> decide
  · exact .inr (mem_marks_of_mem_sign e.isSign hsign)
  · exact .inl (e.isDigit c hdigit)

theorem ne_sign_of_isDigit {c : Char} (h : c.isDigit = true) : c ≠ '-' ∧ c ≠ '+' :=
  ⟨ne_of_isDigit h (by decide), ne_of_isDigit h (by decide)⟩

theorem spanSign_sign {sign cs : List Char} (h : sign ∈ [[], ['+'], ['-']])
    (hcs : ∀ c ∈ cs.head?, c ≠ '-' ∧ c ≠ '+') :
    spanSign (sign ++ cs) = (decide (sign = ['-']), cs) := by
  simp only [List.mem_cons, List.not_mem_nil, or_false] at h
  rcases h with rfl | rfl | rfl
  · cases cs with
    | nil => rfl
    | cons c cs =>
        obtain ⟨hminus, hplus⟩ := hcs c rfl
        simp [spanSign, hminus, hplus]
  · rfl
  · rfl

theorem exists_sign_of_spanSign {cs rest : List Char} {negative : Bool}
    (h : spanSign cs = (negative, rest)) :
    ∃ sign ∈ [[], ['+'], ['-']], cs = sign ++ rest ∧ negative = decide (sign = ['-']) := by
  unfold spanSign at h
  split at h
  · obtain ⟨rfl, rfl⟩ := Prod.mk.inj h
    exact ⟨['-'], by simp, rfl, by decide⟩
  · obtain ⟨rfl, rfl⟩ := Prod.mk.inj h
    exact ⟨['+'], by simp, rfl, by decide⟩
  · obtain ⟨rfl, rfl⟩ := Prod.mk.inj h
    exact ⟨[], by simp, rfl, by decide⟩

theorem spanExponent_of_stops {cs : List Char} (h : Stops isExponentLetter cs) :
    spanExponent cs = (0, cs) := by
  cases cs with
  | nil => rfl
  | cons c cs =>
      have hc : ¬(c = 'e' ∨ c = 'E') := by
        rw [← isExponentLetter_iff, Bool.not_eq_true]
        exact (stops_cons _ _ _).mp h
      rw [spanExponent, if_neg hc]

theorem spanExponent_append (e : WrittenExponent) {rest : List Char}
    (h : Stops Char.isDigit rest) : spanExponent (e.chars ++ rest) = (e.value, rest) := by
  have hletter : e.letter = 'e' ∨ e.letter = 'E' := isExponentLetter_iff.mp e.isLetter
  have hhead : ∀ c ∈ (e.digits ++ rest).head?, c ≠ '-' ∧ c ≠ '+' := by
    obtain ⟨first, others, hdigits⟩ := List.exists_cons_of_ne_nil e.digits_ne
    have hfirst := ne_sign_of_isDigit (e.isDigit first (by simp [hdigits]))
    simpa [hdigits] using hfirst
  have hempty : e.digits.isEmpty = false := by simpa using e.digits_ne
  simp only [WrittenExponent.chars, List.cons_append, List.append_assoc, spanExponent,
    if_pos hletter, spanSign_sign e.isSign hhead, spanDigits_append e.isDigit h, hempty,
    decide_eq_true_eq, Bool.false_eq_true, if_false, WrittenExponent.value]

/-- An exponent is read as it is written, or there is none. -/
theorem spanExponent_cases (cs : List Char) :
    spanExponent cs = (0, cs) ∨
      ∃ (e : WrittenExponent) (rest : List Char), cs = e.chars ++ rest ∧
        spanExponent cs = (e.value, rest) := by
  cases cs with
  | nil => exact .inl rfl
  | cons c cs =>
      by_cases hletter : c = 'e' ∨ c = 'E'
      · rcases hsign : spanSign cs with ⟨negative, unsigned⟩
        rcases hspan : spanDigits unsigned with ⟨digits, rest⟩
        by_cases hempty : digits = []
        · left
          simp [spanExponent, hletter, hsign, hspan, hempty]
        · right
          obtain ⟨sign, hmem, rfl, rfl⟩ := exists_sign_of_spanSign hsign
          obtain ⟨rfl, hdigits⟩ := eq_append_of_spanDigits hspan
          refine ⟨⟨c, sign, digits, isExponentLetter_iff.mpr hletter, hmem, hdigits, hempty⟩,
            rest, by simp [WrittenExponent.chars], ?_⟩
          simp [spanExponent, hletter, hsign, hspan, hempty, WrittenExponent.value]
      · left
        rw [spanExponent, if_neg hletter]

theorem isDigit_eq_false_of_isExponentLetter {c : Char} (h : isExponentLetter c = true) :
    c.isDigit = false := by
  rcases isExponentLetter_iff.mp h with rfl | rfl <;> decide

theorem ne_point_of_isExponentLetter {c : Char} (h : isExponentLetter c = true) :
    (c == '.') = false := by
  rcases isExponentLetter_iff.mp h with rfl | rfl <;> decide

theorem isBlank_eq_false_of_isExponentLetter {c : Char} (h : isExponentLetter c = true) :
    isBlank c = false := by
  rcases isExponentLetter_iff.mp h with rfl | rfl <;> decide

/-! ## Fractions -/

/-- A point at the start of a text and the digits after it, if there is a point, and the text after
them. -/
def spanFraction : List Char → Option (List Char) × List Char
  | '.' :: cs => (some (spanDigits cs).1, (spanDigits cs).2)
  | cs => (none, cs)

def fractionChars (fraction : Option (List Char)) : List Char :=
  fraction.elim [] ('.' :: ·)

theorem spanFraction_of_stops {cs : List Char} (h : Stops (· == '.') cs) :
    spanFraction cs = (none, cs) := by
  cases cs with
  | nil => rfl
  | cons c cs =>
      have hc : c ≠ '.' := by simpa using h
      simp [spanFraction, hc]

theorem spanFraction_append {fraction : Option (List Char)} {rest : List Char}
    (hdigits : ∀ digits ∈ fraction, ∀ c ∈ digits, c.isDigit = true)
    (hrest : Stops Char.isDigit rest) (hpoint : fraction = none → Stops (· == '.') rest) :
    spanFraction (fractionChars fraction ++ rest) = (fraction, rest) := by
  cases fraction with
  | none => exact spanFraction_of_stops (hpoint rfl)
  | some digits =>
      have hspan := spanDigits_append (hdigits digits rfl) hrest
      simp [fractionChars, spanFraction, hspan]

theorem eq_append_of_spanFraction {cs rest : List Char} {fraction : Option (List Char)}
    (h : spanFraction cs = (fraction, rest)) :
    cs = fractionChars fraction ++ rest ∧
      ∀ digits ∈ fraction, ∀ c ∈ digits, c.isDigit = true := by
  unfold spanFraction at h
  split at h
  case h_1 cs =>
    obtain ⟨rfl, rfl⟩ := Prod.mk.inj h
    obtain ⟨happend, hdigits⟩ := @eq_append_of_spanDigits cs _ _ rfl
    refine ⟨congrArg ('.' :: ·) happend, ?_⟩
    rintro digits ⟨⟩
    exact hdigits
  case h_2 =>
    obtain ⟨rfl, rfl⟩ := Prod.mk.inj h
    exact ⟨rfl, fun _ hdigits => nomatch hdigits⟩

/-- Reading takes the digits before the point, the fraction and the exponent one after the other. -/
theorem readPrefix?_eq (cs : List Char) :
    readPrefix? cs =
      let (whole, rest) := spanDigits cs
      let (fraction, rest) := spanFraction rest
      let (exponent, rest) := spanExponent rest
      if whole = [] ∧ fraction.getD [] = [] then none
      else some (ofDigits whole (fraction.getD []) exponent, rest) := by
  unfold readPrefix?
  rcases spanDigits cs with ⟨whole, rest⟩
  dsimp only
  unfold spanFraction
  split
  · simp
  · simp

/-! ## Decimals -/

/-- An unsigned decimal as it is written: at least one digit before or after the point, which may be
missing. -/
structure Spelling where
  whole : List Char
  fraction : Option (List Char) := none
  exponent : Option WrittenExponent := none
  isDigit_whole : ∀ c ∈ whole, c.isDigit = true
  isDigit_fraction : ∀ digits ∈ fraction, ∀ c ∈ digits, c.isDigit = true
  digits_ne : ¬(whole = [] ∧ fraction.getD [] = [])

namespace Spelling

/-- Digits alone. -/
def ofWhole (whole : List Char) (isDigit_whole : ∀ c ∈ whole, c.isDigit = true)
    (ne_nil : whole ≠ []) : Spelling where
  whole := whole
  isDigit_whole := isDigit_whole
  isDigit_fraction := by simp
  digits_ne := fun h => ne_nil h.1

def exponentChars (s : Spelling) : List Char :=
  s.exponent.elim [] WrittenExponent.chars

def power (s : Spelling) : Int :=
  s.exponent.elim 0 WrittenExponent.value

def chars (s : Spelling) : List Char :=
  s.whole ++ (fractionChars s.fraction ++ s.exponentChars)

/-- What a spelling stands for. -/
def decimal (s : Spelling) : Decimal :=
  ofDigits s.whole (s.fraction.getD []) s.power

/-- The same decimal, written with a point. -/
def withPoint (s : Spelling) : Spelling :=
  { s with
    fraction := some (s.fraction.getD [])
    isDigit_fraction := by
      rintro digits ⟨⟩
      cases hf : s.fraction with
      | none => simp
      | some digits => exact s.isDigit_fraction digits hf
    digits_ne := s.digits_ne }

/-- The digits of a spelling, written without a point. -/
def withoutPoint (s : Spelling) : Spelling :=
  { s with
    whole := s.whole ++ s.fraction.getD []
    fraction := none
    isDigit_whole := by
      cases hf : s.fraction with
      | none => simpa using s.isDigit_whole
      | some digits =>
          exact List.forall_mem_append.mpr ⟨s.isDigit_whole, s.isDigit_fraction digits hf⟩
    isDigit_fraction := by simp
    digits_ne := by simpa using s.digits_ne }

/-- The text after a spelling cannot be taken for a part of it. -/
structure Ends (s : Spelling) (rest : List Char) : Prop where
  digit : Stops Char.isDigit rest
  letter : Stops isExponentLetter rest
  point : s.fraction = none → s.exponent = none → Stops (· == '.') rest

variable (s : Spelling)

/-- A spelling consists of digits and marks. -/
theorem isDigit_or_mem_marks {c : Char} (h : c ∈ s.chars) : c.isDigit = true ∨ c ∈ marks := by
  rw [chars, List.mem_append, List.mem_append] at h
  rcases h with hwhole | hfraction | hexponent
  · exact .inl (s.isDigit_whole c hwhole)
  · cases hf : s.fraction with
    | none => simp [fractionChars, hf] at hfraction
    | some digits =>
        rw [hf, fractionChars, Option.elim_some, List.mem_cons] at hfraction
        rcases hfraction with rfl | hdigit
        · exact .inr (by decide)
        · exact .inl (s.isDigit_fraction digits hf c hdigit)
  · cases he : s.exponent with
    | none => simp [exponentChars, he] at hexponent
    | some e =>
        rw [exponentChars, he, Option.elim_some] at hexponent
        exact WrittenExponent.isDigit_or_mem_marks hexponent

theorem chars_eq_whole (hfraction : s.fraction = none) (hexponent : s.exponent = none) :
    s.chars = s.whole := by
  simp [chars, fractionChars, exponentChars, hfraction, hexponent]

theorem chars_withPoint (hfraction : s.fraction = none) (hexponent : s.exponent = none) :
    s.withPoint.chars = s.chars ++ ['.'] := by
  simp [chars, withPoint, fractionChars, exponentChars, hfraction, hexponent]

theorem ends_withPoint (rest : List Char) : s.withPoint.Ends ('.' :: rest) :=
  ⟨(stops_cons _ _ _).mpr (by decide), (stops_cons _ _ _).mpr (by decide), fun h => nomatch h⟩

/-- A spelling that begins with a point is that point and a spelling without one. -/
theorem chars_eq_cons_withoutPoint (h : s.whole = []) : s.chars = '.' :: s.withoutPoint.chars := by
  cases hf : s.fraction with
  | none => exact absurd ⟨h, by rw [hf]; rfl⟩ s.digits_ne
  | some digits => simp [chars, withoutPoint, fractionChars, exponentChars, h, hf]

theorem whole_withoutPoint_ne_nil : s.withoutPoint.whole ≠ [] := by
  simpa [withoutPoint] using s.digits_ne

/-- A spelling begins with a digit or with a point. -/
theorem exists_chars_eq_cons :
    ∃ first others, s.chars = first :: others ∧
      (first.isDigit = true ∨ first = '.' ∧ s.whole = []) := by
  cases hw : s.whole with
  | nil => exact ⟨'.', s.withoutPoint.chars, s.chars_eq_cons_withoutPoint hw, .inr ⟨rfl, rfl⟩⟩
  | cons first digits =>
      refine ⟨first, digits ++ (fractionChars s.fraction ++ s.exponentChars), ?_, ?_⟩
      · rw [chars, hw, List.cons_append]
      · exact .inl (s.isDigit_whole first (by simp [hw]))

theorem chars_ne_nil : s.chars ≠ [] := by
  obtain ⟨first, others, hchars, -⟩ := s.exists_chars_eq_cons
  simp [hchars]

/-- A spelling does not begin with a sign. -/
theorem ne_sign_of_mem_head? {rest : List Char} {c : Char} (h : c ∈ (s.chars ++ rest).head?) :
    c ≠ '-' ∧ c ≠ '+' := by
  obtain ⟨first, others, hchars, hfirst⟩ := s.exists_chars_eq_cons
  rw [hchars, List.cons_append, List.head?_cons, Option.mem_some_iff] at h
  subst h
  rcases hfirst with hdigit | ⟨rfl, -⟩
  · exact ne_sign_of_isDigit hdigit
  · decide

theorem spanSign_chars_append (rest : List Char) :
    spanSign (s.chars ++ rest) = (false, s.chars ++ rest) := by
  have hnone : [] ∈ [[], ['+'], ['-']] := by simp
  exact spanSign_sign hnone fun c hc => s.ne_sign_of_mem_head? hc

theorem isBlank_eq_false_of_mem_chars {c : Char} (h : c ∈ s.chars) : isBlank c = false := by
  rcases s.isDigit_or_mem_marks h with hdigit | hmark
  · exact isBlank_eq_false_of_isDigit hdigit
  · exact isBlank_eq_false_of_mem_marks hmark

theorem stops_isBlank_chars_append (rest : List Char) : Stops isBlank (s.chars ++ rest) := by
  obtain ⟨first, others, hchars, hfirst⟩ := s.exists_chars_eq_cons
  rw [hchars, List.cons_append, stops_cons]
  rcases hfirst with hdigit | ⟨rfl, -⟩
  · exact isBlank_eq_false_of_isDigit hdigit
  · decide

theorem stops_point_chars_append (h : s.whole ≠ []) (rest : List Char) :
    Stops (· == '.') (s.chars ++ rest) := by
  obtain ⟨first, others, hchars, hdigit | ⟨-, hnil⟩⟩ := s.exists_chars_eq_cons
  · rw [hchars, List.cons_append, stops_cons, beq_eq_false_iff_ne]
    exact ne_of_isDigit hdigit (by decide)
  · exact absurd hnil h

theorem stops_exponentChars_append {p : Char → Bool} {rest : List Char}
    (hletter : ∀ c, isExponentLetter c = true → p c = false)
    (hrest : s.exponent = none → Stops p rest) : Stops p (s.exponentChars ++ rest) := by
  cases he : s.exponent with
  | none => simpa [exponentChars, he] using hrest he
  | some e => simpa [exponentChars, he, WrittenExponent.chars] using hletter _ e.isLetter

theorem stops_fractionChars_append {fraction : Option (List Char)} {cs : List Char}
    (h : Stops Char.isDigit cs) : Stops Char.isDigit (fractionChars fraction ++ cs) := by
  cases fraction with
  | none => exact h
  | some digits => exact (stops_cons _ _ _).mpr (by decide)

theorem spanExponent_exponentChars_append {rest : List Char} (h : s.Ends rest) :
    spanExponent (s.exponentChars ++ rest) = (s.power, rest) := by
  cases he : s.exponent with
  | none => simpa [exponentChars, power, he] using spanExponent_of_stops h.letter
  | some e => simpa [exponentChars, power, he] using spanExponent_append e h.digit

/-- Reading takes a spelling as far as it goes. -/
theorem readPrefix?_append {rest : List Char} (h : s.Ends rest) :
    readPrefix? (s.chars ++ rest) = some (s.decimal, rest) := by
  have hdigit : Stops Char.isDigit (s.exponentChars ++ rest) :=
    s.stops_exponentChars_append (fun _ => isDigit_eq_false_of_isExponentLetter) fun _ => h.digit
  have hwhole : spanDigits (s.chars ++ rest) =
      (s.whole, fractionChars s.fraction ++ (s.exponentChars ++ rest)) := by
    rw [chars, List.append_assoc, List.append_assoc]
    exact spanDigits_append s.isDigit_whole (stops_fractionChars_append hdigit)
  have hfraction : spanFraction (fractionChars s.fraction ++ (s.exponentChars ++ rest)) =
      (s.fraction, s.exponentChars ++ rest) := by
    apply spanFraction_append s.isDigit_fraction hdigit
    exact fun hnone => s.stops_exponentChars_append (fun _ => ne_point_of_isExponentLetter)
      (h.point hnone)
  simp only [readPrefix?_eq, hwhole, hfraction, s.spanExponent_exponentChars_append h,
    if_neg s.digits_ne, decimal]

/-- What reading takes is a spelling. -/
theorem exists_of_readPrefix? {cs rest : List Char} {d : Decimal}
    (h : readPrefix? cs = some (d, rest)) :
    ∃ s : Spelling, cs = s.chars ++ rest ∧ s.decimal = d := by
  rw [readPrefix?_eq] at h
  rcases hwhole : spanDigits cs with ⟨whole, cs₁⟩
  rcases hfraction : spanFraction cs₁ with ⟨fraction, cs₂⟩
  rcases hexponent : spanExponent cs₂ with ⟨exponent, cs₃⟩
  simp only [hwhole, hfraction, hexponent] at h
  by_cases hne : whole = [] ∧ fraction.getD [] = []
  · rw [if_pos hne] at h
    cases h
  · rw [if_neg hne] at h
    obtain ⟨rfl, rfl⟩ := Prod.mk.inj (Option.some.inj h)
    obtain ⟨rfl, hdigits⟩ := eq_append_of_spanDigits hwhole
    obtain ⟨rfl, hdigits'⟩ := eq_append_of_spanFraction hfraction
    rcases spanExponent_cases cs₂ with hnone | ⟨e, rest, rfl, hsome⟩
    · obtain ⟨rfl, rfl⟩ := Prod.mk.inj (hexponent.symm.trans hnone)
      exact ⟨⟨whole, fraction, none, hdigits, hdigits', hne⟩, by simp [chars, exponentChars], rfl⟩
    · obtain ⟨rfl, rfl⟩ := Prod.mk.inj (hexponent.symm.trans hsome)
      exact ⟨⟨whole, fraction, some e, hdigits, hdigits', hne⟩, by simp [chars, exponentChars], rfl⟩

theorem read?_chars : read? s.chars = some s.decimal := by
  have hends : s.Ends [] := ⟨stops_nil _, stops_nil _, fun _ _ => stops_nil _⟩
  have hread := s.readPrefix?_append hends
  rw [List.append_nil] at hread
  rw [read?, hread]

/-- What is read from end to end is a spelling. -/
theorem exists_of_read? {cs : List Char} {d : Decimal} (h : read? cs = some d) :
    ∃ s : Spelling, cs = s.chars ∧ s.decimal = d := by
  unfold read? at h
  split at h
  · rename_i hread
    obtain ⟨s, hchars, hdecimal⟩ := exists_of_readPrefix? hread
    rw [List.append_nil] at hchars
    exact ⟨s, hchars, hdecimal.trans (Option.some.inj h)⟩
  · cases h

end Spelling

end CreditScorecard.Decimal
