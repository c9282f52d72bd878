import CreditScorecard.Literal.Range
import CreditScorecard.Proofs.Decimal.Spelling
import CreditScorecard.Proofs.Text.Trim

/-! # The layout of a range literal

A range literal is laid out as two written decimals around a delimiter, with white space between
any two parts. Its first reading is that of the layout, unless a run of points stands directly
before an upper bound that begins with a point: the run then takes that point too.
-/

namespace CreditScorecard

open Text Decimal

/-! ## Parts of a literal -/

namespace Text

/-- White space of any length. -/
abbrev Blanks := { cs : List Char // ∀ c ∈ cs, isBlank c = true }

def noBlanks : Blanks :=
  ⟨[], by simp⟩

theorem stops_append_of_blanks {p : Char → Bool} {cs : List Char} (blanks : Blanks)
    (hp : ∀ c, p c = true → isBlank c = false) (h : blanks.val = [] → Stops p cs) :
    Stops p (blanks.val ++ cs) := by
  obtain ⟨_ | ⟨b, blanks⟩, hblanks⟩ := blanks
  · exact h rfl
  · rw [List.cons_append, stops_cons, Bool.eq_false_iff]
    intro hb
    have hblank := hblanks b List.mem_cons_self
    rw [hp b hb] at hblank
    cases hblank

theorem stops_blanks {p : Char → Bool} (blanks : Blanks)
    (hp : ∀ c, p c = true → isBlank c = false) : Stops p blanks.val := by
  have hstops := stops_append_of_blanks blanks hp fun _ => stops_nil p
  rwa [List.append_nil] at hstops

theorem isBlank_eq_false_of_point (c : Char) (h : (c == '.') = true) : isBlank c = false := by
  rw [eq_of_beq h]
  decide

theorem trimLeft_blanks_append {cs : List Char} (blanks : Blanks) (h : Stops isBlank cs) :
    trimLeft (blanks.val ++ cs) = cs :=
  dropWhile_append_of_stops blanks.property h

theorem exists_blanks_append_trimLeft (cs : List Char) :
    ∃ blanks : Blanks, cs = blanks.val ++ trimLeft cs :=
  let ⟨left, hleft, hcs⟩ := exists_eq_append_trimLeft cs
  ⟨⟨left, hleft⟩, hcs⟩

end Text

namespace Range

/-- What stands between the bounds of a range: a comma, a minus, the word `to` with letters of
either case, or at least two points. -/
inductive Delimiter where
  | comma
  | minus
  | word (upperT upperO : Bool)
  | points (more : ℕ)

namespace Delimiter

def chars : Delimiter → List Char
  | comma => [',']
  | minus => ['-']
  | word upperT upperO => [if upperT then 'T' else 't', if upperO then 'O' else 'o']
  | points more => List.replicate (more + 2) '.'

def isPoints : Delimiter → Bool
  | points _ => true
  | _ => false

theorem exists_eq_points {d : Delimiter} (h : d.isPoints = true) : ∃ more, d = points more := by
  cases d with
  | points more => exact ⟨more, rfl⟩
  | comma => cases h
  | minus => cases h
  | word => cases h

/-- A delimiter begins neither with white space nor with a part of a decimal, a point aside. -/
structure Begins (d : Delimiter) (first : Char) : Prop where
  blank : isBlank first = false
  digit : first.isDigit = false
  letter : isExponentLetter first = false
  point : d.isPoints = false → (first == '.') = false

theorem exists_begins (d : Delimiter) :
    ∃ first others, d.chars = first :: others ∧ d.Begins first := by
  cases d with
  | comma => exact ⟨',', [], rfl, by decide, by decide, by decide, fun _ => by decide⟩
  | minus => exact ⟨'-', [], rfl, by decide, by decide, by decide, fun _ => by decide⟩
  | word upperT upperO =>
      refine ⟨_, _, rfl, ?_⟩
      cases upperT <;> exact ⟨by decide, by decide, by decide, fun _ => by decide⟩
  | points more => exact ⟨'.', _, rfl, by decide, by decide, by decide, fun h => nomatch h⟩

theorem stops_isBlank (d : Delimiter) (rest : List Char) : Stops isBlank (d.chars ++ rest) := by
  obtain ⟨first, others, hchars, hfirst⟩ := d.exists_begins
  rw [hchars]
  exact (stops_cons _ _ _).mpr hfirst.blank

/-- A decimal ends where a delimiter follows, with white space in between or not. A whole decimal
goes on with a point that follows at once. -/
theorem ends_append (d : Delimiter) (s : Spelling) (before : Blanks) (rest : List Char)
    (h : s.fraction = none → s.exponent = none → before.val = [] → d.isPoints = false) :
    s.Ends (before.val ++ (d.chars ++ rest)) := by
  obtain ⟨first, others, hchars, hfirst⟩ := d.exists_begins
  rw [hchars]
  constructor
  · apply stops_append_of_blanks before fun _ => isBlank_eq_false_of_isDigit
    exact fun _ => (stops_cons _ _ _).mpr hfirst.digit
  · apply stops_append_of_blanks before fun _ => isBlank_eq_false_of_isExponentLetter
    exact fun _ => (stops_cons _ _ _).mpr hfirst.letter
  · intro hfraction hexponent
    apply stops_append_of_blanks before isBlank_eq_false_of_point
    exact fun hnil => (stops_cons _ _ _).mpr (hfirst.point (h hfraction hexponent hnil))

/-- A decimal ends before a delimiter, or it is whole and a run of points follows at once. -/
theorem ends_append_or_open (d : Delimiter) (s : Spelling) (before : Blanks) (rest : List Char) :
    s.Ends (before.val ++ (d.chars ++ rest)) ∨
      s.fraction = none ∧ s.exponent = none ∧ before.val = [] ∧ ∃ more, d = points more := by
  by_cases hopen : s.fraction = none ∧ s.exponent = none ∧ before.val = [] ∧ d.isPoints = true
  · obtain ⟨hfraction, hexponent, hbefore, hpoints⟩ := hopen
    exact .inr ⟨hfraction, hexponent, hbefore, exists_eq_points hpoints⟩
  · left
    apply ends_append
    intro hfraction hexponent hbefore
    rw [Bool.eq_false_iff]
    exact fun hpoints => hopen ⟨hfraction, hexponent, hbefore, hpoints⟩

end Delimiter

/-- A range literal as it is laid out. -/
structure Layout where
  left : Blanks
  low : Spelling
  before : Blanks
  delimiter : Delimiter
  after : Blanks
  high : Spelling
  right : Blanks

namespace Layout

/-- The text behind the delimiter. -/
def afterDelimiter (l : Layout) : List Char :=
  l.after.val ++ (l.high.chars ++ l.right.val)

/-- The text behind the lower bound. -/
def afterLow (l : Layout) : List Char :=
  l.before.val ++ (l.delimiter.chars ++ l.afterDelimiter)

def chars (l : Layout) : List Char :=
  l.left.val ++ (l.low.chars ++ l.afterLow)

def text (l : Layout) : String :=
  String.ofList l.chars

/-- A run of points stands directly before an upper bound that begins with a point. -/
def Abuts (l : Layout) : Prop :=
  l.delimiter.isPoints = true ∧ l.after.val = [] ∧ l.high.whole = []

end Layout

/-! ## Reading the parts -/

theorem head?_flatMap_of_head? {α β : Type} {items : List α} {f : α → List β} {a : α} {b : β}
    (ha : items.head? = some a) (hb : (f a).head? = some b) :
    (items.flatMap f).head? = some b := by
  cases items with
  | nil => cases ha
  | cons item items =>
      obtain rfl := Option.some.inj ha
      rw [List.flatMap_cons, List.head?_append, hb, Option.some_or]

theorem head?_filterMap_of_head? {α β : Type} {items : List α} {f : α → Option β} {a : α} {b : β}
    (ha : items.head? = some a) (hb : f a = some b) : (items.filterMap f).head? = some b := by
  cases items with
  | nil => cases ha
  | cons item items =>
      obtain rfl := Option.some.inj ha
      rw [List.filterMap_cons_some hb, List.head?_cons]

theorem head?_bounds_append {s : Spelling} {rest : List Char} (h : s.Ends rest) :
    (bounds (s.chars ++ rest)).head? = some (s.decimal, rest) := by
  simp [bounds, s.readPrefix?_append h]

theorem afterPoints_cons_of_stops {rest : List Char} (h : Stops (· == '.') rest) :
    afterPoints ('.' :: rest) = [] := by
  cases rest with
  | nil => rfl
  | cons c rest =>
      have hc : c ≠ '.' := by simpa using h
      simp [afterPoints, hc]

/-- The first choice is the longest run of points. -/
theorem head?_afterPoints_append {rest : List Char} (h : Stops (· == '.') rest) (more : ℕ) :
    (afterPoints (List.replicate (more + 2) '.' ++ rest)).head? = some rest := by
  induction more with
  | zero =>
      have hpoints : List.replicate (0 + 2) '.' ++ rest = '.' :: '.' :: rest := rfl
      rw [hpoints, afterPoints, afterPoints_cons_of_stops h]
      rfl
  | succ more ih =>
      have hpoints : List.replicate (more + 1 + 2) '.' ++ rest =
          '.' :: '.' :: (List.replicate (more + 1) '.' ++ rest) := rfl
      have hrest : '.' :: (List.replicate (more + 1) '.' ++ rest) =
          List.replicate (more + 2) '.' ++ rest := rfl
      rw [hpoints, afterPoints, List.head?_append, hrest, ih, Option.some_or]

theorem head?_afterDelimiter_append (d : Delimiter) {rest : List Char}
    (h : d.isPoints = true → Stops (· == '.') rest) :
    (afterDelimiter (d.chars ++ rest)).head? = some rest := by
  cases d with
  | comma => rfl
  | minus => rfl
  | word upperT upperO => cases upperT <;> cases upperO <;> rfl
  | points more => exact head?_afterPoints_append (h rfl) more

/-- The readings that begin with a given lower bound. -/
def completions (low : Decimal) (rest : List Char) : List (Decimal × Decimal) :=
  (afterDelimiter (trimLeft rest)).flatMap fun rest =>
    (bounds (trimLeft rest)).filterMap fun (high, rest) =>
      if rest.all isBlank then some (low, high) else none

theorem readings_eq (cs : List Char) :
    readings cs =
      (bounds (trimLeft cs)).flatMap fun bound => completions bound.1 bound.2 :=
  rfl

/-! ## The first reading -/

variable (l : Layout)

theorem stops_point_afterDelimiter (h : ¬l.Abuts) (hpoints : l.delimiter.isPoints = true) :
    Stops (· == '.') l.afterDelimiter := by
  apply stops_append_of_blanks l.after isBlank_eq_false_of_point
  intro hnil
  apply l.high.stops_point_chars_append
  exact fun hwhole => h ⟨hpoints, hnil, hwhole⟩

theorem head?_completions (h : ¬l.Abuts) (low : Decimal) :
    (completions low l.afterLow).head? = some (low, l.high.decimal) := by
  have hdelimiter : trimLeft l.afterLow = l.delimiter.chars ++ l.afterDelimiter :=
    trimLeft_blanks_append l.before (l.delimiter.stops_isBlank _)
  have hhigh : trimLeft l.afterDelimiter = l.high.chars ++ l.right.val :=
    trimLeft_blanks_append l.after (l.high.stops_isBlank_chars_append _)
  have hends : l.high.Ends l.right.val := by
    constructor
    · exact stops_blanks l.right fun _ => isBlank_eq_false_of_isDigit
    · exact stops_blanks l.right fun _ => isBlank_eq_false_of_isExponentLetter
    · exact fun _ _ => stops_blanks l.right isBlank_eq_false_of_point
  rw [completions, hdelimiter]
  apply head?_flatMap_of_head? (head?_afterDelimiter_append _ (stops_point_afterDelimiter l h))
  rw [hhigh]
  apply head?_filterMap_of_head? (head?_bounds_append hends)
  exact if_pos (List.all_eq_true.mpr l.right.property)

theorem trimLeft_chars : trimLeft l.chars = l.low.chars ++ l.afterLow :=
  trimLeft_blanks_append l.left (l.low.stops_isBlank_chars_append _)

theorem head?_readings_of_ends (hends : l.low.Ends l.afterLow) (h : ¬l.Abuts) :
    (readings l.chars).head? = some (l.low.decimal, l.high.decimal) := by
  rw [readings_eq, trimLeft_chars]
  exact head?_flatMap_of_head? (head?_bounds_append hends) (head?_completions l h _)

/-- A whole decimal before two points can take the first of them or leave both. -/
theorem bounds_append_two_points {s : Spelling} (hfraction : s.fraction = none)
    (hexponent : s.exponent = none) (rest : List Char) :
    bounds (s.chars ++ '.' :: '.' :: rest) =
      [(s.decimal, '.' :: rest), (s.decimal, '.' :: '.' :: rest)] := by
  have hread : readPrefix? (s.chars ++ '.' :: '.' :: rest) = some (s.decimal, '.' :: rest) := by
    have hpoint := s.withPoint.readPrefix?_append (s.ends_withPoint rest)
    rw [s.chars_withPoint hfraction hexponent, List.append_assoc] at hpoint
    exact hpoint
  have hspan : spanDigits (s.chars ++ '.' :: '.' :: rest) = (s.whole, '.' :: '.' :: rest) := by
    rw [s.chars_eq_whole hfraction hexponent]
    exact spanDigits_append s.isDigit_whole ((stops_cons _ _ _).mpr (by decide))
  have hne : s.whole ≠ [] := by
    simpa [hfraction] using s.digits_ne
  have hdecimal : ofDigits s.whole [] 0 = s.decimal := by
    rw [Spelling.decimal, Spelling.power, hfraction, hexponent]
    rfl
  simp [bounds, hread, hspan, hne, hdecimal]

/-- A whole lower bound before two points takes the first of them and leaves too few, so that its
second reading counts. -/
theorem head?_readings_of_two_points (hfraction : l.low.fraction = none)
    (hexponent : l.low.exponent = none) (hbefore : l.before.val = [])
    (hdelimiter : l.delimiter = .points 0) (h : ¬l.Abuts) :
    (readings l.chars).head? = some (l.low.decimal, l.high.decimal) := by
  have hafter : l.afterLow = '.' :: '.' :: l.afterDelimiter := by
    simp [Layout.afterLow, hbefore, hdelimiter, Delimiter.chars]
  have hone : completions l.low.decimal ('.' :: l.afterDelimiter) = [] := by
    have hstops : Stops (· == '.') l.afterDelimiter :=
      stops_point_afterDelimiter l h (by rw [hdelimiter]; rfl)
    have htrim : trimLeft ('.' :: l.afterDelimiter) = '.' :: l.afterDelimiter := rfl
    rw [completions, htrim, afterDelimiter, afterPoints_cons_of_stops hstops, List.flatMap_nil]
  have htwo := head?_completions l h l.low.decimal
  rw [hafter] at htwo
  rw [readings_eq, trimLeft_chars, hafter, bounds_append_two_points hfraction hexponent]
  simp only [List.flatMap_cons, List.flatMap_nil, hone, List.nil_append, List.append_nil, htwo]

/-- The reading of a layout is the first one, unless a run of points abuts on the upper bound. -/
theorem head?_readings_of_not_abuts (h : ¬l.Abuts) :
    (readings l.chars).head? = some (l.low.decimal, l.high.decimal) := by
  rcases l.delimiter.ends_append_or_open l.low l.before l.afterDelimiter with
    hends | ⟨hfraction, hexponent, hbefore, more, hdelimiter⟩
  · exact head?_readings_of_ends l hends h
  · cases more with
    | zero => exact head?_readings_of_two_points l hfraction hexponent hbefore hdelimiter h
    | succ more =>
        -- the lower bound takes the first point, which leaves a shorter run and the same text
        let shifted : Layout := { l with low := l.low.withPoint, delimiter := .points more }
        have hchars : shifted.chars = l.chars := by
          simp [shifted, Layout.chars, Layout.afterLow, Layout.afterDelimiter, hbefore,
            hdelimiter, Delimiter.chars, Spelling.chars_withPoint _ hfraction hexponent,
            List.replicate_succ]
        have hpoints : l.delimiter.isPoints = true := by rw [hdelimiter]; rfl
        have hshifted : ¬shifted.Abuts := fun ⟨_, hafter, hwhole⟩ => h ⟨hpoints, hafter, hwhole⟩
        have hends : shifted.low.Ends shifted.afterLow := by
          apply Delimiter.ends_append
          intro hnone
          cases hnone
        rw [← hchars]
        exact head?_readings_of_ends shifted hends hshifted

/-- A run of points that abuts on the upper bound takes the point of the bound. -/
theorem head?_readings_of_abuts (h : l.Abuts) :
    (readings l.chars).head? = some (l.low.decimal, l.high.withoutPoint.decimal) := by
  obtain ⟨hpoints, hafter, hwhole⟩ := h
  obtain ⟨more, hdelimiter⟩ := Delimiter.exists_eq_points hpoints
  -- the same text with one point more in the run, which then abuts on nothing
  let shifted : Layout :=
    { l with delimiter := .points (more + 1), high := l.high.withoutPoint }
  have hchars : shifted.chars = l.chars := by
    simp [shifted, Layout.chars, Layout.afterLow, Layout.afterDelimiter, hafter, hdelimiter,
      Delimiter.chars, Spelling.chars_eq_cons_withoutPoint _ hwhole, List.replicate_succ']
  have hshifted : ¬shifted.Abuts :=
    fun ⟨_, _, hnil⟩ => l.high.whole_withoutPoint_ne_nil hnil
  rw [← hchars]
  exact head?_readings_of_not_abuts shifted hshifted

end Range

end CreditScorecard
