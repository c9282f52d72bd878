import CreditScorecard.Proofs.Literal.Between
import CreditScorecard.Proofs.Literal.Number

/-! # The language of range literals

A literal is read as a range only if it has a layout, the range being that of the two bounds, and
every literal with a layout is read in one of its layouts. No text with a layout is a number.
-/

namespace CreditScorecard

open Text Decimal

/-! ## The number of a bound -/

/-- A finite number that is not negative. -/
structure Binary64.Unsigned (x : Binary64) : Prop where
  finite : x.isFinite = true
  nonneg : (zero false).le x = true

theorem Binary64.exists_order?_ofDecimal_nonneg (d : Decimal) :
    ∃ a, 0 ≤ a ∧ (ofDecimal false d).order? = some a := by
  rw [ofDecimal_eq_ofUnits, ofUnits, ofMagnitude]
  split
  · exact ⟨_, Int.natCast_nonneg _, rfl⟩
  · exact ⟨_, Int.natCast_nonneg _, rfl⟩

namespace Decimal

namespace Spelling

variable (s : Spelling)

/-- The finite number that the text of a spelling is read as. -/
def Denotes (x : Binary64) : Prop :=
  Binary64.readFinite? s.text = some x

theorem readFinite?_text : Binary64.readFinite? s.text =
    (some (Binary64.ofDecimal false s.decimal)).filter Binary64.isFinite := by
  let l : Binary64.Layout := ⟨noBlanks, [], s, noBlanks, by simp⟩
  have htext : l.text = s.text := by
    simp [l, Binary64.Layout.text, Binary64.Layout.inner, noBlanks, text]
  rw [← htext, l.readFinite?_text]
  rfl

/-- A spelling denotes the number nearest to its decimal, if that is finite. -/
theorem denotes_iff {x : Binary64} :
    s.Denotes x ↔ .ofDecimal false s.decimal = x ∧ x.isFinite = true := by
  rw [Denotes, readFinite?_text, Option.filter_eq_some_iff, Option.some_inj]

theorem Denotes.unsigned {s : Spelling} {x : Binary64} (h : s.Denotes x) : x.Unsigned := by
  obtain ⟨rfl, hfinite⟩ := s.denotes_iff.mp h
  obtain ⟨a, ha, horder⟩ := Binary64.exists_order?_ofDecimal_nonneg s.decimal
  exact ⟨hfinite, (Binary64.le_iff (Binary64.order?_zero false) horder).mpr ha⟩

end Spelling

end Decimal

namespace Range

/-- The bounds of a layout denote those of a range. -/
structure Layout.Denotes (l : Layout) (range : Range) : Prop where
  low : l.low.Denotes range.low
  high : l.high.Denotes range.high

theorem between?_eq_some_iff {l : Layout} {range : Range} :
    between? (l.low.decimal, l.high.decimal) = some range ↔ l.Denotes range := by
  simp only [between?, Option.ite_none_right_eq_some, Bool.and_eq_true, Option.some_inj]
  constructor
  · rintro ⟨⟨hlow, hhigh⟩, rfl⟩
    exact ⟨l.low.denotes_iff.mpr ⟨rfl, hlow⟩, l.high.denotes_iff.mpr ⟨rfl, hhigh⟩⟩
  · rintro ⟨hlow, hhigh⟩
    obtain ⟨hlow, hlow'⟩ := l.low.denotes_iff.mp hlow
    obtain ⟨hhigh, hhigh'⟩ := l.high.denotes_iff.mp hhigh
    rw [hlow, hhigh]
    exact ⟨⟨hlow', hhigh'⟩, rfl⟩

/-! ## Every reading has a layout -/

theorem exists_points_of_mem_afterPoints {cs rest : List Char} (h : rest ∈ afterPoints cs) :
    ∃ more, cs = List.replicate (more + 2) '.' ++ rest := by
  fun_induction afterPoints cs with
  | case1 cs ih =>
      rcases List.mem_append.mp h with hlonger | hlast
      · obtain ⟨more, hcs⟩ := ih hlonger
        exact ⟨more + 1, congrArg ('.' :: ·) hcs⟩
      · rw [List.mem_singleton.mp hlast]
        exact ⟨0, rfl⟩
  | case2 => cases h

/-- A character whose lower case is a given letter is that letter, in one case or the other. -/
theorem eq_of_toLower_eq {c lower : Char} (upper : Char)
    (hvalue : upper.val + ('a'.val - 'A'.val) = lower.val) (h : c.toLower = lower) :
    c = lower ∨ c = upper := by
  unfold Char.toLower at h
  split at h
  · right
    have hval := congrArg Char.val h
    exact Char.ext ((UInt32.add_left_inj _).mp (hval.trans hvalue.symm))
  · exact .inl h

theorem exists_delimiter_of_mem_afterDelimiter {cs rest : List Char}
    (h : rest ∈ afterDelimiter cs) : ∃ d : Delimiter, cs = d.chars ++ rest := by
  unfold afterDelimiter at h
  split at h
  · rw [List.mem_singleton.mp h]
    exact ⟨.comma, rfl⟩
  · rw [List.mem_singleton.mp h]
    exact ⟨.minus, rfl⟩
  · obtain ⟨more, hcs⟩ := exists_points_of_mem_afterPoints h
    exact ⟨.points more, hcs⟩
  · split at h
    case isTrue hletters =>
      rw [List.mem_singleton.mp h]
      rcases eq_of_toLower_eq 'T' (by decide) hletters.1 with rfl | rfl <;>
        rcases eq_of_toLower_eq 'O' (by decide) hletters.2 with rfl | rfl
      · exact ⟨.word false false, rfl⟩
      · exact ⟨.word false true, rfl⟩
      · exact ⟨.word true false, rfl⟩
      · exact ⟨.word true true, rfl⟩
    case isFalse => cases h
  · cases h

theorem exists_spelling_of_mem_bounds {cs rest : List Char} {d : Decimal}
    (h : (d, rest) ∈ bounds cs) : ∃ s : Spelling, cs = s.chars ++ rest ∧ s.decimal = d := by
  rcases hspan : spanDigits cs with ⟨whole, others⟩
  simp only [bounds, hspan] at h
  rcases List.mem_append.mp h with hlonger | hshorter
  · exact Spelling.exists_of_readPrefix? (Option.mem_toList.mp hlonger)
  · -- the digits before a point
    obtain ⟨hcs, hdigits⟩ := eq_append_of_spanDigits hspan
    split at hshorter
    · split at hshorter
      case isTrue => cases hshorter
      case isFalse hne =>
        obtain ⟨rfl, rfl⟩ := Prod.mk.inj (List.mem_singleton.mp hshorter)
        refine ⟨.ofWhole whole hdigits (by simpa using hne), ?_, rfl⟩
        rw [Spelling.chars_eq_whole _ rfl rfl]
        exact hcs
    · cases hshorter

/-- What is read as two bounds is laid out so. -/
theorem exists_layout_of_mem_readings {cs : List Char} {low high : Decimal}
    (h : (low, high) ∈ readings cs) :
    ∃ l : Layout, l.chars = cs ∧ l.low.decimal = low ∧ l.high.decimal = high := by
  simp only [readings, List.mem_flatMap, List.mem_filterMap, Option.ite_none_right_eq_some,
    Option.some_inj, Prod.mk.injEq] at h
  obtain ⟨⟨_, rest⟩, hlow, rest', hdelimiter, ⟨_, right⟩, hhigh, hright, rfl, rfl⟩ := h
  obtain ⟨left, hleft⟩ := exists_blanks_append_trimLeft cs
  obtain ⟨low, hlow', rfl⟩ := exists_spelling_of_mem_bounds hlow
  obtain ⟨before, hbefore⟩ := exists_blanks_append_trimLeft rest
  obtain ⟨delimiter, hdelimiter'⟩ := exists_delimiter_of_mem_afterDelimiter hdelimiter
  obtain ⟨after, hafter⟩ := exists_blanks_append_trimLeft rest'
  obtain ⟨high, hhigh', rfl⟩ := exists_spelling_of_mem_bounds hhigh
  refine ⟨⟨left, low, before, delimiter, after, high, ⟨right, List.all_eq_true.mp hright⟩⟩,
    ?_, rfl, rfl⟩
  rw [hleft, hlow', hbefore, hdelimiter', hafter, hhigh']
  rfl

/-! ## Every layout is read -/

theorem exists_head?_readings (l : Layout) :
    ∃ bounds, (readings l.chars).head? = some bounds := by
  by_cases h : l.Abuts
  · exact ⟨_, head?_readings_of_abuts l h⟩
  · exact ⟨_, head?_readings_of_not_abuts l h⟩

/-- A literal that has a layout is read in one of its layouts. -/
theorem exists_layout_read? (l : Layout) :
    ∃ l' : Layout, l'.text = l.text ∧
      read? l.text = between? (l'.low.decimal, l'.high.decimal) := by
  obtain ⟨⟨low, high⟩, hfirst⟩ := exists_head?_readings l
  obtain ⟨l', hchars, rfl, rfl⟩ := exists_layout_of_mem_readings (List.mem_of_mem_head? hfirst)
  refine ⟨l', congrArg String.ofList hchars, ?_⟩
  rw [read?_eq_bind, toList_text, hfirst, Option.bind_some]

/-- A literal that is read as a range has a layout. -/
theorem exists_layout_of_read? {literal : String} {range : Range}
    (h : read? literal = some range) : ∃ l : Layout, l.text = literal ∧ l.Denotes range := by
  rw [read?_eq_bind] at h
  obtain ⟨⟨low, high⟩, hfirst, hbetween⟩ := Option.bind_eq_some_iff.mp h
  obtain ⟨l, hchars, rfl, rfl⟩ := exists_layout_of_mem_readings (List.mem_of_mem_head? hfirst)
  refine ⟨l, ?_, between?_eq_some_iff.mp hbetween⟩
  rw [← String.toList_inj, toList_text, hchars]

/-! ## Numbers -/

/-- Trimming leaves the text from the first character of the lower bound to the last one of the
upper bound. -/
theorem trimChars_chars (l : Layout) :
    trimChars l.chars =
      l.low.chars ++ (l.before.val ++ (l.delimiter.chars ++ (l.after.val ++ l.high.chars))) := by
  have hchars : l.chars = l.left.val ++ (l.low.chars ++ (l.before.val ++
      (l.delimiter.chars ++ (l.after.val ++ l.high.chars)))) ++ l.right.val := by
    simp [Layout.chars, Layout.afterLow, Layout.afterDelimiter]
  rw [hchars, trimChars_padded l.left.property l.right.property]
  apply Trimmed.trimChars_eq
  constructor
  · exact l.low.stops_isBlank_chars_append _
  · intro c hc
    simp only [← List.append_assoc] at hc
    rw [List.getLast?_append, List.getLast?_eq_some_getLast l.high.chars_ne_nil,
      Option.some_or] at hc
    obtain rfl := Option.some.inj hc
    exact l.high.isBlank_eq_false_of_mem_chars (List.getLast_mem _)

/-- The longest decimal at the start of a layout ends before the last character of the delimiter. -/
theorem exists_ends (s : Spelling) (before : Blanks) (d : Delimiter) (rest : List Char) :
    ∃ (longest : Spelling) (others : List Char), others ≠ [] ∧ longest.Ends others ∧
      s.chars ++ (before.val ++ (d.chars ++ rest)) = longest.chars ++ others := by
  rcases d.ends_append_or_open s before rest with
    hends | ⟨hfraction, hexponent, hbefore, more, rfl⟩
  · obtain ⟨first, _, hchars, -⟩ := d.exists_begins
    exact ⟨s, before.val ++ (d.chars ++ rest), by simp [hchars], hends, rfl⟩
  · refine ⟨s.withPoint, '.' :: (List.replicate more '.' ++ rest), by simp, s.ends_withPoint _, ?_⟩
    simp [s.chars_withPoint hfraction hexponent, hbefore, Delimiter.chars, List.replicate_succ]

/-- No text with a layout is a number. -/
theorem readFinite?_text (l : Layout) : Binary64.readFinite? l.text = none := by
  apply Binary64.readFinite?_eq_none
  obtain ⟨longest, others, hne, hends, hchars⟩ :=
    exists_ends l.low l.before l.delimiter (l.after.val ++ l.high.chars)
  rw [toList_text, trimChars_chars, hchars, longest.spanSign_chars_append, Decimal.read?,
    longest.readPrefix?_append hends]
  obtain ⟨first, others, rfl⟩ := List.exists_cons_of_ne_nil hne
  rfl

/-! ## The language -/

/-- A literal is read as a range only if it has a layout, and then it is no number. Where it has
several layouts, one in which no run of points abuts on the upper bound counts. -/
structure Grammatical (literal : String) : Prop where
  sound : ∀ range, read? literal = some range → ∃ l : Layout, l.text = literal ∧ l.Denotes range
  unsigned : ∀ range, read? literal = some range → range.low.Unsigned ∧ range.high.Unsigned
  complete : ∀ range, (∃ l : Layout, l.text = literal) →
    (∀ l : Layout, l.text = literal → l.Denotes range) → read? literal = some range
  counts : ∀ l : Layout, l.text = literal → ¬l.Abuts → ∀ range,
    read? literal = some range ↔ l.Denotes range
  rejected : (¬∃ l : Layout, l.text = literal) → read? literal = none
  not_number : ∀ range, read? literal = some range → Binary64.readFinite? literal = none

/-- Reading takes the literals of the grammar and no others, and reads them as their layouts say. -/
theorem grammatical (literal : String) : Grammatical literal where
  sound := fun _ => exists_layout_of_read?
  unsigned := by
    intro range hread
    obtain ⟨l, -, hlow, hhigh⟩ := exists_layout_of_read? hread
    exact ⟨hlow.unsigned, hhigh.unsigned⟩
  complete := by
    rintro range ⟨l, rfl⟩ hall
    obtain ⟨l', htext, hread⟩ := exists_layout_read? l
    rw [hread]
    exact between?_eq_some_iff.mpr (hall l' htext)
  counts := by
    rintro l rfl habuts range
    rw [read?_of_not_abuts habuts]
    exact between?_eq_some_iff
  rejected := by
    intro hnone
    rw [Option.eq_none_iff_forall_ne_some]
    intro range hread
    obtain ⟨l, htext, -⟩ := exists_layout_of_read? hread
    exact hnone ⟨l, htext⟩
  not_number := by
    intro range hread
    obtain ⟨l, rfl, -⟩ := exists_layout_of_read? hread
    exact readFinite?_text l

/-- The minus of an exponent is no delimiter. -/
example : read? "1e-3" = none := by
  decide +kernel

example : read? "1e-3-5" = some ⟨.ofDecimal false ⟨1, -3⟩, .ofInt 5⟩ := by
  decide +kernel

end Range

end CreditScorecard
