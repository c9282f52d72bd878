import CreditScorecard.Matching
import CreditScorecard.Proofs.Literal.Scripts
import Mathlib.Data.List.Forall2

/-! # Delimiters are interchangeable

However the bounds of a range are joined, the literal says the same as with a comma between them.
The one exception is a run of points directly before an upper bound that begins with a point: that
point belongs to the run, and the bound is what is left of it.
-/

namespace CreditScorecard

open Text Decimal

theorem Decimal.Spelling.head?_chars_eq_point_iff {s : Spelling} :
    s.chars.head? = some '.' ↔ s.whole = [] := by
  constructor
  · intro h
    obtain ⟨first, others, hchars, hfirst⟩ := s.exists_chars_eq_cons
    rw [hchars] at h
    obtain rfl := Option.some.inj h
    rcases hfirst with hdigit | ⟨-, hwhole⟩
    · exact absurd hdigit (by decide)
    · exact hwhole
  · intro h
    rw [s.chars_eq_cons_withoutPoint h, List.head?_cons]

/-- A point is no digit of any script. -/
theorem head?_eq_point_iff {cs ds : List Char}
    (h : List.Forall₂ (fun c d => c = d ∨ d.isDigit = true ∧ isScriptDigit c = true) cs ds) :
    cs.head? = some '.' ↔ ds.head? = some '.' := by
  cases h with
  | nil => exact Iff.rfl
  | cons hhead _ =>
      rw [List.head?_cons, List.head?_cons, Option.some_inj, Option.some_inj]
      rcases hhead with rfl | ⟨hdigit, hscript⟩
      · exact Iff.rfl
      · constructor
        · rintro rfl
          exact absurd hscript (by decide)
        · rintro rfl
          exact absurd hdigit (by decide)

namespace Bound

/-- A bound that is written with the digits of ASCII. -/
def ofSpelling (s : Spelling) : Bound where
  text := s.text
  spelling := s
  shape := by
    rw [Spelling.text, String.toList_ofList]
    exact List.forall₂_same.mpr fun _ _ => .inl rfl

def BeginsWithPoint (bound : Bound) : Prop :=
  bound.text.toList.head? = some '.'

/-- The text of a bound behind its first character. -/
def afterFirst (bound : Bound) : String :=
  String.ofList bound.text.toList.tail

theorem beginsWithPoint_iff {bound : Bound} :
    bound.BeginsWithPoint ↔ bound.spelling.whole = [] := by
  rw [BeginsWithPoint, ← Spelling.head?_chars_eq_point_iff]
  exact head?_eq_point_iff bound.shape

/-- Behind its point a bound of ASCII is the spelling without the point. -/
theorem afterFirst_eq {bound : Bound} (htext : bound.text = bound.spelling.text)
    (h : bound.BeginsWithPoint) : bound.afterFirst = bound.spelling.withoutPoint.text := by
  rw [afterFirst, htext, Spelling.text, String.toList_ofList,
    bound.spelling.chars_eq_cons_withoutPoint (beginsWithPoint_iff.mp h), List.tail_cons,
    Spelling.text]

theorem mem_afterFirst {bound : Bound} {c : Char} (hc : c ∈ bound.text.toList) (hne : c ≠ '.')
    (h : bound.BeginsWithPoint) : c ∈ bound.afterFirst.toList := by
  obtain ⟨rest, hrest⟩ := List.head?_eq_some_iff.mp h
  rw [hrest, List.mem_cons] at hc
  rw [afterFirst, String.toList_ofList, hrest]
  exact hc.resolve_left hne

end Bound

namespace Range

/-- Two literals stand for the same range, if for any, and so hold of the same values. -/
structure SameRange (a b : String) : Prop where
  read?_eq : read? a = read? b
  holds_eq : ∀ value, Operator.between.holds a value = Operator.between.holds b value

theorem sameRange_of_read?_eq {a b : String} (h : read? a = read? b) : SameRange a b :=
  ⟨h, fun _ => by simp only [Operator.holds, h]⟩

/-- Two literals with a digit that no number is read from stand for no range. -/
theorem sameRange_of_not_familiar {a b : String} {c : Char} (h : ¬Familiar c)
    (ha : c ∈ a.toList) (hb : c ∈ b.toList) : SameRange a b := by
  apply sameRange_of_read?_eq
  rw [read?_eq_none_of_mem ha h, read?_eq_none_of_mem hb h]

/-- A range literal as its shape admits it: two bounds around a delimiter, with white space between
any two parts. -/
structure Shape where
  left : Blanks
  low : Bound
  before : Blanks
  delimiter : Delimiter
  after : Blanks
  high : Bound
  right : Blanks

namespace Shape

variable (l : Shape)

def text : String :=
  String.ofList (l.left.val ++ (l.low.text.toList ++ (l.before.val ++ (l.delimiter.chars ++
    (l.after.val ++ (l.high.text.toList ++ l.right.val))))))

/-- A run of points stands directly before an upper bound that begins with a point. -/
def Abuts : Prop :=
  l.delimiter.isPoints = true ∧ l.after.val = [] ∧ l.high.BeginsWithPoint

/-- The same layout with the digits of ASCII. -/
def layout : Layout :=
  ⟨l.left, l.low.spelling, l.before, l.delimiter, l.after, l.high.spelling, l.right⟩

theorem abuts_iff : l.Abuts ↔ l.layout.Abuts :=
  and_congr_right' (and_congr_right' Bound.beginsWithPoint_iff)

/-- The bounds are written as their spellings, or one of them with a digit that no number is read
from. -/
theorem text_eq_or_exists :
    (l.low.text = l.low.spelling.text ∧ l.high.text = l.high.spelling.text) ∨
      ∃ c, ¬Familiar c ∧ (c ∈ l.low.text.toList ∨ c ∈ l.high.text.toList) := by
  rcases l.low.text_eq_or_exists with hlow | ⟨c, hc, hstrange⟩
  · rcases l.high.text_eq_or_exists with hhigh | ⟨c, hc, hstrange⟩
    · exact .inl ⟨hlow, hhigh⟩
    · exact .inr ⟨c, hstrange, .inr hc⟩
  · exact .inr ⟨c, hstrange, .inl hc⟩

theorem text_eq_layout_text (hlow : l.low.text = l.low.spelling.text)
    (hhigh : l.high.text = l.high.spelling.text) : l.text = l.layout.text := by
  rw [text, hlow, hhigh, Spelling.text, Spelling.text, String.toList_ofList,
    String.toList_ofList]
  rfl

theorem mem_text {c : Char} (h : c ∈ l.low.text.toList ∨ c ∈ l.high.text.toList) :
    c ∈ l.text.toList := by
  rw [text, String.toList_ofList]
  simp only [List.mem_append]
  rcases h with hlow | hhigh
  · exact .inr (.inl hlow)
  · exact .inr (.inr (.inr (.inr (.inr (.inl hhigh)))))

end Shape

theorem sameRange_of_not_abuts (l : Shape) (h : ¬l.Abuts) :
    SameRange l.text (l.low.text ++ "," ++ l.high.text) := by
  rcases l.text_eq_or_exists with ⟨hlow, hhigh⟩ | ⟨c, hstrange, hc⟩
  · apply sameRange_of_read?_eq
    rw [l.text_eq_layout_text hlow hhigh, read?_of_not_abuts (mt l.abuts_iff.mpr h), hlow, hhigh]
    exact (read?_joined _ _).symm
  · apply sameRange_of_not_familiar hstrange (l.mem_text hc)
    rw [String.toList_append, String.toList_append, List.mem_append, List.mem_append]
    exact hc.imp_left .inl

theorem sameRange_of_abuts (l : Shape) (h : l.Abuts) :
    SameRange l.text (l.low.text ++ "," ++ l.high.afterFirst) := by
  have hpoint : l.high.BeginsWithPoint := h.2.2
  rcases l.text_eq_or_exists with ⟨hlow, hhigh⟩ | ⟨c, hstrange, hc⟩
  · apply sameRange_of_read?_eq
    rw [l.text_eq_layout_text hlow hhigh, read?_of_abuts (l.abuts_iff.mp h), hlow,
      Bound.afterFirst_eq hhigh hpoint]
    exact (read?_joined _ _).symm
  · have hne : c ≠ '.' := by
      rintro rfl
      exact hstrange (.inr (by decide))
    apply sameRange_of_not_familiar hstrange (l.mem_text hc)
    rw [String.toList_append, String.toList_append, List.mem_append, List.mem_append]
    rcases hc with hlow | hhigh
    · exact .inl (.inl hlow)
    · exact .inr (Bound.mem_afterFirst hhigh hne hpoint)

/-- Whatever stands between the bounds, and however much white space there is, the range is that of
the bounds with a comma between them, or, where a run of points abuts on the upper bound, that of
the bounds without the point of the upper one. -/
theorem sameRange_joined (l : Shape) :
    (¬l.Abuts → SameRange l.text (l.low.text ++ "," ++ l.high.text)) ∧
      (l.Abuts → SameRange l.text (l.low.text ++ "," ++ l.high.afterFirst)) :=
  ⟨sameRange_of_not_abuts l, sameRange_of_abuts l⟩

/-- The bounds `25` and `.5` around two points, with white space after the points or none. -/
def twentyFiveToHalf (after : Blanks) : Shape where
  left := noBlanks
  low := .ofSpelling (.ofWhole ['2', '5'] (by simp) (by simp))
  before := noBlanks
  delimiter := .points 0
  after := after
  high := .ofSpelling ⟨[], some ['5'], none, by simp, by simp, by decide⟩
  right := noBlanks

def oneSpace : Blanks :=
  ⟨[' '], List.all_eq_true.mp rfl⟩

/-- The point of the bound is its own only behind white space. -/
theorem sameRange_joined_twentyFiveToHalf :
    SameRange "25.. .5" "25,.5" ∧ SameRange "25...5" "25,5" := by
  let apart := twentyFiveToHalf oneSpace
  let abutting := twentyFiveToHalf noBlanks
  have hapart : ¬apart.Abuts := by
    rintro ⟨-, hafter, -⟩
    cases hafter
  have habuts : abutting.Abuts := ⟨rfl, rfl, Bound.beginsWithPoint_iff.mpr rfl⟩
  have htexts : apart.text = "25.. .5" ∧ apart.low.text ++ "," ++ apart.high.text = "25,.5" := by
    decide +kernel
  have htexts' : abutting.text = "25...5" ∧
      abutting.low.text ++ "," ++ abutting.high.afterFirst = "25,5" := by
    decide +kernel
  have hkept := (sameRange_joined apart).1 hapart
  have htaken := (sameRange_joined abutting).2 habuts
  rw [htexts.1, htexts.2] at hkept
  rw [htexts'.1, htexts'.2] at htaken
  exact ⟨hkept, htaken⟩

/-- The text of `25` and `.5` around two points is also that of `25` and `5` around three, and is
read so. -/
theorem not_sameRange_twentyFiveToHalf :
    let l := twentyFiveToHalf noBlanks
    l.text = "25...5" ∧ l.low.text ++ "," ++ l.high.text = "25,.5" ∧
      ¬SameRange "25...5" "25,.5" := by
  refine ⟨rfl, rfl, ?_⟩
  intro h
  have hread := h.read?_eq
  revert hread
  decide +kernel

end Range

end CreditScorecard
