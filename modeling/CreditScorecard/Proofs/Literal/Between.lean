import CreditScorecard.Proofs.Literal.Layout

/-! # The range of a layout

A literal stands for the range between the numbers of its first reading, if both are finite. With a
comma between them the bounds are read as they are written.
-/

namespace CreditScorecard

open Text Decimal

def Decimal.Spelling.text (s : Spelling) : String :=
  String.ofList s.chars

namespace Range

/-! ## The range of a layout -/

/-- The range between two decimals, if the numbers nearest to them are finite. -/
def between? (bounds : Decimal × Decimal) : Option Range :=
  let range : Range := ⟨.ofDecimal false bounds.1, .ofDecimal false bounds.2⟩
  if range.low.isFinite && range.high.isFinite then some range else none

theorem read?_eq_bind (literal : String) :
    read? literal = (readings literal.toList).head?.bind between? := by
  unfold read?
  cases readings literal.toList with
  | nil => rfl
  | cons => rfl

theorem toList_text (l : Layout) : l.text.toList = l.chars :=
  String.toList_ofList

theorem read?_of_not_abuts {l : Layout} (h : ¬l.Abuts) :
    read? l.text = between? (l.low.decimal, l.high.decimal) := by
  rw [read?_eq_bind, toList_text, head?_readings_of_not_abuts l h, Option.bind_some]

theorem read?_of_abuts {l : Layout} (h : l.Abuts) :
    read? l.text = between? (l.low.decimal, l.high.withoutPoint.decimal) := by
  rw [read?_eq_bind, toList_text, head?_readings_of_abuts l h, Option.bind_some]

/-! ## Commas -/

/-- Two bounds with nothing but a comma between them. -/
def joined (low high : Spelling) : String :=
  low.text ++ "," ++ high.text

theorem read?_joined (low high : Spelling) :
    read? (joined low high) = between? (low.decimal, high.decimal) := by
  let l : Layout := ⟨noBlanks, low, noBlanks, .comma, noBlanks, high, noBlanks⟩
  have htext : l.text = joined low high := by
    rw [← String.toList_inj, toList_text]
    simp [l, joined, Spelling.text, Layout.chars, Layout.afterLow, Layout.afterDelimiter,
      noBlanks, Delimiter.chars]
  have hcomma : ¬l.Abuts := by
    rintro ⟨hpoints, -⟩
    cases hpoints
  rw [← htext]
  exact read?_of_not_abuts hcomma

end Range

end CreditScorecard
