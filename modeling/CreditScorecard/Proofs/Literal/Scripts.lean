import CreditScorecard.Proofs.Literal.Grammar

/-! # Digits of other scripts

The shape of a bound admits the decimal digits of every script. A number is read from the digits `0`
to `9` alone, so a bound with any other digit denotes nothing, neither by itself nor in a range.
-/

namespace CreditScorecard

open Text Decimal

/-! ## Decimal digits -/

namespace Text

/-- The zeros of the Unicode category `Nd` beyond ASCII, each followed by the digits one to nine. -/
def scriptZeros : List Nat :=
  [0x660, 0x6F0, 0x7C0, 0x966, 0x9E6, 0xA66, 0xAE6, 0xB66, 0xBE6, 0xC66, 0xCE6, 0xD66, 0xDE6,
    0xE50, 0xED0, 0xF20, 0x1040, 0x1090, 0x17E0, 0x1810, 0x1946, 0x19D0, 0x1A80, 0x1A90, 0x1B50,
    0x1BB0, 0x1C40, 0x1C50, 0xA620, 0xA8D0, 0xA900, 0xA9D0, 0xA9F0, 0xAA50, 0xABF0, 0xFF10,
    0x104A0, 0x10D30, 0x10D40, 0x11066, 0x110F0, 0x11136, 0x111D0, 0x112F0, 0x11450, 0x114D0,
    0x11650, 0x116C0, 0x116D0, 0x116DA, 0x11730, 0x118E0, 0x11950, 0x11BF0, 0x11C50, 0x11D50,
    0x11DA0, 0x11F50, 0x16130, 0x16A60, 0x16AC0, 0x16B50, 0x16D70, 0x1CCF0, 0x1D7CE, 0x1D7D8,
    0x1D7E2, 0x1D7EC, 0x1D7F6, 0x1E140, 0x1E2F0, 0x1E4F0, 0x1E5F1, 0x1E950, 0x1FBF0]

/-- A decimal digit of a script, that of ASCII aside. -/
def isScriptDigit (c : Char) : Bool :=
  scriptZeros.any fun first => first ≤ c.toNat && c.toNat < first + 10

/-- The characters that numbers and ranges are written with are white space or belong to ASCII. -/
def Familiar (c : Char) : Prop :=
  isBlank c = true ∨ c.toNat < 0x80

theorem not_familiar_of_isScriptDigit {c : Char} (h : isScriptDigit c = true) : ¬Familiar c := by
  have hdigits : ∀ first ∈ scriptZeros, 0x80 ≤ first ∧
      ∀ digit < 10, isBlank (Char.ofNat (first + digit)) = false := by
    decide +kernel
  obtain ⟨first, hfirst, hrange⟩ := List.any_eq_true.mp h
  simp only [Bool.and_eq_true, decide_eq_true_eq] at hrange
  obtain ⟨hlarge, hblank⟩ := hdigits first hfirst
  have hdigit := hblank (c.toNat - first) (by omega)
  rw [Nat.add_sub_cancel' hrange.1, Char.ofNat_toNat] at hdigit
  rintro (hc | hc)
  · rw [hc] at hdigit
    cases hdigit
  · omega

theorem familiar_of_isDigit {c : Char} (h : c.isDigit = true) : Familiar c := by
  have hrange : 48 ≤ c.toNat ∧ c.toNat ≤ 57 := by
    simpa [Char.isDigit, UInt32.le_iff_toNat_le] using h
  exact .inr (by omega)

end Text

/-! ## What is written with familiar characters -/

namespace Decimal

variable {c : Char}

theorem familiar_of_mem_marks (h : c ∈ marks) : Familiar c := by
  have hmarks : marks.all (·.toNat < 0x80) = true := by decide
  exact .inr (of_decide_eq_true (List.all_eq_true.mp hmarks c h))

theorem Spelling.familiar_of_mem_chars {s : Spelling} (h : c ∈ s.chars) : Familiar c :=
  (s.isDigit_or_mem_marks h).elim familiar_of_isDigit familiar_of_mem_marks

end Decimal

namespace Binary64

variable {c : Char}

theorem Layout.familiar_of_mem_text {l : Layout} (h : c ∈ l.text.toList) : Familiar c := by
  rw [text, String.toList_ofList, inner, List.mem_append, List.mem_append, List.mem_append] at h
  rcases h with (hleft | hsign | hunsigned) | hright
  · exact .inl (l.left.property c hleft)
  · exact familiar_of_mem_marks (mem_marks_of_mem_sign l.isSign hsign)
  · exact l.unsigned.familiar_of_mem_chars hunsigned
  · exact .inl (l.right.property c hright)

/-- What is read as a finite number is written with familiar characters. -/
theorem familiar_of_readFinite? {s : String} {x : Binary64} (h : readFinite? s = some x)
    (hc : c ∈ s.toList) : Familiar c := by
  obtain ⟨l, rfl, -⟩ := exists_layout_of_readFinite? h
  exact l.familiar_of_mem_text hc

theorem readFinite?_eq_none_of_mem {s : String} (hc : c ∈ s.toList)
    (h : ¬Familiar c) : readFinite? s = none := by
  rw [Option.eq_none_iff_forall_ne_some]
  exact fun x hread => h (familiar_of_readFinite? hread hc)

end Binary64

namespace Range

variable {c : Char}

theorem Delimiter.familiar_of_mem_chars {d : Delimiter} (h : c ∈ d.chars) : Familiar c := by
  right
  cases d with
  | comma =>
      rw [List.mem_singleton.mp h]
      decide
  | minus =>
      rw [List.mem_singleton.mp h]
      decide
  | word upperT upperO =>
      have hletters : (Delimiter.word upperT upperO).chars.all (·.toNat < 0x80) = true := by
        cases upperT <;> cases upperO <;> decide
      exact of_decide_eq_true (List.all_eq_true.mp hletters c h)
  | points more =>
      rw [List.eq_of_mem_replicate h]
      decide

theorem Layout.familiar_of_mem_chars {l : Layout} (h : c ∈ l.chars) : Familiar c := by
  simp only [chars, afterLow, afterDelimiter, List.mem_append] at h
  rcases h with h | h | h | h | h | h | h
  · exact .inl (l.left.property c h)
  · exact l.low.familiar_of_mem_chars h
  · exact .inl (l.before.property c h)
  · exact l.delimiter.familiar_of_mem_chars h
  · exact .inl (l.after.property c h)
  · exact l.high.familiar_of_mem_chars h
  · exact .inl (l.right.property c h)

/-- What is read as a range is written with familiar characters. -/
theorem familiar_of_read? {literal : String} {range : Range} (h : read? literal = some range)
    (hc : c ∈ literal.toList) : Familiar c := by
  obtain ⟨l, rfl, -⟩ := exists_layout_of_read? h
  rw [toList_text] at hc
  exact l.familiar_of_mem_chars hc

theorem read?_eq_none_of_mem {literal : String} (hc : c ∈ literal.toList) (h : ¬Familiar c) :
    read? literal = none := by
  rw [Option.eq_none_iff_forall_ne_some]
  exact fun range hread => h (familiar_of_read? hread hc)

end Range

/-! ## Bounds -/

/-- A bound of a range as its shape admits it: a spelling in which each digit may be a digit of
some script. -/
structure Bound where
  text : String
  spelling : Spelling
  shape : List.Forall₂ (fun c d => c = d ∨ d.isDigit = true ∧ isScriptDigit c = true)
    text.toList spelling.chars

theorem eq_or_exists_isScriptDigit {cs ds : List Char}
    (h : List.Forall₂ (fun c d => c = d ∨ d.isDigit = true ∧ isScriptDigit c = true) cs ds) :
    cs = ds ∨ ∃ c ∈ cs, isScriptDigit c = true := by
  induction h with
  | nil => exact .inl rfl
  | cons hhead _ ih =>
      rcases hhead with rfl | ⟨-, hscript⟩
      · rcases ih with rfl | ⟨c, hc, hscript⟩
        · exact .inl rfl
        · exact .inr ⟨c, List.mem_cons_of_mem _ hc, hscript⟩
      · exact .inr ⟨_, List.mem_cons_self, hscript⟩

namespace Bound

/-- A bound is written as its spelling, or with a digit that no number is read from. -/
theorem text_eq_or_exists (bound : Bound) : bound.text = bound.spelling.text ∨
    ∃ c ∈ bound.text.toList, ¬Familiar c := by
  rcases eq_or_exists_isScriptDigit bound.shape with heq | ⟨c, hc, hscript⟩
  · left
    rw [← String.toList_inj, heq, Spelling.text, String.toList_ofList]
  · exact .inr ⟨c, hc, not_familiar_of_isScriptDigit hscript⟩

end Bound

namespace Range

/-- The range of two bounds with a comma between them is that of the numbers that the bounds are
read as. -/
theorem read?_bounds (low high : Bound) :
    read? (low.text ++ "," ++ high.text) =
      (Binary64.readFinite? low.text).bind fun x =>
        (Binary64.readFinite? high.text).map fun y => ⟨x, y⟩ := by
  rcases low.text_eq_or_exists with hlow | ⟨c, hc, hstrange⟩
  · rcases high.text_eq_or_exists with hhigh | ⟨c, hc, hstrange⟩
    · have hjoined := read?_joined low.spelling high.spelling
      rw [joined] at hjoined
      rw [hlow, hhigh, hjoined, between?, Spelling.readFinite?_text, Spelling.readFinite?_text]
      cases hx : (Binary64.ofDecimal false low.spelling.decimal).isFinite <;>
        cases hy : (Binary64.ofDecimal false high.spelling.decimal).isFinite <;>
        simp [Option.filter, hx, hy]
    · have hmem : c ∈ (low.text ++ "," ++ high.text).toList := by simp [hc]
      rw [read?_eq_none_of_mem hmem hstrange, Binary64.readFinite?_eq_none_of_mem hc hstrange]
      cases Binary64.readFinite? low.text <;> rfl
  · have hmem : c ∈ (low.text ++ "," ++ high.text).toList := by simp [hc]
    rw [read?_eq_none_of_mem hmem hstrange, Binary64.readFinite?_eq_none_of_mem hc hstrange]
    rfl

end Range

end CreditScorecard
