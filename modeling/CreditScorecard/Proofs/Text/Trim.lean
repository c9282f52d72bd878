import CreditScorecard.Text.Blank
import Mathlib.Data.List.TakeWhile

/-! # Trimmed text

White space around a text makes no difference to what trimming leaves of it, so trimming twice is
trimming once.
-/

namespace CreditScorecard.Text

/-! ## One end -/

theorem trimLeft_eq_nil_of_blank {cs : List Char} (h : ∀ c ∈ cs, isBlank c = true) :
    trimLeft cs = [] :=
  trimLeft_eq_nil_iff.mpr (List.all_eq_true.mpr h)

theorem trimLeft_append_of_blank {left : List Char} (h : ∀ c ∈ left, isBlank c = true)
    (cs : List Char) : trimLeft (left ++ cs) = trimLeft cs :=
  List.dropWhile_append_of_pos h

theorem trimRight_append_of_blank {right : List Char} (h : ∀ c ∈ right, isBlank c = true)
    (cs : List Char) : trimRight (cs ++ right) = trimRight cs := by
  rw [trimRight, List.reverse_append, List.dropWhile_append_of_pos]
  · rfl
  · intro c hc
    exact h c (List.mem_reverse.mp hc)

theorem exists_eq_append_trimLeft (cs : List Char) :
    ∃ left, (∀ c ∈ left, isBlank c = true) ∧ cs = left ++ trimLeft cs :=
  ⟨cs.takeWhile isBlank, fun _ => List.mem_takeWhile_imp, List.takeWhile_append_dropWhile.symm⟩

theorem exists_eq_trimRight_append (cs : List Char) :
    ∃ right, (∀ c ∈ right, isBlank c = true) ∧ cs = trimRight cs ++ right := by
  obtain ⟨right, hright, heq⟩ := exists_eq_append_trimLeft cs.reverse
  refine ⟨right.reverse, ?_, ?_⟩
  · intro c hc
    exact hright c (List.mem_reverse.mp hc)
  · have hreverse := congrArg List.reverse heq
    rw [List.reverse_reverse, List.reverse_append] at hreverse
    exact hreverse

/-! ## Both ends -/

/-- A text is what trimming leaves of it, between white space. -/
theorem exists_eq_padded_trimChars (cs : List Char) :
    ∃ left right, (∀ c ∈ left, isBlank c = true) ∧ (∀ c ∈ right, isBlank c = true) ∧
      cs = left ++ trimChars cs ++ right := by
  obtain ⟨left, hleft, hcs⟩ := exists_eq_append_trimLeft cs
  obtain ⟨right, hright, htrimmed⟩ := exists_eq_trimRight_append (trimLeft cs)
  refine ⟨left, right, hleft, hright, ?_⟩
  rw [List.append_assoc, trimChars, ← htrimmed, ← hcs]

theorem mem_of_mem_trimChars {cs : List Char} {c : Char} (h : c ∈ trimChars cs) : c ∈ cs := by
  obtain ⟨left, right, -, -, heq⟩ := exists_eq_padded_trimChars cs
  rw [heq]
  simp [h]

theorem trimChars_padded {left right : List Char} (hleft : ∀ c ∈ left, isBlank c = true)
    (hright : ∀ c ∈ right, isBlank c = true) (cs : List Char) :
    trimChars (left ++ cs ++ right) = trimChars cs := by
  rw [trimChars, trimChars, List.append_assoc, trimLeft_append_of_blank hleft]
  by_cases h : trimLeft cs = []
  · -- nothing stops the trimming from the left, which goes on into the white space on the right
    have hnil : trimLeft (cs ++ right) = [] := by
      rw [trimLeft_append_of_blank (List.all_eq_true.mp (trimLeft_eq_nil_iff.mp h))]
      exact trimLeft_eq_nil_of_blank hright
    rw [hnil, h]
  · have happend : trimLeft (cs ++ right) = trimLeft cs ++ right := by
      rw [trimLeft, List.dropWhile_append, if_neg]
      · rfl
      · rw [List.isEmpty_iff]
        exact h
    rw [happend, trimRight_append_of_blank hright]

@[simp]
theorem trimChars_trimChars (cs : List Char) : trimChars (trimChars cs) = trimChars cs := by
  obtain ⟨left, right, hleft, hright, heq⟩ := exists_eq_padded_trimChars cs
  calc trimChars (trimChars cs) = trimChars (left ++ trimChars cs ++ right) :=
        (trimChars_padded hleft hright _).symm
    _ = trimChars cs := by rw [← heq]

/-- Nothing is left of a text exactly if it is blank. -/
theorem trimChars_eq_nil_iff {cs : List Char} :
    trimChars cs = [] ↔ ∀ c ∈ cs, isBlank c = true := by
  constructor
  · intro h
    obtain ⟨left, right, hleft, hright, heq⟩ := exists_eq_padded_trimChars cs
    intro c hc
    rw [heq, h, List.append_nil] at hc
    exact (List.mem_append.mp hc).elim (hleft c) (hright c)
  · intro h
    rw [trimChars, trimLeft_eq_nil_of_blank h]
    rfl

/-- There is no white space at either end. -/
structure Trimmed (cs : List Char) : Prop where
  first : ∀ c ∈ cs.head?, isBlank c = false
  last : ∀ c ∈ cs.getLast?, isBlank c = false

theorem isBlank_of_mem_head?_trimLeft {cs : List Char} {c : Char}
    (h : c ∈ (trimLeft cs).head?) : isBlank c = false := by
  have hnot := List.head?_dropWhile_not isBlank cs
  rw [trimLeft, Option.mem_def] at h
  rw [h] at hnot
  exact hnot

theorem trimmed_trimChars (cs : List Char) : Trimmed (trimChars cs) := by
  constructor
  · intro c hc
    obtain ⟨right, -, heq⟩ := exists_eq_trimRight_append (trimLeft cs)
    have hmem : c ∈ (trimLeft cs).head? := by
      rw [heq, List.head?_append, Option.mem_def]
      exact Option.or_eq_some_iff.mpr (.inl hc)
    exact isBlank_of_mem_head?_trimLeft hmem
  · intro c hc
    rw [trimChars, trimRight, List.getLast?_reverse] at hc
    exact isBlank_of_mem_head?_trimLeft hc

theorem trimLeft_eq_self {cs : List Char} (h : ∀ c ∈ cs.head?, isBlank c = false) :
    trimLeft cs = cs := by
  cases cs with
  | nil => rfl
  | cons c cs => simp [trimLeft, h c (by simp)]

/-- Trimmed texts are left as they are. -/
theorem Trimmed.trimChars_eq {cs : List Char} (h : Trimmed cs) : trimChars cs = cs := by
  have hreverse : trimLeft cs.reverse = cs.reverse :=
    trimLeft_eq_self fun c hc => h.last c (List.head?_reverse ▸ hc)
  rw [trimChars, trimLeft_eq_self h.first, trimRight, ← trimLeft, hreverse, List.reverse_reverse]

theorem trim_eq_self {s : String} (h : ∀ c ∈ s.toList, isBlank c = false) : trim s = s := by
  have htrimmed : Trimmed s.toList :=
    ⟨fun c hc => h c (List.mem_of_mem_head? hc), fun c hc => h c (List.mem_of_mem_getLast? hc)⟩
  rw [trim, htrimmed.trimChars_eq, String.ofList_toList]

@[simp]
theorem trim_empty : trim "" = "" :=
  rfl

@[simp]
theorem trim_trim (s : String) : trim (trim s) = trim s := by
  rw [trim, toList_trim, trimChars_trimChars]
  rfl

theorem trim_eq_empty_iff {s : String} : trim s = "" ↔ blank s = true := by
  rw [blank, List.all_eq_true, ← trimChars_eq_nil_iff, trim, String.ofList_eq_empty_iff]

@[simp]
theorem blank_trim (s : String) : blank (trim s) = blank s := by
  rw [Bool.eq_iff_iff, ← trim_eq_empty_iff, ← trim_eq_empty_iff, trim_trim]

end CreditScorecard.Text
