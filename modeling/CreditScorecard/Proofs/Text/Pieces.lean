import CreditScorecard.Text.Blank

/-! # Pieces of a text

A separator divides a text into pieces, and the pieces are known from how the text is put together
of runs without the separator.
-/

namespace CreditScorecard.Text

theorem exists_splitAt_cons {separator c : Char} (h : c ≠ separator) (cs : List Char) :
    ∃ piece pieces, splitAt separator cs = piece :: pieces ∧
      splitAt separator (c :: cs) = (c :: piece) :: pieces := by
  obtain ⟨piece, pieces, hcs⟩ := List.exists_cons_of_ne_nil (splitAt_ne_nil separator cs)
  exact ⟨piece, pieces, hcs, by simp [splitAt, h, hcs]⟩

theorem splitAt_of_forall_ne {separator : Char} {cs : List Char} (h : ∀ c ∈ cs, c ≠ separator) :
    splitAt separator cs = [cs] := by
  induction cs with
  | nil => rfl
  | cons c cs ih =>
      have hc := h c List.mem_cons_self
      rw [splitAt, if_neg hc, ih fun c hc => h c (List.mem_cons_of_mem _ hc)]

/-- The pieces between separators consist of the characters that are not separators. -/
theorem forall_mem_splitAt_iff {separator : Char} {p : Char → Prop} {cs : List Char} :
    (∀ piece ∈ splitAt separator cs, ∀ c ∈ piece, p c) ↔ ∀ c ∈ cs, c = separator ∨ p c := by
  induction cs with
  | nil => simp [splitAt]
  | cons c cs ih =>
      rw [List.forall_mem_cons, ← ih]
      by_cases hc : c = separator
      · simp [splitAt, hc]
      · obtain ⟨piece, pieces, hcs, hsplit⟩ := exists_splitAt_cons hc cs
        simp [hsplit, hcs, hc, and_assoc]

/-- A separator divides the pieces before it from those after it. -/
theorem splitAt_append_cons (separator : Char) (before after : List Char) :
    splitAt separator (before ++ separator :: after) =
      splitAt separator before ++ splitAt separator after := by
  induction before with
  | nil => simp [splitAt]
  | cons c cs ih =>
      by_cases hc : c = separator
      · rw [List.cons_append, splitAt, splitAt, ih, if_pos hc, if_pos hc, List.cons_append]
      · obtain ⟨piece, pieces, hcs, hsplit⟩ := exists_splitAt_cons hc cs
        rw [hcs] at ih
        rw [hsplit]
        simp [splitAt, hc, ih]

/-- A run without the separator stays in front of the first piece of what follows it. -/
theorem exists_splitAt_append {separator : Char} {run : List Char}
    (h : ∀ c ∈ run, c ≠ separator) (cs : List Char) : ∃ piece pieces,
    splitAt separator cs = piece :: pieces ∧
      splitAt separator (run ++ cs) = (run ++ piece) :: pieces := by
  induction run with
  | nil =>
      obtain ⟨piece, pieces, hcs⟩ := List.exists_cons_of_ne_nil (splitAt_ne_nil separator cs)
      exact ⟨piece, pieces, hcs, hcs⟩
  | cons c run ih =>
      obtain ⟨hc, hrun⟩ := List.forall_mem_cons.mp h
      obtain ⟨piece, pieces, hcs, happend⟩ := ih hrun
      obtain ⟨first, others, hrest, hsplit⟩ := exists_splitAt_cons hc (run ++ cs)
      rw [happend] at hrest
      obtain ⟨rfl, rfl⟩ := List.cons.inj hrest
      exact ⟨piece, pieces, hcs, hsplit⟩

theorem length_splitAt (separator : Char) (cs : List Char) :
    (splitAt separator cs).length = cs.count separator + 1 := by
  induction cs with
  | nil => rfl
  | cons c cs ih =>
      by_cases hc : c = separator
      · rw [splitAt, if_pos hc, List.length_cons, ih, hc, List.count_cons_self]
      · obtain ⟨piece, pieces, hcs, hsplit⟩ := exists_splitAt_cons hc cs
        rw [hcs, List.length_cons] at ih
        rw [List.count_cons_of_ne hc, ← ih, hsplit, List.length_cons]

/-- The pieces of a text, with a separator behind each, are the text with one behind it. -/
theorem flatMap_splitAt (separator : Char) (cs : List Char) :
    (splitAt separator cs).flatMap (· ++ [separator]) = cs ++ [separator] := by
  induction cs with
  | nil => rfl
  | cons c cs ih =>
      by_cases hc : c = separator
      · rw [splitAt, if_pos hc, List.flatMap_cons, ih, hc]
        rfl
      · obtain ⟨piece, pieces, hcs, hsplit⟩ := exists_splitAt_cons hc cs
        rw [hcs, List.flatMap_cons] at ih
        rw [hsplit, List.flatMap_cons, List.cons_append, List.cons_append, ih, List.cons_append]

/-- The last separator of a text has none after it. -/
theorem exists_eq_append_cons_last {c : Char} {cs : List Char} (h : c ∈ cs) :
    ∃ before after, cs = before ++ c :: after ∧ c ∉ after := by
  obtain ⟨after, before, heq, hnone⟩ := List.eq_append_cons_of_mem (List.mem_reverse.mpr h)
  refine ⟨before.reverse, after.reverse, ?_, by simpa using hnone⟩
  rw [← List.reverse_reverse cs, heq]
  simp

end CreditScorecard.Text
