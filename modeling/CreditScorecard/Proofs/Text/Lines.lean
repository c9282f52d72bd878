import CreditScorecard.Proofs.Text.Pieces

/-! # Lines

A text that is written record by record has as many lines as records exactly if no record holds a
line feed of its own. A record that does comes apart into several lines.
-/

namespace CreditScorecard.Text

/-- The pieces of a text between its line feeds. -/
def pieces (s : String) : List String :=
  (splitAt '\n' s.toList).map String.ofList

/-- The lines of a text, each without the line feed that ends it. -/
def lines (s : String) : List String :=
  (pieces s).dropLast

/-- Writes records one after the other, each with a line feed behind it. -/
def unlines (records : List String) : String :=
  String.join (records.map (· ++ "\n"))

/-! ## Line feeds -/

/-- The number of line feeds in some texts. -/
def feeds (texts : List String) : Nat :=
  (texts.flatMap String.toList).count '\n'

theorem feeds_append (texts texts' : List String) :
    feeds (texts ++ texts') = feeds texts + feeds texts' := by
  rw [feeds, List.flatMap_append, List.count_append]
  rfl

theorem feeds_cons (s : String) (texts : List String) :
    feeds (s :: texts) = feeds [s] + feeds texts :=
  feeds_append [s] texts

theorem feeds_singleton (s : String) : feeds [s] = s.toList.count '\n' := by
  rw [feeds, List.flatMap_singleton]

/-- Records hold as many line feeds as the texts in them. -/
theorem feeds_map {α : Type} {record : α → String} {texts : α → List String}
    (h : ∀ x, feeds [record x] = feeds (texts x)) (xs : List α) :
    feeds (xs.map record) = feeds (xs.flatMap texts) := by
  induction xs with
  | nil => rfl
  | cons x xs ih => rw [List.map_cons, feeds_cons, List.flatMap_cons, feeds_append, h, ih]

theorem feeds_eq_zero_iff {texts : List String} :
    feeds texts = 0 ↔ ∀ s ∈ texts, '\n' ∉ s.toList := by
  rw [feeds, List.count_eq_zero, List.mem_flatMap]
  simp only [not_exists, not_and]

/-! ## Pieces -/

theorem length_pieces (s : String) : (pieces s).length = feeds [s] + 1 := by
  rw [pieces, List.length_map, length_splitAt, feeds_singleton]

theorem forall_ne_of_feeds {s : String} (h : feeds [s] = 0) : ∀ c ∈ s.toList, c ≠ '\n' := by
  rintro c hc rfl
  exact feeds_eq_zero_iff.mp h s List.mem_cons_self hc

theorem pieces_eq_singleton {s : String} (h : feeds [s] = 0) : pieces s = [s] := by
  rw [pieces, splitAt_of_forall_ne (forall_ne_of_feeds h), List.map_singleton,
    String.ofList_toList]

/-- A text without line feeds stays in front of the first piece of what follows it. -/
theorem exists_pieces_append {s : String} (h : feeds [s] = 0) (t : String) :
    ∃ piece others, pieces (s ++ t) = (s ++ piece) :: others := by
  obtain ⟨piece, others, -, hsplit⟩ := exists_splitAt_append (forall_ne_of_feeds h) t.toList
  refine ⟨String.ofList piece, others.map String.ofList, ?_⟩
  rw [pieces, String.toList_append, hsplit, List.map_cons, String.ofList_append,
    String.ofList_toList]

theorem pieces_append (s t : String) : pieces (s ++ "\n" ++ t) = pieces s ++ pieces t := by
  have htext : (s ++ "\n" ++ t).toList = s.toList ++ '\n' :: t.toList := by simp
  rw [pieces, htext, splitAt_append_cons, List.map_append]
  rfl

@[simp]
theorem unlines_nil : unlines [] = "" :=
  rfl

theorem unlines_cons (s : String) (records : List String) :
    unlines (s :: records) = s ++ "\n" ++ unlines records := by
  rw [← String.toList_inj]
  simp [unlines]

theorem unlines_append (records records' : List String) :
    unlines (records ++ records') = unlines records ++ unlines records' := by
  rw [← String.toList_inj]
  simp [unlines]

theorem unlines_map {α : Type} {record line : α → String} (h : ∀ x, line x = record x ++ "\n")
    (xs : List α) : unlines (xs.map record) = String.join (xs.map line) := by
  rw [unlines, List.map_map]
  congr 2
  funext x
  exact (h x).symm

theorem pieces_unlines (records : List String) :
    pieces (unlines records) = records.flatMap pieces ++ [""] := by
  induction records with
  | nil => rfl
  | cons s records ih => rw [unlines_cons, pieces_append, ih, List.flatMap_cons, List.append_assoc]

theorem lines_unlines (records : List String) :
    lines (unlines records) = records.flatMap pieces := by
  rw [lines, pieces_unlines, List.dropLast_concat]

theorem length_lines_unlines (records : List String) :
    (lines (unlines records)).length = records.length + feeds records := by
  rw [lines_unlines]
  induction records with
  | nil => rfl
  | cons s records ih =>
      rw [List.flatMap_cons, List.length_append, length_pieces, ih, feeds_cons s records,
        List.length_cons]
      omega

/-- Records without line feeds are the lines of the text. -/
theorem lines_unlines_eq {records : List String} (h : feeds records = 0) :
    lines (unlines records) = records := by
  rw [lines_unlines]
  induction records with
  | nil => rfl
  | cons s records ih =>
      rw [feeds_cons s records] at h
      rw [List.flatMap_cons, pieces_eq_singleton (by omega), ih (by omega)]
      rfl

/-- Every line of such a text is ended. -/
theorem unlines_lines_unlines (records : List String) :
    unlines (lines (unlines records)) = unlines records := by
  rw [lines_unlines]
  induction records with
  | nil => rfl
  | cons s records ih =>
      have hpieces : unlines (pieces s) = s ++ "\n" := by
        rw [← String.toList_inj]
        simp [unlines, pieces, List.flatMap_map, flatMap_splitAt]
      rw [List.flatMap_cons, unlines_append, ih, hpieces, unlines_cons]

end CreditScorecard.Text
