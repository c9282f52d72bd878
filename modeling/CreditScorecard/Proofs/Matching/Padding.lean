import CreditScorecard.Proofs.Literal.Grammar
import CreditScorecard.Proofs.Matching.Malformed

/-! # White space around literals

Numbers, booleans, texts, lists and ranges are read by readers of their own, and each of them drops
the white space around a literal; the reader of lists drops that around an item too. Only a part to
look for is taken with the white space around it.
-/

namespace CreditScorecard

open Text

/-! ## What the readers make of a trimmed text -/

theorem readFinite?_trim (s : String) :
    Binary64.readFinite? (Text.trim s) = Binary64.readFinite? s := by
  rw [Binary64.readFinite?, Binary64.readFinite?, Text.toList_trim, Text.trimChars_trimChars]

theorem readBool?_trim (s : String) : readBool? (Text.trim s) = readBool? s := by
  rw [readBool?, readBool?, Text.trim_trim]

theorem listItems_trim (s : String) : listItems (Text.trim s) = listItems s := by
  obtain ⟨left, right, hleft, hright, hs⟩ := exists_eq_padded_trimChars s.toList
  have hitems : itemsOf s.toList = itemsOf (trimChars s.toList) := by
    conv => lhs; rw [hs]
    rw [itemsOf_append_right hright, itemsOf_append_left hleft]
  rw [listItems_eq_map, listItems_eq_map, toList_trim, hitems]

namespace Range

/-- The same layout in other white space. -/
def Layout.within (l : Layout) (left right : Blanks) : Layout :=
  { l with left := left, right := right }

theorem read?_within (l : Layout) (left right : Blanks) :
    read? (l.within left right).text = read? l.text := by
  by_cases h : l.Abuts
  · have hwithin : (l.within left right).Abuts := h
    rw [read?_of_abuts h, read?_of_abuts hwithin]
    rfl
  · have hwithin : ¬(l.within left right).Abuts := h
    rw [read?_of_not_abuts h, read?_of_not_abuts hwithin]
    rfl

/-- A text that is trimmed to the same characters as a layout is this layout in other white
space. -/
theorem exists_within_of_trim_eq {l : Layout} {s : String} (h : trim s = trim l.text) :
    ∃ left right, (l.within left right).text = s := by
  obtain ⟨left, right, hleft, hright, hs⟩ := exists_eq_padded_trimChars s.toList
  refine ⟨⟨left, hleft⟩, ⟨right, hright⟩, ?_⟩
  have htrim : trimChars s.toList = trimChars l.chars := by
    rw [← toList_trim, h, toList_trim, toList_text]
  rw [← String.toList_inj, toList_text, hs, htrim, trimChars_chars]
  simp [Layout.within, Layout.chars, Layout.afterLow, Layout.afterDelimiter]

theorem read?_eq_of_trim_eq {l : Layout} {s : String} (h : trim s = trim l.text) :
    read? s = read? l.text := by
  obtain ⟨left, right, rfl⟩ := exists_within_of_trim_eq h
  exact read?_within l left right

/-- Whether a literal is a range, and which one, depends on what trimming leaves of it. -/
theorem read?_trim (s : String) : read? (trim s) = read? s := by
  cases hs : read? s with
  | some range =>
      obtain ⟨l, rfl, -⟩ := exists_layout_of_read? hs
      rw [← hs]
      exact read?_eq_of_trim_eq (trim_trim _)
  | none =>
      cases htrim : read? (trim s) with
      | none => rfl
      | some range =>
          obtain ⟨l, hl, -⟩ := exists_layout_of_read? htrim
          have heq : read? s = read? l.text := read?_eq_of_trim_eq (by rw [hl, trim_trim])
          rw [hl, htrim, hs] at heq
          cases heq

end Range

/-- Every operator but the one that looks for a part drops the white space around its literal. -/
theorem Operator.holds_trim {op : Operator} (hop : op ≠ .contains) (literal : String)
    (value : Scalar) : op.holds (Text.trim literal) value = op.holds literal value := by
  have hequals : literalEquals? (Text.trim literal) value = literalEquals? literal value := by
    cases value <;> simp only [literalEquals?, readFinite?_trim, readBool?_trim, trim_trim]
  have hexceeds : ∀ test, exceeds test (Text.trim literal) value = exceeds test literal value :=
    fun test => by simp only [exceeds, readFinite?_trim]
  cases op with
  | equal | notEqual => simp only [holds, hequals]
  | greater | less | atLeast | atMost => exact hexceeds _
  | between => simp only [holds, Range.read?_trim]
  | oneOf | noneOf => simp only [holds, listItems_trim]
  | contains => exact absurd rfl hop

/-! ## Padded literals -/

theorem Text.trim_padded {left right : String} (hleft : blank left = true)
    (hright : blank right = true) (s : String) : trim (left ++ s ++ right) = trim s := by
  rw [trim, trim, String.toList_append, String.toList_append,
    trimChars_padded (List.all_eq_true.mp hleft) (List.all_eq_true.mp hright)]

/-- A literal and the same literal with white space put around it or, in a list, around a part of
it between commas. -/
inductive PaddedFor (op : Operator) : String → String → Prop where
  | around {left right : String} (hleft : blank left = true) (hright : blank right = true)
      (literal : String) : PaddedFor op literal (left ++ literal ++ right)
  | item (hop : op ∈ [.oneOf, .noneOf]) {left right : String} (hleft : blank left = true)
      (hright : blank right = true) (before : List String) (piece : String)
      (after : List String) :
      PaddedFor op (join "," (before ++ piece :: after))
        (join "," (before ++ (left ++ piece ++ right) :: after))

/-- A literal with a comma in it is no boolean. -/
theorem readBool?_eq_none_of_comma {literal : String} (h : ',' ∈ literal.toList) :
    readBool? literal = none := by
  obtain ⟨left, right, hleft, hright, heq⟩ := exists_eq_padded_trimChars literal.toList
  have hblank : isBlank ',' = false := by decide
  have htrim : ',' ∈ trimChars literal.toList := by
    rw [heq, List.mem_append, List.mem_append] at h
    rcases h with (h | h) | h
    · exact absurd (hleft ',' h) (by simp [hblank])
    · exact h
    · exact absurd (hright ',' h) (by simp [hblank])
  have hlower : ',' ∈ (lowerAscii (trim literal)).toList := by
    rw [lowerAscii, String.toList_ofList, toList_trim]
    exact List.mem_map.mpr ⟨',', htrim, by decide⟩
  rw [readBool?_eq_none_iff]
  intro hword
  simp only [List.mem_cons, List.not_mem_nil, or_false] at hword
  rcases hword with heq | heq
  · rw [heq] at hlower
    exact absurd hlower (by decide)
  · rw [heq] at hlower
    exact absurd hlower (by decide)

theorem comma_mem_join {pieces : List String} (h : 2 ≤ pieces.length) :
    ',' ∈ (join "," pieces).toList := by
  match pieces with
  | first :: second :: rest => simp [join]

section

variable {left right : String} (hleft : blank left = true) (hright : blank right = true)

include hleft hright

theorem readBool?_padded (literal : String) :
    readBool? (left ++ literal ++ right) = readBool? literal := by
  rw [← readBool?_trim, trim_padded hleft hright, readBool?_trim]

/-- White space around an item makes no boolean of a list and takes none away. -/
theorem readBool?_padded_item (before : List String) (piece : String) (after : List String) :
    readBool? (join "," (before ++ (left ++ piece ++ right) :: after)) =
      readBool? (join "," (before ++ piece :: after)) := by
  by_cases hone : before.length + after.length = 0
  · obtain ⟨rfl, rfl⟩ : before = [] ∧ after = [] := by simpa using hone
    exact readBool?_padded hleft hright piece
  · -- there is another item, and so a comma
    have hcomma : ∀ item : String, ',' ∈ (join "," (before ++ item :: after)).toList := by
      intro item
      apply comma_mem_join
      rw [List.length_append, List.length_cons]
      omega
    rw [readBool?_eq_none_of_comma (hcomma _), readBool?_eq_none_of_comma (hcomma _)]

theorem listItems_padded_item (before : List String) (piece : String) (after : List String) :
    listItems (join "," (before ++ (left ++ piece ++ right) :: after)) =
      listItems (join "," (before ++ piece :: after)) := by
  simp only [listItems_join, List.flatMap_append, List.flatMap_cons,
    listItems_padded hleft hright]

end

variable {op : Operator} {literal padded : String}

theorem PaddedFor.readBool?_eq (h : PaddedFor op literal padded) :
    readBool? padded = readBool? literal := by
  cases h with
  | around hleft hright => exact readBool?_padded hleft hright literal
  | item _ hleft hright before piece after =>
      exact readBool?_padded_item hleft hright before piece after

theorem PaddedFor.holds_eq (h : PaddedFor op literal padded) (hop : op ≠ .contains)
    (value : Scalar) : op.holds padded value = op.holds literal value := by
  cases h with
  | around hleft hright =>
      rw [← Operator.holds_trim hop, trim_padded hleft hright, Operator.holds_trim hop]
  | item hlist hleft hright before piece after =>
      apply Operator.holds_eq_of_mem_listItems_iff hlist
      intro item
      rw [listItems_padded_item hleft hright]

/-- However often a literal is padded, it is the same boolean, if any, and it holds of the same
values, unless it is a part to look for. -/
theorem readBool?_and_holds_eq_of_padded (h : Relation.ReflTransGen (PaddedFor op) literal padded) :
    readBool? padded = readBool? literal ∧
      (op ≠ .contains → ∀ value, op.holds padded value = op.holds literal value) := by
  induction h with
  | refl => exact ⟨rfl, fun _ _ => rfl⟩
  | tail _ hstep ih =>
      obtain ⟨hbool, hholds⟩ := ih
      refine ⟨hstep.readBool?_eq.trans hbool, ?_⟩
      intro hop value
      rw [hstep.holds_eq hop, hholds hop]

end CreditScorecard
