import CreditScorecard.Matching
import CreditScorecard.Proofs.Text.Pieces
import CreditScorecard.Proofs.Text.Trim
import Mathlib.Logic.Relation

/-! # The algebra of list literals

A comma between two literals puts their items one after the other. So a list literal is as good as
any other with the same items, and the operators of lists follow its make-up: `in` holds of a
joined list if it holds of a part, and `notin`, which asks for at least one item, is `in` denied.
-/

namespace CreditScorecard

open Text

/-! ## Items -/

/-- The items between the commas of a text. -/
def itemsOf (cs : List Char) : List (List Char) :=
  ((splitAt ',' cs).map trimChars).filter (!·.isEmpty)

theorem listItems_eq_map (literal : String) :
    listItems literal = (itemsOf literal.toList).map String.ofList :=
  rfl

theorem itemsOf_append_cons (before after : List Char) :
    itemsOf (before ++ ',' :: after) = itemsOf before ++ itemsOf after := by
  rw [itemsOf, splitAt_append_cons, List.map_append, List.filter_append]
  rfl

/-- A text without commas has one item at most. -/
theorem itemsOf_of_not_mem {cs : List Char} (h : ',' ∉ cs) :
    itemsOf cs = [trimChars cs].filter (!·.isEmpty) := by
  rw [itemsOf, splitAt_of_forall_ne]
  · rfl
  · rintro c hc rfl
    exact h hc

section

variable {left right : List Char} (hleft : ∀ c ∈ left, isBlank c = true)
  (hright : ∀ c ∈ right, isBlank c = true)

include hleft hright in
theorem itemsOf_padded_of_not_mem {cs : List Char} (h : ',' ∉ cs) :
    itemsOf (left ++ cs ++ right) = itemsOf cs := by
  have hblank : isBlank ',' = false := by decide
  have hnone : ',' ∉ left ++ cs ++ right := by
    rw [List.mem_append, List.mem_append]
    rintro ((hmem | hmem) | hmem)
    · exact Bool.eq_false_iff.mp hblank (hleft ',' hmem)
    · exact h hmem
    · exact Bool.eq_false_iff.mp hblank (hright ',' hmem)
  rw [itemsOf_of_not_mem hnone, itemsOf_of_not_mem h, trimChars_padded hleft hright]

include hleft in
theorem itemsOf_append_left (cs : List Char) : itemsOf (left ++ cs) = itemsOf cs := by
  have hnone : ∀ {cs : List Char}, ',' ∉ cs → itemsOf (left ++ cs) = itemsOf cs := by
    intro cs h
    have hpadded := itemsOf_padded_of_not_mem hleft (List.forall_mem_nil _) h
    rwa [List.append_nil] at hpadded
  by_cases h : ',' ∈ cs
  · obtain ⟨first, rest, rfl, hfirst⟩ := List.eq_append_cons_of_mem h
    rw [← List.append_assoc, itemsOf_append_cons, itemsOf_append_cons, hnone hfirst]
  · exact hnone h

include hright in
theorem itemsOf_append_right (cs : List Char) : itemsOf (cs ++ right) = itemsOf cs := by
  have hnone : ∀ {cs : List Char}, ',' ∉ cs → itemsOf (cs ++ right) = itemsOf cs :=
    fun h => itemsOf_padded_of_not_mem (List.forall_mem_nil _) hright h
  by_cases h : ',' ∈ cs
  · obtain ⟨first, last, rfl, hlast⟩ := exists_eq_append_cons_last h
    rw [List.append_assoc, List.cons_append, itemsOf_append_cons, itemsOf_append_cons,
      hnone hlast]
  · exact hnone h

end

theorem listItems_joined (a b : String) :
    listItems (a ++ "," ++ b) = listItems a ++ listItems b := by
  have htoList : (a ++ "," ++ b).toList = a.toList ++ ',' :: b.toList := by simp
  rw [listItems_eq_map, htoList, itemsOf_append_cons, List.map_append]
  rfl

/-- White space around a literal is dropped with that around its first and its last item. -/
theorem listItems_padded {left right : String} (hleft : blank left = true)
    (hright : blank right = true) (literal : String) :
    listItems (left ++ literal ++ right) = listItems literal := by
  rw [listItems_eq_map, String.toList_append, String.toList_append,
    itemsOf_append_right (List.all_eq_true.mp hright),
    itemsOf_append_left (List.all_eq_true.mp hleft)]
  rfl

/-- A literal has no items if it holds nothing but commas and white space. -/
theorem listItems_eq_nil_iff {literal : String} :
    listItems literal = [] ↔ ∀ c ∈ literal.toList, c = ',' ∨ isBlank c = true := by
  rw [← forall_mem_splitAt_iff, listItems, List.map_eq_nil_iff, List.filter_eq_nil_iff,
    List.forall_mem_map]
  apply forall₂_congr
  intro piece _
  rw [← trimChars_eq_nil_iff, Bool.not_eq_true', Bool.not_eq_false, List.isEmpty_iff]

/-! ## Lists of items -/

/-- What can be an item of a list. -/
structure IsItem (item : String) : Prop where
  ne_empty : item ≠ ""
  trimmed : Trimmed item.toList
  no_comma : ',' ∉ item.toList

theorem isItem_of_mem_listItems {literal item : String} (h : item ∈ listItems literal) :
    IsItem item := by
  obtain ⟨chars, hchars, rfl⟩ := List.mem_map.mp h
  obtain ⟨hmem, hne⟩ := List.mem_filter.mp hchars
  obtain ⟨piece, hpiece, rfl⟩ := List.mem_map.mp hmem
  have hcomma : ∀ c ∈ piece, c ≠ ',' :=
    forall_mem_splitAt_iff.mpr (fun c _ => Decidable.em (c = ',')) piece hpiece
  constructor
  · simpa using hne
  · rw [String.toList_ofList]
    exact trimmed_trimChars piece
  · rw [String.toList_ofList]
    exact fun h => hcomma ',' (mem_of_mem_trimChars h) rfl

/-- An item by itself is a list of one. -/
theorem IsItem.listItems_eq {item : String} (h : IsItem item) : listItems item = [item] := by
  have hne : item.toList ≠ [] := by simpa using h.ne_empty
  rw [listItems_eq_map, itemsOf_of_not_mem h.no_comma, h.trimmed.trimChars_eq,
    List.filter_cons_of_pos (by simpa using hne)]
  simp

theorem isItem_of_ne_empty {s : String} (hs : s ≠ "")
    (h : ∀ c ∈ s.toList, isBlank c = false ∧ c ≠ ',') : IsItem s where
  ne_empty := hs
  trimmed := ⟨fun c hc => (h c (List.mem_of_mem_head? hc)).1,
    fun c hc => (h c (List.mem_of_mem_getLast? hc)).1⟩
  no_comma := fun hc => (h ',' hc).2 rfl

/-- A literal without commas and white space has itself as its only item. -/
theorem mem_listItems_iff_eq {literal s : String} (hs : s ≠ "")
    (h : ∀ c ∈ literal.toList, isBlank c = false ∧ c ≠ ',') :
    s ∈ listItems literal ↔ s = literal := by
  by_cases hliteral : literal = ""
  · have hnone : listItems "" = [] := rfl
    simp [hliteral, hnone, hs]
  · rw [(isItem_of_ne_empty hliteral h).listItems_eq, List.mem_singleton]

/-- The items of pieces that are joined with commas are those of the pieces. -/
theorem listItems_join (pieces : List String) :
    listItems (join "," pieces) = pieces.flatMap listItems := by
  induction pieces with
  | nil => rfl
  | cons piece pieces ih =>
      cases pieces with
      | nil => simp [join]
      | cons next pieces =>
          rw [join, listItems_joined, ih]
          · rfl
          · exact List.cons_ne_nil next pieces

theorem listItems_join_of_isItem {items : List String} (h : ∀ item ∈ items, IsItem item) :
    listItems (join "," items) = items := by
  rw [listItems_join]
  induction items with
  | nil => rfl
  | cons item items ih =>
      obtain ⟨hitem, hitems⟩ := List.forall_mem_cons.mp h
      rw [List.flatMap_cons, hitem.listItems_eq, ih hitems]
      rfl

/-! ## The operators of lists -/

namespace Operator

theorem holds_oneOf_iff {literal : String} {value : Scalar} :
    oneOf.holds literal value = true ↔ value.display ∈ listItems literal :=
  List.contains_iff_mem

theorem holds_noneOf_iff {literal : String} {value : Scalar} :
    noneOf.holds literal value = true ↔
      listItems literal ≠ [] ∧ value.display ∉ listItems literal := by
  simp [holds]

theorem holds_oneOf_joined (a b : String) (value : Scalar) :
    oneOf.holds (a ++ "," ++ b) value = (oneOf.holds a value || oneOf.holds b value) := by
  rw [Bool.eq_iff_iff, Bool.or_eq_true, holds_oneOf_iff, holds_oneOf_iff, holds_oneOf_iff,
    listItems_joined, List.mem_append]

theorem holds_noneOf_iff_not_oneOf {literal : String} {value : Scalar} :
    noneOf.holds literal value = true ↔
      listItems literal ≠ [] ∧ oneOf.holds literal value = false := by
  rw [holds_noneOf_iff, ← holds_oneOf_iff, Bool.not_eq_true]

/-- Between two lists that are not empty a comma is a conjunction. -/
theorem holds_noneOf_joined {a b : String} (ha : listItems a ≠ []) (hb : listItems b ≠ [])
    (value : Scalar) :
    noneOf.holds (a ++ "," ++ b) value = (noneOf.holds a value && noneOf.holds b value) := by
  have hjoined : listItems a ++ listItems b ≠ [] := by simp [ha]
  rw [Bool.eq_iff_iff, Bool.and_eq_true, holds_noneOf_iff, holds_noneOf_iff, holds_noneOf_iff,
    listItems_joined, List.mem_append, not_or]
  simp only [Ne, hjoined, ha, hb, not_false_eq_true, true_and]

/-- The operators of lists ask only which items there are. -/
theorem holds_eq_of_mem_listItems_iff {op : Operator} (hop : op ∈ [.oneOf, .noneOf]) {a b : String}
    (h : ∀ item, item ∈ listItems a ↔ item ∈ listItems b) (value : Scalar) :
    op.holds a value = op.holds b value := by
  have hnil : listItems a = [] ↔ listItems b = [] := by
    simp only [List.eq_nil_iff_forall_not_mem, h]
  simp only [List.mem_cons, List.not_mem_nil, or_false] at hop
  rw [Bool.eq_iff_iff]
  rcases hop with rfl | rfl
  · rw [holds_oneOf_iff, holds_oneOf_iff, h]
  · rw [holds_noneOf_iff, holds_noneOf_iff, h, Ne, Ne, hnil]

end Operator

/-! ## Rearranged lists -/

/-- A change to the pieces of a list: another order, a piece once more, or white space around
one. -/
inductive Rearranged : List String → List String → Prop where
  | order {pieces pieces' : List String} (h : pieces.Perm pieces') : Rearranged pieces pieces'
  | again {piece : String} {pieces : List String} (h : piece ∈ pieces) :
      Rearranged pieces (piece :: pieces)
  | padded {left right : String} (hleft : blank left = true) (hright : blank right = true)
      (piece : String) (pieces : List String) :
      Rearranged (piece :: pieces) ((left ++ piece ++ right) :: pieces)

theorem Rearranged.mem_listItems_iff {pieces pieces' : List String}
    (h : Rearranged pieces pieces') (item : String) :
    item ∈ listItems (join "," pieces) ↔ item ∈ listItems (join "," pieces') := by
  rw [listItems_join, listItems_join]
  cases h with
  | order h => exact (h.flatMap_right listItems).mem_iff
  | again h =>
      rw [List.flatMap_cons, List.mem_append, List.mem_flatMap]
      refine ⟨.inr, ?_⟩
      rintro (hitem | hitem)
      · exact ⟨_, h, hitem⟩
      · exact hitem
  | padded hleft hright piece pieces =>
      rw [List.flatMap_cons, List.flatMap_cons, listItems_padded hleft hright]

/-- However often a list is rearranged, and back, it has the same items. -/
theorem mem_listItems_iff_of_rearranged {pieces pieces' : List String}
    (h : Relation.EqvGen Rearranged pieces pieces') (item : String) :
    item ∈ listItems (join "," pieces) ↔ item ∈ listItems (join "," pieces') := by
  induction h with
  | rel _ _ h => exact h.mem_listItems_iff item
  | refl => exact Iff.rfl
  | symm _ _ _ ih => exact ih.symm
  | trans _ _ _ _ _ ih ih' => exact ih.trans ih'

/-! ## The laws of lists -/

/-- What joining, taking apart and rearranging do to list literals and to the operators on them. -/
structure ListLaws (a b : String) (value : Scalar) : Prop where
  items_joined : listItems (a ++ "," ++ b) = listItems a ++ listItems b
  isItem : ∀ item ∈ listItems a, IsItem item
  items_rejoined : listItems (join "," (listItems a)) = listItems a
  oneOf_joined : Operator.oneOf.holds (a ++ "," ++ b) value =
    (Operator.oneOf.holds a value || Operator.oneOf.holds b value)
  noneOf_iff : Operator.noneOf.holds a value = true ↔
    listItems a ≠ [] ∧ Operator.oneOf.holds a value = false
  noneOf_joined : listItems a ≠ [] → listItems b ≠ [] →
    Operator.noneOf.holds (a ++ "," ++ b) value =
      (Operator.noneOf.holds a value && Operator.noneOf.holds b value)
  rearranged : ∀ op ∈ [Operator.oneOf, .noneOf], ∀ pieces pieces',
    Relation.EqvGen Rearranged pieces pieces' →
      op.holds (join "," pieces) value = op.holds (join "," pieces') value

theorem listLaws (a b : String) (value : Scalar) : ListLaws a b value where
  items_joined := listItems_joined a b
  isItem := fun _ => isItem_of_mem_listItems
  items_rejoined := listItems_join_of_isItem fun _ => isItem_of_mem_listItems
  oneOf_joined := Operator.holds_oneOf_joined a b value
  noneOf_iff := Operator.holds_noneOf_iff_not_oneOf
  noneOf_joined := fun ha hb => Operator.holds_noneOf_joined ha hb value
  rearranged := fun _ hop _ _ h =>
    Operator.holds_eq_of_mem_listItems_iff hop (mem_listItems_iff_of_rearranged h) value

/-- Empty pieces, white space around items and items said twice make no difference. -/
example : listItems " b ,, a,b " = ["b", "a", "b"] ∧
    Operator.noneOf.holds " b ,, a,b " (.text "c") = true ∧
    Operator.noneOf.holds " , ," (.text "c") = false := by
  decide

end CreditScorecard
