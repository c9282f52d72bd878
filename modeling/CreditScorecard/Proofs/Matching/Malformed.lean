import CreditScorecard.Proofs.Literal.Items
import CreditScorecard.Rule

/-! # Malformed literals

A literal is malformed if its operator can make nothing of it on a field of the given kind. No value
of that kind matches it, and in particular not because the operator is negated.
-/

namespace CreditScorecard

/-! ## The kinds of values -/

namespace Scalar

def kind : Scalar → Kind
  | .number _ => .number
  | .boolean _ => .boolean
  | .text _ => .text

theorem kind_of_ofRaw?_eq_some {kind : Kind} {raw : String} {value : Scalar}
    (h : ofRaw? kind raw = some value) : value.kind = kind := by
  by_cases hblank : Text.blank raw = true
  · rw [ofRaw?_of_blank kind hblank] at h
    cases h
  · unfold ofRaw? at h
    rw [if_neg hblank] at h
    cases kind with
    | number =>
        obtain ⟨x, _, rfl⟩ := Option.map_eq_some_iff.mp h
        rfl
    | boolean =>
        obtain ⟨b, _, rfl⟩ := Option.map_eq_some_iff.mp h
        rfl
    | text =>
        obtain rfl := Option.some.inj h
        rfl

theorem exists_eq_number {value : Scalar} (h : value.kind = .number) : ∃ x, value = .number x := by
  cases value with
  | number x => exact ⟨x, rfl⟩
  | boolean => cases h
  | text => cases h

theorem exists_eq_boolean {value : Scalar} (h : value.kind = .boolean) :
    ∃ b, value = .boolean b := by
  cases value with
  | number => cases h
  | boolean b => exact ⟨b, rfl⟩
  | text => cases h

end Scalar

/-! ## Literals that cannot be read -/

theorem readBool?_eq_none_iff {literal : String} :
    readBool? literal = none ↔ Text.lowerAscii (Text.trim literal) ∉ ["true", "false"] := by
  unfold readBool?
  grind

/-- What an operator cannot read on a field of some kind: a number or a boolean to compare with, a
range, a list of items or a text to look for. -/
inductive Malformed : Operator → Kind → String → Prop where
  | number {op : Operator} {literal : String}
      (hop : op ∈ [.equal, .notEqual, .less, .atMost, .greater, .atLeast])
      (hliteral : Binary64.readFinite? literal = none) : Malformed op .number literal
  | boolean {op : Operator} {literal : String} (hop : op ∈ [.equal, .notEqual])
      (hliteral : Text.lowerAscii (Text.trim literal) ∉ ["true", "false"]) :
      Malformed op .boolean literal
  | range {kind : Kind} {literal : String} (hliteral : Range.read? literal = none) :
      Malformed .between kind literal
  | list {op : Operator} {kind : Kind} {literal : String} (hop : op ∈ [.oneOf, .noneOf])
      (hliteral : ∀ c ∈ literal.toList, c = ',' ∨ Text.isBlank c = true) :
      Malformed op kind literal
  | part {kind : Kind} {literal : String} (hliteral : Text.blank literal = true) :
      Malformed .contains kind literal

/-! ## Matching them -/

namespace Operator

theorem holds_number_of_unread {op : Operator}
    (hop : op ∈ [.equal, .notEqual, .less, .atMost, .greater, .atLeast]) {literal : String}
    (hliteral : Binary64.readFinite? literal = none) (x : Binary64) :
    op.holds literal (.number x) = false := by
  simp only [List.mem_cons, List.not_mem_nil, or_false] at hop
  rcases hop with rfl | rfl | rfl | rfl | rfl | rfl <;>
    simp [holds, literalEquals?, exceeds, hliteral]

theorem holds_boolean_of_unread {op : Operator} (hop : op ∈ [.equal, .notEqual])
    {literal : String} (hliteral : readBool? literal = none) (b : Bool) :
    op.holds literal (.boolean b) = false := by
  simp only [List.mem_cons, List.not_mem_nil, or_false] at hop
  rcases hop with rfl | rfl <;> simp [holds, literalEquals?, hliteral]

theorem holds_between_of_unread {literal : String} (hliteral : Range.read? literal = none)
    (value : Scalar) : Operator.between.holds literal value = false := by
  simp [holds, hliteral]

theorem holds_list_of_no_items {op : Operator} (hop : op ∈ [.oneOf, .noneOf]) {literal : String}
    (hliteral : listItems literal = []) (value : Scalar) : op.holds literal value = false := by
  simp only [List.mem_cons, List.not_mem_nil, or_false] at hop
  rcases hop with rfl | rfl <;> simp [holds, hliteral]

theorem holds_contains_of_blank {literal : String} (hliteral : Text.blank literal = true)
    (value : Scalar) : Operator.contains.holds literal value = false := by
  simp [holds, hliteral]

/-- No value of the kind matches a literal that is malformed for it. -/
theorem holds_eq_false_of_malformed {op : Operator} {kind : Kind} {literal : String}
    (h : Malformed op kind literal) {value : Scalar} (hkind : value.kind = kind) :
    op.holds literal value = false := by
  cases h with
  | number hop hliteral =>
      obtain ⟨x, rfl⟩ := Scalar.exists_eq_number hkind
      exact holds_number_of_unread hop hliteral x
  | boolean hop hliteral =>
      obtain ⟨b, rfl⟩ := Scalar.exists_eq_boolean hkind
      exact holds_boolean_of_unread hop (readBool?_eq_none_iff.mpr hliteral) b
  | range hliteral => exact holds_between_of_unread hliteral value
  | list hop hliteral => exact holds_list_of_no_items hop (listItems_eq_nil_iff.mpr hliteral) value
  | part hliteral => exact holds_contains_of_blank hliteral value

end Operator

end CreditScorecard
