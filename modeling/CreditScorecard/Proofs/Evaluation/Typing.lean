import CreditScorecard.Proofs.Evaluation.Judging
import CreditScorecard.Proofs.Matching.Malformed
import CreditScorecard.Proofs.Text.Trim

/-! # Well-typed outcomes

The kind of a field is inferred from all rules that name it, the text of the field is read as that
kind, and only then a rule meets the value. So a value has the kind of its field, and a rule that
compares numbers never meets anything but a finite number.
-/

namespace CreditScorecard

/-! ## Values that are read from text -/

/-- A number is finite, and a text is not empty and has no white space at its ends. -/
def Scalar.Proper : Scalar → Prop
  | .number x => x.isFinite = true
  | .boolean _ => True
  | .text s => s ≠ "" ∧ Text.Trimmed s.toList

theorem Binary64.isFinite_of_readFinite?_eq_some {raw : String} {x : Binary64}
    (h : readFinite? raw = some x) : x.isFinite = true :=
  (Option.filter_eq_some_iff.mp h).2

theorem Scalar.proper_of_ofRaw?_eq_some {kind : Kind} {raw : String} {value : Scalar}
    (h : ofRaw? kind raw = some value) : value.Proper := by
  by_cases hblank : Text.blank raw = true
  · rw [ofRaw?_of_blank kind hblank] at h
    cases h
  · unfold ofRaw? at h
    rw [if_neg hblank] at h
    cases kind with
    | number =>
        obtain ⟨x, hx, rfl⟩ := Option.map_eq_some_iff.mp h
        exact Binary64.isFinite_of_readFinite?_eq_some hx
    | boolean =>
        obtain ⟨b, _, rfl⟩ := Option.map_eq_some_iff.mp h
        trivial
    | text =>
        obtain rfl := Option.some.inj h
        constructor
        · exact fun hempty => hblank (Text.trim_eq_empty_iff.mp hempty)
        · rw [Text.toList_trim]
          exact Text.trimmed_trimChars raw.toList

/-- A field with a rule that compares numbers holds numbers. -/
theorem Kind.infer_eq_number {rules : List Rule} {rule : Rule} (hmem : rule ∈ rules)
    (h : rule.operator.comparesNumbers = true) : Kind.infer rules = .number :=
  if_pos (List.any_eq_true.mpr ⟨rule, hmem, h⟩)

/-! ## Outcomes -/

/-- A missing value is skipped, and any other has the kind of its field. -/
structure Outcome.WellTyped (outcome : Outcome) (kind : Kind) : Prop where
  missing : outcome.actual = none → outcome.skipped = true ∧ outcome.matched = false
  present : ∀ value ∈ outcome.actual,
    outcome.skipped = false ∧ value.kind = kind ∧ value.Proper
  number : outcome.operator.comparesNumbers = true →
    ∀ value ∈ outcome.actual, ∃ x, value.number? = some x ∧ x.isFinite = true

theorem Rule.wellTyped_outcome {rule : Rule} {kind : Kind}
    (hkind : rule.operator.comparesNumbers = true → kind = .number) (label raw : String) :
    (rule.outcome label (Scalar.ofRaw? kind raw)).WellTyped kind where
  missing hnone := by
    change Scalar.ofRaw? kind raw = none at hnone
    rw [outcome, hnone]
    exact ⟨rfl, rfl⟩
  present value hvalue := by
    change Scalar.ofRaw? kind raw = some value at hvalue
    refine ⟨?_, Scalar.kind_of_ofRaw?_eq_some hvalue, Scalar.proper_of_ofRaw?_eq_some hvalue⟩
    rw [outcome, hvalue]
    rfl
  number hcompares value hvalue := by
    change Scalar.ofRaw? kind raw = some value at hvalue
    have hnumber : value.kind = .number :=
      (Scalar.kind_of_ofRaw?_eq_some hvalue).trans (hkind hcompares)
    obtain ⟨x, rfl⟩ := Scalar.exists_eq_number hnumber
    exact ⟨x, rfl, Scalar.proper_of_ofRaw?_eq_some hvalue⟩

namespace Scorecard

variable {card : Scorecard}

theorem kindOf_eq_number {rule : Rule} (hmem : rule ∈ card.rules)
    (h : rule.operator.comparesNumbers = true) : card.kindOf rule.field = .number :=
  Kind.infer_eq_number (List.mem_filter.mpr ⟨hmem, beq_self_eq_true _⟩) h

theorem lookup_inferKinds_eq_kindOf {rule : Rule} (hmem : rule ∈ card.rules) :
    (inferKinds card.labelledRules).lookup rule.field = some (card.kindOf rule.field) := by
  rw [← map_fst_labelledRules] at hmem
  rw [lookup_inferKinds_of_mem hmem, map_fst_labelledRules, kindOf]

/-- Every outcome of any scorecard is well typed, at the kind that the table has for its field. -/
theorem wellTyped_of_mem_outcomes {inputs : Inputs} {outcome : Outcome}
    (h : outcome ∈ (card.evaluate inputs).outcomes) :
    ∃ kind, (inferKinds card.labelledRules).lookup outcome.field = some kind ∧
      outcome.WellTyped kind := by
  rw [outcomes_evaluate, List.mem_map] at h
  obtain ⟨⟨rule, label⟩, hlabelled, rfl⟩ := h
  have hmem : rule ∈ card.rules := by
    rw [← map_fst_labelledRules]
    exact List.mem_map_of_mem hlabelled
  exact ⟨card.kindOf rule.field, lookup_inferKinds_eq_kindOf hmem,
    Rule.wellTyped_outcome (kindOf_eq_number hmem) label (inputs.raw rule.field)⟩

/-- Two groups of one field, of which only the second compares numbers. -/
def ageTwice : Scorecard :=
  { id := ""
    name := ""
    maxScore := Points.clamp 0
    groups :=
      [⟨"age", none, [⟨"age", .equal, "true", Points.clamp 5⟩]⟩,
        ⟨"age", none, [⟨"age", .between, "18 - 65", Points.clamp 20⟩]⟩] }

/-- Forty years of age, as the rule of the first group meets them. -/
def forty : Outcome :=
  (Rule.mk "age" .equal "true" (Points.clamp 5)).outcome "Age"
    (some (.number (.ofInt 40)))

theorem wellTyped_forty :
    forty ∈ (ageTwice.evaluate (Inputs.empty.insert "age" " +4e1")).outcomes ∧
    ∃ kind, (inferKinds ageTwice.labelledRules).lookup "age" = some kind ∧
      forty.WellTyped kind := by
  have hmem : forty ∈ (ageTwice.evaluate (Inputs.empty.insert "age" " +4e1")).outcomes := by
    decide +kernel
  exact ⟨hmem, wellTyped_of_mem_outcomes hmem⟩

/-- A number beyond the format is no value, so both rules are skipped. -/
example :
    (ageTwice.evaluate (Inputs.empty.insert "age" "1e400")).outcomes.map (·.actual) =
      [none, none] := by
  decide +kernel

end Scorecard

end CreditScorecard
