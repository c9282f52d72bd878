import CreditScorecard.Proofs.Evaluation.Judging
import CreditScorecard.Proofs.Matching.Padding

/-! # What matters of an applicant's inputs

An evaluation reads no more of the inputs than the trimmed texts of the fields that its rules name,
and a blank text counts as none. So the inputs can be reduced to these texts first.
-/

namespace CreditScorecard

/-! ## Trimmed texts -/

/-- White space around a text does not change the value that is read from it. -/
theorem ofRaw?_trim (kind : Kind) (raw : String) :
    Scalar.ofRaw? kind (Text.trim raw) = Scalar.ofRaw? kind raw := by
  cases kind with
  | number => simp only [Scalar.ofRaw?, Text.blank_trim, readFinite?_trim]
  | boolean => simp only [Scalar.ofRaw?, Text.blank_trim, readBool?_trim]
  | text => simp only [Scalar.ofRaw?, Text.blank_trim, Text.trim_trim]

namespace Scorecard

variable {card : Scorecard} {x y : Inputs}

theorem actual?_eq_of_trim_eq {field : String}
    (h : Text.trim (x.raw field) = Text.trim (y.raw field)) :
    card.actual? x field = card.actual? y field := by
  rw [actual?, actual?, ← ofRaw?_trim, h, ofRaw?_trim]

theorem unread_eq_of_trim_eq {field : String}
    (h : Text.trim (x.raw field) = Text.trim (y.raw field)) :
    card.unread x field = card.unread y field := by
  rw [unread, unread, actual?_eq_of_trim_eq h, ← Text.blank_trim, h, Text.blank_trim]

theorem fst_mem_rules {labelled : Rule × String} (h : labelled ∈ card.labelledRules) :
    labelled.1 ∈ card.rules := by
  rw [← map_fst_labelledRules]
  exact List.mem_map_of_mem h

/-- Inputs that agree, once trimmed, on the fields that the rules name are evaluated alike. -/
theorem evaluate_eq_of_trim_eq
    (h : ∀ rule ∈ card.rules, Text.trim (x.raw rule.field) = Text.trim (y.raw rule.field)) :
    card.evaluate x = card.evaluate y := by
  have houtcomes : (card.judge x).outcomes = (card.judge y).outcomes := by
    rw [judge_eq, judge_eq]
    apply List.map_congr_left
    intro labelled hmem
    rw [outcome, outcome, actual?_eq_of_trim_eq (h _ (fst_mem_rules hmem))]
  rw [evaluate, evaluate, houtcomes]

theorem warnings_eq_of_trim_eq
    (h : ∀ rule ∈ card.rules, Text.trim (x.raw rule.field) = Text.trim (y.raw rule.field)) :
    card.warnings x = card.warnings y := by
  have hunread : (card.rules.map (·.field)).filter (card.unread x) =
      (card.rules.map (·.field)).filter (card.unread y) := by
    apply List.filter_congr
    intro field hfield
    obtain ⟨rule, hrule, rfl⟩ := List.mem_map.mp hfield
    exact unread_eq_of_trim_eq (h rule hrule)
  rw [warnings_eq, warnings_eq, hunread]

end Scorecard

/-! ## Reducing the inputs -/

namespace Inputs

/-- Changes the text of every field, and drops the fields that are left without one. -/
def filterMap (change : String → String → Option String) (inputs : Inputs) : Inputs :=
  ⟨inputs.entries.filterMap fun entry =>
    ((inputs.get? entry.1).bind (change entry.1)).map fun text => (entry.1, text)⟩

theorem lookup_filterMap_entries (text? : String → Option String)
    (entries : List (String × String)) (field : String) :
    (entries.filterMap fun entry => (text? entry.1).map fun text => (entry.1, text)).lookup field =
      if field ∈ entries.map (·.1) then text? field else none := by
  induction entries with
  | nil => rfl
  | cons entry rest ih =>
      rw [List.filterMap_cons, List.map_cons]
      by_cases hfield : field = entry.1
      · subst hfield
        cases htext : text? entry.1 with
        -- a later entry of the same field is dropped as well
        | none => simp [ih, htext]
        | some text => simp
      · have hne : (field == entry.1) = false := beq_false_of_ne hfield
        have hmem : field ∈ entry.1 :: rest.map (·.1) ↔ field ∈ rest.map (·.1) := by
          rw [List.mem_cons, or_iff_right hfield]
        rw [if_congr hmem rfl rfl, ← ih]
        cases text? entry.1 with
        | none => rfl
        | some text => simp [List.lookup_cons, hne]

theorem get?_filterMap (change : String → String → Option String) (inputs : Inputs)
    (field : String) :
    (inputs.filterMap change).get? field = (inputs.get? field).bind (change field) := by
  rw [filterMap, get?,
    lookup_filterMap_entries fun field => (inputs.get? field).bind (change field)]
  by_cases hmem : field ∈ inputs.entries.map (·.1)
  · rw [if_pos hmem]
  · have hnone : inputs.get? field = none := by
      rw [get?, List.lookup_eq_none_iff]
      intro entry hentry
      rw [bne_iff_ne]
      rintro rfl
      exact hmem (List.mem_map_of_mem hentry)
    rw [if_neg hmem, hnone, Option.bind_none]

end Inputs

namespace Scorecard

/-- Some rule names the field. -/
def names (card : Scorecard) (field : String) : Bool :=
  card.rules.any (·.field == field)

/-- The inputs with every text trimmed, without the blank ones and without those of fields that no
rule names. -/
def essential (card : Scorecard) (inputs : Inputs) : Inputs :=
  inputs.filterMap fun field text =>
    if card.names field && !Text.blank text then some (Text.trim text) else none

theorem get?_essential (card : Scorecard) (inputs : Inputs) (field : String) :
    (card.essential inputs).get? field = (inputs.get? field).bind fun text =>
      if card.names field && !Text.blank text then some (Text.trim text) else none :=
  Inputs.get?_filterMap _ inputs field

theorem trim_raw_essential {card : Scorecard} {field : String} (h : card.names field = true)
    (inputs : Inputs) :
    Text.trim ((card.essential inputs).raw field) = Text.trim (inputs.raw field) := by
  rw [Inputs.raw, Inputs.raw, get?_essential, h]
  cases inputs.get? field with
  | none => rfl
  | some text =>
      by_cases hblank : Text.blank text = true
      · simp [hblank, Text.trim_eq_empty_iff.mpr hblank]
      · simp [hblank]

theorem names_field {card : Scorecard} {rule : Rule} (h : rule ∈ card.rules) :
    card.names rule.field = true :=
  List.any_eq_true.mpr ⟨rule, h, beq_self_eq_true _⟩

theorem blank_raw_of_get? {inputs : Inputs} {field : String}
    (h : (inputs.get? field).all Text.blank = true) : Text.blank (inputs.raw field) = true := by
  rw [Inputs.raw]
  cases htext : inputs.get? field with
  | none => rfl
  | some text => simpa [htext] using h

/-- Reducing the inputs to what is essential changes neither the evaluation nor the warnings, and
a rule whose field has no text, or a blank one, is skipped. -/
theorem evaluate_essential (card : Scorecard) (inputs : Inputs) :
    card.evaluate (card.essential inputs) = card.evaluate inputs ∧
    card.warnings (card.essential inputs) = card.warnings inputs ∧
    ∀ outcome ∈ (card.evaluate inputs).outcomes,
      (inputs.get? outcome.field).all Text.blank = true →
        outcome.skipped = true ∧ outcome.matched = false ∧ outcome.actual = none := by
  have hraw : ∀ rule ∈ card.rules, Text.trim ((card.essential inputs).raw rule.field) =
      Text.trim (inputs.raw rule.field) :=
    fun rule hrule => trim_raw_essential (names_field hrule) inputs
  refine ⟨evaluate_eq_of_trim_eq hraw, warnings_eq_of_trim_eq hraw, ?_⟩
  intro outcome hmem hblank
  rw [outcomes_evaluate] at hmem
  obtain ⟨labelled, _, rfl⟩ := List.mem_map.mp hmem
  have hactual : card.actual? inputs labelled.1.field = none :=
    Scalar.ofRaw?_of_blank _ (blank_raw_of_get? hblank)
  simp [Scorecard.outcome, Rule.outcome, hactual]

end Scorecard

end CreditScorecard
