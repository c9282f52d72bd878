import CreditScorecard.Proofs.Evaluation.Order
import CreditScorecard.Proofs.Evaluation.Typing

/-! # Skipped fields and warnings

All rules of a field meet the same value, so they are skipped together. The skipped fields are those
of the rules that have no value, in the order in which they first appear; the ones among them with a
text that is not blank are warned of.
-/

namespace CreditScorecard

/-! ## The order of first appearance -/

/-- Which items come first is not changed by dropping other items. -/
theorem idxOf_lt_of_filter {p : String → Bool} {xs : List String} {a b : String}
    (ha : p a = true) (hb : p b = true)
    (h : (xs.filter p).idxOf a < (xs.filter p).idxOf b) : xs.idxOf a < xs.idxOf b := by
  induction xs with
  | nil => exact h
  | cons x rest ih =>
      cases hx : p x with
      | true =>
          rw [List.filter_cons_of_pos hx, List.idxOf_cons, List.idxOf_cons] at h
          rw [List.idxOf_cons, List.idxOf_cons]
          grind
      | false =>
          have hxa : x ≠ a := fun heq => by simp [heq, ha] at hx
          have hxb : x ≠ b := fun heq => by simp [heq, hb] at hx
          rw [List.filter_cons_of_neg (by simp [hx])] at h
          simpa [List.idxOf_cons, hxa, hxb] using ih h

/-- The distinct items stand in the order in which they first appear. -/
theorem pairwise_idxOf_eraseDups (xs : List String) :
    xs.eraseDups.Pairwise fun a b => xs.idxOf a < xs.idxOf b := by
  induction xs using eraseDups_induction with
  | nil => exact .nil
  | cons x rest ih =>
      have hne : ∀ y ∈ (rest.filter fun y => !y == x).eraseDups, x ≠ y := by
        intro y hy heq
        simp [heq] at hy
      have hlater : ∀ y ∈ (rest.filter fun y => !y == x).eraseDups,
          (x :: rest).idxOf y = rest.idxOf y + 1 := by
        intro y hy
        simp [hne y hy]
      rw [List.eraseDups_cons, List.pairwise_cons]
      constructor
      · intro y hy
        rw [hlater y hy]
        simp
      · apply ih.imp_of_mem
        intro a b ha hb hlt
        rw [hlater a ha, hlater b hb]
        apply Nat.succ_lt_succ
        apply idxOf_lt_of_filter _ _ hlt
        · simp [Ne.symm (hne a ha)]
        · simp [Ne.symm (hne b hb)]

/-- Items can be dropped before or after the copies of others are. -/
theorem eraseDups_filter (p : String → Bool) (xs : List String) :
    (xs.filter p).eraseDups = xs.eraseDups.filter p := by
  induction xs using eraseDups_induction with
  | nil => rfl
  | cons x rest ih =>
      have hswap : (rest.filter p).filter (fun y => !y == x) =
          (rest.filter fun y => !y == x).filter p := by
        simp only [List.filter_filter, Bool.and_comm]
      rw [List.eraseDups_cons]
      cases hx : p x with
      | true =>
          rw [List.filter_cons_of_pos hx, List.filter_cons_of_pos hx, List.eraseDups_cons, hswap,
            ih]
      | false =>
          have hkept : (rest.filter fun y => !y == x).filter p = rest.filter p := by
            rw [← hswap]
            apply List.filter_eq_self.mpr
            intro y hy
            have hne : y ≠ x := fun heq => by simp [heq, hx] at hy
            simp [hne]
          rw [List.filter_cons_of_neg (by simp [hx]), List.filter_cons_of_neg (by simp [hx]),
            ← ih, hkept]

namespace Scorecard

variable (card : Scorecard) (inputs : Inputs)

/-! ## Skipped fields -/

/-- The fields of all rules, in the order of the rules. -/
def ruleFields : List String :=
  card.rules.map (·.field)

/-- A field has no value. -/
def skips (field : String) : Bool :=
  (card.actual? inputs field).isNone

theorem map_field_outcomes :
    (card.evaluate inputs).outcomes.map (·.field) = card.ruleFields := by
  rw [outcomes_evaluate, ruleFields, ← map_fst_labelledRules, List.map_map, List.map_map]
  rfl

/-- What an outcome says of its field follows from the field. -/
theorem actual_and_skipped_of_mem {outcome : Outcome}
    (h : outcome ∈ (card.evaluate inputs).outcomes) :
    outcome.actual = card.actual? inputs outcome.field ∧
      outcome.skipped = card.skips inputs outcome.field := by
  rw [outcomes_evaluate, List.mem_map] at h
  obtain ⟨labelled, -, rfl⟩ := h
  exact ⟨rfl, rfl⟩

theorem skippedFields_evaluate :
    (card.evaluate inputs).skippedFields =
      (card.ruleFields.filter (card.skips inputs)).eraseDups := by
  have hskipped : (card.evaluate inputs).outcomes.filter (·.skipped) =
      (card.evaluate inputs).outcomes.filter (card.skips inputs ∘ Outcome.field) := by
    apply List.filter_congr
    intro outcome hmem
    exact (card.actual_and_skipped_of_mem inputs hmem).2
  rw [Evaluation.skippedFields, hskipped, ← map_field_outcomes card inputs, List.filter_map]

theorem mem_skippedFields_iff {field : String} :
    field ∈ (card.evaluate inputs).skippedFields ↔
      field ∈ card.ruleFields ∧ card.skips inputs field = true := by
  rw [skippedFields_evaluate, List.mem_eraseDups, List.mem_filter]

/-- One skipped rule of a field stands for all of them. -/
theorem mem_skippedFields_iff_forall {field : String} :
    field ∈ (card.evaluate inputs).skippedFields ↔
      (∃ rule ∈ card.rules, rule.field = field) ∧
        ∀ outcome ∈ (card.evaluate inputs).outcomes, outcome.field = field →
          outcome.skipped = true := by
  rw [mem_skippedFields_iff, ruleFields, List.mem_map]
  apply and_congr_right
  intro hrule
  constructor
  · intro hskips outcome hmem hfield
    rw [(card.actual_and_skipped_of_mem inputs hmem).2, hfield, hskips]
  · intro hall
    have hfield : field ∈ (card.evaluate inputs).outcomes.map (·.field) := by
      rw [map_field_outcomes, ruleFields]
      exact List.mem_map.mpr hrule
    obtain ⟨outcome, hmem, rfl⟩ := List.mem_map.mp hfield
    rw [← (card.actual_and_skipped_of_mem inputs hmem).2]
    exact hall outcome hmem rfl

theorem pairwise_skippedFields :
    (card.evaluate inputs).skippedFields.Pairwise fun a b =>
      card.ruleFields.idxOf a < card.ruleFields.idxOf b := by
  rw [skippedFields_evaluate, eraseDups_filter]
  exact (pairwise_idxOf_eraseDups card.ruleFields).filter _

/-! ## Warnings -/

/-- Only the skipped fields with a text that is not blank are warned of. -/
theorem warnings_eq_filter_skippedFields :
    card.warnings inputs =
      ((card.evaluate inputs).skippedFields.filter fun field =>
        !Text.blank (inputs.raw field)).map fun field => (field, card.kindOf field) := by
  have hunread : card.unread inputs = fun field =>
      !Text.blank (inputs.raw field) && card.skips inputs field := by
    funext field
    rw [unread, skips, Bool.and_comm]
  rw [warnings_eq, skippedFields_evaluate, hunread, ← List.filter_filter, eraseDups_filter]
  rfl

/-- Any text that is not blank can be read as text. -/
theorem kindOf_ne_text_of_skips {field : String} (hskips : card.skips inputs field = true)
    (hraw : Text.blank (inputs.raw field) = false) : card.kindOf field ≠ .text := by
  intro hkind
  simp [skips, actual?, hkind, Scalar.ofRaw?, hraw] at hskips

/-- What an evaluation says of fields without a value, and what is logged of them. -/
structure SkippingSpec : Prop where
  uniform : ∀ a ∈ (card.evaluate inputs).outcomes, ∀ b ∈ (card.evaluate inputs).outcomes,
    a.field = b.field → a.actual = b.actual ∧ a.skipped = b.skipped
  skipped : ∀ field, field ∈ (card.evaluate inputs).skippedFields ↔
    (∃ rule ∈ card.rules, rule.field = field) ∧
      ∀ outcome ∈ (card.evaluate inputs).outcomes, outcome.field = field → outcome.skipped = true
  once : (card.evaluate inputs).skippedFields.Nodup
  inOrder : (card.evaluate inputs).skippedFields.Pairwise fun a b =>
    ((card.evaluate inputs).outcomes.map (·.field)).idxOf a <
      ((card.evaluate inputs).outcomes.map (·.field)).idxOf b
  warned : (card.warnings inputs).map (·.1) =
    (card.evaluate inputs).skippedFields.filter fun field => !Text.blank (inputs.raw field)
  kinds : ∀ warning ∈ card.warnings inputs,
    (inferKinds card.labelledRules).lookup warning.1 = some warning.2 ∧ warning.2 ≠ .text

/-- Skipping is by field, and exactly the skipped fields with a text are warned of. -/
theorem skippingSpec : card.SkippingSpec inputs where
  uniform := by
    intro a ha b hb hfield
    obtain ⟨hactual, hskipped⟩ := card.actual_and_skipped_of_mem inputs ha
    obtain ⟨hactual', hskipped'⟩ := card.actual_and_skipped_of_mem inputs hb
    rw [hactual, hactual', hskipped, hskipped', hfield]
    exact ⟨rfl, rfl⟩
  skipped _ := card.mem_skippedFields_iff_forall inputs
  once := nodup_eraseDups _
  inOrder := by
    rw [map_field_outcomes]
    exact card.pairwise_skippedFields inputs
  warned := by
    rw [warnings_eq_filter_skippedFields, List.map_map]
    exact List.map_id _
  kinds := by
    intro warning hmem
    rw [warnings_eq_filter_skippedFields, List.mem_map] at hmem
    obtain ⟨field, hfield, rfl⟩ := hmem
    obtain ⟨hskipped, hraw⟩ := List.mem_filter.mp hfield
    obtain ⟨hrule, hskips⟩ := (card.mem_skippedFields_iff inputs).mp hskipped
    constructor
    · obtain ⟨rule, hmem, rfl⟩ := List.mem_map.mp hrule
      exact lookup_inferKinds_eq_kindOf hmem
    · exact card.kindOf_ne_text_of_skips inputs hskips (by simpa using hraw)

/-- A text that cannot be read is warned of once for two rules, a blank one is not. -/
example :
    (ageTwice.warnings (Inputs.empty.insert "age" "forty"),
      (ageTwice.evaluate (Inputs.empty.insert "age" "forty")).skippedFields,
      ageTwice.warnings (Inputs.empty.insert "age" " ")) =
      ([("age", .number)], ["age"], []) := by
  decide +kernel

end Scorecard

end CreditScorecard
