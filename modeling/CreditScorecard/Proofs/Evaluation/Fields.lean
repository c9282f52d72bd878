import CreditScorecard.Proofs.Evaluation.Order
import Mathlib.Logic.Relation

/-! # Fields do not interfere

The outcomes of a field follow from the rules that name it and from its own text. Two evaluations
that agree on these agree on the field, whatever else they are about.
-/

namespace CreditScorecard

namespace Evaluation

/-- The outcomes of the rules that name a field, in order. -/
def outcomesOf (evaluation : Evaluation) (field : String) : List Outcome :=
  evaluation.outcomes.filter (·.field == field)

end Evaluation

/-- An outcome without the label of its group. -/
def Outcome.unlabelled (outcome : Outcome) : Outcome :=
  { outcome with description := "" }

namespace Scorecard

/-- The rules that name a field, in order. -/
def rulesOf (card : Scorecard) (field : String) : List Rule :=
  card.rules.filter (·.field == field)

/-- The rules that name a field, in order, each with the label of its group. -/
def labelledRulesOf (card : Scorecard) (field : String) : List (Rule × String) :=
  card.labelledRules.filter (·.1.field == field)

theorem map_fst_labelledRulesOf (card : Scorecard) (field : String) :
    (card.labelledRulesOf field).map (·.1) = card.rulesOf field := by
  rw [rulesOf, ← map_fst_labelledRules, List.filter_map]
  rfl

/-! ## The outcomes of one field -/

/-- The value of a field that has these rules and this text. -/
def valueOf? (rules : List Rule) (text : Option String) : Option Scalar :=
  Scalar.ofRaw? (Kind.infer rules) (text.getD "")

theorem actual?_eq_valueOf? (card : Scorecard) (inputs : Inputs) (field : String) :
    card.actual? inputs field = valueOf? (card.rulesOf field) (inputs.get? field) :=
  rfl

theorem outcomesOf_evaluate (card : Scorecard) (inputs : Inputs) (field : String) :
    (card.evaluate inputs).outcomesOf field =
      (card.labelledRulesOf field).map fun labelled =>
        labelled.1.outcome labelled.2 (valueOf? (card.rulesOf field) (inputs.get? field)) := by
  rw [Evaluation.outcomesOf, outcomes_evaluate, List.filter_map]
  apply List.map_congr_left
  intro labelled hmem
  have hfield : labelled.1.field = field := by
    simpa [Scorecard.outcome, Rule.outcome] using (List.mem_filter.mp hmem).2
  rw [outcome, hfield, actual?_eq_valueOf?]

theorem map_labelledRule_outcomesOf (card : Scorecard) (inputs : Inputs) (field : String) :
    ((card.evaluate inputs).outcomesOf field).map Outcome.labelledRule =
      card.labelledRulesOf field := by
  rw [outcomesOf_evaluate, List.map_map]
  exact (List.map_congr_left fun _ _ => rfl).trans (List.map_id _)

/-- The label of a rule shows in its outcome and has no other effect. -/
theorem map_unlabelled_outcomesOf (card : Scorecard) (inputs : Inputs) (field : String) :
    ((card.evaluate inputs).outcomesOf field).map Outcome.unlabelled =
      (card.rulesOf field).map fun rule =>
        rule.outcome "" (valueOf? (card.rulesOf field) (inputs.get? field)) := by
  rw [outcomesOf_evaluate, ← map_fst_labelledRulesOf, List.map_map, List.map_map]
  rfl

/-- Two evaluations agree on a field if they agree on its labelled rules and on its text. -/
theorem outcomesOf_eq {a b : Scorecard} {x y : Inputs} {field : String}
    (hrules : a.labelledRulesOf field = b.labelledRulesOf field)
    (htext : x.get? field = y.get? field) :
    (a.evaluate x).outcomesOf field = (b.evaluate y).outcomesOf field := by
  rw [outcomesOf_evaluate, outcomesOf_evaluate, ← map_fst_labelledRulesOf,
    ← map_fst_labelledRulesOf, hrules, htext]

theorem map_unlabelled_outcomesOf_eq {a b : Scorecard} {x y : Inputs} {field : String}
    (hrules : a.rulesOf field = b.rulesOf field) (htext : x.get? field = y.get? field) :
    ((a.evaluate x).outcomesOf field).map Outcome.unlabelled =
      ((b.evaluate y).outcomesOf field).map Outcome.unlabelled := by
  rw [map_unlabelled_outcomesOf, map_unlabelled_outcomesOf, hrules, htext]

/-! ## Changes elsewhere -/

/-- One change to a scorecard or to an applicant's inputs that leaves alone the rules and the text
of a field. To add is to replace nothing, and to remove is to replace by nothing. -/
inductive ChangedElsewhere (field : String) : Scorecard × Inputs → Scorecard × Inputs → Prop where
  /-- Groups in which no rule names the field. -/
  | groups {card : Scorecard} {inputs : Inputs} {before old new after : List Group}
      (hcard : card.groups = before ++ old ++ after)
      (hold : ∀ group ∈ old, ∀ rule ∈ group.rules, rule.field ≠ field)
      (hnew : ∀ group ∈ new, ∀ rule ∈ group.rules, rule.field ≠ field) :
      ChangedElsewhere field (card, inputs)
        ({ card with groups := before ++ new ++ after }, inputs)
  /-- Rules of one group that name other fields. -/
  | rules {card : Scorecard} {inputs : Inputs} {before after : List Group} {group : Group}
      {first old new last : List Rule} (hcard : card.groups = before ++ group :: after)
      (hgroup : group.rules = first ++ old ++ last)
      (hold : ∀ rule ∈ old, rule.field ≠ field) (hnew : ∀ rule ∈ new, rule.field ≠ field) :
      ChangedElsewhere field (card, inputs)
        ({ card with
            groups := before ++ { group with rules := first ++ new ++ last } :: after }, inputs)
  /-- The name and the description of a group, whose rules stay. -/
  | head {card : Scorecard} {inputs : Inputs} {before after : List Group} {old new : Group}
      (hcard : card.groups = before ++ old :: after) (hrules : new.rules = old.rules) :
      ChangedElsewhere field (card, inputs)
        ({ card with groups := before ++ new :: after }, inputs)
  /-- The texts of other fields. -/
  | inputs {card : Scorecard} {old new : Inputs} (htext : new.get? field = old.get? field) :
      ChangedElsewhere field (card, old) (card, new)

theorem filter_field_eq_nil {rules : List Rule} {field : String}
    (h : ∀ rule ∈ rules, rule.field ≠ field) : rules.filter (·.field == field) = [] := by
  simpa using h

theorem filter_field_flatMap_eq_nil {groups : List Group} {field : String}
    (h : ∀ group ∈ groups, ∀ rule ∈ group.rules, rule.field ≠ field) :
    (groups.flatMap (·.rules)).filter (·.field == field) = [] := by
  apply filter_field_eq_nil
  intro rule hrule
  obtain ⟨group, hgroup, hmem⟩ := List.mem_flatMap.mp hrule
  exact h group hgroup rule hmem

theorem ChangedElsewhere.rulesOf_eq {field : String} {p q : Scorecard × Inputs}
    (h : ChangedElsewhere field p q) : q.1.rulesOf field = p.1.rulesOf field := by
  cases h with
  | groups hcard hold hnew =>
      simp only [rulesOf, Scorecard.rules, hcard, List.flatMap_append, List.filter_append,
        filter_field_flatMap_eq_nil hold, filter_field_flatMap_eq_nil hnew]
  | rules hcard hgroup hold hnew =>
      simp only [rulesOf, Scorecard.rules, hcard, hgroup, List.flatMap_append, List.flatMap_cons,
        List.filter_append, filter_field_eq_nil hold, filter_field_eq_nil hnew]
  | head hcard hrules =>
      simp only [rulesOf, Scorecard.rules, hcard, hrules, List.flatMap_append, List.flatMap_cons]
  | inputs _ => rfl

theorem ChangedElsewhere.get?_eq {field : String} {p q : Scorecard × Inputs}
    (h : ChangedElsewhere field p q) : q.2.get? field = p.2.get? field := by
  cases h with
  | groups => rfl
  | rules => rfl
  | head => rfl
  | inputs htext => exact htext

/-- Any number of changes elsewhere leaves the rules and the text of the field as they were. -/
theorem rulesOf_eq_and_get?_eq_of_changes {field : String} {p q : Scorecard × Inputs}
    (h : Relation.ReflTransGen (ChangedElsewhere field) p q) :
    q.1.rulesOf field = p.1.rulesOf field ∧ q.2.get? field = p.2.get? field := by
  induction h with
  | refl => exact ⟨rfl, rfl⟩
  | tail _ hchange ih =>
      exact ⟨hchange.rulesOf_eq.trans ih.1, hchange.get?_eq.trans ih.2⟩

/-- A field has one outcome for each rule that names it. Two evaluations that agree on these rules,
labels included, and on the text of the field have the same outcomes for it. Changes elsewhere
never change whether a rule of the field matches, the value it sees or whether it is skipped. -/
theorem fields_independent (field : String) :
    (∀ (card : Scorecard) (inputs : Inputs),
      ((card.evaluate inputs).outcomesOf field).map Outcome.labelledRule =
        card.labelledRulesOf field) ∧
    (∀ (a b : Scorecard) (x y : Inputs),
      a.labelledRulesOf field = b.labelledRulesOf field → x.get? field = y.get? field →
        (a.evaluate x).outcomesOf field = (b.evaluate y).outcomesOf field) ∧
    (∀ (a b : Scorecard) (x y : Inputs),
      Relation.ReflTransGen (ChangedElsewhere field) (a, x) (b, y) →
        ((a.evaluate x).outcomesOf field).map Outcome.unlabelled =
          ((b.evaluate y).outcomesOf field).map Outcome.unlabelled) := by
  refine ⟨fun card inputs => map_labelledRule_outcomesOf card inputs field, ?_, ?_⟩
  · intro a b x y hrules htext
    exact outcomesOf_eq hrules htext
  · intro a b x y hchanges
    obtain ⟨hrules, htext⟩ := rulesOf_eq_and_get?_eq_of_changes hchanges
    exact map_unlabelled_outcomesOf_eq hrules.symm htext.symm

/-- The rules on the age, after a rule on the income that has a group of its own. -/
def incomeAndAge : Scorecard :=
  { ageFirst with
    maxScore := Points.clamp 50
    groups :=
      ⟨"income", some "Monthly income", [⟨"income", .greater, "1000", Points.clamp 40⟩]⟩ ::
        ageFirst.groups }

theorem fields_independent_incomeAndAge :
    ageFirst.labelledRulesOf "age" = incomeAndAge.labelledRulesOf "age" ∧
    (ageFirst.evaluate (Inputs.empty.insert "age" "40")).outcomesOf "age" =
      (incomeAndAge.evaluate ((Inputs.empty.insert "income" "2000").insert "age" "40")).outcomesOf
        "age" := by
  have hrules : ageFirst.labelledRulesOf "age" = incomeAndAge.labelledRulesOf "age" := by
    decide +kernel
  exact ⟨hrules, (fields_independent "age").2.1 _ _ _ _ hrules (by decide +kernel)⟩

end Scorecard

end CreditScorecard
