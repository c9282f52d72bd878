import CreditScorecard.Proofs.Evaluation.Judging
import Mathlib.Data.List.Forall2

/-! # The order of groups and rules

Scorecards that differ in the order of their groups and of the rules inside them give the same
outcomes, in the order of their rules.
-/

namespace CreditScorecard

/-! ## Lists without repetitions -/

/-- An item is kept, and the copies of it further on are dropped. -/
theorem eraseDups_induction {motive : List String → Prop} (nil : motive [])
    (cons : ∀ x rest, motive (rest.filter fun y => !y == x) → motive (x :: rest))
    (xs : List String) : motive xs := by
  induction hlength : xs.length using Nat.strongRecOn generalizing xs with
  | ind n ih =>
      cases xs with
      | nil => exact nil
      | cons x rest =>
          apply cons
          refine ih _ ?_ _ rfl
          have hle := List.length_filter_le (fun y => !y == x) rest
          simp only [List.length_cons] at hlength
          omega

theorem nodup_eraseDups (xs : List String) : xs.eraseDups.Nodup := by
  induction xs using eraseDups_induction with
  | nil => simp
  | cons x rest ih =>
      rw [List.eraseDups_cons, List.nodup_cons]
      refine ⟨?_, ih⟩
      simp [List.mem_eraseDups]

/-- Which values occur does not depend on the order. -/
theorem eraseDups_perm {xs ys : List String} (h : xs.Perm ys) :
    xs.eraseDups.Perm ys.eraseDups := by
  rw [List.perm_ext_iff_of_nodup (nodup_eraseDups xs) (nodup_eraseDups ys)]
  intro x
  rw [List.mem_eraseDups, List.mem_eraseDups, h.mem_iff]

/-! ## Reordering -/

/-- The same group with its rules in another order. -/
structure Group.Reordered (a b : Group) : Prop where
  field : a.field = b.field
  description : a.description = b.description
  rules : a.rules.Perm b.rules

/-- The same scorecard with its groups, and the rules inside them, in another order. -/
structure Scorecard.Reordered (a b : Scorecard) : Prop where
  id : a.id = b.id
  name : a.name = b.name
  description : a.description = b.description
  maxScore : a.maxScore = b.maxScore
  createdAt : a.createdAt = b.createdAt
  updatedAt : a.updatedAt = b.updatedAt
  groups : ∃ groups, a.groups.Perm groups ∧ List.Forall₂ Group.Reordered groups b.groups

namespace Group

theorem label_eq_of_reordered {a b : Group} (h : a.Reordered b) : a.label = b.label := by
  rw [label, label, h.description, h.field]

theorem labelledRules_perm {a b : Group} (h : a.Reordered b) :
    a.labelledRules.Perm b.labelledRules := by
  rw [labelledRules, labelledRules, label_eq_of_reordered h]
  exact h.rules.map _

theorem Reordered.refl (a : Group) : a.Reordered a :=
  ⟨rfl, rfl, .refl _⟩

end Group

namespace Scorecard

/-! ## What does not depend on the order -/

theorem flatMap_labelledRules_perm {groups groups' : List Group}
    (h : List.Forall₂ Group.Reordered groups groups') :
    (groups.flatMap Group.labelledRules).Perm (groups'.flatMap Group.labelledRules) := by
  induction h with
  | nil => exact .refl _
  | cons hgroup _ ih =>
      rw [List.flatMap_cons, List.flatMap_cons]
      exact (Group.labelledRules_perm hgroup).append ih

theorem labelledRules_perm {a b : Scorecard} (h : a.Reordered b) :
    a.labelledRules.Perm b.labelledRules := by
  obtain ⟨groups, hperm, hgroups⟩ := h.groups
  exact (hperm.flatMap_right _).trans (flatMap_labelledRules_perm hgroups)

theorem rules_perm {a b : Scorecard} (h : a.Reordered b) : a.rules.Perm b.rules := by
  rw [← map_fst_labelledRules, ← map_fst_labelledRules]
  exact (labelledRules_perm h).map _

/-- The kind of a field depends on whether some rule has a property, not on which comes first. -/
theorem infer_perm {rules rules' : List Rule} (h : rules.Perm rules') :
    Kind.infer rules = Kind.infer rules' := by
  rw [Kind.infer, Kind.infer, h.any_eq, h.any_eq]

theorem kindOf_eq_of_reordered {a b : Scorecard} (h : a.Reordered b) (field : String) :
    a.kindOf field = b.kindOf field :=
  infer_perm ((rules_perm h).filter _)

theorem unread_eq_of_reordered {a b : Scorecard} (h : a.Reordered b) (inputs : Inputs) :
    a.unread inputs = b.unread inputs :=
  unread_eq_of_kindOf_eq (kindOf_eq_of_reordered h) inputs

theorem outcome_eq_of_reordered {a b : Scorecard} (h : a.Reordered b) (inputs : Inputs) :
    a.outcome inputs = b.outcome inputs :=
  outcome_eq_of_kindOf_eq (kindOf_eq_of_reordered h) inputs

theorem outcomes_perm {a b : Scorecard} (h : a.Reordered b) (inputs : Inputs) :
    (a.evaluate inputs).outcomes.Perm (b.evaluate inputs).outcomes := by
  rw [outcomes_evaluate, outcomes_evaluate, outcome_eq_of_reordered h]
  exact (labelledRules_perm h).map _

theorem warnings_perm {a b : Scorecard} (h : a.Reordered b) (inputs : Inputs) :
    (a.warnings inputs).Perm (b.warnings inputs) := by
  simp only [warnings_eq, unread_eq_of_reordered h, kindOf_eq_of_reordered h]
  exact (eraseDups_perm (((rules_perm h).map _).filter _)).map _

end Scorecard

/-- The rule that an outcome is about, with the label of its group. -/
def Outcome.labelledRule (outcome : Outcome) : Rule × String :=
  (⟨outcome.field, outcome.operator, outcome.literal, outcome.points⟩, outcome.description)

namespace Scorecard

theorem map_labelledRule_outcomes (card : Scorecard) (inputs : Inputs) :
    (card.evaluate inputs).outcomes.map Outcome.labelledRule = card.labelledRules := by
  rw [outcomes_evaluate, List.map_map]
  exact (List.map_congr_left fun _ _ => rfl).trans (List.map_id _)

/-- Reordering groups and rules reorders the outcomes along with the rules, and changes neither
how many rules match nor which fields are skipped or warned of. -/
theorem evaluate_reordered {a b : Scorecard} (h : a.Reordered b) (inputs : Inputs) :
    (a.evaluate inputs).outcomes.Perm (b.evaluate inputs).outcomes ∧
    (a.evaluate inputs).outcomes.map Outcome.labelledRule = a.labelledRules ∧
    (b.evaluate inputs).outcomes.map Outcome.labelledRule = b.labelledRules ∧
    (a.evaluate inputs).matchedRules = (b.evaluate inputs).matchedRules ∧
    (a.evaluate inputs).skippedFields.Perm (b.evaluate inputs).skippedFields ∧
    (a.warnings inputs).Perm (b.warnings inputs) := by
  have houtcomes := outcomes_perm h inputs
  refine ⟨houtcomes, map_labelledRule_outcomes a inputs, map_labelledRule_outcomes b inputs,
    (houtcomes.filter _).length_eq, ?_, warnings_perm h inputs⟩
  exact eraseDups_perm ((houtcomes.filter _).map _)

/-- Two rules on the age in a group of their own, and one more in the group of another field. -/
def ageFirst : Scorecard :=
  { id := "demo"
    name := "Demo"
    maxScore := Points.clamp 100
    groups :=
      [⟨"age", none,
          [⟨"age", .equal, "30", Points.clamp 5⟩, ⟨"age", .oneOf, "40", Points.clamp 9⟩]⟩,
        ⟨"member", none, [⟨"age", .atLeast, "18", Points.clamp 20⟩]⟩] }

/-- The same scorecard with its groups and the rules on the age the other way round. -/
def ageLast : Scorecard :=
  { ageFirst with
    groups :=
      [⟨"member", none, [⟨"age", .atLeast, "18", Points.clamp 20⟩]⟩,
        ⟨"age", none,
          [⟨"age", .oneOf, "40", Points.clamp 9⟩, ⟨"age", .equal, "30", Points.clamp 5⟩]⟩] }

theorem evaluate_ageFirst :
    ageFirst.Reordered ageLast ∧
    (ageFirst.evaluate (Inputs.empty.insert "age" "forty")).outcomes.Perm
      (ageLast.evaluate (Inputs.empty.insert "age" "forty")).outcomes ∧
    (ageFirst.evaluate (Inputs.empty.insert "age" "forty")).matchedRules =
      (ageLast.evaluate (Inputs.empty.insert "age" "forty")).matchedRules ∧
    (ageFirst.evaluate (Inputs.empty.insert "age" "forty")).skippedFields.Perm
      (ageLast.evaluate (Inputs.empty.insert "age" "forty")).skippedFields ∧
    (ageFirst.warnings (Inputs.empty.insert "age" "forty")).Perm
      (ageLast.warnings (Inputs.empty.insert "age" "forty")) := by
  have hreordered : ageFirst.Reordered ageLast :=
    ⟨rfl, rfl, rfl, rfl, rfl, rfl, _, .swap _ _ _,
      .cons (.refl _) (.cons ⟨rfl, rfl, .swap _ _ _⟩ .nil)⟩
  obtain ⟨houtcomes, _, _, hmatched, hskipped, hwarnings⟩ :=
    evaluate_reordered hreordered (Inputs.empty.insert "age" "forty")
  exact ⟨hreordered, houtcomes, hmatched, hskipped, hwarnings⟩

end Scorecard

end CreditScorecard
