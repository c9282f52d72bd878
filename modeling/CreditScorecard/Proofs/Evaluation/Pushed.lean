import CreditScorecard.Proofs.Evaluation.Kinds
import CreditScorecard.Proofs.Kind.Order
import CreditScorecard.Proofs.Scorecard.Editing

/-! # Pushing a rule to a group

A pushed rule is judged after the other rules of its group, so its outcome comes right behind
theirs. It may raise the kind of the field, and then the other rules of the group are judged by
the higher kind. The other groups keep their outcomes in any case.
-/

namespace CreditScorecard

namespace Group

/-- The outcomes of the rules of a group, for a kind of its field. -/
def outcomesAt (group : Group) (kind : Kind) (inputs : Inputs) : List Outcome :=
  group.rules.map fun rule =>
    rule.outcome group.label (Scalar.ofRaw? kind (inputs.raw group.field))

/-- The outcomes of the rules of a group that is alone with its field. -/
def outcomes (inputs : Inputs) (group : Group) : List Outcome :=
  group.outcomesAt group.kind inputs

variable (group : Group) (operator : Operator) (literal : String) (points : Points)

theorem kind_pushRule : (group.pushRule operator literal points).kind =
    max group.kind (Kind.infer [⟨group.field, operator, literal, points⟩]) :=
  Kind.infer_append group.rules _

theorem outcomesAt_pushRule (kind : Kind) (inputs : Inputs) :
    (group.pushRule operator literal points).outcomesAt kind inputs =
      group.outcomesAt kind inputs ++ [Rule.outcome ⟨group.field, operator, literal, points⟩
        group.label (Scalar.ofRaw? kind (inputs.raw group.field))] :=
  List.map_append

end Group

namespace Scorecard

/-- The first group of a field is changed in its place. -/
theorem updateFirst_append_cons {before : List Group} {group : Group}
    (hbefore : ∀ other ∈ before, other.field ≠ group.field) (change : Group → Group)
    (after : List Group) :
    updateFirst group.field change (before ++ group :: after) =
      before ++ change group :: after := by
  induction before with
  | nil => simp [updateFirst]
  | cons other rest ih =>
      rw [List.forall_mem_cons] at hbefore
      rw [List.cons_append, updateFirst, if_neg hbefore.1, ih hbefore.2, List.cons_append]

variable {card : Scorecard} {before after : List Group} {group : Group}

theorem Valid.pushRule?_eq (h : card.Valid) (hgroups : card.groups = before ++ group :: after)
    (operator : Operator) (literal : String) (points : Points) :
    card.pushRule? group.field operator literal points =
      some { card with groups := before ++ group.pushRule operator literal points :: after } := by
  have hbefore : ∀ other ∈ before, other.field ≠ group.field := by
    have hdistinct := h.distinct
    rw [hgroups, List.map_append, List.nodup_append] at hdistinct
    intro other hother
    exact hdistinct.2.2 _ (List.mem_map_of_mem hother) _ List.mem_cons_self
  rw [pushRule?_eq_some_iff, hgroups, updateFirst_append_cons hbefore]
  exact ⟨⟨group, List.mem_append_right before List.mem_cons_self, rfl⟩, rfl⟩

theorem Valid.outcomes_of_groups_eq (h : card.Valid)
    (hgroups : card.groups = before ++ group :: after) (inputs : Inputs) :
    (card.evaluate inputs).outcomes =
      before.flatMap (Group.outcomes inputs) ++ group.outcomes inputs ++
        after.flatMap (Group.outcomes inputs) := by
  have houtcomes : (card.evaluate inputs).outcomes =
      card.groups.flatMap (Group.outcomes inputs) := h.outcomes_eq inputs
  rw [houtcomes, hgroups, List.flatMap_append, List.flatMap_cons, List.append_assoc]

/-- The evaluation `y` against the evaluation `x`, where `y` has one more outcome behind those of a
group, and the field of the group is of a kind that may be another in `y`. Before the group stand
the outcomes `earlier`, and after it the outcomes `later`. -/
structure Grown (group : Group) (kind : Kind) (x y : Evaluation)
    (earlier own own' later : List Outcome) (added : Outcome) : Prop where
  former : x.outcomes = earlier ++ own ++ later
  present : y.outcomes = earlier ++ (own' ++ [added]) ++ later
  unchanged : kind = group.kind → own' = own
  counted : kind = group.kind →
    y.matchedRules = x.matchedRules + if added.matched then 1 else 0

/-- A rule pushed to a group adds its own outcome right behind those of the group. The kind of the
group stays or rises, to the higher of its kind and the kind that the new rule asks for. The other
groups keep their outcomes, and so does the group itself if its kind stays. -/
theorem evaluate_pushRule (h : card.validate = .ok ())
    (hgroups : card.groups = before ++ group :: after) (operator : Operator) (literal : String)
    (points : Points) :
    let rule : Rule := ⟨group.field, operator, literal, points⟩
    let pushed := group.pushRule operator literal points
    ∃ next, card.pushRule? group.field operator literal points = some next ∧
      next.groups = before ++ pushed :: after ∧ next.validate = .ok () ∧
      group.kind ≤ pushed.kind ∧ pushed.kind = max group.kind (Kind.infer [rule]) ∧
      (∀ rules others, Kind.infer (rules ++ others) = max (Kind.infer rules) (Kind.infer others)) ∧
      ∀ inputs, Grown group pushed.kind (card.evaluate inputs) (next.evaluate inputs)
          (before.flatMap (Group.outcomes inputs)) (group.outcomesAt group.kind inputs)
          (group.outcomesAt pushed.kind inputs) (after.flatMap (Group.outcomes inputs))
          (rule.outcome group.label (Scalar.ofRaw? pushed.kind (inputs.raw group.field))) := by
  intro rule pushed
  have hvalid : card.Valid := validate_eq_ok_iff_valid.mp h
  have hpush := hvalid.pushRule?_eq hgroups operator literal points
  have hnext := hvalid.pushRule? hpush
  have hkind : pushed.kind = max group.kind (Kind.infer [rule]) :=
    group.kind_pushRule operator literal points
  refine ⟨_, hpush, rfl, validate_eq_ok_iff_valid.mpr hnext, ?_, hkind, Kind.infer_append, ?_⟩
  · rw [hkind]
    exact le_max_left _ _
  · intro inputs
    have hold := hvalid.outcomes_of_groups_eq hgroups inputs
    have hnew := hnext.outcomes_of_groups_eq rfl inputs
    rw [Group.outcomes, Group.outcomesAt_pushRule] at hnew
    refine ⟨hold, hnew, fun hstays => by rw [hstays], ?_⟩
    intro hstays
    -- the outcomes differ by the new one only, wherever it stands
    rw [matchedRules_evaluate, matchedRules_evaluate, hold, hnew, hstays]
    simp only [Group.outcomes, List.countP_append, List.countP_singleton, ← Nat.add_assoc]
    exact Nat.add_right_comm _ _ _

/-- The age stays a number, and of an applicant of forty the new rule is the second to match. -/
theorem evaluate_pushRule_ageAndMember :
    ∃ next, ageAndMember.pushRule? "age" .less "90" (Points.clamp 5) = some next ∧
      next.validate = .ok () ∧
      (next.evaluate (Inputs.empty.insert "age" "40")).matchedRules = 2 := by
  have hvalid : ageAndMember.validate = .ok () :=
    validate_eq_ok_iff.mpr (by decide +kernel)
  obtain ⟨next, hpush, _, hnext, _, _, _, hgrown⟩ :=
    evaluate_pushRule hvalid (List.nil_append _).symm .less "90" (Points.clamp 5)
  have hcounted := (hgrown (Inputs.empty.insert "age" "40")).counted (by decide)
  have hbefore : (ageAndMember.evaluate (Inputs.empty.insert "age" "40")).matchedRules = 1 := by
    decide +kernel
  refine ⟨next, hpush, hnext, ?_⟩
  rw [hcounted, hbefore]
  decide +kernel

end Scorecard

end CreditScorecard
