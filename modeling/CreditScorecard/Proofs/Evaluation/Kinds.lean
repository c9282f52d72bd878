import CreditScorecard.Proofs.Evaluation.Fields
import CreditScorecard.Proofs.Scorecard.Validity
import Mathlib.Data.List.Basic

/-! # The kinds of a valid scorecard

A form asks a group for the kind of its field; the evaluation gathers the rules of the field from
all groups. In a valid scorecard both come to the same, since the rules that name a field are those
of its group.
-/

namespace CreditScorecard

namespace Scorecard

/-- Among groups of different fields whose rules stay with their group, the rules that name the
field of a group are the rules of that group. -/
theorem filter_flatMap_rules {groups : List Group} {group : Group}
    (hdistinct : (groups.map (·.field)).Nodup)
    (hrules : ∀ group ∈ groups, ∀ rule ∈ group.rules, rule.field = group.field)
    (hgroup : group ∈ groups) :
    (groups.flatMap (·.rules)).filter (·.field == group.field) = group.rules := by
  induction groups with
  | nil => cases hgroup
  | cons head rest ih =>
      rw [List.map_cons, List.nodup_cons] at hdistinct
      obtain ⟨hnew, hrest⟩ := hdistinct
      rw [List.flatMap_cons, List.filter_append]
      have hhead : ∀ rule ∈ head.rules, rule.field = head.field :=
        hrules head List.mem_cons_self
      have htail : ∀ group ∈ rest, ∀ rule ∈ group.rules, rule.field = group.field :=
        fun group hmem => hrules group (List.mem_cons_of_mem _ hmem)
      rcases List.mem_cons.mp hgroup with rfl | hmem
      · have hself : group.rules.filter (·.field == group.field) = group.rules := by
          rw [List.filter_eq_self]
          intro rule hrule
          rw [hhead rule hrule, beq_self_eq_true]
        rw [hself, filter_field_flatMap_eq_nil, List.append_nil]
        intro other hother rule hrule hfield
        apply hnew
        rw [← hfield, htail other hother rule hrule]
        exact List.mem_map_of_mem hother
      · -- the group stands further on, so its field is not that of the first group
        rw [filter_field_eq_nil, List.nil_append]
        · exact ih hrest htail hmem
        · intro rule hrule hfield
          apply hnew
          rw [← hhead rule hrule, hfield]
          exact List.mem_map_of_mem hmem

variable {card : Scorecard}

theorem Valid.rulesOf_eq (h : card.Valid) {group : Group} (hgroup : group ∈ card.groups) :
    card.rulesOf group.field = group.rules :=
  filter_flatMap_rules h.distinct h.rules hgroup

theorem Valid.kindOf_eq (h : card.Valid) {group : Group} (hgroup : group ∈ card.groups) :
    card.kindOf group.field = group.kind :=
  congrArg Kind.infer (h.rulesOf_eq hgroup)

theorem mem_rules_of_mem_group {group : Group} (hgroup : group ∈ card.groups) {rule : Rule}
    (hrule : rule ∈ group.rules) : rule ∈ card.rules :=
  List.mem_flatMap.mpr ⟨group, hgroup, hrule⟩

theorem Valid.lookup_inferKinds_eq (h : card.Valid) {group : Group} (hgroup : group ∈ card.groups)
    {rule : Rule} (hrule : rule ∈ group.rules) :
    (inferKinds card.labelledRules).lookup rule.field = some group.kind := by
  have hmem : rule ∈ card.labelledRules.map (·.1) := by
    rw [map_fst_labelledRules]
    exact mem_rules_of_mem_group hgroup hrule
  rw [lookup_inferKinds_of_mem hmem, map_fst_labelledRules, h.rules group hgroup rule hrule,
    ← h.kindOf_eq hgroup]
  rfl

/-- A form is told one kind for each field. -/
theorem Valid.mem_kinds_iff (h : card.Valid) {group : Group} (hgroup : group ∈ card.groups)
    (kind : Kind) : (group.field, kind) ∈ card.kinds ↔ kind = group.kind := by
  rw [kinds, List.mem_map]
  constructor
  · rintro ⟨other, hother, heq⟩
    obtain ⟨hfield, rfl⟩ := Prod.mk.inj heq
    rw [← h.kindOf_eq hgroup, ← hfield, h.kindOf_eq hother]
  · rintro rfl
    exact ⟨group, hgroup, rfl⟩

/-- The outcomes of a valid scorecard, group by group. -/
theorem Valid.outcomes_eq (h : card.Valid) (inputs : Inputs) :
    (card.evaluate inputs).outcomes =
      card.groups.flatMap fun group => group.rules.map fun rule =>
        rule.outcome group.label (Scalar.ofRaw? group.kind (inputs.raw group.field)) := by
  rw [outcomes_evaluate, labelledRules_eq_flatMap, List.map_flatMap]
  apply List.flatMap_congr
  intro group hgroup
  rw [Group.labelledRules, List.map_map]
  apply List.map_congr_left
  intro rule hrule
  have hfield : rule.field = group.field := h.rules group hgroup rule hrule
  simp only [Function.comp_apply, outcome, actual?, hfield, h.kindOf_eq hgroup]

/-- In a valid scorecard a form is told one kind for the field of each group, the evaluation looks
the same kind up for each rule of the group, and the value that the rule sees is the text of the
field read as this kind. -/
theorem kinds_agree (h : card.validate = .ok ()) :
    (∀ group ∈ card.groups, ∀ kind, (group.field, kind) ∈ card.kinds ↔ kind = group.kind) ∧
    (∀ group ∈ card.groups, ∀ rule ∈ group.rules,
      (inferKinds card.labelledRules).lookup rule.field = some group.kind) ∧
    ∀ inputs, (card.evaluate inputs).outcomes =
      card.groups.flatMap fun group => group.rules.map fun rule =>
        rule.outcome group.label (Scalar.ofRaw? group.kind (inputs.raw group.field)) := by
  have hvalid : card.Valid := validate_eq_ok_iff_valid.mp h
  refine ⟨?_, ?_, hvalid.outcomes_eq⟩
  · intro group hgroup kind
    exact hvalid.mem_kinds_iff hgroup kind
  · intro group hgroup rule hrule
    exact hvalid.lookup_inferKinds_eq hgroup hrule

/-- Two rules on the age, of which one compares numbers, and a rule on the membership. -/
def ageAndMember : Scorecard :=
  { id := "demo"
    name := "Demo"
    maxScore := Points.clamp 100
    groups :=
      [⟨"age", none,
          [⟨"age", .equal, "30", Points.clamp 5⟩, ⟨"age", .atLeast, "18", Points.clamp 20⟩]⟩,
        ⟨"member", none, [⟨"member", .equal, "true", Points.clamp 10⟩]⟩] }

theorem kinds_agree_ageAndMember :
    ageAndMember.validate = .ok () ∧
    (∀ kind, ("age", kind) ∈ ageAndMember.kinds ↔ kind = .number) ∧
    (inferKinds ageAndMember.labelledRules).lookup "member" = some .boolean ∧
    (ageAndMember.evaluate (Inputs.empty.insert "member" "TRUE")).outcomes.map (·.actual) =
      [none, none, some (.boolean true)] := by
  have hvalid : ageAndMember.validate = .ok () :=
    validate_eq_ok_iff.mpr (by decide +kernel)
  obtain ⟨hkinds, hlookup, houtcomes⟩ := kinds_agree hvalid
  refine ⟨hvalid, ?_, ?_, ?_⟩
  · exact hkinds _ (List.mem_cons_self)
  · exact hlookup _ (List.mem_cons_of_mem _ List.mem_cons_self) _ List.mem_cons_self
  · rw [houtcomes]
    decide +kernel

end Scorecard

end CreditScorecard
