import CreditScorecard.Scorecard.Validity

/-! # What validation checks -/

namespace CreditScorecard

namespace Group

theorem defect?_eq_none_iff {group : Group} {index : Nat} {earlier : List String} :
    group.defect? index earlier = none ↔
      Text.blank group.field = false ∧ group.field ∉ earlier ∧
        ∀ rule ∈ group.rules, rule.field = group.field := by
  unfold defect?
  split
  · simp_all
  · split
    · simp_all
    · simp_all

/-- Groups that continue others are free of defects if their fields are new, distinct and not
blank, and each rule names the field of its group. -/
theorem firstDefect?_eq_none_iff {earlier : List String} {groups : List Group} :
    firstDefect? earlier groups = none ↔
      (∀ group ∈ groups, Text.blank group.field = false ∧ group.field ∉ earlier ∧
        ∀ rule ∈ group.rules, rule.field = group.field) ∧
      (groups.map (·.field)).Nodup := by
  induction groups generalizing earlier with
  | nil => simp [firstDefect?]
  | cons group groups ih =>
      have hstep : firstDefect? earlier (group :: groups) = none ↔
          group.defect? earlier.length earlier = none ∧
            firstDefect? (earlier ++ [group.field]) groups = none := by
        rw [firstDefect?]
        cases group.defect? earlier.length earlier <;> simp
      rw [hstep, defect?_eq_none_iff, ih, List.map_cons, List.nodup_cons, List.forall_mem_cons]
      constructor
      · rintro ⟨hgroup, hgroups, hnodup⟩
        refine ⟨⟨hgroup, fun g hg => ?_⟩, fun hmem => ?_, hnodup⟩
        · obtain ⟨hblank, hnew, hrules⟩ := hgroups g hg
          exact ⟨hblank, fun h => hnew (List.mem_append_left _ h), hrules⟩
        · obtain ⟨g, hg, hfield⟩ := List.mem_map.mp hmem
          obtain ⟨_, hnew, _⟩ := hgroups g hg
          exact hnew (by simp [hfield])
      · rintro ⟨⟨hgroup, hgroups⟩, hmem, hnodup⟩
        refine ⟨hgroup, fun g hg => ?_, hnodup⟩
        obtain ⟨hblank, hnew, hrules⟩ := hgroups g hg
        refine ⟨hblank, fun h => ?_, hrules⟩
        rcases List.mem_append.mp h with h | h
        · exact hnew h
        · exact hmem (List.mem_map.mpr ⟨g, hg, List.mem_singleton.mp h⟩)

end Group

namespace Scorecard

/-- A scorecard that can be used. -/
structure Valid (card : Scorecard) : Prop where
  id : Text.blank card.id = false
  name : Text.blank card.name = false
  ceiling : 0 < card.maxScore.value
  fields : ∀ group ∈ card.groups, Text.blank group.field = false
  distinct : (card.groups.map (·.field)).Nodup
  rules : ∀ group ∈ card.groups, ∀ rule ∈ group.rules, rule.field = group.field

theorem validate_eq_ok_iff_valid {card : Scorecard} : card.validate = .ok () ↔ card.Valid := by
  have hdefect : card.defect? = none ↔
      Text.blank card.id = false ∧ Text.blank card.name = false ∧ 0 < card.maxScore.value ∧
        Group.firstDefect? [] card.groups = none := by
    unfold defect?
    grind
  rw [validate_eq_ok_iff, hdefect, Group.firstDefect?_eq_none_iff]
  constructor
  · rintro ⟨hid, hname, hceiling, hgroups, hdistinct⟩
    exact ⟨hid, hname, hceiling, fun g hg => (hgroups g hg).1, hdistinct,
      fun g hg => (hgroups g hg).2.2⟩
  · intro h
    exact ⟨h.id, h.name, h.ceiling, fun g hg => ⟨h.fields g hg, by simp, h.rules g hg⟩, h.distinct⟩

/-! ## Filled rules -/

theorem normalize_eq_ok_iff {card filled : Scorecard} :
    card.normalize = .ok filled ↔ card.fillRules.Valid ∧ filled = card.fillRules := by
  rw [← validate_eq_ok_iff_valid, normalize]
  cases card.fillRules.validate <;> simp [bind, Except.bind, pure, Except.pure, eq_comm]

theorem normalize_eq_error_iff {card : Scorecard} {defect : Defect} :
    card.normalize = .error defect ↔ card.fillRules.validate = .error defect := by
  rw [normalize]
  cases card.fillRules.validate <;> simp [bind, Except.bind, pure, Except.pure]

/-- Filling leaves a scorecard as it is if each of its rules names a field. -/
theorem fillRules_eq_self {card : Scorecard}
    (h : ∀ group ∈ card.groups, ∀ rule ∈ group.rules, rule.field ≠ "") :
    card.fillRules = card := by
  have hgroup : ∀ group ∈ card.groups, group.fillRules = group := by
    intro group hg
    have hrules : (group.rules.map fun rule =>
        if rule.field.isEmpty then { rule with field := group.field } else rule) = group.rules := by
      refine (List.map_congr_left fun rule hr => ?_).trans (List.map_id _)
      simp [h group hg rule hr]
    simp only [Group.fillRules, hrules]
  have hgroups : card.groups.map Group.fillRules = card.groups :=
    (List.map_congr_left hgroup).trans (List.map_id _)
  simp only [fillRules, hgroups]

/-- A scorecard that is valid once its rules are filled: a rule may still name no field. -/
structure Acceptable (card : Scorecard) : Prop where
  id : Text.blank card.id = false
  name : Text.blank card.name = false
  ceiling : 0 < card.maxScore.value
  fields : ∀ group ∈ card.groups, Text.blank group.field = false
  distinct : (card.groups.map (·.field)).Nodup
  rules : ∀ group ∈ card.groups, ∀ rule ∈ group.rules, rule.field = "" ∨ rule.field = group.field

theorem rules_fillRules_iff {group : Group} :
    (∀ rule ∈ group.fillRules.rules, rule.field = group.field) ↔
      ∀ rule ∈ group.rules, rule.field = "" ∨ rule.field = group.field := by
  simp only [Group.fillRules, List.forall_mem_map]
  refine forall₂_congr fun rule _ => ?_
  by_cases h : rule.field = "" <;> simp [h]

theorem valid_fillRules_iff {card : Scorecard} : card.fillRules.Valid ↔ card.Acceptable := by
  have hfields : card.fillRules.groups.map (·.field) = card.groups.map (·.field) := by
    simp [fillRules, Function.comp_def]
  constructor
  · intro h
    refine ⟨h.id, h.name, h.ceiling, fun g hg => ?_, hfields ▸ h.distinct, fun g hg => ?_⟩
    · exact h.fields g.fillRules (List.mem_map_of_mem hg)
    · exact rules_fillRules_iff.mp (h.rules g.fillRules (List.mem_map_of_mem hg))
  · intro h
    refine ⟨h.id, h.name, h.ceiling, ?_, hfields.symm ▸ h.distinct, ?_⟩
    · simpa [fillRules] using h.fields
    · intro filled hfilled
      obtain ⟨g, hg, rfl⟩ := List.mem_map.mp hfilled
      exact rules_fillRules_iff.mpr (h.rules g hg)

end Scorecard

end CreditScorecard
