import CreditScorecard.Proofs.Evaluation.Judging
import CreditScorecard.Proofs.Label.Canonical
import CreditScorecard.Proofs.Scorecard.Validity

/-! # The labels of groups

Every outcome carries the label of its group, and no label has white space at its ends. Whether a
group has a label at all depends on two tests that do not agree: validation asks for a field that is
not blank, while the label of a field leaves out its underscores, too.
-/

namespace CreditScorecard

namespace Group

/-- There is no description to show. -/
def Undescribed (group : Group) : Prop :=
  ∀ description ∈ group.description, Text.blank description = true

/-- There is nothing to show: neither a description nor a letter in the field's name. -/
structure Unlabelled (group : Group) : Prop where
  undescribed : group.Undescribed
  separators : ∀ c ∈ group.field.toList, Label.isSeparator c = true

variable {group : Group}

theorem label_of_undescribed (h : group.Undescribed) :
    group.label = Label.humanize group.field := by
  rw [label]
  cases hdescription : group.description with
  | none => rfl
  | some description => exact if_pos (h description hdescription)

theorem label_of_described {description : String} (h : group.description = some description)
    (hblank : Text.blank description = false) : group.label = Text.trim description := by
  simp [label, h, hblank]

theorem undescribed_or_exists (group : Group) : group.Undescribed ∨
    ∃ description, group.description = some description ∧ Text.blank description = false := by
  by_cases h : group.Undescribed
  · exact .inl h
  · right
    simpa [Undescribed] using h

theorem trimmed_label (group : Group) : Text.Trimmed group.label.toList := by
  rcases undescribed_or_exists group with h | ⟨description, h, hblank⟩
  · rw [label_of_undescribed h]
    exact Label.trimmed_humanize group.field
  · rw [label_of_described h hblank, Text.toList_trim]
    exact Text.trimmed_trimChars description.toList

theorem label_eq_empty_iff : group.label = "" ↔ group.Unlabelled := by
  rcases undescribed_or_exists group with h | ⟨description, h, hblank⟩
  · rw [label_of_undescribed h, Label.humanize_eq_empty_iff]
    exact ⟨fun hseparators => ⟨h, hseparators⟩, fun hunlabelled => hunlabelled.separators⟩
  · rw [label_of_described h hblank, Text.trim_eq_empty_iff, hblank]
    constructor
    · exact fun hfalse => absurd hfalse Bool.false_ne_true
    · exact fun hunlabelled => hblank ▸ hunlabelled.undescribed description h

/-- No separator but the space is in a label, unless the description brings it in. -/
theorem mem_label_iff_of_isSeparator {c : Char} (hc : Label.isSeparator c = true) (hne : c ≠ ' ') :
    c ∈ group.label.toList ↔
      ∃ description ∈ group.description, c ∈ (Text.trim description).toList := by
  rcases undescribed_or_exists group with h | ⟨description, h, hblank⟩
  · rw [label_of_undescribed h]
    constructor
    · exact fun hmem => absurd (Label.eq_space_of_mem_humanize hmem hc) hne
    · rintro ⟨description, hdescription, hmem⟩
      rw [Text.trim_eq_empty_iff.mpr (h description hdescription)] at hmem
      exact absurd hmem (by simp)
  · rw [label_of_described h hblank, h]
    simp

/-- A field of separators that is not blank has an underscore. -/
theorem Unlabelled.underscore_mem (h : group.Unlabelled)
    (hblank : Text.blank group.field = false) : '_' ∈ group.field.toList := by
  obtain ⟨c, hc, hnot⟩ := List.all_eq_false.mp hblank
  have hseparator := h.separators c hc
  rw [Label.isSeparator, Bool.or_eq_true, beq_iff_eq] at hseparator
  rcases hseparator with rfl | hspace
  · exact hc
  · exact absurd hspace hnot

end Group

namespace Scorecard

/-- Every outcome carries the field of its rule and the label of its group. -/
theorem map_description_outcomes (card : Scorecard) (inputs : Inputs) :
    (card.evaluate inputs).outcomes.map (fun outcome => (outcome.field, outcome.description)) =
      card.groups.flatMap fun group => group.rules.map fun rule => (rule.field, group.label) := by
  rw [outcomes_evaluate, labelledRules, List.map_map, List.map_flatMap]
  simp only [List.map_map]
  rfl

/-- The descriptions of the outcomes are the labels of the groups that have rules. -/
theorem mem_descriptions_iff {card : Scorecard} {inputs : Inputs} {s : String} :
    (∃ outcome ∈ (card.evaluate inputs).outcomes, outcome.description = s) ↔
      ∃ group ∈ card.groups, group.rules ≠ [] ∧ group.label = s := by
  have hdescriptions : (card.evaluate inputs).outcomes.map (·.description) =
      card.groups.flatMap fun group => group.rules.map fun _ => group.label := by
    have hmap := congrArg (List.map Prod.snd) (map_description_outcomes card inputs)
    rw [List.map_map, List.map_flatMap] at hmap
    simp only [List.map_map] at hmap
    exact hmap
  rw [← List.mem_map, hdescriptions, List.mem_flatMap]
  refine exists_congr fun group => and_congr_right fun _ => ?_
  rw [List.mem_map]
  constructor
  · rintro ⟨rule, hrule, hlabel⟩
    exact ⟨List.ne_nil_of_mem hrule, hlabel⟩
  · rintro ⟨hrules, hlabel⟩
    obtain ⟨rule, hrule⟩ := List.exists_mem_of_ne_nil _ hrules
    exact ⟨rule, hrule, hlabel⟩

/-- How the groups of a scorecard and the outcomes of an evaluation are labelled. -/
structure LabelSpec (card : Scorecard) (inputs : Inputs) : Prop where
  groups_trimmed : ∀ group ∈ card.groups, Text.Trimmed group.label.toList
  groups_empty : ∀ group ∈ card.groups, group.label = "" ↔ group.Unlabelled
  outcomes_trimmed : ∀ outcome ∈ (card.evaluate inputs).outcomes,
    Text.Trimmed outcome.description.toList
  outcomes_empty : (∃ outcome ∈ (card.evaluate inputs).outcomes, outcome.description = "") ↔
    ∃ group ∈ card.groups, group.rules ≠ [] ∧ group.Unlabelled
  outcomes : (card.evaluate inputs).outcomes.map
      (fun outcome => (outcome.field, outcome.description)) =
    card.groups.flatMap fun group => group.rules.map fun rule => (rule.field, group.label)
  underscores : card.validate = .ok () → ∀ group ∈ card.groups, group.label = "" →
    '_' ∈ group.field.toList

theorem labelSpec (card : Scorecard) (inputs : Inputs) : card.LabelSpec inputs where
  groups_trimmed group _ := group.trimmed_label
  groups_empty group _ := Group.label_eq_empty_iff
  outcomes_trimmed outcome houtcome := by
    obtain ⟨group, -, -, hlabel⟩ := mem_descriptions_iff.mp ⟨outcome, houtcome, rfl⟩
    rw [← hlabel]
    exact group.trimmed_label
  outcomes_empty := by
    simp only [mem_descriptions_iff, Group.label_eq_empty_iff]
  outcomes := map_description_outcomes card inputs
  underscores hvalid group hgroup hempty :=
    (Group.label_eq_empty_iff.mp hempty).underscore_mem
      ((validate_eq_ok_iff_valid.mp hvalid).fields group hgroup)

/-- A scorecard with a rule on a field without letters. -/
def ofUnderscore : Scorecard :=
  { id := "demo"
    name := "Demo"
    maxScore := Points.clamp 100
    groups := [⟨"_", none, [⟨"_", .equal, "car", Points.clamp 60⟩]⟩] }

/-- A field's name of one underscore is valid and leaves nothing to tell its rule by. -/
theorem description_ofUnderscore : ofUnderscore.validate = .ok () ∧
    ofUnderscore.groups.map (·.label) = [""] ∧
    (ofUnderscore.evaluate (Inputs.empty.insert "_" "car")).outcomes.map (·.description) =
      [""] := by
  decide +kernel

end Scorecard

end CreditScorecard
