import CreditScorecard.Proofs.Scorecard.RoundTrip
import CreditScorecard.Scorecard.Edit
import Mathlib.Logic.Relation

/-! # Editing keeps a scorecard valid

Nothing in the types ties a rule to its group or keeps the fields of the groups apart. Each way to
change a scorecard has to see to it, so each is shown to lead from a valid scorecard to a valid one.
-/

namespace CreditScorecard

namespace Group

/-- A group of a field with rules added to it one after the other. -/
def build (field : String) (rules : List (Operator × String × Points)) : Group :=
  rules.foldl (fun group rule => group.pushRule rule.1 rule.2.1 rule.2.2) { field := field }

/-- Every rule of a group names the field of the group. -/
def Owned (group : Group) : Prop :=
  ∀ rule ∈ group.rules, rule.field = group.field

@[simp]
theorem field_pushRule (group : Group) (operator : Operator) (literal : String)
    (points : Points) : (group.pushRule operator literal points).field = group.field :=
  rfl

theorem Owned.pushRule {group : Group} (h : group.Owned) (operator : Operator)
    (literal : String) (points : Points) : (group.pushRule operator literal points).Owned := by
  intro rule hrule
  rcases List.mem_append.mp hrule with hold | hnew
  · exact h rule hold
  · rw [List.mem_singleton.mp hnew]
    rfl

theorem field_and_owned_build (field : String) (rules : List (Operator × String × Points)) :
    (build field rules).field = field ∧ (build field rules).Owned := by
  have hfold : ∀ group : Group, group.field = field → group.Owned →
      let built := rules.foldl (fun group rule => group.pushRule rule.1 rule.2.1 rule.2.2) group
      built.field = field ∧ built.Owned := by
    induction rules with
    | nil => exact fun _ hfield howned => ⟨hfield, howned⟩
    | cons rule rest ih => exact fun _ hfield howned => ih _ hfield (howned.pushRule _ _ _)
  exact hfold { field := field } rfl (List.forall_mem_nil _)

end Group

namespace Scorecard

/-! ## One change -/

theorem Valid.withDescription {card : Scorecard} (h : card.Valid) (description : String) :
    (card.withDescription description).Valid :=
  ⟨h.id, h.name, h.ceiling, h.fields, h.distinct, h.rules⟩

/-- Validity asks of the groups that their fields are distinct and not blank, and that they own
their rules. -/
theorem Valid.withGroups {card : Scorecard} (h : card.Valid) {groups : List Group}
    (hfields : ∀ group ∈ groups, Text.blank group.field = false)
    (hdistinct : (groups.map (·.field)).Nodup) (howned : ∀ group ∈ groups, group.Owned) :
    { card with groups := groups }.Valid :=
  ⟨h.id, h.name, h.ceiling, hfields, hdistinct, howned⟩

section

variable {field : String} {change : Group → Group} {groups : List Group}

theorem map_field_updateFirst (hchange : ∀ group, (change group).field = group.field) :
    (updateFirst field change groups).map (·.field) = groups.map (·.field) := by
  induction groups with
  | nil => rfl
  | cons group rest ih =>
      rw [updateFirst]
      split
      · rw [List.map_cons, List.map_cons, hchange]
      · rw [List.map_cons, List.map_cons, ih]

theorem forall_mem_updateFirst {P : Group → Prop} (hchange : ∀ group, P group → P (change group))
    (h : ∀ group ∈ groups, P group) : ∀ group ∈ updateFirst field change groups, P group := by
  induction groups with
  | nil => exact h
  | cons group rest ih =>
      rw [List.forall_mem_cons] at h
      rw [updateFirst]
      split
      · exact List.forall_mem_cons.mpr ⟨hchange group h.1, h.2⟩
      · exact List.forall_mem_cons.mpr ⟨h.1, ih h.2⟩

end

theorem pushRule?_eq_some_iff {card next : Scorecard} {field : String} {operator : Operator}
    {literal : String} {points : Points} :
    card.pushRule? field operator literal points = some next ↔
      (∃ group ∈ card.groups, group.field = field) ∧
        next = { card with
          groups := updateFirst field (·.pushRule operator literal points) card.groups } := by
  have hany : card.groups.any (·.field = field) = true ↔
      ∃ group ∈ card.groups, group.field = field := by
    simp
  rw [pushRule?, ← hany]
  by_cases h : card.groups.any (·.field = field) = true
  · rw [if_pos h, Option.some_inj, and_iff_right h, eq_comm]
  · rw [if_neg h]
    exact iff_of_false nofun fun hand => h hand.1

theorem Valid.pushRule? {card next : Scorecard} (h : card.Valid) {field : String}
    {operator : Operator} {literal : String} {points : Points}
    (hpush : card.pushRule? field operator literal points = some next) : next.Valid := by
  obtain ⟨_, rfl⟩ := pushRule?_eq_some_iff.mp hpush
  apply h.withGroups
  · exact forall_mem_updateFirst (fun _ hblank => hblank) h.fields
  · rw [map_field_updateFirst fun group => group.field_pushRule operator literal points]
    exact h.distinct
  · exact forall_mem_updateFirst (fun _ howned => howned.pushRule _ _ _) h.rules

theorem group?_eq_none_iff {card : Scorecard} {field : String} :
    card.group? field = none ↔ ∀ group ∈ card.groups, group.field ≠ field := by
  simp [group?]

theorem Valid.addGroup {card : Scorecard} (h : card.Valid) {field : String}
    (hblank : Text.blank field = false) (hnew : card.group? field = none)
    (rules : List (Operator × String × Points)) :
    (card.addGroup (Group.build field rules)).Valid := by
  obtain ⟨hfield, howned⟩ := Group.field_and_owned_build field rules
  apply h.withGroups
  · rw [List.forall_mem_append, List.forall_mem_singleton, hfield]
    exact ⟨h.fields, hblank⟩
  · rw [List.map_append, List.map_singleton, hfield, List.nodup_append]
    refine ⟨h.distinct, List.nodup_cons.mpr ⟨List.not_mem_nil, .nil⟩, ?_⟩
    rw [List.forall_mem_map]
    intro group hgroup other hother
    rw [List.mem_singleton.mp hother]
    exact group?_eq_none_iff.mp hnew group hgroup
  · rw [List.forall_mem_append, List.forall_mem_singleton]
    exact ⟨h.rules, howned⟩

theorem replaceGroups_eq_ok_iff {card next : Scorecard} {groups : List Group} :
    card.replaceGroups groups = .ok next ↔
      { card with groups := groups }.fillRules.Valid ∧
        next = { card with groups := groups }.fillRules :=
  normalize_eq_ok_iff

/-! ## Runs of changes -/

/-- One step of editing a scorecard. Groups that cannot replace the present ones leave the
scorecard as it is. -/
inductive Edit : Scorecard → Scorecard → Prop where
  | describe {card : Scorecard} (description : String) :
      Edit card (card.withDescription description)
  | pushRule {card next : Scorecard} {field : String} {operator : Operator} {literal : String}
      {points : Points} (h : card.pushRule? field operator literal points = some next) :
      Edit card next
  | replaced {card next : Scorecard} {groups : List Group}
      (h : card.replaceGroups groups = .ok next) : Edit card next
  | notReplaced {card : Scorecard} {groups : List Group} {defect : Defect}
      (h : card.replaceGroups groups = .error defect) : Edit card card
  | addGroup {card : Scorecard} {field : String} (hblank : Text.blank field = false)
      (hnew : card.group? field = none) (rules : List (Operator × String × Points)) :
      Edit card (card.addGroup (Group.build field rules))
  /-- The scorecard is written and what was written is loaded. -/
  | reload {card next : Scorecard} (h : ofJsonText card.jsonText = .ok next) : Edit card next

/-- The parts of a scorecard that no editing changes. -/
structure SameIdentity (a b : Scorecard) : Prop where
  id : b.id = a.id
  name : b.name = a.name
  maxScore : b.maxScore = a.maxScore
  createdAt : b.createdAt = a.createdAt
  updatedAt : b.updatedAt = a.updatedAt

theorem SameIdentity.refl (card : Scorecard) : card.SameIdentity card :=
  ⟨rfl, rfl, rfl, rfl, rfl⟩

theorem SameIdentity.trans {a b c : Scorecard} (hab : a.SameIdentity b)
    (hbc : b.SameIdentity c) : a.SameIdentity c :=
  ⟨hbc.id.trans hab.id, hbc.name.trans hab.name, hbc.maxScore.trans hab.maxScore,
    hbc.createdAt.trans hab.createdAt, hbc.updatedAt.trans hab.updatedAt⟩

theorem Edit.valid {card next : Scorecard} (h : card.Valid) (hedit : Edit card next) :
    next.Valid := by
  cases hedit with
  | describe description => exact h.withDescription description
  | pushRule hpush => exact h.pushRule? hpush
  | replaced hreplace =>
      obtain ⟨hvalid, rfl⟩ := replaceGroups_eq_ok_iff.mp hreplace
      exact hvalid
  | notReplaced => exact h
  | addGroup hblank hnew rules => exact h.addGroup hblank hnew rules
  | reload hload =>
      obtain ⟨_, rfl⟩ := ofJsonText_jsonText_eq_ok_iff.mp hload
      exact h

theorem Edit.sameIdentity {card next : Scorecard} (hedit : Edit card next) :
    card.SameIdentity next := by
  cases hedit with
  | describe => exact ⟨rfl, rfl, rfl, rfl, rfl⟩
  | pushRule hpush =>
      obtain ⟨_, rfl⟩ := pushRule?_eq_some_iff.mp hpush
      exact ⟨rfl, rfl, rfl, rfl, rfl⟩
  | replaced hreplace =>
      obtain ⟨_, rfl⟩ := replaceGroups_eq_ok_iff.mp hreplace
      exact ⟨rfl, rfl, rfl, rfl, rfl⟩
  | notReplaced => exact .refl card
  | addGroup => exact ⟨rfl, rfl, rfl, rfl, rfl⟩
  | reload hload =>
      obtain ⟨_, rfl⟩ := ofJsonText_jsonText_eq_ok_iff.mp hload
      exact .refl next

/-- Any number of steps leads from a valid scorecard to a valid one of the same identity. -/
theorem valid_and_sameIdentity_of_edits {start card : Scorecard} (h : start.Valid)
    (hedits : Relation.ReflTransGen Edit start card) : card.Valid ∧ start.SameIdentity card := by
  induction hedits with
  | refl => exact ⟨h, .refl start⟩
  | tail _ hedit ih =>
      obtain ⟨hvalid, hsame⟩ := ih
      exact ⟨hedit.valid hvalid, hsame.trans hedit.sameIdentity⟩

/-- A scorecard that was loaded from JSON or YAML and edited since, in any number of steps, passes
validation and has kept its identity, and writing and loading it once more gives it back. -/
theorem valid_of_loaded_and_edited {text : String} {start card : Scorecard}
    (hload : ofJsonText text = .ok start ∨ ofYamlText text = .ok start)
    (hedits : Relation.ReflTransGen Edit start card) :
    card.validate = .ok () ∧ card.Valid ∧ start.SameIdentity card ∧
      ofJsonText card.jsonText = .ok card := by
  obtain ⟨hvalid, hsame⟩ := valid_and_sameIdentity_of_edits (valid_of_load hload) hedits
  exact ⟨validate_eq_ok_iff_valid.mpr hvalid, hvalid, hsame,
    ofJsonText_jsonText_eq_ok_iff.mpr ⟨hvalid, rfl⟩⟩

/-- A scorecard without groups. -/
def noGroups : Scorecard :=
  { id := "demo", name := "Demo", maxScore := Points.clamp 100 }

/-- A group is added to it, two groups of one field fail to replace that, and a rule is pushed. -/
theorem valid_of_edited_noGroups :
    ∃ card, card.groups = [⟨"age", none,
        [⟨"age", .atLeast, "18", Points.clamp 20⟩, ⟨"age", .atMost, "65", Points.clamp 5⟩]⟩] ∧
      card.validate = .ok () ∧ noGroups.SameIdentity card ∧
      ofJsonText card.jsonText = .ok card := by
  have hvalid : noGroups.Valid := validate_eq_ok_iff_valid.mp
    (validate_eq_ok_iff.mpr (by decide +kernel))
  have hload : ofJsonText noGroups.jsonText = .ok noGroups :=
    ofJsonText_jsonText_eq_ok_iff.mpr ⟨hvalid, rfl⟩
  let withAge := noGroups.addGroup (Group.build "age" [(.atLeast, "18", Points.clamp 20)])
  have hadd : Edit noGroups withAge := .addGroup (by decide +kernel) rfl _
  have hfail : withAge.replaceGroups [{ field := "age" }, { field := "age" }] =
      .error (.duplicateField "age") := normalize_eq_error_iff.mpr (by decide +kernel)
  have hpush : withAge.pushRule? "age" .atMost "65" (Points.clamp 5) = some { withAge with
      groups := [⟨"age", none, [⟨"age", .atLeast, "18", Points.clamp 20⟩,
        ⟨"age", .atMost, "65", Points.clamp 5⟩]⟩] } := rfl
  obtain ⟨hvalidate, _, hsame, hreload⟩ := valid_of_loaded_and_edited (.inl hload)
    (((Relation.ReflTransGen.single hadd).tail (.notReplaced hfail)).tail (.pushRule hpush))
  exact ⟨_, rfl, hvalidate, hsame, hreload⟩

end Scorecard

end CreditScorecard
