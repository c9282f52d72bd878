import CreditScorecard.Evaluation.Basic
import CreditScorecard.Proofs.Kind.Order

/-! # Judging the rules one after the other

The pass over the rules looks the kind of a field up in a table and remembers the fields it has
warned of. What it comes to depends on neither: the outcome of a rule follows from the text of its
field and from the rules that name that field, and a field is warned of once.
-/

namespace CreditScorecard

/-! ## The kinds of fields -/

theorem lookup_gather (rule : Rule) (fields : List (String × List Rule)) (field : String) :
    ((gather rule fields).lookup field).getD [] =
      (fields.lookup field).getD [] ++ [rule].filter (·.field == field) := by
  induction fields with
  | nil =>
      by_cases h : field = rule.field
      · subst h
        simp [gather]
      · simp [gather, List.lookup_cons, beq_false_of_ne h, beq_false_of_ne (Ne.symm h)]
  | cons entry rest ih =>
      obtain ⟨key, rules⟩ := entry
      simp only [gather]
      by_cases hkey : key = rule.field
      · subst hkey
        rw [if_pos rfl]
        by_cases h : field = rule.field
        · subst h
          simp
        · simp [List.lookup_cons, beq_false_of_ne h, beq_false_of_ne (Ne.symm h)]
      · rw [if_neg hkey]
        by_cases h : field = key
        · subst h
          simp [beq_false_of_ne (Ne.symm hkey)]
        · simp only [List.lookup_cons, beq_false_of_ne h]
          exact ih

theorem lookup_foldl_gather (labelled : List (Rule × String)) (fields : List (String × List Rule))
    (field : String) :
    ((labelled.foldl (fun fields entry => gather entry.1 fields) fields).lookup field).getD [] =
      (fields.lookup field).getD [] ++ (labelled.map (·.1)).filter (·.field == field) := by
  induction labelled generalizing fields with
  | nil => simp
  | cons entry rest ih =>
      rw [List.foldl_cons, ih, lookup_gather, List.map_cons, List.append_assoc,
        ← List.filter_append]
      rfl

theorem lookup_map_infer (fields : List (String × List Rule)) (field : String) :
    (fields.map fun entry => (entry.1, Kind.infer entry.2)).lookup field =
      (fields.lookup field).map Kind.infer := by
  induction fields with
  | nil => rfl
  | cons entry rest ih =>
      rw [List.map_cons, List.lookup_cons, List.lookup_cons, ih]
      cases field == entry.1 <;> rfl

theorem lookup_gathered (labelled : List (Rule × String)) (field : String) :
    ((labelled.foldl (fun fields entry => gather entry.1 fields) []).lookup field).getD [] =
      (labelled.map (·.1)).filter (·.field == field) := by
  rw [lookup_foldl_gather, List.lookup_nil, Option.getD_none, List.nil_append]

/-- The kind in the table is inferred from all rules that name the field, wherever they stand. -/
theorem lookup_inferKinds (labelled : List (Rule × String)) (field : String) :
    ((inferKinds labelled).lookup field).getD .text =
      Kind.infer ((labelled.map (·.1)).filter (·.field == field)) := by
  rw [inferKinds, lookup_map_infer, ← lookup_gathered]
  cases List.lookup field _ with
  | none => rfl
  | some rules => rfl

/-- The table has an entry for every field that some rule names. -/
theorem lookup_inferKinds_of_mem {labelled : List (Rule × String)} {rule : Rule}
    (h : rule ∈ labelled.map (·.1)) :
    (inferKinds labelled).lookup rule.field =
      some (Kind.infer ((labelled.map (·.1)).filter (·.field == rule.field))) := by
  have hmem : rule ∈ (labelled.map (·.1)).filter (·.field == rule.field) :=
    List.mem_filter.mpr ⟨h, beq_self_eq_true _⟩
  rw [← lookup_gathered] at hmem
  rw [inferKinds, lookup_map_infer, ← lookup_gathered]
  cases hlookup : List.lookup rule.field _ with
  | none =>
      rw [hlookup, Option.getD_none] at hmem
      cases hmem
  | some rules => rfl

/-- Raises the kind of a field in a table to another one, if that is higher. -/
def raiseKind (field : String) (kind : Kind) : List (String × Kind) → List (String × Kind)
  | [] => [(field, kind)]
  | entry :: rest =>
    if entry.1 = field then (entry.1, max entry.2 kind) :: rest
    else entry :: raiseKind field kind rest

theorem map_infer_gather (rule : Rule) (fields : List (String × List Rule)) :
    (gather rule fields).map (fun entry => (entry.1, Kind.infer entry.2)) =
      raiseKind rule.field (Kind.infer [rule])
        (fields.map fun entry => (entry.1, Kind.infer entry.2)) := by
  induction fields with
  | nil => rfl
  | cons entry rest ih =>
      by_cases h : entry.1 = rule.field
      · simp [gather, raiseKind, h, Kind.infer_append]
      · simp [gather, raiseKind, h, ih]

/-- The table of kinds can be kept rule by rule: each rule raises the kind of its field. -/
theorem inferKinds_eq_foldl (labelled : List (Rule × String)) :
    inferKinds labelled =
      (labelled.map fun entry => (entry.1.field, Kind.infer [entry.1])).foldl
        (fun table entry => raiseKind entry.1 entry.2 table) [] := by
  have hfold : ∀ fields : List (String × List Rule),
      (labelled.foldl (fun fields entry => gather entry.1 fields) fields).map
          (fun entry => (entry.1, Kind.infer entry.2)) =
        (labelled.map fun entry => (entry.1.field, Kind.infer [entry.1])).foldl
          (fun table entry => raiseKind entry.1 entry.2 table)
          (fields.map fun entry => (entry.1, Kind.infer entry.2)) := by
    induction labelled with
    | nil => exact fun _ => rfl
    | cons entry rest ih =>
        intro fields
        rw [List.foldl_cons, ih, map_infer_gather]
        rfl
  exact hfold []

/-- The rules of a group, each with the label of the group. -/
def Group.labelledRules (group : Group) : List (Rule × String) :=
  group.rules.map fun rule => (rule, group.label)

@[simp]
theorem Group.length_labelledRules (group : Group) :
    group.labelledRules.length = group.rules.length := by
  rw [labelledRules, List.length_map]

namespace Scorecard

theorem labelledRules_eq_flatMap (card : Scorecard) :
    card.labelledRules = card.groups.flatMap Group.labelledRules :=
  rfl

theorem map_fst_labelledRules (card : Scorecard) :
    card.labelledRules.map (·.1) = card.rules := by
  simp only [labelledRules, rules, List.map_flatMap, List.map_map]
  congr 1
  funext group
  exact (List.map_congr_left fun _ _ => rfl).trans (List.map_id _)

/-- The kind of a field, inferred from every rule that names it. -/
def kindOf (card : Scorecard) (field : String) : Kind :=
  Kind.infer (card.rules.filter (·.field == field))

/-- The applicant's value of a field, if its text can be read. -/
def actual? (card : Scorecard) (inputs : Inputs) (field : String) : Option Scalar :=
  Scalar.ofRaw? (card.kindOf field) (inputs.raw field)

theorem lookup_inferKinds_labelledRules (card : Scorecard) (field : String) :
    ((inferKinds card.labelledRules).lookup field).getD .text = card.kindOf field := by
  rw [lookup_inferKinds, map_fst_labelledRules, kindOf]

/-! ## One rule after the other -/

/-- The text of a field is not blank and still cannot be read. -/
def unread (card : Scorecard) (inputs : Inputs) (field : String) : Bool :=
  (card.actual? inputs field).isNone && !Text.blank (inputs.raw field)

/-- The fields of some rules that cannot be read, each once, in the order of the rules. -/
def unreadFields (card : Scorecard) (inputs : Inputs) (labelled : List (Rule × String)) :
    List String :=
  ((labelled.map (·.1.field)).filter (card.unread inputs)).eraseDups

/-- The outcome of a rule does not depend on the rules judged before it. -/
def outcome (card : Scorecard) (inputs : Inputs) (labelled : Rule × String) : Outcome :=
  labelled.1.outcome labelled.2 (card.actual? inputs labelled.1.field)

/-- What judging some of the rules comes to. -/
def judged (card : Scorecard) (inputs : Inputs) (labelled : List (Rule × String)) : Progress :=
  { outcomes := labelled.map (card.outcome inputs)
    unparsed := card.unreadFields inputs labelled
    warnings := (card.unreadFields inputs labelled).map fun field => (field, card.kindOf field) }

theorem unreadFields_concat_of_read {card : Scorecard} {inputs : Inputs}
    {labelled : List (Rule × String)} {entry : Rule × String}
    (h : card.unread inputs entry.1.field = false) :
    card.unreadFields inputs (labelled ++ [entry]) = card.unreadFields inputs labelled := by
  simp [unreadFields, List.filter_append, h]

theorem unreadFields_concat_of_unread {card : Scorecard} {inputs : Inputs}
    {labelled : List (Rule × String)} {entry : Rule × String}
    (h : card.unread inputs entry.1.field = true) :
    card.unreadFields inputs (labelled ++ [entry]) =
      if entry.1.field ∈ card.unreadFields inputs labelled then card.unreadFields inputs labelled
      else card.unreadFields inputs labelled ++ [entry.1.field] := by
  have hfields : ((labelled ++ [entry]).map (·.1.field)).filter (card.unread inputs) =
      (labelled.map (·.1.field)).filter (card.unread inputs) ++ [entry.1.field] := by
    simp [List.filter_append, h]
  rw [unreadFields, unreadFields, hfields, List.eraseDups_append]
  by_cases hmem : entry.1.field ∈ (labelled.map (·.1.field)).filter (card.unread inputs)
  · rw [if_pos (List.mem_eraseDups.mpr hmem)]
    simp [List.removeAll, hmem]
  · rw [if_neg fun h => hmem (List.mem_eraseDups.mp h)]
    simp [List.removeAll, hmem, List.eraseDups_cons]

theorem warn_judged {card : Scorecard} {inputs : Inputs} {labelled : List (Rule × String)}
    {entry : Rule × String} :
    (if card.unread inputs entry.1.field then
        (card.judged inputs labelled).warn entry.1.field (card.kindOf entry.1.field)
      else card.judged inputs labelled) =
      { card.judged inputs (labelled ++ [entry]) with
        outcomes := (card.judged inputs labelled).outcomes } := by
  cases hunread : card.unread inputs entry.1.field with
  | false => simp [judged, unreadFields_concat_of_read hunread]
  | true =>
      by_cases hmem : entry.1.field ∈ card.unreadFields inputs labelled
      · simp [judged, Progress.warn, unreadFields_concat_of_unread hunread, hmem]
      · simp [judged, Progress.warn, unreadFields_concat_of_unread hunread, hmem]

/-- What has been warned of is all that matters of the rules judged before. -/
theorem judge_judged (card : Scorecard) (inputs : Inputs) (labelled : List (Rule × String))
    (entry : Rule × String) :
    (card.judged inputs labelled).judge (inferKinds card.labelledRules) inputs entry =
      card.judged inputs (labelled ++ [entry]) := by
  have hactual : Scalar.ofRaw? (card.kindOf entry.1.field) (inputs.raw entry.1.field) =
      card.actual? inputs entry.1.field := rfl
  have hunread : ((card.actual? inputs entry.1.field).isNone &&
      !Text.blank (inputs.raw entry.1.field)) = card.unread inputs entry.1.field := rfl
  simp only [Progress.judge, lookup_inferKinds_labelledRules, hactual, hunread, warn_judged]
  simp [judged, outcome]

theorem foldl_judge_judged (card : Scorecard) (inputs : Inputs)
    (before labelled : List (Rule × String)) :
    labelled.foldl (Progress.judge (inferKinds card.labelledRules) inputs)
        (card.judged inputs before) = card.judged inputs (before ++ labelled) := by
  induction labelled generalizing before with
  | nil => rw [List.foldl_nil, List.append_nil]
  | cons entry rest ih =>
      rw [List.foldl_cons, judge_judged, ih, List.append_assoc]
      rfl

theorem judge_eq (card : Scorecard) (inputs : Inputs) :
    card.judge inputs = card.judged inputs card.labelledRules :=
  foldl_judge_judged card inputs [] card.labelledRules

/-! ## What evaluation comes to -/

section

variable {a b : Scorecard}

/-- All that a rule learns from the other rules is the kind of its field. -/
theorem outcome_eq_of_kindOf_eq (h : ∀ field, a.kindOf field = b.kindOf field) (inputs : Inputs) :
    a.outcome inputs = b.outcome inputs := by
  funext labelled
  rw [outcome, outcome, actual?, actual?, h]

theorem unread_eq_of_kindOf_eq (h : ∀ field, a.kindOf field = b.kindOf field) (inputs : Inputs) :
    a.unread inputs = b.unread inputs := by
  funext field
  rw [unread, unread, actual?, actual?, h]

end

/-- The outcomes are those of the rules, in order. -/
theorem outcomes_evaluate (card : Scorecard) (inputs : Inputs) :
    (card.evaluate inputs).outcomes = card.labelledRules.map (card.outcome inputs) := by
  rw [evaluate, judge_eq]
  rfl

theorem length_outcomes_evaluate (card : Scorecard) (inputs : Inputs) :
    (card.evaluate inputs).outcomes.length = card.ruleCount := by
  rw [outcomes_evaluate, List.length_map, ruleCount, ← map_fst_labelledRules, List.length_map]

theorem matchedRules_evaluate (card : Scorecard) (inputs : Inputs) :
    (card.evaluate inputs).matchedRules =
      (card.evaluate inputs).outcomes.countP (·.matched) :=
  List.countP_eq_length_filter.symm

/-- Every field that cannot be read is warned of once, in the order of the rules. -/
theorem warnings_eq (card : Scorecard) (inputs : Inputs) :
    card.warnings inputs =
      (((card.rules.map (·.field)).filter (card.unread inputs)).eraseDups.map fun field =>
        (field, card.kindOf field)) := by
  rw [warnings, judge_eq, judged, unreadFields, ← map_fst_labelledRules, List.map_map]
  rfl

end Scorecard

end CreditScorecard
