import CreditScorecard.Proofs.Evaluation.Order
import CreditScorecard.Proofs.Matching.Malformed

/-! # Rules that never count

A rule whose literal is malformed matches nothing, so its points are never added. Giving it other
points shows in its own outcome and nowhere else.
-/

namespace CreditScorecard

/-! ## Changing one rule -/

theorem exists_eq_append_of_getElem? {α : Type} {xs : List α} {i : Nat} {x : α}
    (h : xs[i]? = some x) :
    ∃ before after, before.length = i ∧ xs = before ++ x :: after ∧
      ∀ change, xs.modify i change = before ++ change x :: after := by
  obtain ⟨hi, rfl⟩ := List.getElem?_eq_some_iff.mp h
  refine ⟨xs.take i, xs.drop (i + 1), ?_, ?_, ?_⟩
  · rw [List.length_take, Nat.min_eq_left (Nat.le_of_lt hi)]
  · rw [List.getElem_cons_drop, List.take_append_drop]
  · intro change
    exact List.modify_eq_take_cons_drop hi

/-- The entry behind `i` others is the one at the index `i`. -/
theorem getElem?_and_set_of_length_eq {α : Type} {before : List α} {i : Nat}
    (h : before.length = i) (x : α) (after : List α) :
    (before ++ x :: after)[i]? = some x ∧
      ∀ y, (before ++ x :: after).set i y = before ++ y :: after := by
  subst h
  constructor
  · rw [List.getElem?_append_right (Nat.le_refl _), Nat.sub_self]
    rfl
  · intro y
    rw [List.set_append_right _ _ (Nat.le_refl _), Nat.sub_self]
    rfl

/-- Changes the rule at an index. -/
def Group.changeRule (group : Group) (j : Nat) (change : Rule → Rule) : Group :=
  { group with rules := group.rules.modify j change }

namespace Scorecard

/-- Changes one rule, given by the index of its group and its index in the group. -/
def changeRule (card : Scorecard) (i j : Nat) (change : Rule → Rule) : Scorecard :=
  { card with groups := card.groups.modify i (·.changeRule j change) }

/-- The index among all rules of a rule given in this way. -/
def ruleIndex (card : Scorecard) (i j : Nat) : Nat :=
  ((card.groups.take i).flatMap (·.rules)).length + j

variable {card : Scorecard} {i j : Nat} {group : Group} {rule : Rule}

/-- A change of one rule keeps its label and all other rules. -/
theorem exists_labelledRules_changeRule (hgroup : card.groups[i]? = some group)
    (hrule : group.rules[j]? = some rule) :
    ∃ before after, before.length = card.ruleIndex i j ∧
      card.labelledRules = before ++ (rule, group.label) :: after ∧
      ∀ change, (card.changeRule i j change).labelledRules =
        before ++ (change rule, group.label) :: after := by
  obtain ⟨groups, groups', hgroups, hcard, hmodify⟩ := exists_eq_append_of_getElem? hgroup
  obtain ⟨rules, rules', hrules, hmem, hchange⟩ := exists_eq_append_of_getElem? hrule
  refine ⟨groups.flatMap Group.labelledRules ++ rules.map fun rule => (rule, group.label),
    (rules'.map fun rule => (rule, group.label)) ++ groups'.flatMap Group.labelledRules,
    ?_, ?_, ?_⟩
  · have htake : card.groups.take i = groups := by
      rw [hcard, ← hgroups, List.take_left]
    simp [ruleIndex, htake, hrules, List.length_flatMap]
  · rw [labelledRules_eq_flatMap, hcard, List.flatMap_append, List.flatMap_cons,
      Group.labelledRules, hmem]
    simp
  · intro change
    rw [labelledRules_eq_flatMap, changeRule, hmodify, List.flatMap_append, List.flatMap_cons,
      Group.labelledRules, Group.changeRule, hchange]
    simp [Group.label]

/-- A rule that keeps its field and the kind it asks for leaves all kinds as they are. -/
theorem inferKinds_changeRule (hgroup : card.groups[i]? = some group)
    (hrule : group.rules[j]? = some rule) {change : Rule → Rule}
    (hfield : (change rule).field = rule.field)
    (hkind : Kind.infer [change rule] = Kind.infer [rule]) :
    inferKinds (card.changeRule i j change).labelledRules = inferKinds card.labelledRules := by
  obtain ⟨before, after, _, hcard, hchange⟩ := exists_labelledRules_changeRule hgroup hrule
  rw [inferKinds_eq_foldl, inferKinds_eq_foldl, hchange, hcard]
  simp only [List.map_append, List.map_cons, hfield, hkind]

theorem kindOf_changeRule (hgroup : card.groups[i]? = some group)
    (hrule : group.rules[j]? = some rule) {change : Rule → Rule}
    (hfield : (change rule).field = rule.field)
    (hkind : Kind.infer [change rule] = Kind.infer [rule]) (field : String) :
    (card.changeRule i j change).kindOf field = card.kindOf field := by
  rw [← lookup_inferKinds_labelledRules, ← lookup_inferKinds_labelledRules,
    inferKinds_changeRule hgroup hrule hfield hkind]

/-- Where the kinds stay, a change of one rule shows in the outcome of this rule only. -/
theorem outcomes_changeRule (hgroup : card.groups[i]? = some group)
    (hrule : group.rules[j]? = some rule) (inputs : Inputs) :
    ∃ before after, before.length = card.ruleIndex i j ∧
      (card.evaluate inputs).outcomes =
        before ++ card.outcome inputs (rule, group.label) :: after ∧
      ∀ change : Rule → Rule, (change rule).field = rule.field →
        Kind.infer [change rule] = Kind.infer [rule] →
          ((card.changeRule i j change).evaluate inputs).outcomes =
            before ++ card.outcome inputs (change rule, group.label) :: after := by
  obtain ⟨before, after, hbefore, hcard, hchange⟩ := exists_labelledRules_changeRule hgroup hrule
  refine ⟨before.map (card.outcome inputs), after.map (card.outcome inputs), ?_, ?_, ?_⟩
  · rw [List.length_map, hbefore]
  · rw [outcomes_evaluate, hcard, List.map_append, List.map_cons]
  · intro change hfield hkind
    have houtcome := outcome_eq_of_kindOf_eq (kindOf_changeRule hgroup hrule hfield hkind) inputs
    rw [outcomes_evaluate, houtcome, hchange, List.map_append, List.map_cons]

end Scorecard

/-! ## Changing points -/

namespace Rule

def withPoints (rule : Rule) (points : Points) : Rule :=
  { rule with points := points }

end Rule

namespace Scorecard

/-- Gives one rule other points. -/
def rescore (card : Scorecard) (i j : Nat) (points : Points) : Scorecard :=
  card.changeRule i j (·.withPoints points)

variable {card : Scorecard} {i j : Nat} {group : Group} {rule : Rule}

/-- Other points show in the outcome of their rule only. -/
theorem outcomes_rescore (hgroup : card.groups[i]? = some group)
    (hrule : group.rules[j]? = some rule) (inputs : Inputs) :
    ∃ before after, before.length = card.ruleIndex i j ∧
      (card.evaluate inputs).outcomes =
        before ++ card.outcome inputs (rule, group.label) :: after ∧
      ∀ points, ((card.rescore i j points).evaluate inputs).outcomes =
        before ++ { card.outcome inputs (rule, group.label) with points := points } :: after := by
  obtain ⟨before, after, hbefore, hcard, hchange⟩ := outcomes_changeRule hgroup hrule inputs
  exact ⟨before, after, hbefore, hcard, fun points => hchange (·.withPoints points) rfl rfl⟩

end Scorecard

/-! ## Rules that match nothing -/

namespace Evaluation

/-- Of the outcomes only the points of the rules that match have a part in the rest of an
evaluation. -/
theorem ofOutcomes_eq_of_map_points {ceiling : Points} {outcomes others : List Outcome}
    (h : (outcomes.filter (·.matched)).map (·.points) =
      (others.filter (·.matched)).map (·.points)) :
    ofOutcomes ceiling outcomes = { ofOutcomes ceiling others with outcomes := outcomes } := by
  have htotal : rawTotal outcomes = rawTotal others := by
    simp only [rawTotal, ← List.foldl_map, h]
  have hcount : (outcomes.filter (·.matched)).length = (others.filter (·.matched)).length := by
    simpa using congrArg List.length h
  simp only [ofOutcomes, htotal, hcount]

end Evaluation

namespace Scorecard

variable {card : Scorecard} {i j : Nat} {group : Group} {rule : Rule}

theorem matched_outcome_of_malformed
    (h : Malformed rule.operator (card.kindOf rule.field) rule.literal) (inputs : Inputs)
    (label : String) : (card.outcome inputs (rule, label)).matched = false := by
  change (card.actual? inputs rule.field).any (rule.operator.holds rule.literal) = false
  cases hactual : card.actual? inputs rule.field with
  | none => rfl
  | some value =>
      exact Operator.holds_eq_false_of_malformed h (Scalar.kind_of_ofRaw?_eq_some hactual)

/-- A rule whose literal is malformed for its operator and the kind of its field does not match,
and with any other points it leaves the evaluation as it is but for the points in its own
outcome. -/
theorem evaluate_rescore_of_malformed (hgroup : card.groups[i]? = some group)
    (hrule : group.rules[j]? = some rule)
    (hmalformed : Malformed rule.operator (card.kindOf rule.field) rule.literal)
    (inputs : Inputs) :
    ∃ outcome, (card.evaluate inputs).outcomes[card.ruleIndex i j]? = some outcome ∧
      outcome.labelledRule = (rule, group.label) ∧ outcome.matched = false ∧
      ∀ points, (card.rescore i j points).evaluate inputs =
        { card.evaluate inputs with
          outcomes := (card.evaluate inputs).outcomes.set (card.ruleIndex i j)
            { outcome with points := points } } := by
  obtain ⟨before, after, hbefore, hcard, hrescore⟩ := outcomes_rescore hgroup hrule inputs
  obtain ⟨hget, hset⟩ := getElem?_and_set_of_length_eq hbefore
    (card.outcome inputs (rule, group.label)) after
  rw [← hcard] at hget hset
  have hmatched := matched_outcome_of_malformed hmalformed inputs group.label
  refine ⟨card.outcome inputs (rule, group.label), hget, rfl, hmatched, ?_⟩
  intro points
  have hfilter : ((card.rescore i j points).evaluate inputs).outcomes.filter (·.matched) =
      (card.evaluate inputs).outcomes.filter (·.matched) := by
    rw [hrescore, hcard, List.filter_append, List.filter_append, List.filter_cons_of_neg,
      List.filter_cons_of_neg]
    · simp [hmatched]
    · simp [hmatched]
  rw [hset, ← hrescore]
  exact Evaluation.ofOutcomes_eq_of_map_points (congrArg (List.map (·.points)) hfilter)

/-- An age of at least 18, and an age that is not a word. -/
def ageRules : Group :=
  { field := "age"
    rules :=
      [⟨"age", .atLeast, "18", Points.clamp 20⟩, ⟨"age", .notEqual, "thirty", Points.clamp 50⟩] }

def ageNotWord : Scorecard :=
  { id := "demo", name := "Demo", maxScore := Points.clamp 100, groups := [ageRules] }

theorem evaluate_rescore_ageNotWord :
    Malformed .notEqual (ageNotWord.kindOf "age") "thirty" ∧
    ∃ outcome, (ageNotWord.evaluate (Inputs.empty.insert "age" "25")).outcomes[1]? = some outcome ∧
      outcome.matched = false ∧
      ∀ points, ((ageNotWord.rescore 0 1 points).evaluate
        (Inputs.empty.insert "age" "25")).totalScore = Points.clamp 20 := by
  have hgroup : ageNotWord.groups[0]? = some ageRules := rfl
  have hrule : ageRules.rules[1]? = some ⟨"age", .notEqual, "thirty", Points.clamp 50⟩ := rfl
  have hmalformed : Malformed .notEqual (ageNotWord.kindOf "age") "thirty" :=
    .number (by decide) (by decide +kernel)
  obtain ⟨outcome, houtcome, _, hmatched, hpoints⟩ :=
    evaluate_rescore_of_malformed hgroup hrule hmalformed (Inputs.empty.insert "age" "25")
  have htotal : (ageNotWord.evaluate (Inputs.empty.insert "age" "25")).totalScore =
      Points.clamp 20 := by
    decide +kernel
  refine ⟨hmalformed, outcome, houtcome, hmatched, ?_⟩
  intro points
  simp only [hpoints, htotal]

end Scorecard

end CreditScorecard
