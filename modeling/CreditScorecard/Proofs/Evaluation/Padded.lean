import CreditScorecard.Proofs.Evaluation.Rescored
import CreditScorecard.Proofs.Matching.Padding

/-! # White space around the literals of rules

A literal is read for its operator and for the kind of its field. White space around it changes
neither reading, so an evaluation shows it in the literal itself and nowhere else. For a rule that
looks for a part the white space counts, but it still leaves all kinds as they are.
-/

namespace CreditScorecard

def Rule.withLiteral (rule : Rule) (literal : String) : Rule :=
  { rule with literal := literal }

namespace Scorecard

/-- Gives one rule another literal. -/
def reword (card : Scorecard) (i j : Nat) (literal : String) : Scorecard :=
  card.changeRule i j (·.withLiteral literal)

variable {card : Scorecard} {i j : Nat} {group : Group} {rule : Rule}

/-- A form is told the same kinds if the changed rule asks for the same kind. -/
theorem kinds_changeRule (hgroup : card.groups[i]? = some group)
    (hrule : group.rules[j]? = some rule) {change : Rule → Rule}
    (hkind : Kind.infer [change rule] = Kind.infer [rule]) :
    (card.changeRule i j change).kinds = card.kinds := by
  obtain ⟨groups, groups', _, hcard, hmodify⟩ := exists_eq_append_of_getElem? hgroup
  obtain ⟨rules, rules', _, hrules, hchange⟩ := exists_eq_append_of_getElem? hrule
  have hchanged : (group.changeRule j change).kind = group.kind := by
    rw [Group.kind, Group.changeRule, hchange, Group.kind, hrules, Kind.infer_append_cons,
      Kind.infer_append_cons, hkind]
  rw [kinds, changeRule, hmodify, kinds, hcard, List.map_append, List.map_append, List.map_cons,
    List.map_cons, hchanged]
  rfl

theorem warnings_changeRule (hgroup : card.groups[i]? = some group)
    (hrule : group.rules[j]? = some rule) {change : Rule → Rule}
    (hfield : (change rule).field = rule.field)
    (hkind : Kind.infer [change rule] = Kind.infer [rule]) (inputs : Inputs) :
    (card.changeRule i j change).warnings inputs = card.warnings inputs := by
  obtain ⟨before, after, _, hcard, hchange⟩ := exists_labelledRules_changeRule hgroup hrule
  have hfields : (card.changeRule i j change).rules.map (·.field) = card.rules.map (·.field) := by
    rw [← map_fst_labelledRules, ← map_fst_labelledRules, hchange, hcard]
    simp [hfield]
  have hkinds := kindOf_changeRule hgroup hrule hfield hkind
  simp only [warnings_eq, hfields, hkinds, unread_eq_of_kindOf_eq hkinds]

/-- A literal that holds of the same values shows in the outcome and has no other effect on it. -/
theorem outcome_withLiteral {literal : String}
    (hholds : ∀ value, rule.operator.holds literal value = rule.operator.holds rule.literal value)
    (inputs : Inputs) (label : String) :
    card.outcome inputs (rule.withLiteral literal, label) =
      { card.outcome inputs (rule, label) with literal := literal } := by
  have hmatched : (card.actual? inputs rule.field).any (rule.operator.holds literal) =
      (card.actual? inputs rule.field).any (rule.operator.holds rule.literal) := by
    rw [funext hholds]
  simp only [outcome, Rule.outcome, Rule.withLiteral, hmatched]

/-- White space put around a literal, any number of times, leaves the kinds that the rules are
judged by and those that a form is told. Unless the rule looks for a part, it shows in the literal
of the outcome of the rule, and the rest of every evaluation stays, warnings included. -/
theorem evaluate_padded (hgroup : card.groups[i]? = some group)
    (hrule : group.rules[j]? = some rule) {literal : String}
    (hpadded : Relation.ReflTransGen (PaddedFor rule.operator) rule.literal literal) :
    inferKinds (card.reword i j literal).labelledRules = inferKinds card.labelledRules ∧
    (card.reword i j literal).kinds = card.kinds ∧
    (rule.operator ≠ .contains → ∀ inputs,
      (card.reword i j literal).warnings inputs = card.warnings inputs ∧
      ∃ outcome, (card.evaluate inputs).outcomes[card.ruleIndex i j]? = some outcome ∧
        outcome.labelledRule = (rule, group.label) ∧
        (card.reword i j literal).evaluate inputs =
          { card.evaluate inputs with
            outcomes := (card.evaluate inputs).outcomes.set (card.ruleIndex i j)
              { outcome with literal := literal } }) := by
  obtain ⟨hbool, hholds⟩ := readBool?_and_holds_eq_of_padded hpadded
  have hkind : Kind.infer [rule.withLiteral literal] = Kind.infer [rule] :=
    Kind.infer_singleton_eq rfl hbool
  refine ⟨inferKinds_changeRule hgroup hrule rfl hkind, kinds_changeRule hgroup hrule hkind, ?_⟩
  intro hop inputs
  refine ⟨warnings_changeRule hgroup hrule rfl hkind inputs, ?_⟩
  obtain ⟨before, after, hbefore, hcard, hchange⟩ := outcomes_changeRule hgroup hrule inputs
  obtain ⟨hget, hset⟩ := getElem?_and_set_of_length_eq hbefore
    (card.outcome inputs (rule, group.label)) after
  rw [← hcard] at hget hset
  have hoverall : ((card.reword i j literal).evaluate inputs).outcomes =
      before ++ { card.outcome inputs (rule, group.label) with literal := literal } :: after := by
    rw [reword, hchange (·.withLiteral literal) rfl hkind, outcome_withLiteral (hholds hop)]
  have hcounted : (((card.reword i j literal).evaluate inputs).outcomes.filter (·.matched)).map
      (·.points) = ((card.evaluate inputs).outcomes.filter (·.matched)).map (·.points) := by
    rw [hoverall, hcard]
    simp only [List.filter_append, List.map_append, List.filter_cons]
    split <;> rfl
  refine ⟨card.outcome inputs (rule, group.label), hget, rfl, ?_⟩
  rw [hset, ← hoverall]
  exact Evaluation.ofOutcomes_eq_of_map_points hcounted

/-- Two rules on the membership, of which the second makes it a boolean. -/
def memberRules : Group :=
  { field := "member"
    rules :=
      [⟨"member", .oneOf, "true,yes", Points.clamp 10⟩,
        ⟨"member", .equal, "true", Points.clamp 20⟩] }

def memberTwice : Scorecard :=
  { id := "demo", name := "Demo", maxScore := Points.clamp 100, groups := [memberRules] }

/-- An item of the list is put between an ideographic space and a tab. -/
theorem evaluate_padded_memberTwice :
    Relation.ReflTransGen (PaddedFor .oneOf) "true,yes" "\u3000true\t,yes" ∧
    (inferKinds (memberTwice.reword 0 0 "\u3000true\t,yes").labelledRules).lookup "member" =
      some .boolean ∧
    ((memberTwice.reword 0 0 "\u3000true\t,yes").evaluate
      (Inputs.empty.insert "member" "TRUE")).totalScore = Points.clamp 30 := by
  have hgroup : memberTwice.groups[0]? = some memberRules := rfl
  have hrule : memberRules.rules[0]? = some ⟨"member", .oneOf, "true,yes", Points.clamp 10⟩ := rfl
  have hleft : Text.blank "\u3000" = true := by decide
  have hright : Text.blank "\t" = true := by decide
  have hpadded : Relation.ReflTransGen (PaddedFor .oneOf) "true,yes" "\u3000true\t,yes" :=
    .single (.item (by decide) hleft hright [] "true" ["yes"])
  obtain ⟨hkinds, _, hevaluate⟩ := evaluate_padded hgroup hrule hpadded
  obtain ⟨_, outcome, _, _, hresult⟩ :=
    hevaluate (by decide) (Inputs.empty.insert "member" "TRUE")
  have htotal : (memberTwice.evaluate (Inputs.empty.insert "member" "TRUE")).totalScore =
      Points.clamp 30 := by decide +kernel
  refine ⟨hpadded, ?_, ?_⟩
  · rw [hkinds]
    decide +kernel
  · rw [hresult]
    exact htotal

end Scorecard

end CreditScorecard
