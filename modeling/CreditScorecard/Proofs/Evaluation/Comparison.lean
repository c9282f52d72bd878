import CreditScorecard.Inputs.Document
import CreditScorecard.Proofs.Evaluation.Rescored
import CreditScorecard.Proofs.Evaluation.Typing
import CreditScorecard.Proofs.Json.NumberValue
import CreditScorecard.Proofs.Matching.Numbers
import CreditScorecard.Proofs.Scorecard.Language

/-! # Numbers are compared by value

On a field of numbers, a rule and an input that are both written as numbers meet as the doubles
nearest to them. Each is written as text and read again, in a form of its own, and neither form
moves a number in the numerical order.
-/

namespace CreditScorecard

/-! ## Inputs as documents -/

namespace Inputs

/-- A field that is among the members has their text, any other the text it had before. -/
theorem get?_addMembers {members : List (String × Json)} {inputs inputs' : Inputs}
    (hkeys : (members.map Prod.fst).Nodup) (h : addMembers inputs members = .ok inputs')
    (field : String) :
    inputs'.get? field =
      (members.lookup field).elim (inputs.get? field) rawOfJson? := by
  induction members generalizing inputs with
  | nil =>
      cases h
      rfl
  | cons member members ih =>
      obtain ⟨key, value⟩ := member
      obtain ⟨hkey, hkeys⟩ := List.nodup_cons.mp hkeys
      simp only [addMembers] at h
      split at h
      · rename_i raw hraw
        rw [ih hkeys h, get?_insert, List.lookup_cons]
        by_cases hfield : field = key
        · subst hfield
          have hnone : members.lookup field = none := by
            rw [List.lookup_eq_none_iff]
            intro member hmem
            have hne : field ≠ member.1 := by
              intro heq
              exact hkey (List.mem_map.mpr ⟨member, hmem, heq.symm⟩)
            simpa using hne
          simp [hnone, hraw]
        · simp [hfield, beq_false_of_ne hfield]
      · cases h

theorem raw_of_ofJson {answers : Json} {inputs : Inputs} {field : String} {x : Json.Number}
    (hkeys : answers.DistinctKeys) (h : ofJson answers = .ok inputs)
    (hanswer : answers.part? [.key field] = some (.number x)) : inputs.raw field = x.text := by
  cases answers with
  | object members =>
      have hlookup : members.lookup field = some (.number x) := by
        simpa [Json.part?] using hanswer
      rw [raw, get?_addMembers hkeys.nodup h, hlookup]
      rfl
  | _ => cases h

end Inputs

/-! ## Rules as documents -/

theorem getElem?_of_forall₂ {α β : Type} {R : α → β → Prop} {xs : List α} {ys : List β}
    (h : List.Forall₂ R xs ys) {i : ℕ} {x : α} (hx : xs[i]? = some x) :
    ∃ y, ys[i]? = some y ∧ R x y := by
  induction h generalizing i with
  | nil => cases hx
  | cons hhead _ ih =>
      cases i with
      | zero =>
          cases hx
          exact ⟨_, rfl, hhead⟩
      | succ i => exact ih hx

/-- A path into a list of an object leads through one of its items. -/
theorem Json.exists_item_of_part? {members : List (String × Json)} {items : List Json}
    {key : String} {i : ℕ} {path : List Json.Step} {v : Json}
    (hitems : members.lookup key = some (.list items))
    (h : (Json.object members).part? (.key key :: .index i :: path) = some v) :
    ∃ item, items[i]? = some item ∧ item.part? path = some v := by
  simpa [Json.part?, hitems, Option.bind_eq_some_iff] using h

variable {document : Json} {i j : ℕ} {y : Json.Number}

theorem Rule.literal_eq_of_ofPart {rule : Rule} (h : Rule.ofPart document = .ok rule)
    (hvalue : document.part? [.key "value"] = some (.number y)) : rule.literal = y.literal := by
  cases document with
  | object members =>
      obtain ⟨-, -, ⟨v, hv, hliteral⟩, -⟩ := Rule.ofPart_eq_ok_iff.mp h
      simp only [Json.part?, hv, Option.bind_some, Option.some.injEq] at hvalue
      subst hvalue
      have hread := Json.asLiteral_eq_ok_iff.mpr hliteral
      rw [Json.asLiteral, Except.ok.injEq] at hread
      exact hread.symm
  | _ => cases h

/-- A rule that gets the field of its group keeps its literal. -/
theorem Group.exists_filled {group : Group} {rule : Rule} (h : group.rules[j]? = some rule) :
    ∃ filled, group.fillRules.rules[j]? = some filled ∧ filled.literal = rule.literal := by
  refine ⟨if rule.field.isEmpty then { rule with field := group.field } else rule, ?_, ?_⟩
  · simp [fillRules, h]
  · split <;> rfl

theorem Group.Written.exists_rule {group : Group} (h : group.Written document)
    (hvalue : document.part? [.key "rules", .index j, .key "value"] = some (.number y)) :
    ∃ rule, group.rules[j]? = some rule ∧ rule.literal = y.literal := by
  obtain ⟨members, rfl, hmembers⟩ := h
  rcases hmembers.rules with ⟨hnone, -⟩ | ⟨items, hitems, hrules⟩
  · simp [Json.part?, hnone] at hvalue
  · obtain ⟨item, hitem, hvalue⟩ := Json.exists_item_of_part? hitems hvalue
    obtain ⟨rule, hrule, hwritten⟩ := getElem?_of_forall₂ hrules hitem
    exact ⟨rule, hrule, Rule.literal_eq_of_ofPart (Rule.written_iff.mp hwritten).2 hvalue⟩

namespace Scorecard

variable {card : Scorecard}

theorem Written.exists_rule (h : card.Written document)
    (hvalue : document.part?
      [.key "fields", .index i, .key "rules", .index j, .key "value"] = some (.number y)) :
    ∃ group rule, card.groups[i]? = some group ∧ group.rules[j]? = some rule ∧
      rule.literal = y.literal := by
  obtain ⟨members, rfl, hmembers⟩ := h
  obtain ⟨items, hitems, hgroups⟩ := hmembers.groups
  obtain ⟨item, hitem, hvalue⟩ := Json.exists_item_of_part? hitems hvalue
  obtain ⟨group, hgroup, hwritten⟩ := getElem?_of_forall₂ hgroups hitem
  obtain ⟨rule, hrule, hliteral⟩ := hwritten.exists_rule hvalue
  exact ⟨group, rule, hgroup, hrule, hliteral⟩

/-- A number that is the value of a rule makes the literal of the rule that is loaded. -/
theorem exists_rule_of_ofJson (hkeys : document.DistinctKeys) (h : ofJson document = .ok card)
    (hvalue : document.part?
      [.key "fields", .index i, .key "rules", .index j, .key "value"] = some (.number y)) :
    ∃ group rule, card.groups[i]? = some group ∧ group.rules[j]? = some rule ∧
      rule.literal = y.literal := by
  obtain ⟨written, hwritten, -, rfl⟩ := (ofJson_eq_ok_iff hkeys).mp h
  obtain ⟨group, rule, hgroup, hrule, hliteral⟩ := hwritten.exists_rule hvalue
  obtain ⟨filled, hfilled, hsame⟩ := group.exists_filled hrule
  exact ⟨group.fillRules, filled, by simp [fillRules, hgroup], hfilled, hsame.trans hliteral⟩

/-! ## One rule and one input -/

variable {rule : Rule}

/-- The value of a rule is given as a number: in the document that the scorecard is loaded from, or
in one that the rule itself is read from. -/
inductive GivenNumber (card : Scorecard) (i j : ℕ) (rule : Rule) (y : Json.Number) : Prop where
  | loaded {document : Json} (hkeys : document.DistinctKeys) (hload : ofJson document = .ok card)
      (hvalue : document.part?
        [.key "fields", .index i, .key "rules", .index j, .key "value"] = some (.number y))
  | read {document : Json} {written : Rule} (hread : Rule.ofPart document = .ok written)
      (hvalue : document.part? [.key "value"] = some (.number y))
      (hliteral : rule.literal = written.literal)

theorem GivenNumber.literal_eq {group : Group} (h : card.GivenNumber i j rule y)
    (hgroup : card.groups[i]? = some group) (hrule : group.rules[j]? = some rule) :
    rule.literal = y.literal := by
  cases h with
  | loaded hkeys hload hvalue =>
      obtain ⟨group', rule', hgroup', hrule', hliteral⟩ := exists_rule_of_ofJson hkeys hload hvalue
      cases hgroup.symm.trans hgroup'
      cases hrule.symm.trans hrule'
      exact hliteral
  | read hread hvalue hliteral => exact hliteral.trans (Rule.literal_eq_of_ofPart hread hvalue)

/-- A rule whose value is given as the number `y`, on a field of numbers, and an answer to that
field that is the number `x`. -/
structure NumberOnNumber (card : Scorecard) (inputs : Inputs) (answers : Json) (i j : ℕ)
    (rule : Rule) (x y : Json.Number) : Prop where
  place : ∃ group, card.groups[i]? = some group ∧ group.rules[j]? = some rule
  given : card.GivenNumber i j rule y
  given_inRange : y.InRange
  operator : rule.operator ∈ Operator.comparisons
  number : ∃ other ∈ card.rules,
    other.field = rule.field ∧ other.operator.comparesNumbers = true
  answers_keys : answers.DistinctKeys
  entered : Inputs.ofJson answers = .ok inputs
  answer : answers.part? [.key rule.field] = some (.number x)
  answer_inRange : x.InRange

/-- The rule at an index is judged on the doubles nearest to the two numbers. The text of the input
is read as the one, the literal of the rule as a number that takes the place of the other. -/
structure ComparedByValue (card : Scorecard) (inputs : Inputs) (index : ℕ) (rule : Rule)
    (x y : Json.Number) : Prop where
  input : Binary64.readFinite? (inputs.raw rule.field) = some x.toBinary64
  literal : ∃ threshold, Binary64.readFinite? rule.literal = some threshold ∧
    threshold.order? = y.toBinary64.order?
  outcome : ∃ outcome a b, (card.evaluate inputs).outcomes[index]? = some outcome ∧
    outcome.field = rule.field ∧ outcome.operator = rule.operator ∧
    outcome.literal = rule.literal ∧ outcome.actual = some (.number x.toBinary64) ∧
    outcome.skipped = false ∧
    x.toBinary64.order? = some a ∧ y.toBinary64.order? = some b ∧
    (outcome.matched = true ↔ rule.operator.Compares a b)

variable {answers : Json} {x : Json.Number} {inputs : Inputs}

theorem NumberOnNumber.literal_eq (h : card.NumberOnNumber inputs answers i j rule x y) :
    rule.literal = y.literal := by
  obtain ⟨group, hgroup, hrule⟩ := h.place
  exact h.given.literal_eq hgroup hrule

theorem NumberOnNumber.kindOf_eq (h : card.NumberOnNumber inputs answers i j rule x y) :
    card.kindOf rule.field = .number := by
  obtain ⟨other, hmem, hfield, hcompares⟩ := h.number
  rw [← hfield]
  exact kindOf_eq_number hmem hcompares

theorem NumberOnNumber.raw_eq (h : card.NumberOnNumber inputs answers i j rule x y) :
    inputs.raw rule.field = x.text :=
  Inputs.raw_of_ofJson h.answers_keys h.entered h.answer

theorem NumberOnNumber.actual?_eq (h : card.NumberOnNumber inputs answers i j rule x y) :
    card.actual? inputs rule.field = some (.number x.toBinary64) := by
  rw [actual?, h.kindOf_eq, h.raw_eq, Scalar.ofRaw?, x.blank_text,
    Json.Number.readFinite?_text h.answer_inRange]
  rfl

/-- The rule at a place of the document has its outcome at the same place among the rules. -/
theorem NumberOnNumber.exists_outcome (h : card.NumberOnNumber inputs answers i j rule x y) :
    ∃ label, (card.evaluate inputs).outcomes[card.ruleIndex i j]? =
      some (rule.outcome label (some (.number x.toBinary64))) := by
  obtain ⟨group, hgroup, hrule⟩ := h.place
  obtain ⟨before, after, hlength, hlabelled, -⟩ := exists_labelledRules_changeRule hgroup hrule
  refine ⟨group.label, ?_⟩
  rw [outcomes_evaluate, hlabelled, List.map_append, List.map_cons, outcome, h.actual?_eq,
    ← hlength]
  simp

/-- A number as the value of a rule and a number as the answer to its field, which holds numbers:
the rule matches exactly if its operator relates the two doubles nearest to them. -/
theorem comparedByValue (h : card.NumberOnNumber inputs answers i j rule x y) :
    ComparedByValue card inputs (card.ruleIndex i j) rule x y := by
  have hinput := Json.Number.readFinite?_text h.answer_inRange
  obtain ⟨threshold, hread, horder⟩ := Json.Number.exists_readFinite?_literal h.given_inRange
  rw [← h.literal_eq] at hread
  obtain ⟨a, ha⟩ := Binary64.exists_order?_eq (Json.Number.isFinite_toBinary64 h.answer_inRange)
  obtain ⟨b, hb⟩ := Binary64.exists_order?_eq (Json.Number.isFinite_toBinary64 h.given_inRange)
  obtain ⟨label, houtcome⟩ := h.exists_outcome
  constructor
  case input => rw [h.raw_eq, hinput]
  case literal => exact ⟨threshold, hread, horder⟩
  case outcome =>
    refine ⟨_, a, b, houtcome, rfl, rfl, rfl, rfl, rfl, ha, hb, ?_⟩
    exact Operator.holds_iff_compares h.operator hread ha (horder.trans hb)

/-- A document with one rule, which asks for an age of at least a number. -/
def ageAtLeast (value : Json.Number) : Json :=
  .object
    [("fields", .list [.object [("field", .text "age"), ("rules", .list [.object
        [("operator", .text ">="), ("score", .ofInt 10), ("value", .number value)]])]]),
      ("maxScore", .ofInt 100), ("name", .text "Demo"), ("scoreCardId", .text "demo")]

/-- The rule that is loaded for it. -/
def ageRule (value : Json.Number) : Rule :=
  ⟨"age", .atLeast, value.literal, Points.clamp 10⟩

def ageCard (value : Json.Number) : Scorecard :=
  { id := "demo"
    name := "Demo"
    maxScore := Points.clamp 100
    groups := [⟨"age", none, [ageRule value]⟩] }

/-- An integer that is one above `2 ^ 53`, and so has the same double. -/
def afterExact : Json.Number :=
  .integer 0x20000000000001

theorem ofJson_ageAtLeast : ofJson (ageAtLeast afterExact) = .ok (ageCard afterExact) :=
  rfl

/-- Two integers of one double meet as equals, so the less one is at least the greater one. -/
theorem comparedByValue_afterExact :
    (ageCard afterExact).NumberOnNumber (Inputs.empty.insert "age" "9007199254740992")
      (.object [("age", .ofInt 0x20000000000000)]) 0 0 (ageRule afterExact)
      (.integer 0x20000000000000) afterExact ∧
    (ageCard afterExact).ComparedByValue (Inputs.empty.insert "age" "9007199254740992") 0
      (ageRule afterExact) (.integer 0x20000000000000) afterExact ∧
    ((ageCard afterExact).evaluate
      (Inputs.empty.insert "age" "9007199254740992")).outcomes.map (·.matched) = [true] := by
  have hkeys : (ageAtLeast afterExact).DistinctKeys := by
    simp [ageAtLeast, Json.ofInt]
  have hnumbers : (ageCard afterExact).NumberOnNumber
      (Inputs.empty.insert "age" "9007199254740992")
      (.object [("age", .ofInt 0x20000000000000)]) 0 0 (ageRule afterExact)
      (.integer 0x20000000000000) afterExact := by
    constructor
    case place => exact ⟨_, rfl, rfl⟩
    case given => exact .loaded hkeys ofJson_ageAtLeast rfl
    case given_inRange => exact ⟨by decide, by decide⟩
    case operator => decide
    case number => exact ⟨ageRule afterExact, List.mem_singleton.mpr rfl, rfl, rfl⟩
    case answers_keys => simp [Json.ofInt]
    case entered => rfl
    case answer => rfl
    case answer_inRange => exact ⟨by decide, by decide⟩
  exact ⟨hnumbers, comparedByValue hnumbers, by decide +kernel⟩

end Scorecard

end CreditScorecard
