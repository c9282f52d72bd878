import CreditScorecard.Inputs.Document
import CreditScorecard.Proofs.Evaluation.Judging
import CreditScorecard.Proofs.Json.NumberText
import CreditScorecard.Proofs.Matching.Malformed
import CreditScorecard.Proofs.Scorecard.Language
import CreditScorecard.Proofs.Scorecard.RoundTrip

/-! # A number as rule and as input

A rule may ask for a number without saying that the field holds numbers: by equality, or as the one
item of a list. The field is then read as text, and an input that is the same number matches exactly
if a number has the same text in both places.
-/

namespace CreditScorecard

/-! ## Literals that spell no boolean -/

theorem readBool?_eq_none {literal : String}
    (h : ∀ c ∈ literal.toList, Text.isBlank c = false ∧ c.toLower ≠ 'e') :
    readBool? literal = none := by
  rw [readBool?_eq_none_iff, Text.trim_eq_self fun c hc => (h c hc).1]
  have hletter : 'e' ∉ (Text.lowerAscii literal).toList := by
    rw [Text.lowerAscii, String.toList_ofList, List.mem_map]
    rintro ⟨c, hc, he⟩
    exact (h c hc).2 he
  intro hmem
  rw [List.mem_pair] at hmem
  rcases hmem with heq | heq <;> exact hletter (heq ▸ by decide)

/-! ## One rule and one input -/

/-- A rule that asks for a number, in a scorecard of its own. -/
structure NumberTest where
  id : String
  name : String
  maxScore : Points
  field : String
  operator : Operator
  number : Json.Number
  points : Points
  id_proper : Text.blank id = false
  name_proper : Text.blank name = false
  ceiling : 0 < maxScore.value
  field_proper : Text.blank field = false
  equates : operator ∈ [.equal, .oneOf]

namespace NumberTest

variable (test : NumberTest)

/-- The scorecard as a document. -/
def document : Json :=
  .object
    [("fields", .list [.object [("field", .text test.field), ("rules", .list [.object
        [("operator", .text test.operator.symbol), ("score", .ofPoints test.points),
          ("value", .number test.number)]])]]),
      ("maxScore", .ofPoints test.maxScore), ("name", .text test.name),
      ("scoreCardId", .text test.id)]

/-- The same number as the only input. -/
def answers : Json :=
  .object [(test.field, .number test.number)]

def rule : Rule :=
  ⟨test.field, test.operator, test.number.literal, test.points⟩

def card : Scorecard :=
  { id := test.id
    name := test.name
    maxScore := test.maxScore
    groups := [⟨test.field, none, [test.rule]⟩] }

def inputs : Inputs :=
  Inputs.empty.insert test.field test.number.text

/-- The scorecard as it is written, with a rule that names no field. -/
def written : Scorecard :=
  { test.card with groups := [⟨test.field, none, [{ test.rule with field := "" }]⟩] }

theorem written_rule :
    Rule.Written (.object [("operator", .text test.operator.symbol),
        ("score", .ofPoints test.points), ("value", .number test.number)])
      { test.rule with field := "" } :=
  ⟨_, rfl, by simp, .inl ⟨rfl, rfl⟩, rfl, ⟨_, rfl, .number _⟩, rfl⟩

theorem written_document : Scorecard.Written test.document test.written := by
  refine ⟨_, rfl, by simp, rfl, Scorecard.ne_empty_of_blank_eq_false test.id_proper, rfl,
    Scorecard.ne_empty_of_blank_eq_false test.name_proper, rfl, rfl, test.ceiling, .none, .none, _,
    rfl, .cons ⟨_, rfl, by simp, rfl, Scorecard.ne_empty_of_blank_eq_false test.field_proper, rfl,
      ?_⟩ .nil⟩
  exact .inr ⟨_, rfl, .cons test.written_rule .nil⟩

theorem acceptable_written : test.written.Acceptable where
  id := test.id_proper
  name := test.name_proper
  ceiling := test.ceiling
  fields := by simpa [written] using test.field_proper
  distinct := by simp [written]
  rules := by simp [written]

theorem distinctKeys_document : test.document.DistinctKeys := by
  simp [document, Json.ofPoints, Json.ofInt]

/-- The rule gets the field of its group. -/
theorem ofJson_document : Scorecard.ofJson test.document = .ok test.card :=
  (Scorecard.ofJson_eq_ok_iff test.distinctKeys_document).mpr
    ⟨_, test.written_document, test.acceptable_written, rfl⟩

theorem ofJson_answers : Inputs.ofJson test.answers = .ok test.inputs :=
  rfl

/-! ## Judging the rule -/

theorem readBool?_literal : readBool? test.number.literal = none :=
  readBool?_eq_none fun _ hc =>
    let hinert := inert_of_isPlain (Json.Number.isPlain_of_mem_literal hc)
    ⟨hinert.1, hinert.2.2⟩

/-- Neither the operator nor the literal makes the field a number or a boolean. -/
theorem kindOf_field : test.card.kindOf test.field = .text := by
  have hcompares : test.operator.comparesNumbers = false := by
    rcases List.mem_pair.mp test.equates with h | h <;> rw [h] <;> rfl
  have hrules : test.card.rules.filter (·.field == test.field) = [test.rule] := by
    simp [Scorecard.rules, card, rule]
  rw [Scorecard.kindOf, hrules]
  simp [Kind.infer, rule, hcompares, test.readBool?_literal]

theorem actual?_field :
    test.card.actual? test.inputs test.field = some (.text test.number.text) := by
  have hraw : test.inputs.raw test.field = test.number.text := by
    simp [Inputs.raw, inputs, Inputs.get?_insert]
  rw [Scorecard.actual?, test.kindOf_field, hraw, Scalar.ofRaw?, test.number.blank_text,
    test.number.trim_text]
  rfl

/-- Equality and membership in a list of one item come to the same on texts. -/
theorem holds_iff : test.operator.holds test.number.literal (.text test.number.text) = true ↔
    test.number.text = test.number.literal := by
  have hplain : ∀ c ∈ test.number.literal.toList, Text.isBlank c = false ∧ c ≠ ',' := fun _ hc =>
    let hinert := inert_of_isPlain (Json.Number.isPlain_of_mem_literal hc)
    ⟨hinert.1, hinert.2.1⟩
  rcases List.mem_pair.mp test.equates with h | h
  · have htrim := Text.trim_eq_self fun c hc => (hplain c hc).1
    simp [h, Operator.holds, literalEquals?, htrim]
  · have hitem := mem_listItems_iff_eq (Json.Number.text_ne_empty test.number) hplain
    simp [h, Operator.holds, Scalar.display, hitem]

/-- A number as a rule and as an input: the scorecard is loaded, the input is read, and the rule is
judged on the two texts of the number. It matches exactly if these are one. -/
theorem matched_iff (test : NumberTest) : ∃ card inputs outcome,
    Scorecard.ofJson test.document = .ok card ∧ Inputs.ofJson test.answers = .ok inputs ∧
    (card.evaluate inputs).outcomes = [outcome] ∧
    outcome.field = test.field ∧ outcome.operator = test.operator ∧
    outcome.literal = test.number.literal ∧ outcome.actual = some (.text test.number.text) ∧
    (outcome.matched = true ↔ test.number.HasOneText) := by
  have houtcome : (test.card.evaluate test.inputs).outcomes =
      [test.rule.outcome (Group.label ⟨test.field, none, [test.rule]⟩)
        (some (.text test.number.text))] := by
    rw [Scorecard.outcomes_evaluate, ← test.actual?_field]
    rfl
  refine ⟨test.card, test.inputs, _, test.ofJson_document, test.ofJson_answers, houtcome,
    rfl, rfl, rfl, rfl, ?_⟩
  exact test.holds_iff.trans (eq_comm.trans (Json.Number.literal_eq_text_iff test.number))

/-- A rate that is to be equal to `1.0`. -/
def wholeRate : NumberTest :=
  { id := "demo"
    name := "Demo"
    maxScore := Points.clamp 100
    field := "rate"
    operator := .equal
    number := .real (.ofDecimal false ⟨1, 0⟩) (by decide +kernel)
    points := Points.clamp 60
    id_proper := by decide
    name_proper := by decide
    ceiling := by decide
    field_proper := by decide
    equates := by decide }

/-- The rate of `1.0` is not equal to itself. -/
theorem not_matched_wholeRate : ∃ card inputs,
    Scorecard.ofJson wholeRate.document = .ok card ∧ Inputs.ofJson wholeRate.answers = .ok inputs ∧
    (card.evaluate inputs).outcomes.map (·.matched) = [false] :=
  ⟨_, _, wholeRate.ofJson_document, wholeRate.ofJson_answers, by decide +kernel⟩

end NumberTest

end CreditScorecard
