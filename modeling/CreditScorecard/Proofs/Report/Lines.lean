import CreditScorecard.Report
import CreditScorecard.Proofs.Evaluation.Skipping
import CreditScorecard.Proofs.Json.NumberText
import CreditScorecard.Proofs.Scorecard.Labels
import CreditScorecard.Proofs.Scorecard.RoundTrip
import CreditScorecard.Proofs.Text.Digits
import CreditScorecard.Proofs.Text.Lines

/-! # The lines of a report

A report is written record by record. The texts in it are shown as they are, so a record is one line
exactly if none of its texts holds a line feed.
-/

namespace CreditScorecard

open Text

/-! ## The texts in a report -/

/-- The text in a value; numbers and booleans hold none. -/
def Scalar.texts : Scalar → List String
  | .text s => [s]
  | _ => []

/-- The texts of the scorecard and of the applicant that are shown with an outcome. -/
def Outcome.texts (outcome : Outcome) : List String :=
  [outcome.description, outcome.literal] ++ outcome.actual.toList.flatMap Scalar.texts

namespace Report

/-- The texts that are shown in the report of an evaluation. -/
def evaluationTexts (card : Scorecard) (result : Evaluation) : List String :=
  [card.name, card.id] ++ result.outcomes.flatMap Outcome.texts ++ result.skippedFields

/-- The texts that are shown in the list of the fields. -/
def fieldTexts (card : Scorecard) : List String :=
  [card.name, card.id] ++ card.groups.flatMap fun group => [group.field, group.label]

end Report

/-! ## What holds no line feed -/

@[simp]
theorem count_feed_toDigits (n : Nat) : (Nat.toDigits 10 n).count '\n' = 0 := by
  rw [List.count_eq_zero]
  intro hmem
  exact absurd (isDigit_of_mem_toDigits hmem) (by decide)

@[simp]
theorem Points.count_feed_text (a : Points) : a.text.toList.count '\n' = 0 := by
  rw [text]
  split <;> simp

@[simp]
theorem Grade.count_feed_name (grade : Grade) : grade.name.toList.count '\n' = 0 := by
  cases grade <;> decide

@[simp]
theorem Document.count_feed_code (document : Document) : document.code.toList.count '\n' = 0 := by
  cases document <;> decide

@[simp]
theorem Kind.count_feed_name (kind : Kind) : kind.name.toList.count '\n' = 0 := by
  cases kind <;> decide

@[simp]
theorem Operator.count_feed_symbol (op : Operator) : op.symbol.toList.count '\n' = 0 := by
  cases op <;> decide

theorem Scalar.count_feed_display (value : Scalar) :
    value.display.toList.count '\n' = feeds value.texts := by
  cases value with
  | number x =>
      by_cases hx : x = .nan
      · subst hx
        decide
      · refine List.count_eq_zero.mpr fun hmem => ?_
        exact absurd (isPlain_of_mem_display hx hmem) (by decide)
  | boolean b => cases b <;> decide
  | text s => simp [display, texts, feeds]

namespace Report

@[simp]
theorem count_feed_padRight (width : Nat) (s : String) :
    (padRight width s).toList.count '\n' = s.toList.count '\n' := by
  simp [padRight, List.count_replicate]

@[simp]
theorem count_feed_padLeft (width : Nat) (s : String) :
    (padLeft width s).toList.count '\n' = s.toList.count '\n' := by
  simp [padLeft, List.count_replicate]

@[simp]
theorem count_feed_signed (a : Points) : (signed a).toList.count '\n' = 0 := by
  rw [signed]
  split <;> simp

@[simp]
theorem count_feed_join (texts : List String) :
    (join ", " texts).toList.count '\n' = feeds texts := by
  induction texts with
  | nil => rfl
  | cons s texts ih =>
      cases texts with
      | nil => simp [join, feeds]
      | cons t texts =>
          rw [feeds_cons, ← ih]
          simp [join, feeds]

/-! ## Records -/

/-- How the record of an outcome begins. -/
def mark (matched : Bool) : String :=
  "  [" ++ (if matched then "x" else " ") ++ "] "

/-- What the record of an outcome says of the applicant's value. -/
def detail : Option Scalar → String
  | some actual => "actual " ++ actual.display
  | none => "skipped (missing input)"

/-- The record of an outcome. -/
def outcomeRecord (width : Nat) (outcome : Outcome) : String :=
  mark outcome.matched ++
    (padRight width outcome.description ++ "  " ++
      padRight 24 (outcome.operator.symbol ++ " " ++ outcome.literal) ++ " " ++
      padLeft 5 (signed outcome.points) ++ "  " ++ detail outcome.actual)

theorem outcomeLine_eq (width : Nat) (outcome : Outcome) :
    outcomeLine width outcome = outcomeRecord width outcome ++ "\n" := by
  unfold outcomeLine outcomeRecord mark
  simp only [String.append_assoc]
  cases outcome.actual <;> rfl

theorem feeds_mark (matched : Bool) : feeds [mark matched] = 0 := by
  cases matched <;> decide

theorem feeds_detail (actual : Option Scalar) :
    feeds [detail actual] = feeds (actual.toList.flatMap Scalar.texts) := by
  cases actual with
  | none => decide
  | some actual => simp [detail, feeds_singleton, Scalar.count_feed_display]

theorem feeds_outcomeRecord (width : Nat) (outcome : Outcome) :
    feeds [outcomeRecord width outcome] = feeds outcome.texts := by
  have hmark := feeds_mark outcome.matched
  rw [feeds_singleton] at hmark
  rw [Outcome.texts, feeds_append, feeds_cons outcome.description, ← feeds_detail]
  simp [feeds_singleton, outcomeRecord, hmark, Nat.add_assoc]

/-- The records at the head of an evaluation. -/
def headRecords (card : Scorecard) (result : Evaluation) : List String :=
  [card.name ++ " (" ++ card.id ++ ")",
    "Score: " ++ result.totalScore.text ++ " / " ++ result.maxScore.text ++
      "   Risk grade: " ++ result.grade.name ++
      "   Matched rules: " ++ Nat.repr result.matchedRules,
    "Required documents: " ++ join ", " (result.documents.map (·.code)),
    ""]

/-- The records that name what is missing, unless nothing is. -/
def missingRecords (fields : List String) : List String :=
  if fields.isEmpty then [] else ["", "Missing input: " ++ join ", " fields]

/-- The records of an evaluation. -/
def evaluationRecords (card : Scorecard) (result : Evaluation) : List String :=
  headRecords card result ++ (result.outcomes.map (outcomeRecord (labelWidth result.outcomes)) ++
    missingRecords result.skippedFields)

theorem evaluation_eq (card : Scorecard) (result : Evaluation) :
    evaluation card result = unlines (evaluationRecords card result) := by
  have htitle : ")\n" = ")" ++ "\n" := by simp
  have hmissing : "\nMissing input: " = "\n" ++ "Missing input: " := by simp
  unfold evaluation evaluationRecords headRecords missingRecords
  simp only [unlines_append, unlines_cons, unlines_map (outcomeLine_eq _), htitle, hmissing]
  split <;> simp only [String.append_assoc, unlines_cons, unlines_nil, String.append_empty,
    String.empty_append]

theorem feeds_headRecords (card : Scorecard) (result : Evaluation) :
    feeds (headRecords card result) = feeds [card.name, card.id] := by
  have hdocuments : feeds (result.documents.map (·.code)) = 0 := by
    refine feeds_eq_zero_iff.mpr fun s hs => ?_
    obtain ⟨document, -, rfl⟩ := List.mem_map.mp hs
    exact List.count_eq_zero.mp document.count_feed_code
  rw [headRecords, feeds, feeds]
  simp [hdocuments]

theorem feeds_missingRecords (fields : List String) :
    feeds (missingRecords fields) = feeds fields := by
  cases fields with
  | nil => rfl
  | cons field fields => simp [missingRecords, feeds]

theorem feeds_evaluationRecords (card : Scorecard) (result : Evaluation) :
    feeds (evaluationRecords card result) = feeds (evaluationTexts card result) := by
  rw [evaluationRecords, evaluationTexts, feeds_append, feeds_append, feeds_headRecords,
    feeds_missingRecords, feeds_map (feeds_outcomeRecord _), feeds_append, feeds_append,
    Nat.add_assoc]

/-- The record of a group. -/
def groupRecord (group : Group) : String :=
  "  " ++ (padRight 20 group.field ++ " " ++ padRight 28 group.label ++ " " ++
    padRight 8 group.kind.name ++ " " ++ Nat.repr group.rules.length ++ " rule(s)")

theorem groupLine_eq (group : Group) : groupLine group = groupRecord group ++ "\n" := by
  have hrules : " rule(s)\n" = " rule(s)" ++ "\n" := by simp
  simp only [groupLine, groupRecord, hrules, String.append_assoc]

theorem feeds_groupRecord (group : Group) :
    feeds [groupRecord group] = feeds [group.field, group.label] := by
  simp [feeds, groupRecord]

/-- The records of the list of the fields. -/
def fieldRecords (card : Scorecard) : List String :=
  (card.name ++ " (" ++ card.id ++ "), max score " ++ card.maxScore.text) ::
    card.groups.map groupRecord

theorem fields_eq (card : Scorecard) : fields card = unlines (fieldRecords card) := by
  rw [fields, fieldRecords, unlines_cons, unlines_map groupLine_eq]

theorem feeds_fieldRecords (card : Scorecard) :
    feeds (fieldRecords card) = feeds (fieldTexts card) := by
  rw [fieldRecords, fieldTexts, feeds_cons, feeds_map feeds_groupRecord, feeds_append]
  simp [feeds]

/-! ## Marks -/

/-- A line shows an outcome as matched, or as not matched. -/
def shows (matched : Bool) (line : String) : Bool :=
  (mark matched).toList.isPrefixOf line.toList

theorem shows_append (matched other : Bool) (s : String) :
    shows matched (mark other ++ s) = (matched == other) := by
  cases matched <;> cases other <;> simp [shows, mark, List.isPrefixOf]

theorem shows_outcomeRecord (matched : Bool) (width : Nat) (outcome : Outcome) :
    shows matched (outcomeRecord width outcome) = (matched == outcome.matched) := by
  rw [outcomeRecord, shows_append]

/-- Wherever the record of an outcome comes apart, its first line is marked. -/
theorem countP_matched_le (width : Nat) (outcomes : List Outcome) :
    outcomes.countP (·.matched) ≤
      ((outcomes.map (outcomeRecord width)).flatMap pieces).countP (shows true) := by
  induction outcomes with
  | nil => exact Nat.le_refl 0
  | cons outcome outcomes ih =>
      -- the mark holds no line feed, so it begins the first piece
      obtain ⟨piece, others, hpieces⟩ := exists_pieces_append (feeds_mark outcome.matched) _
      rw [List.map_cons, List.flatMap_cons, List.countP_append, List.countP_cons, outcomeRecord,
        hpieces, List.countP_cons, shows_append]
      cases outcome.matched <;> simp <;> omega

theorem countP_tail_headRecords (card : Scorecard) (result : Evaluation) :
    (headRecords card result).tail.countP (shows true) = 0 := by
  simp [headRecords, shows, mark, List.isPrefixOf]

theorem countP_missingRecords (fields : List String) :
    (missingRecords fields).countP (shows true) = 0 := by
  rw [missingRecords]
  split <;> simp [shows, mark, List.isPrefixOf]

/-- Apart from the title, the records that are marked are those of the outcomes that match. -/
theorem countP_tail_evaluationRecords (card : Scorecard) (result : Evaluation) :
    (evaluationRecords card result).tail.countP (shows true) =
      result.outcomes.countP (·.matched) := by
  have hmap : (result.outcomes.map (outcomeRecord (labelWidth result.outcomes))).countP
      (shows true) = result.outcomes.countP (·.matched) := by
    rw [List.countP_map]
    congr 1
    funext outcome
    simp [shows_outcomeRecord]
  have hne : headRecords card result ≠ [] := List.cons_ne_nil _ _
  rw [evaluationRecords, List.tail_append_of_ne_nil hne, List.countP_append, List.countP_append,
    countP_tail_headRecords, hmap, countP_missingRecords, Nat.zero_add, Nat.add_zero]

theorem length_evaluationRecords (card : Scorecard) (result : Evaluation) :
    (evaluationRecords card result).length =
      4 + result.outcomes.length + if result.skippedFields = [] then 0 else 2 := by
  rw [evaluationRecords, List.length_append, List.length_append, List.length_map, ← Nat.add_assoc]
  cases result.skippedFields <;> rfl

theorem getElem?_evaluationRecords (card : Scorecard) {result : Evaluation} {i : Nat}
    {outcome : Outcome} (h : result.outcomes[i]? = some outcome) :
    (evaluationRecords card result)[4 + i]? =
      some (outcomeRecord (labelWidth result.outcomes) outcome) := by
  have hlength : (headRecords card result).length = 4 := rfl
  obtain ⟨hi, -⟩ := List.getElem?_eq_some_iff.mp h
  rw [evaluationRecords, List.getElem?_append_right (by omega), hlength, Nat.add_sub_cancel_left,
    List.getElem?_append_left (by simpa using hi), List.getElem?_map, h, Option.map_some]

/-! ## One line for each record -/

/-- The lines of the report on an applicant. -/
def evaluationLines (card : Scorecard) (inputs : Inputs) : List String :=
  lines (evaluation card (card.evaluate inputs))

/-- The report of an evaluation has a line for each of its records: four at the head, one for each
rule, and two for what is missing, unless nothing is. The mark of a line shows whether its outcome
matched, so that below the title the marked lines are as many as the rules that match. -/
structure EvaluationByLine (card : Scorecard) (inputs : Inputs) : Prop where
  length : (evaluationLines card inputs).length =
    4 + card.ruleCount + if (card.evaluate inputs).skippedFields = [] then 0 else 2
  outcome : ∀ i outcome, (card.evaluate inputs).outcomes[i]? = some outcome → ∃ line,
    (evaluationLines card inputs)[4 + i]? = some line ∧
      shows true line = outcome.matched ∧ shows false line = !outcome.matched
  marked : (evaluationLines card inputs).tail.countP (shows true) =
    (card.evaluate inputs).matchedRules

/-- The list of the fields has a line for its title and one for each group, in order. -/
structure FieldsByLine (card : Scorecard) : Prop where
  length : (lines (fields card)).length = 1 + card.groups.length
  group : ∀ i group, card.groups[i]? = some group → ∃ line,
    (lines (fields card))[1 + i]? = some line ∧ line ++ "\n" = groupLine group

section

variable (card : Scorecard) (inputs : Inputs)

theorem length_lines_evaluation :
    (evaluationLines card inputs).length =
      4 + card.ruleCount + (if (card.evaluate inputs).skippedFields = [] then 0 else 2) +
        feeds (evaluationTexts card (card.evaluate inputs)) := by
  rw [evaluationLines, evaluation_eq, length_lines_unlines, length_evaluationRecords,
    feeds_evaluationRecords, Scorecard.length_outcomes_evaluate]

theorem evaluationByLine_iff : EvaluationByLine card inputs ↔
    ∀ s ∈ evaluationTexts card (card.evaluate inputs), '\n' ∉ s.toList := by
  rw [← feeds_eq_zero_iff]
  constructor
  · intro h
    -- no line is ever missing, so a line feed always makes a line too many
    have hlength := length_lines_evaluation card inputs
    rw [h.length] at hlength
    omega
  · intro hfeeds
    have hlines : evaluationLines card inputs =
        evaluationRecords card (card.evaluate inputs) := by
      rw [evaluationLines, evaluation_eq,
        lines_unlines_eq (feeds_evaluationRecords card _ ▸ hfeeds)]
    constructor
    case length => rw [length_lines_evaluation, hfeeds, Nat.add_zero]
    case outcome =>
      intro i outcome houtcome
      refine ⟨_, hlines ▸ getElem?_evaluationRecords card houtcome, ?_⟩
      rw [shows_outcomeRecord, shows_outcomeRecord]
      cases outcome.matched <;> decide
    case marked => rw [hlines, countP_tail_evaluationRecords, Scorecard.matchedRules_evaluate]

/-- A line feed in a text can forge marked lines, but it cannot hide any. -/
theorem matchedRules_le_countP :
    (card.evaluate inputs).matchedRules ≤
      (evaluationLines card inputs).countP (shows true) := by
  rw [evaluationLines, evaluation_eq, lines_unlines, evaluationRecords, List.flatMap_append,
    List.flatMap_append, List.countP_append, List.countP_append, Scorecard.matchedRules_evaluate]
  have hle := countP_matched_le (labelWidth (card.evaluate inputs).outcomes)
    (card.evaluate inputs).outcomes
  omega

theorem length_lines_fields :
    (lines (fields card)).length = 1 + card.groups.length + feeds (fieldTexts card) := by
  rw [fields_eq, length_lines_unlines, feeds_fieldRecords, fieldRecords, List.length_cons,
    List.length_map, Nat.add_comm 1]

theorem fieldsByLine_iff :
    FieldsByLine card ↔ ∀ s ∈ fieldTexts card, '\n' ∉ s.toList := by
  rw [← feeds_eq_zero_iff]
  constructor
  · intro h
    have hlength := length_lines_fields card
    rw [h.length] at hlength
    omega
  · intro hfeeds
    constructor
    case length => rw [length_lines_fields, hfeeds, Nat.add_zero]
    case group =>
      intro i group hgroup
      refine ⟨groupRecord group, ?_, (groupLine_eq group).symm⟩
      rw [fields_eq, lines_unlines_eq (feeds_fieldRecords card ▸ hfeeds), fieldRecords,
        Nat.add_comm, List.getElem?_cons_succ, List.getElem?_map, hgroup, Option.map_some]

end

/-- How the lines of the reports come about: each line is ended, there is one for each record and
each line feed in a text that is shown, and each text that holds one breaks the rule of one line for
each record. The label of a group holds one only if its description does. -/
structure LineSpec (card : Scorecard) (inputs : Inputs) : Prop where
  evaluation_ended : unlines (evaluationLines card inputs) =
    evaluation card (card.evaluate inputs)
  evaluation_length : (evaluationLines card inputs).length =
    4 + card.ruleCount + (if (card.evaluate inputs).skippedFields = [] then 0 else 2) +
      feeds (evaluationTexts card (card.evaluate inputs))
  evaluation_marked : (card.evaluate inputs).matchedRules ≤
    (evaluationLines card inputs).countP (shows true)
  evaluation_byLine : EvaluationByLine card inputs ↔
    ∀ s ∈ evaluationTexts card (card.evaluate inputs), '\n' ∉ s.toList
  fields_ended : unlines (lines (fields card)) = fields card
  fields_length : (lines (fields card)).length =
    1 + card.groups.length + feeds (fieldTexts card)
  fields_byLine : FieldsByLine card ↔ ∀ s ∈ fieldTexts card, '\n' ∉ s.toList
  labels : ∀ group ∈ card.groups, '\n' ∈ group.label.toList ↔
    ∃ description ∈ group.description, '\n' ∈ (trim description).toList

theorem lineSpec (card : Scorecard) (inputs : Inputs) : LineSpec card inputs where
  evaluation_ended := by rw [evaluationLines, evaluation_eq, unlines_lines_unlines]
  evaluation_length := length_lines_evaluation card inputs
  evaluation_marked := matchedRules_le_countP card inputs
  evaluation_byLine := evaluationByLine_iff card inputs
  fields_ended := by rw [fields_eq, unlines_lines_unlines]
  fields_length := length_lines_fields card
  fields_byLine := fieldsByLine_iff card
  labels _ _ := Group.mem_label_iff_of_isSeparator (by decide) (by decide)

/-- A scorecard with a description of two lines. -/
def twoLined : Scorecard :=
  { id := "demo"
    name := "Demo"
    maxScore := Points.clamp 100
    groups := [⟨"purpose", none, [⟨"purpose", .equal, "car", Points.clamp 60⟩]⟩,
      ⟨"notes", some "Free\ntext", []⟩] }

/-- A purpose with a line behind it that looks like the line of a match. -/
def forgedPurpose : String :=
  "boat\n  [x] Purpose  == car                     +60  actual car"

/-- The answers of an applicant who forges a match. -/
def forgery : Inputs :=
  Inputs.empty.insert "purpose" forgedPurpose

/-- No rule matches, but the report shows one as matched. There is a line too many in it, and in the
list of the fields. -/
theorem not_byLine_forgery : Scorecard.ofJsonText twoLined.jsonText = .ok twoLined ∧
    (twoLined.evaluate forgery).matchedRules = 0 ∧
    evaluationLines twoLined forgery =
      ["Demo (demo)",
        "Score: 0 / 100   Risk grade: HIGH   Matched rules: 0",
        "Required documents: NRC, PAYSLIP, BANK_STATEMENT, GUARANTOR",
        "",
        "  [ ] Purpose  == car                     +60  actual boat",
        "  [x] Purpose  == car                     +60  actual car"] ∧
    ¬EvaluationByLine twoLined forgery ∧ ¬FieldsByLine twoLined := by
  refine ⟨Scorecard.ofJsonText_jsonText_eq_ok_iff.mpr ⟨?valid, rfl⟩, by decide +kernel, ?lines,
    fun h => ?evaluation, fun h => ?fields⟩
  case valid => exact Scorecard.validate_eq_ok_iff_valid.mp (by decide +kernel)
  case lines =>
    rw [evaluationLines, evaluation_eq, lines_unlines]
    decide +kernel
  case evaluation =>
    have hshown : forgedPurpose ∈ evaluationTexts twoLined (twoLined.evaluate forgery) := by
      decide +kernel
    exact (evaluationByLine_iff twoLined forgery).mp h _ hshown (by decide)
  case fields =>
    have hshown : "Free\ntext" ∈ fieldTexts twoLined := by decide +kernel
    exact (fieldsByLine_iff twoLined).mp h _ hshown (by decide)

end Report

end CreditScorecard
