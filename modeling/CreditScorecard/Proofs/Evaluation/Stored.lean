import CreditScorecard.Evaluation.Stored
import CreditScorecard.Proofs.Evaluation.Typing
import CreditScorecard.Proofs.Json.Reading
import CreditScorecard.Proofs.Json.Record
import CreditScorecard.Proofs.Scorecard.Parts

/-! # Evaluations in JSON text and back

The text of an evaluation is always read, and all of it comes back except numbers: these are written
exactly and read fast, so that long ones may come back as a neighbour.
-/

namespace CreditScorecard

open Json

/-! ## Values -/

namespace Scalar

/-- The value that is read where a value was written. -/
def reread (value : Scalar) : Scalar :=
  (ofTree? (tree value.toJson)).getD value

/-- A number is read as the same number if its digits and places are few. -/
def Short : Scalar → Prop
  | .number x => ∃ finite, (Number.real x finite).Short
  | _ => True

theorem ofTree?_text (s : String) : ofTree? (tree (toJson (.text s))) = some (.text s) := by
  rw [toJson, tree, ofTree?, text?_map_char, String.ofList_toList, Option.map_some]

@[simp]
theorem reread_text (s : String) : reread (.text s) = .text s := by
  rw [reread, ofTree?_text, Option.getD_some]

theorem tree_number {x : Binary64} (finite : x.isFinite = true) :
    tree (toJson (.number x)) = .number (Number.real x finite).numeral := by
  rw [toJson, ofBinary64, dif_pos finite, tree]

/-- A finite number is read as some finite number. -/
theorem exists_ofTree?_number {x : Binary64} (finite : x.isFinite = true) :
    ∃ y, y.isFinite = true ∧ ofTree? (tree (toJson (.number x))) = some (.number y) := by
  obtain ⟨y, hy, hread⟩ := exists_toNumber?_real finite
  refine ⟨y, hy, ?_⟩
  rw [tree_number finite, ofTree?, hread]
  rfl

/-- Reading a proper value never fails. -/
theorem ofTree?_tree {value : Scalar} (h : value.Proper) :
    ofTree? (tree value.toJson) = some value.reread := by
  suffices hread : ∃ read, ofTree? (tree value.toJson) = some read by
    obtain ⟨read, hread⟩ := hread
    rw [reread, hread, Option.getD_some]
  cases value with
  | number x =>
      obtain ⟨y, -, hread⟩ := exists_ofTree?_number h
      exact ⟨_, hread⟩
  | boolean b => exact ⟨_, rfl⟩
  | text s => exact ⟨_, ofTree?_text s⟩

theorem reread_of_short {value : Scalar} (h : value.Short) : value.reread = value := by
  cases value with
  | number x =>
      obtain ⟨finite, hshort⟩ := h
      rw [reread, tree_number finite, ofTree?, hshort.exact]
      rfl
  | boolean b => rfl
  | text s => exact reread_text s

/-- A value that comes back has the same kind, and only a number may be another one. -/
theorem kind_reread {value : Scalar} (h : value.Proper) :
    value.reread.kind = value.kind ∧ value.reread.Proper ∧
      (value.kind = .number ∨ value.reread = value) := by
  cases value with
  | number x =>
      obtain ⟨y, hy, hread⟩ := exists_ofTree?_number h
      rw [reread, hread, Option.getD_some]
      exact ⟨rfl, hy, .inl rfl⟩
  | boolean b => exact ⟨rfl, trivial, .inr rfl⟩
  | text s =>
      rw [reread_text]
      exact ⟨rfl, h, .inr rfl⟩

/-- A value whose text stays the same stays the same. -/
theorem reread_eq_of_tree_eq {value : Scalar} (h : value.Proper)
    (htree : tree value.reread.toJson = tree value.toJson) : value.reread = value := by
  cases value with
  | number x =>
      obtain ⟨y, hy, hread⟩ := exists_ofTree?_number h
      have hvalue : reread (.number x) = .number y := by
        rw [reread, hread, Option.getD_some]
      rw [hvalue, tree_number hy, tree_number h, Tree.number.injEq] at htree
      rw [hvalue, numeral_real_injective htree]
  | boolean b => rfl
  | text s => exact reread_text s

end Scalar

/-! ## Outcomes -/

namespace Outcome

/-- The outcome that is read where an outcome was written. -/
def reread (outcome : Outcome) : Outcome :=
  { outcome with actual := outcome.actual.map Scalar.reread }

/-- The value of the field, if there is one, is proper. -/
def Proper (outcome : Outcome) : Prop :=
  ∀ value ∈ outcome.actual, value.Proper

/-- The value of a field is read as it was written, and null as no value. -/
theorem ofTree?_actual {actual : Option Scalar} (h : ∀ value ∈ actual, value.Proper) :
    (match some (tree ((actual.map Scalar.toJson).getD .null)) with
      | none | some .null => some none
      | some tree => (Scalar.ofTree? tree).map some) = some (actual.map Scalar.reread) := by
  cases actual with
  | none => rfl
  | some value =>
      have hproper : value.Proper := h value rfl
      have hread := Scalar.ofTree?_tree hproper
      rw [Option.map_some, Option.getD_some, Option.map_some]
      generalize tree value.toJson = written at hread
      cases written with
      | null => cases hread
      | _ => exact congrArg (Option.map some) hread

/-- The parts of an outcome as they are read. -/
def parts (outcome : Outcome) : List (String × Tree) :=
  [("field", tree (.text outcome.field)),
    ("operator", tree (.text outcome.operator.symbol)),
    ("value", tree (.text outcome.literal)),
    ("score", tree (.ofPoints outcome.points)),
    ("description", tree (.text outcome.description)),
    ("matched", tree (.boolean outcome.matched)),
    ("actual", tree ((outcome.actual.map Scalar.toJson).getD .null)),
    ("skippedBecauseMissingInput", tree (.boolean outcome.skipped))]

theorem parts?_tree (outcome : Outcome) :
    Tree.parts? ["field", "operator", "value", "score", "description", "matched", "actual",
      "skippedBecauseMissingInput"] (tree outcome.toJson) = some outcome.parts :=
  Tree.parts?_object rfl (by decide)

theorem lookup_parts (outcome : Outcome) :
    outcome.parts.lookup "field" = some (tree (.text outcome.field)) ∧
    outcome.parts.lookup "operator" = some (tree (.text outcome.operator.symbol)) ∧
    outcome.parts.lookup "value" = some (tree (.text outcome.literal)) ∧
    outcome.parts.lookup "score" = some (tree (.ofPoints outcome.points)) ∧
    outcome.parts.lookup "description" = some (tree (.text outcome.description)) ∧
    outcome.parts.lookup "matched" = some (tree (.boolean outcome.matched)) ∧
    outcome.parts.lookup "actual" =
      some (tree ((outcome.actual.map Scalar.toJson).getD .null)) ∧
    outcome.parts.lookup "skippedBecauseMissingInput" =
      some (tree (.boolean outcome.skipped)) := by
  simp [parts, List.lookup_cons]

theorem ofTree?_tree {outcome : Outcome} (h : outcome.Proper) :
    ofTree? (tree outcome.toJson) = some outcome.reread := by
  obtain ⟨hfield, hoperator, hvalue, hscore, hdescription, hmatched, hactual, hskipped⟩ :=
    outcome.lookup_parts
  have hread := ofTree?_actual h
  rw [ofTree?, parts?_tree, Option.bind_eq_bind, Option.bind_some, hfield, hoperator, hvalue,
    hscore, hdescription, hmatched, hactual, hskipped]
  simp only [Option.bind_eq_bind, ↓Option.bind_some, Tree.text?_tree, Tree.points?_tree,
    Tree.boolean?_tree, ofSymbol?_symbol, Option.bind_some]
  exact congrArg (Option.bind · _) hread

/-- An outcome whose text stays the same stays the same. -/
theorem reread_eq_of_tree_eq {outcome : Outcome} (h : outcome.Proper)
    (htree : tree outcome.reread.toJson = tree outcome.toJson) : outcome.reread = outcome := by
  obtain ⟨field, operator, literal, points, description, matched, actual, skipped⟩ := outcome
  cases actual with
  | none => rfl
  | some value =>
      have hvalue : tree value.reread.toJson = tree value.toJson := by
        simpa [toJson, reread, tree, memberTrees] using htree
      rw [reread, Option.map_some, Scalar.reread_eq_of_tree_eq (h value rfl) hvalue]

end Outcome

/-! ## Evaluations -/

theorem Grade.ofName?_name (grade : Grade) : Grade.ofName? grade.name = some grade := by
  cases grade <;> decide

theorem Document.ofCode?_code (document : Document) :
    Document.ofCode? document.code = some document := by
  cases document <;> decide

namespace Evaluation

/-- The evaluation that is read where an evaluation was written. -/
def reread (evaluation : Evaluation) : Evaluation :=
  { evaluation with outcomes := evaluation.outcomes.map Outcome.reread }

variable {evaluation : Evaluation}

/-- The parts of an evaluation as they are read. -/
def parts (evaluation : Evaluation) : List (String × Tree) :=
  [("maxScore", tree (.ofPoints evaluation.maxScore)),
    ("totalScore", tree (.ofPoints evaluation.totalScore)),
    ("matchedRules", tree (.ofInt evaluation.matchedRules)),
    ("riskGrade", tree (.text evaluation.grade.name)),
    ("minDocs", tree (.list (evaluation.documents.map fun document => .text document.code))),
    ("breakdown", tree (.list (evaluation.outcomes.map Outcome.toJson)))]

theorem parts?_tree (evaluation : Evaluation) :
    Tree.parts? ["maxScore", "totalScore", "matchedRules", "riskGrade", "minDocs", "breakdown"]
      (tree evaluation.toJson) = some evaluation.parts :=
  Tree.parts?_object rfl (by decide)

theorem lookup_parts (evaluation : Evaluation) :
    evaluation.parts.lookup "maxScore" = some (tree (.ofPoints evaluation.maxScore)) ∧
    evaluation.parts.lookup "totalScore" = some (tree (.ofPoints evaluation.totalScore)) ∧
    evaluation.parts.lookup "matchedRules" = some (tree (.ofInt evaluation.matchedRules)) ∧
    evaluation.parts.lookup "riskGrade" = some (tree (.text evaluation.grade.name)) ∧
    evaluation.parts.lookup "minDocs" =
      some (tree (.list (evaluation.documents.map fun document => .text document.code))) ∧
    evaluation.parts.lookup "breakdown" =
      some (tree (.list (evaluation.outcomes.map Outcome.toJson))) := by
  simp [parts, List.lookup_cons]

theorem listOf?_documents (documents : List Document) :
    Tree.listOf? (fun tree => tree.constant?.bind Document.ofCode?)
      (tree (.list (documents.map fun document => .text document.code))) = some documents := by
  have hread : Tree.listOf? (fun tree => tree.constant?.bind Document.ofCode?)
      (tree (.list (documents.map fun document => .text document.code))) =
        some (documents.map id) :=
    Tree.listOf?_tree fun document _ => by simp [Document.ofCode?_code]
  rwa [List.map_id] at hread

theorem ofTree?_tree (h : ∀ outcome ∈ evaluation.outcomes, outcome.Proper) :
    ofTree? (tree evaluation.toJson) =
      if evaluation.matchedRules < 0x10000000000000000 then some evaluation.reread else none := by
  obtain ⟨hmax, htotal, hcount, hgrade, hdocuments, hbreakdown⟩ := evaluation.lookup_parts
  have houtcomes : Tree.listOf? Outcome.ofTree?
      (tree (.list (evaluation.outcomes.map Outcome.toJson))) =
        some (evaluation.outcomes.map Outcome.reread) :=
    Tree.listOf?_tree fun outcome hmem => Outcome.ofTree?_tree (h outcome hmem)
  rw [ofTree?, parts?_tree, Option.bind_eq_bind, Option.bind_some, hmax, htotal, hcount, hgrade,
    hdocuments, hbreakdown]
  simp only [Option.bind_eq_bind, ↓Option.bind_some, Tree.points?_tree, Tree.count?_tree,
    Tree.constant?_tree, Grade.ofName?_name, listOf?_documents, houtcomes]
  split <;> rfl

theorem ofJsonText?_eq (h : ∀ outcome ∈ evaluation.outcomes, outcome.Proper) :
    ofJsonText? evaluation.jsonText =
      if evaluation.matchedRules < 0x10000000000000000 then some evaluation.reread else none := by
  rw [ofJsonText?, jsonText, Tree.ofText?_compact, Option.bind_some, ofTree?_tree h]

theorem reread_eq_self_iff :
    evaluation.reread = evaluation ↔
      ∀ outcome ∈ evaluation.outcomes, ∀ value ∈ outcome.actual, value.reread = value := by
  have houtcome : ∀ outcome : Outcome, outcome.reread = outcome ↔
      ∀ value ∈ outcome.actual, value.reread = value := by
    intro outcome
    obtain ⟨field, operator, literal, points, description, matched, actual, skipped⟩ := outcome
    cases actual <;> simp [Outcome.reread]
  simp only [← houtcome]
  obtain ⟨maxScore, totalScore, matchedRules, grade, documents, outcomes⟩ := evaluation
  simp only [reread, Evaluation.mk.injEq, true_and]
  conv_lhs =>
    rhs
    rw [← List.map_id outcomes]
  exact List.map_inj_left

/-- The text of what was read is the text that was written only if nothing has changed. -/
theorem jsonText_reread_eq_iff (h : ∀ outcome ∈ evaluation.outcomes, outcome.Proper) :
    evaluation.reread.jsonText = evaluation.jsonText ↔ evaluation.reread = evaluation := by
  constructor
  · intro htext
    have htree := congrArg Tree.ofText? htext
    rw [jsonText, jsonText, Tree.ofText?_compact, Tree.ofText?_compact, Option.some.injEq] at htree
    have houtcomes : evaluation.outcomes.map (fun outcome => tree outcome.reread.toJson) =
        evaluation.outcomes.map (fun outcome => tree outcome.toJson) := by
      simpa [toJson, reread, tree, memberTrees, Tree.itemTrees_eq_map,
        Function.comp_def] using htree
    rw [reread, List.map_congr_left fun outcome hmem =>
      Outcome.reread_eq_of_tree_eq (h outcome hmem) (List.map_inj_left.mp houtcomes outcome hmem),
      List.map_id']
  · intro hsame
    rw [hsame]

/-- What becomes of an evaluation that is stored as text. -/
structure StoredSpec (evaluation : Evaluation) : Prop where
  /-- The text is read, as long as the number of matched rules fits into 64 bits. -/
  read : ofJsonText? evaluation.jsonText =
    if evaluation.matchedRules < 0x10000000000000000 then some evaluation.reread else none
  /-- A value keeps its kind, and any value but a number stays the same. -/
  kind : ∀ outcome ∈ evaluation.outcomes, ∀ value ∈ outcome.actual,
    value.reread.kind = value.kind ∧ value.reread.Proper ∧
      (value.kind = .number ∨ value.reread = value)
  /-- Nothing else can change. -/
  same : evaluation.reread = evaluation ↔
    ∀ outcome ∈ evaluation.outcomes, ∀ value ∈ outcome.actual, value.reread = value
  /-- Whatever changes is seen in the text. -/
  text : evaluation.reread.jsonText = evaluation.jsonText ↔ evaluation.reread = evaluation
  /-- Numbers of few digits and places do not change. -/
  short : (∀ outcome ∈ evaluation.outcomes, ∀ value ∈ outcome.actual, value.Short) →
    evaluation.reread = evaluation

theorem storedSpec_of_proper (h : ∀ outcome ∈ evaluation.outcomes, outcome.Proper) :
    StoredSpec evaluation where
  read := ofJsonText?_eq h
  kind outcome hmem value hvalue := Scalar.kind_reread (h outcome hmem value hvalue)
  same := reread_eq_self_iff
  text := jsonText_reread_eq_iff h
  short hshort := reread_eq_self_iff.mpr fun outcome hmem value hvalue =>
    Scalar.reread_of_short (hshort outcome hmem value hvalue)

end Evaluation

namespace Scorecard

theorem proper_of_mem_outcomes {card : Scorecard} {inputs : Inputs} {outcome : Outcome}
    (h : outcome ∈ (card.evaluate inputs).outcomes) : outcome.Proper := by
  rw [outcomes_evaluate, List.mem_map] at h
  obtain ⟨labelled, -, rfl⟩ := h
  intro value hvalue
  exact Scalar.proper_of_ofRaw?_eq_some hvalue

/-- Every result of an evaluation can be stored and read. It comes back with all its parts, and as
it was if its numbers are short. -/
theorem storedSpec (card : Scorecard) (inputs : Inputs) :
    Evaluation.StoredSpec (card.evaluate inputs) :=
  Evaluation.storedSpec_of_proper fun _ hmem => proper_of_mem_outcomes hmem

/-- One rule on a rate. -/
def rateAboveFive : Scorecard :=
  { id := "demo"
    name := "Demo"
    maxScore := Points.clamp 100
    groups := [⟨"rate", none, [⟨"rate", .greater, "5", Points.clamp 60⟩]⟩] }

/-- The rate of sixteen digits comes back as another one. -/
theorem ofJsonText?_jsonText_longRate :
    let evaluation := rateAboveFive.evaluate
      (Inputs.empty.insert "rate" "9.008332832903987")
    evaluation.outcomes.map (·.actual) =
        [some (.number (.ofDecimal false ⟨9008332832903987, -15⟩))] ∧
      ∃ again, Evaluation.ofJsonText? evaluation.jsonText = some again ∧
        again ≠ evaluation ∧ again.jsonText ≠ evaluation.jsonText ∧
        again.outcomes.map (·.actual) =
          [some (.number (.ofDecimal false ⟨9008332832903989, -15⟩))] := by
  intro evaluation
  have hproper : ∀ outcome ∈ evaluation.outcomes, outcome.Proper :=
    fun _ hmem => proper_of_mem_outcomes hmem
  have hread := Evaluation.ofJsonText?_eq hproper
  have hfew : evaluation.matchedRules < 0x10000000000000000 := by decide +kernel
  have hchanged : evaluation.reread ≠ evaluation := by decide +kernel
  rw [if_pos hfew] at hread
  refine ⟨by decide +kernel, evaluation.reread, hread, hchanged, ?_, by decide +kernel⟩
  exact fun htext => hchanged ((Evaluation.jsonText_reread_eq_iff hproper).mp htext)

end Scorecard

end CreditScorecard
