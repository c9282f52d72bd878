import CreditScorecard.Proofs.Scorecard.Validity
import CreditScorecard.Proofs.Scorecard.Written
import CreditScorecard.Proofs.Yaml.Members

/-! # The language of the loader

Loading accepts exactly the documents in which an acceptable scorecard is written. Any other
document is turned down by the first stage that it fails: its shape, its scores and instants, or
the checks of validation.
-/

namespace CreditScorecard.Scorecard

/-- What loading makes of a document. -/
structure LoaderSpec (document : Json) : Prop where
  schema : Schema.scorecard.violations document = [] ↔ Shaped document
  loaded : ∀ card, ofJson document = .ok card ↔
    ∃ written, Written document written ∧ written.Acceptable ∧ card = written.fillRules
  rules : ∀ card, ofJson document = .ok card →
    ∀ group ∈ card.groups, ∀ rule ∈ group.rules, rule.field = group.field
  misshapen : ∀ violations, ofJson document = .error (.misshapen violations) ↔
    ¬Shaped document ∧ violations = Schema.scorecard.violations document
  unreadable : (∃ e, ofJson document = .error (.unreadable e)) ↔
    Shaped document ∧ ∃ e, Unreadable document e
  reason : ∀ e, ofJson document = .error (.unreadable e) → Unreadable document e
  defective : ∀ defect, ofJson document = .error (.defective defect) ↔
    ∃ written, Written document written ∧ written.fillRules.validate = .error defect
  parsed : ofJson document ≠ .error .notJson ∧ ofJson document ≠ .error .notYaml

/-! ## The stages -/

theorem ofJson_of_not_shaped {document : Json} (hkeys : document.DistinctKeys)
    (h : ¬Shaped document) :
    ofJson document = .error (.misshapen (Schema.scorecard.violations document)) := by
  have hviolations : Schema.scorecard.violations document ≠ [] :=
    fun hnil => h ((accepts_iff_shaped hkeys).mp hnil)
  simp [ofJson, hviolations, bind, Except.bind, throw, throwThe, MonadExceptOf.throw]

theorem ofJson_of_shaped {document : Json} (hkeys : document.DistinctKeys)
    (h : Shaped document) :
    ofJson document = (ofPart document).mapError .unreadable >>= fun card =>
      card.normalize.mapError .defective := by
  have hviolations : Schema.scorecard.violations document = [] := (accepts_iff_shaped hkeys).mpr h
  simp [ofJson, hviolations]

theorem ofJson_of_written {document : Json} (hkeys : document.DistinctKeys) {written : Scorecard}
    (h : Written document written) :
    ofJson document = written.normalize.mapError .defective := by
  obtain ⟨hshaped, hread⟩ := written_iff.mp h
  rw [ofJson_of_shaped hkeys hshaped, hread]
  rfl

/-- No document falls between the stages. -/
theorem ofJson_cases {document : Json} (hkeys : document.DistinctKeys) :
    (¬Shaped document ∧
      ofJson document = .error (.misshapen (Schema.scorecard.violations document))) ∨
    (∃ e, Shaped document ∧ Unreadable document e ∧ ofJson document = .error (.unreadable e)) ∨
    ∃ written, Written document written ∧
      ofJson document = written.normalize.mapError .defective := by
  by_cases hshaped : Shaped document
  · right
    cases hread : ofPart document with
    | error e =>
        left
        refine ⟨e, hshaped, (failsFor hshaped).reason_of_error hread, ?_⟩
        rw [ofJson_of_shaped hkeys hshaped, hread]
        rfl
    | ok written =>
        right
        have hwritten : Written document written := written_iff.mpr ⟨hshaped, hread⟩
        exact ⟨written, hwritten, ofJson_of_written hkeys hwritten⟩
  · exact .inl ⟨hshaped, ofJson_of_not_shaped hkeys hshaped⟩

theorem mapError_eq_ok_iff {ε ε' α : Type} {x : Except ε α} {f : ε → ε'} {a : α} :
    x.mapError f = .ok a ↔ x = .ok a := by
  cases x <;> simp [Except.mapError]

theorem mapError_eq_error_iff {ε ε' α : Type} {x : Except ε α} {f : ε → ε'} {e' : ε'} :
    x.mapError f = .error e' ↔ ∃ e, x = .error e ∧ f e = e' := by
  cases x <;> simp [Except.mapError]

/-! ## What is loaded -/

theorem ofJson_eq_ok_iff {document : Json} (hkeys : document.DistinctKeys) {card : Scorecard} :
    ofJson document = .ok card ↔
      ∃ written, Written document written ∧ written.Acceptable ∧ card = written.fillRules := by
  have hnormal : ∀ written : Scorecard, written.normalize.mapError LoadError.defective = .ok card ↔
      written.Acceptable ∧ card = written.fillRules := by
    intro written
    rw [mapError_eq_ok_iff, normalize_eq_ok_iff, valid_fillRules_iff]
  constructor
  · intro h
    rcases ofJson_cases hkeys with ⟨_, hresult⟩ | ⟨_, _, _, hresult⟩ | ⟨written, hwritten, hresult⟩
    · cases hresult.symm.trans h
    · cases hresult.symm.trans h
    · exact ⟨written, hwritten, (hnormal written).mp (hresult.symm.trans h)⟩
  · rintro ⟨written, hwritten, h⟩
    exact (ofJson_of_written hkeys hwritten).trans ((hnormal written).mpr h)

/-! ## What is turned down -/

theorem ofJson_eq_misshapen_iff {document : Json} (hkeys : document.DistinctKeys)
    {violations : List Violation} :
    ofJson document = .error (.misshapen violations) ↔
      ¬Shaped document ∧ violations = Schema.scorecard.violations document := by
  constructor
  · intro h
    rcases ofJson_cases hkeys with ⟨hshaped, hresult⟩ | ⟨_, _, _, hresult⟩ | ⟨_, _, hresult⟩
    · cases hresult.symm.trans h
      exact ⟨hshaped, rfl⟩
    · cases hresult.symm.trans h
    · obtain ⟨_, _, ⟨⟩⟩ := mapError_eq_error_iff.mp (hresult.symm.trans h)
  · rintro ⟨hshaped, rfl⟩
    exact ofJson_of_not_shaped hkeys hshaped

theorem unreadable_of_ofJson {document : Json} (hkeys : document.DistinctKeys) {e : PartError}
    (h : ofJson document = .error (.unreadable e)) :
    Shaped document ∧ Unreadable document e := by
  rcases ofJson_cases hkeys with ⟨_, hresult⟩ | ⟨_, hshaped, he, hresult⟩ | ⟨_, _, hresult⟩
  · cases hresult.symm.trans h
  · cases hresult.symm.trans h
    exact ⟨hshaped, he⟩
  · obtain ⟨_, _, ⟨⟩⟩ := mapError_eq_error_iff.mp (hresult.symm.trans h)

theorem exists_ofJson_eq_unreadable {document : Json} (hkeys : document.DistinctKeys)
    (hshaped : Shaped document) {e : PartError} (he : Unreadable document e) :
    ∃ e', ofJson document = .error (.unreadable e') := by
  obtain ⟨e', he'⟩ := (failsFor hshaped).exists_error he
  refine ⟨e', ?_⟩
  rw [ofJson_of_shaped hkeys hshaped, he']
  rfl

theorem ofJson_eq_defective_iff {document : Json} (hkeys : document.DistinctKeys)
    {defect : Defect} :
    ofJson document = .error (.defective defect) ↔
      ∃ written, Written document written ∧ written.fillRules.validate = .error defect := by
  constructor
  · intro h
    rcases ofJson_cases hkeys with ⟨_, hresult⟩ | ⟨_, _, _, hresult⟩ | ⟨written, hwritten, hresult⟩
    · cases hresult.symm.trans h
    · cases hresult.symm.trans h
    · obtain ⟨_, hdefect, ⟨⟩⟩ := mapError_eq_error_iff.mp (hresult.symm.trans h)
      exact ⟨written, hwritten, normalize_eq_error_iff.mp hdefect⟩
  · rintro ⟨written, hwritten, hdefect⟩
    rw [ofJson_of_written hkeys hwritten, normalize_eq_error_iff.mpr hdefect]
    rfl

theorem ofJson_ne_unparsed {document : Json} (hkeys : document.DistinctKeys) :
    ofJson document ≠ .error .notJson ∧ ofJson document ≠ .error .notYaml := by
  rcases ofJson_cases hkeys with ⟨_, hresult⟩ | ⟨_, _, _, hresult⟩ | ⟨written, _, hresult⟩
  · simp [hresult]
  · simp [hresult]
  · cases hnormal : written.normalize <;> simp [hresult, hnormal, Except.mapError]

theorem loaderSpec_of_distinctKeys {document : Json} (hkeys : document.DistinctKeys) :
    LoaderSpec document where
  schema := accepts_iff_shaped hkeys
  loaded _ := ofJson_eq_ok_iff hkeys
  rules := by
    intro card h
    obtain ⟨written, _, hacceptable, rfl⟩ := (ofJson_eq_ok_iff hkeys).mp h
    exact (valid_fillRules_iff.mpr hacceptable).rules
  misshapen _ := ofJson_eq_misshapen_iff hkeys
  unreadable := by
    constructor
    · rintro ⟨e, he⟩
      obtain ⟨hshaped, hreason⟩ := unreadable_of_ofJson hkeys he
      exact ⟨hshaped, e, hreason⟩
    · rintro ⟨hshaped, e, hreason⟩
      exact exists_ofJson_eq_unreadable hkeys hshaped hreason
  reason _ h := (unreadable_of_ofJson hkeys h).2
  defective _ := ofJson_eq_defective_iff hkeys
  parsed := ofJson_ne_unparsed hkeys

/-- The loader accepts exactly its language, of all documents whose objects have distinct keys. The
documents that are read from text, JSON or YAML, are of that kind. -/
theorem loaderSpec (document : Json) :
    (document.DistinctKeys → LoaderSpec document) ∧
      ∀ text, Json.read? text = some document ∨ Yaml.read? text = some document →
        document.DistinctKeys := by
  refine ⟨loaderSpec_of_distinctKeys, ?_⟩
  intro text h
  rcases h with h | h
  · exact Json.distinctKeys_read? h
  · exact Yaml.distinctKeys_read? h

/-- A document with one rule that has the given score. -/
def oneRule (score : Json) : Json :=
  .object
    [("fields", .list [.object [("field", .text "age"), ("rules", .list [.object
        [("operator", .text ">="), ("score", score), ("value", .ofInt 18)]])]]),
      ("maxScore", .ofInt 100), ("name", .text "Demo"), ("scoreCardId", .text "demo")]

/-- A score just outside the range passes the schema and cannot be read. -/
theorem loaderSpec_oneRule :
    (oneRule (.ofInt 0x8000000000000000)).DistinctKeys ∧
      LoaderSpec (oneRule (.ofInt 0x8000000000000000)) ∧
      Unreadable (oneRule (.ofInt 0x8000000000000000)) (.tooLarge 0x8000000000000000) := by
  have hkeys : (oneRule (.ofInt 0x8000000000000000)).DistinctKeys := by
    simp [oneRule, Json.ofInt]
  refine ⟨hkeys, (loaderSpec _).1 hkeys, .score (i := 0) (j := 0) ?_⟩
  exact ⟨_, rfl, .integer (by decide)⟩

end CreditScorecard.Scorecard
