import CreditScorecard.Proofs.Json.RoundTrip
import CreditScorecard.Proofs.Scorecard.Language
import CreditScorecard.Proofs.Timestamp.RoundTrip
import CreditScorecard.Scorecard.Load

/-! # Scorecards in text and back -/

namespace CreditScorecard

open Json

/-! ## Rules -/

namespace Rule

/-- The members of a rule as they are read back. -/
def members (rule : Rule) : List (String × Json) :=
  sortMembers <| sortedValues
    [("field", .text rule.field), ("operator", .text rule.operator.symbol),
      ("value", .text rule.literal), ("score", .ofPoints rule.points)]

theorem sorted_toJson (rule : Rule) : rule.toJson.sorted = .object rule.members := by
  rw [toJson, sorted, members]

theorem lookup_members (rule : Rule) :
    rule.members.lookup "field" = some (.text rule.field) ∧
    rule.members.lookup "operator" = some (.text rule.operator.symbol) ∧
    rule.members.lookup "value" = some (.text rule.literal) ∧
    rule.members.lookup "score" = some (.ofPoints rule.points) := by
  rw [members]
  repeat rw [lookup_sorted (by simp)]
  simp [List.lookup_cons, sorted, ofPoints, ofInt]

theorem readable_toJson (rule : Rule) : Readable 1 rule.toJson := by
  simp [toJson]

theorem ofPart_sorted (rule : Rule) : ofPart rule.toJson.sorted = .ok rule := by
  obtain ⟨hfield, hoperator, hvalue, hscore⟩ := rule.lookup_members
  rw [sorted_toJson, ofPart_eq_ok_iff]
  exact ⟨⟨some rule.field, hfield, rfl⟩, ⟨_, hoperator, ofSymbol?_symbol _⟩, ⟨_, hvalue, .text _⟩,
    hscore⟩

/-- What is written of a rule has the shape of one if the rule names a field. -/
theorem shaped_sorted_iff {rule : Rule} : Shaped rule.toJson.sorted ↔ rule.field ≠ "" := by
  obtain ⟨hfield, hoperator, hvalue, hscore⟩ := rule.lookup_members
  rw [sorted_toJson]
  constructor
  · rintro ⟨_, ⟨⟩, h⟩
    obtain ⟨_, ⟨⟩, hne⟩ := h.field _ hfield
    exact hne
  · intro hne
    refine ⟨_, rfl, forall_mem_sorted (by simp), ?_, ⟨_, hoperator⟩, ⟨_, _, hvalue, .text _⟩,
      ⟨_, hscore, rfl⟩⟩
    intro v hv
    cases hfield.symm.trans hv
    exact ⟨_, rfl, hne⟩

end Rule

/-! ## Groups -/

namespace Group

/-- The members of a group as they are read back. -/
def members (group : Group) : List (String × Json) :=
  sortMembers <| sortedValues <|
    ("field", .text group.field) ::
      (group.description.map fun s => ("description", Json.text s)).toList ++
      [("rules", .list (group.rules.map Rule.toJson))]

theorem sorted_toJson (group : Group) : group.toJson.sorted = .object group.members := by
  rw [toJson, sorted, members]

theorem lookup_members (group : Group) :
    group.members.lookup "field" = some (.text group.field) ∧
    group.members.lookup "description" = group.description.map .text ∧
    group.members.lookup "rules" =
      some (.list (group.rules.map fun rule => rule.toJson.sorted)) := by
  rw [members]
  repeat rw [lookup_sorted (by cases group.description <;> simp)]
  cases group.description <;> simp [List.lookup_cons, sorted, sortedItems_eq_map]

theorem readable_toJson (group : Group) : Readable 3 group.toJson := by
  cases h : group.description <;> simp [toJson, h, Rule.readable_toJson]

theorem ofPart_sorted (group : Group) : ofPart group.toJson.sorted = .ok group := by
  obtain ⟨hfield, hdescription, hrules⟩ := group.lookup_members
  rw [sorted_toJson, ofPart_eq_ok_iff]
  refine ⟨hfield, hdescription, .inr ⟨_, hrules, ?_⟩⟩
  rw [List.forall₂_map_left_iff, List.forall₂_same]
  exact fun rule _ => rule.ofPart_sorted

theorem shaped_sorted_iff {group : Group} :
    Shaped group.toJson.sorted ↔ group.field ≠ "" ∧ ∀ rule ∈ group.rules, rule.field ≠ "" := by
  obtain ⟨hfield, hdescription, hrules⟩ := group.lookup_members
  rw [sorted_toJson]
  constructor
  · rintro ⟨_, ⟨⟩, h⟩
    obtain ⟨s, hs, hne⟩ := h.field
    cases hfield.symm.trans hs
    obtain ⟨_, ⟨⟩, hitems⟩ := h.rules _ hrules
    refine ⟨hne, fun rule hrule => Rule.shaped_sorted_iff.mp ?_⟩
    exact hitems _ (List.mem_map_of_mem hrule)
  · rintro ⟨hne, hfields⟩
    refine ⟨_, rfl, forall_mem_sorted (by cases group.description <;> simp), ⟨_, hfield, hne⟩,
      fun v hv => exists_text_of_eq_map hdescription hv, fun v hv => ?_⟩
    cases hrules.symm.trans hv
    refine ⟨_, rfl, ?_⟩
    rw [List.forall_mem_map]
    exact fun rule hrule => Rule.shaped_sorted_iff.mpr (hfields rule hrule)

end Group

/-! ## Scorecards -/

namespace Scorecard

/-- The members of a scorecard as they are read back. -/
def members (card : Scorecard) : List (String × Json) :=
  sortMembers <| sortedValues <|
    [("scoreCardId", .text card.id), ("name", .text card.name)] ++
      (card.description.map fun s => ("description", Json.text s)).toList ++
      [("maxScore", .ofPoints card.maxScore),
        ("fields", .list (card.groups.map Group.toJson))] ++
      (card.createdAt.map fun t => ("createdAt", Json.text t.text)).toList ++
      (card.updatedAt.map fun t => ("updatedAt", Json.text t.text)).toList

theorem sorted_toJson (card : Scorecard) : card.toJson.sorted = .object card.members := by
  rw [toJson, sorted, members]

theorem lookup_members (card : Scorecard) :
    card.members.lookup "scoreCardId" = some (.text card.id) ∧
    card.members.lookup "name" = some (.text card.name) ∧
    card.members.lookup "description" = card.description.map .text ∧
    card.members.lookup "maxScore" = some (.ofPoints card.maxScore) ∧
    card.members.lookup "fields" =
      some (.list (card.groups.map fun group => group.toJson.sorted)) ∧
    card.members.lookup "createdAt" = card.createdAt.map (.text ·.text) ∧
    card.members.lookup "updatedAt" = card.updatedAt.map (.text ·.text) := by
  rw [members]
  repeat rw [lookup_sorted (by
    cases card.description <;> cases card.createdAt <;> cases card.updatedAt <;> simp)]
  cases card.description <;> cases card.createdAt <;> cases card.updatedAt <;>
    simp [List.lookup_cons, sorted, sortedItems_eq_map, ofPoints, ofInt]

theorem readable_toJson (card : Scorecard) : Readable 5 card.toJson := by
  cases hdescription : card.description <;> cases hcreated : card.createdAt <;>
    cases hupdated : card.updatedAt <;>
    simp [toJson, hdescription, hcreated, hupdated, Group.readable_toJson]

/-- An optional instant is read back from its text. -/
theorem rel_isInstant_text (t? : Option Timestamp) :
    Option.Rel IsInstant (t?.map (.text ·.text)) t? := by
  cases t? with
  | none => exact .none
  | some t => exact .some ⟨t.text, rfl, t.read_text⟩

theorem ofPart_sorted (card : Scorecard) : ofPart card.toJson.sorted = .ok card := by
  obtain ⟨hid, hname, hdescription, hmax, hgroups, hcreated, hupdated⟩ := card.lookup_members
  rw [sorted_toJson, ofPart_eq_ok_iff, hcreated, hupdated]
  refine ⟨rel_isInstant_text _, hdescription, .inr ⟨_, hgroups, ?_⟩, hmax, hname, hid,
    rel_isInstant_text _⟩
  rw [List.forall₂_map_left_iff, List.forall₂_same]
  exact fun group _ => group.ofPart_sorted

/-- What is written of a scorecard has the shape of one if its texts that may not be empty are
not, and its ceiling is positive. -/
theorem shaped_sorted_iff {card : Scorecard} :
    Shaped card.toJson.sorted ↔
      card.id ≠ "" ∧ card.name ≠ "" ∧ 0 < card.maxScore.value ∧
        ∀ group ∈ card.groups, group.field ≠ "" ∧ ∀ rule ∈ group.rules, rule.field ≠ "" := by
  obtain ⟨hid, hname, hdescription, hmax, hgroups, hcreated, hupdated⟩ := card.lookup_members
  have hpositive : (Number.integer card.maxScore.value).isPositive = true ↔
      0 < card.maxScore.value := by
    simp [Number.isPositive]
  rw [sorted_toJson]
  constructor
  · rintro ⟨_, ⟨⟩, h⟩
    obtain ⟨s, hs, hid_ne⟩ := h.id
    cases hid.symm.trans hs
    obtain ⟨t, ht, hname_ne⟩ := h.name
    cases hname.symm.trans ht
    obtain ⟨n, hn, hn_pos, _⟩ := h.maxScore
    cases hmax.symm.trans hn
    obtain ⟨items, hitems, hshaped⟩ := h.fields
    cases hgroups.symm.trans hitems
    refine ⟨hid_ne, hname_ne, hpositive.mp hn_pos, fun group hgroup => ?_⟩
    exact Group.shaped_sorted_iff.mp (hshaped _ (List.mem_map_of_mem hgroup))
  · rintro ⟨hid_ne, hname_ne, hmax_pos, hfields⟩
    refine ⟨_, rfl, ?_, ⟨_, hid, hid_ne⟩, ⟨_, hname, hname_ne⟩,
      fun v hv => exists_text_of_eq_map hdescription hv, ⟨_, hmax, hpositive.mpr hmax_pos, rfl⟩,
      fun v hv => ?_, fun v hv => ?_, ⟨_, hgroups, ?_⟩⟩
    · refine forall_mem_sorted ?_
      cases card.description <;> cases card.createdAt <;> cases card.updatedAt <;> simp
    · exact exists_text_of_rel (rel_isInstant_text card.createdAt) (hcreated.symm.trans hv)
    · exact exists_text_of_rel (rel_isInstant_text card.updatedAt) (hupdated.symm.trans hv)
    · rw [List.forall_mem_map]
      exact fun group hgroup => Group.shaped_sorted_iff.mpr (hfields group hgroup)

/-! ## Loading what was written -/

theorem read?_jsonText (card : Scorecard) : Json.read? card.jsonText = some card.toJson.sorted :=
  read?_compact card.readable_toJson (by decide)

theorem ofJsonText_jsonText_eq (card : Scorecard) :
    ofJsonText card.jsonText = ofJson card.toJson.sorted := by
  rw [ofJsonText, read?_jsonText]

theorem ne_empty_of_blank_eq_false {s : String} (h : Text.blank s = false) : s ≠ "" := by
  rintro rfl
  exact absurd h (by decide)

theorem Valid.rules_ne {card : Scorecard} (h : card.Valid) :
    ∀ group ∈ card.groups, ∀ rule ∈ group.rules, rule.field ≠ "" := by
  intro group hgroup rule hrule
  rw [h.rules group hgroup rule hrule]
  exact ne_empty_of_blank_eq_false (h.fields group hgroup)

theorem Valid.written_sorted {card : Scorecard} (h : card.Valid) :
    Written card.toJson.sorted card := by
  refine written_iff.mpr ⟨shaped_sorted_iff.mpr ⟨?_, ?_, h.ceiling, fun group hgroup => ?_⟩,
    card.ofPart_sorted⟩
  · exact ne_empty_of_blank_eq_false h.id
  · exact ne_empty_of_blank_eq_false h.name
  · exact ⟨ne_empty_of_blank_eq_false (h.fields group hgroup), h.rules_ne group hgroup⟩

/-- The text of a scorecard is loaded if the scorecard is valid, and then it is loaded as it was. -/
theorem ofJsonText_jsonText_eq_ok_iff {card again : Scorecard} :
    ofJsonText card.jsonText = .ok again ↔ card.Valid ∧ again = card := by
  have hkeys : card.toJson.sorted.DistinctKeys := distinctKeys_read? card.read?_jsonText
  rw [ofJsonText_jsonText_eq, ofJson_eq_ok_iff hkeys]
  constructor
  · rintro ⟨written, hwritten, hacceptable, rfl⟩
    obtain ⟨hshaped, hread⟩ := written_iff.mp hwritten
    cases hread.symm.trans card.ofPart_sorted
    obtain ⟨_, _, _, hfields⟩ := shaped_sorted_iff.mp hshaped
    have hfill : card.fillRules = card :=
      fillRules_eq_self fun group hgroup => (hfields group hgroup).2
    have hvalid := valid_fillRules_iff.mpr hacceptable
    rw [hfill] at hvalid ⊢
    exact ⟨hvalid, rfl⟩
  · rintro ⟨hvalid, rfl⟩
    have hfill : again.fillRules = again := fillRules_eq_self hvalid.rules_ne
    exact ⟨again, hvalid.written_sorted, valid_fillRules_iff.mp (hfill.symm ▸ hvalid), hfill.symm⟩

/-- Every scorecard that a loader hands out is valid. -/
theorem valid_of_load {text : String} {card : Scorecard}
    (h : ofJsonText text = .ok card ∨ ofYamlText text = .ok card) : card.Valid := by
  have hdocument : ∀ {document : Json}, document.DistinctKeys → ofJson document = .ok card →
      card.Valid := by
    intro document hkeys hload
    obtain ⟨_, _, hacceptable, rfl⟩ := (ofJson_eq_ok_iff hkeys).mp hload
    exact valid_fillRules_iff.mpr hacceptable
  rcases h with h | h
  · cases hread : Json.read? text with
    | none => simp [ofJsonText, hread] at h
    | some document =>
        exact hdocument (distinctKeys_read? hread) (by simpa [ofJsonText, hread] using h)
  · cases hread : Yaml.read? text with
    | none => simp [ofYamlText, hread] at h
    | some document =>
        exact hdocument (Yaml.distinctKeys_read? hread) (by simpa [ofYamlText, hread] using h)

/-- Writing and loading agree with validation: the text of a scorecard is loaded if and only if the
scorecard is valid, what is loaded is the scorecard itself, and whatever was loaded from any text
survives being written and loaded again. -/
theorem ofJsonText_jsonText (card : Scorecard) :
    ((∃ again, ofJsonText card.jsonText = .ok again) ↔ card.validate = .ok ()) ∧
    (∀ again, ofJsonText card.jsonText = .ok again → again = card) ∧
    ∀ text, ofJsonText text = .ok card ∨ ofYamlText text = .ok card →
      ofJsonText card.jsonText = .ok card := by
  refine ⟨?_, ?_, ?_⟩
  · rw [validate_eq_ok_iff_valid]
    constructor
    · rintro ⟨again, h⟩
      exact (ofJsonText_jsonText_eq_ok_iff.mp h).1
    · intro h
      exact ⟨card, ofJsonText_jsonText_eq_ok_iff.mpr ⟨h, rfl⟩⟩
  · exact fun again h => (ofJsonText_jsonText_eq_ok_iff.mp h).2
  · exact fun text h => ofJsonText_jsonText_eq_ok_iff.mpr ⟨valid_of_load h, rfl⟩

end Scorecard

end CreditScorecard
