import CreditScorecard.Proofs.Schema.Accepts
import CreditScorecard.Scorecard.Document

/-! # The shape of scorecard documents

The schema of a scorecard accepts the documents whose shape is described here. A document that
has the shape may still hold a number that is no score or a text that is no instant.
-/

namespace CreditScorecard

namespace Json

/-- The value of a rule and the literal that it stands for. -/
inductive IsLiteral : Json → String → Prop where
  | text (s : String) : IsLiteral (.text s) s
  | boolean (b : Bool) : IsLiteral (.boolean b) (boolText b)
  | number (n : Number) : IsLiteral (.number n) n.literal

theorem exists_isLiteral_iff {v : Json} :
    (∃ s, IsLiteral v s) ↔ ∃ type ∈ [JsonType.boolean, .number, .text], type.has v = true := by
  constructor
  · rintro ⟨_, _ | _ | _⟩ <;> simp [JsonType.has]
  · intro h
    cases v with
    | text s => exact ⟨_, .text s⟩
    | boolean b => exact ⟨_, .boolean b⟩
    | number n => exact ⟨_, .number n⟩
    | _ => simp [JsonType.has] at h

end Json

open Json Schema

/-! ## Rules -/

namespace Rule

/-- The members of an object have the shape of a rule. -/
structure ShapedIn (members : List (String × Json)) : Prop where
  known : ∀ member ∈ members, member.1 ∈ ["field", "operator", "value", "score"]
  field : ∀ v, members.lookup "field" = some v → ∃ s, v = .text s ∧ s ≠ ""
  operator : ∃ operator : Operator, members.lookup "operator" = some (.text operator.symbol)
  value : ∃ v s, members.lookup "value" = some v ∧ IsLiteral v s
  score : ∃ n : Number, members.lookup "score" = some (.number n) ∧ n.isWhole = true

def Shaped (v : Json) : Prop :=
  ∃ members, v = .object members ∧ ShapedIn members

theorem accepts_operator_iff {v : Json} :
    (oneOf (Operator.all.map (·.symbol))).Accepts v ↔
      ∃ operator : Operator, v = .text operator.symbol := by
  rw [accepts_oneOf_iff]
  constructor
  · rintro ⟨s, hs, rfl⟩
    obtain ⟨operator, _, rfl⟩ := List.mem_map.mp hs
    exact ⟨operator, rfl⟩
  · rintro ⟨operator, rfl⟩
    exact ⟨_, List.mem_map_of_mem (Operator.mem_all operator), rfl⟩

theorem accepts_iff_shapedIn {members : List (String × Json)}
    (hkeys : (members.map Prod.fst).Nodup) :
    Schema.rule.Accepts (.object members) ↔ ShapedIn members := by
  rw [Schema.rule, accepts_object_iff (by decide) hkeys]
  simp only [List.map_cons, List.map_nil, List.forall_mem_cons, List.not_mem_nil,
    false_implies, implies_true, and_true, accepts_nonEmptyText_iff, accepts_operator_iff,
    accepts_integer_iff, accepts_ofTypes_iff, ← exists_isLiteral_iff]
  constructor
  · rintro ⟨hknown, ⟨hfield, hoperator, hvalue, hscore⟩, ⟨o, ho⟩, ⟨v, hv⟩, hpresent⟩
    refine ⟨hknown, hfield, ?_, ?_, required_iff.mp ⟨hscore, hpresent⟩⟩
    · obtain ⟨operator, rfl⟩ := hoperator o ho
      exact ⟨operator, ho⟩
    · obtain ⟨s, hs⟩ := hvalue v hv
      exact ⟨v, s, hv, hs⟩
  · rintro ⟨hknown, hfield, ⟨operator, ho⟩, ⟨v, s, hv, hs⟩, hscore⟩
    obtain ⟨hscore, hpresent⟩ := required_iff.mpr hscore
    refine ⟨hknown, ⟨hfield, ?_, ?_, hscore⟩, ⟨_, ho⟩, ⟨_, hv⟩, hpresent⟩
    · intro o h
      cases ho.symm.trans h
      exact ⟨operator, rfl⟩
    · intro w h
      cases hv.symm.trans h
      exact ⟨s, hs⟩

theorem accepts_iff_shaped {v : Json} (hv : v.DistinctKeys) :
    Schema.rule.Accepts v ↔ Shaped v :=
  accepts_iff_of_members (fun h => accepts_iff_shapedIn h.nodup) hv

end Rule

/-! ## Groups -/

namespace Group

/-- The members of an object have the shape of a group. -/
structure ShapedIn (members : List (String × Json)) : Prop where
  known : ∀ member ∈ members, member.1 ∈ ["field", "description", "rules"]
  field : ∃ s, members.lookup "field" = some (.text s) ∧ s ≠ ""
  description : ∀ v, members.lookup "description" = some v → ∃ s, v = .text s
  rules : ∀ v, members.lookup "rules" = some v →
    ∃ items, v = .list items ∧ ∀ item ∈ items, Rule.Shaped item

def Shaped (v : Json) : Prop :=
  ∃ members, v = .object members ∧ ShapedIn members

theorem accepts_iff_shapedIn {members : List (String × Json)}
    (hkeys : (Json.object members).DistinctKeys) :
    Schema.group.Accepts (.object members) ↔ ShapedIn members := by
  have hrules : ∀ v, members.lookup "rules" = some v →
      ((listOf Schema.rule).Accepts v ↔
        ∃ items, v = .list items ∧ ∀ item ∈ items, Rule.Shaped item) :=
    fun v hv => accepts_listOf_iff_of_items Rule.accepts_iff_shaped (hkeys.of_lookup hv)
  rw [Schema.group, accepts_object_iff (by decide) hkeys.nodup]
  simp only [List.map_cons, List.map_nil, List.forall_mem_cons, List.not_mem_nil,
    false_implies, implies_true, and_true, accepts_nonEmptyText_iff, accepts_text_iff]
  constructor
  · rintro ⟨hknown, ⟨hfield, hdescription, hlist⟩, hpresent⟩
    exact ⟨hknown, required_iff.mp ⟨hfield, hpresent⟩, hdescription,
      fun v hv => (hrules v hv).mp (hlist v hv)⟩
  · rintro ⟨hknown, hfield, hdescription, hlist⟩
    obtain ⟨hfield, hpresent⟩ := required_iff.mpr hfield
    exact ⟨hknown, ⟨hfield, hdescription, fun v hv => (hrules v hv).mpr (hlist v hv)⟩, hpresent⟩

theorem accepts_iff_shaped {v : Json} (hv : v.DistinctKeys) :
    Schema.group.Accepts v ↔ Shaped v :=
  accepts_iff_of_members accepts_iff_shapedIn hv

end Group

/-! ## Scorecards -/

namespace Scorecard

/-- The members of an object have the shape of a scorecard. -/
structure ShapedIn (members : List (String × Json)) : Prop where
  known : ∀ member ∈ members, member.1 ∈
    ["scoreCardId", "name", "description", "maxScore", "createdAt", "updatedAt", "fields"]
  id : ∃ s, members.lookup "scoreCardId" = some (.text s) ∧ s ≠ ""
  name : ∃ s, members.lookup "name" = some (.text s) ∧ s ≠ ""
  description : ∀ v, members.lookup "description" = some v → ∃ s, v = .text s
  maxScore : ∃ n : Number, members.lookup "maxScore" = some (.number n) ∧ n.isPositive = true ∧
    n.isWhole = true
  createdAt : ∀ v, members.lookup "createdAt" = some v → ∃ s, v = .text s
  updatedAt : ∀ v, members.lookup "updatedAt" = some v → ∃ s, v = .text s
  fields : ∃ items, members.lookup "fields" = some (.list items) ∧
    ∀ item ∈ items, Group.Shaped item

def Shaped (document : Json) : Prop :=
  ∃ members, document = .object members ∧ ShapedIn members

theorem accepts_iff_shapedIn {members : List (String × Json)}
    (hkeys : (Json.object members).DistinctKeys) :
    Schema.scorecard.Accepts (.object members) ↔ ShapedIn members := by
  have hgroups : ∀ v, members.lookup "fields" = some v →
      ((listOf Schema.group).Accepts v ↔
        ∃ items, v = .list items ∧ ∀ item ∈ items, Group.Shaped item) :=
    fun v hv => accepts_listOf_iff_of_items Group.accepts_iff_shaped (hkeys.of_lookup hv)
  rw [Schema.scorecard, accepts_object_iff (by decide) hkeys.nodup]
  simp only [List.map_cons, List.map_nil, List.forall_mem_cons, List.not_mem_nil,
    false_implies, implies_true, and_true, accepts_nonEmptyText_iff, accepts_text_iff,
    accepts_positiveInteger_iff]
  constructor
  · rintro ⟨hknown, ⟨hid, hname, hdescription, hmax, hcreated, hupdated, hlist⟩,
      hasId, hasName, hasMax, hasGroups⟩
    have hlist := fun v hv => (hgroups v hv).mp (hlist v hv)
    exact ⟨hknown, required_iff.mp ⟨hid, hasId⟩, required_iff.mp ⟨hname, hasName⟩, hdescription,
      required_iff.mp ⟨hmax, hasMax⟩, hcreated, hupdated, required_iff.mp ⟨hlist, hasGroups⟩⟩
  · intro h
    obtain ⟨hid, hasId⟩ := required_iff.mpr h.id
    obtain ⟨hname, hasName⟩ := required_iff.mpr h.name
    obtain ⟨hmax, hasMax⟩ := required_iff.mpr h.maxScore
    obtain ⟨hlist, hasGroups⟩ := required_iff.mpr h.fields
    have hlist := fun v hv => (hgroups v hv).mpr (hlist v hv)
    exact ⟨h.known, ⟨hid, hname, h.description, hmax, h.createdAt, h.updatedAt, hlist⟩,
      hasId, hasName, hasMax, hasGroups⟩

theorem accepts_iff_shaped {document : Json} (hkeys : document.DistinctKeys) :
    Schema.scorecard.Accepts document ↔ Shaped document :=
  accepts_iff_of_members accepts_iff_shapedIn hkeys

end Scorecard

end CreditScorecard
