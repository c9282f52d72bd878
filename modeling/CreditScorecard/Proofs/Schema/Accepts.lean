import CreditScorecard.Proofs.Json.Members
import CreditScorecard.Schema.Basic

/-! # Values that a schema accepts

A schema accepts a value if it finds no violation in it. For each way to build a schema there is
one lemma that says what is accepted.
-/

namespace CreditScorecard.Schema

/-- A schema finds no fault in a value. -/
def Accepts (schema : Schema) (v : Json) : Prop :=
  schema.violations v = []

/-! ## Plain values -/

theorem here_eq_nil_iff {faults : List Fault} : here faults = [] ↔ faults = [] := by
  simp [here]

theorem accepts_ofTypes_iff {types : List JsonType} {v : Json} :
    (ofTypes types).Accepts v ↔ ∃ type ∈ types, type.has v = true := by
  rw [Accepts, ← sound_ofTypes types v, ofTypes, List.any_eq_true]

theorem accepts_text_iff {v : Json} : text.Accepts v ↔ ∃ s, v = .text s := by
  rw [text, accepts_ofTypes_iff]
  cases v <;> simp [JsonType.has]

theorem accepts_integer_iff {v : Json} :
    integer.Accepts v ↔ ∃ n, v = .number n ∧ n.isWhole = true := by
  rw [integer, accepts_ofTypes_iff]
  cases v <;> simp [JsonType.has]

theorem accepts_nonEmptyText_iff {v : Json} :
    nonEmptyText.Accepts v ↔ ∃ s, v = .text s ∧ s ≠ "" := by
  cases v <;> simp [Accepts, nonEmptyText, here_eq_nil_iff]

theorem accepts_positiveInteger_iff {v : Json} :
    positiveInteger.Accepts v ↔
      ∃ n, v = .number n ∧ n.isPositive = true ∧ n.isWhole = true := by
  cases v with
  | number n =>
      cases hwhole : n.isWhole <;>
        simp [Accepts, positiveInteger, here_eq_nil_iff, JsonType.has, hwhole]
  | _ => simp [Accepts, positiveInteger, here_eq_nil_iff, JsonType.has]

theorem accepts_oneOf_iff {options : List String} {v : Json} :
    (oneOf options).Accepts v ↔ ∃ s ∈ options, v = .text s := by
  cases v <;> simp [Accepts, oneOf, here_eq_nil_iff]

/-! ## Lists -/

theorem itemViolations_eq_nil_iff {item : Schema} {start : Nat} {items : List Json} :
    itemViolations item start items = [] ↔ ∀ v ∈ items, item.Accepts v := by
  induction items generalizing start with
  | nil => simp [itemViolations]
  | cons v vs ih => simp [itemViolations, ih, Accepts]

theorem accepts_listOf_iff {item : Schema} {v : Json} :
    (listOf item).Accepts v ↔ ∃ items, v = .list items ∧ ∀ w ∈ items, item.Accepts w := by
  cases v <;> simp [Accepts, listOf, here_eq_nil_iff, itemViolations_eq_nil_iff]

/-- The shape of the items of an accepted list can be told from their schema. -/
theorem accepts_listOf_iff_of_items {item : Schema} {P : Json → Prop}
    (h : ∀ {w : Json}, w.DistinctKeys → (item.Accepts w ↔ P w)) {v : Json}
    (hv : v.DistinctKeys) :
    (listOf item).Accepts v ↔ ∃ items, v = .list items ∧ ∀ w ∈ items, P w := by
  rw [accepts_listOf_iff]
  refine exists_congr fun items => and_congr_right ?_
  rintro rfl
  exact forall₂_congr fun w hw => h (hv.of_mem hw)

/-! ## Objects -/

theorem memberViolations_eq_nil_iff {known : List (String × Schema)}
    {members : List (String × Json)} :
    memberViolations known members = [] ↔
      ∀ member ∈ members, ∀ schema, known.lookup member.1 = some schema →
        schema.Accepts member.2 := by
  simp only [memberViolations, List.flatMap_eq_nil_iff]
  refine forall₂_congr fun member _ => ?_
  cases known.lookup member.1 <;> simp [Accepts]

theorem unexpectedNames_eq_nil_iff {known : List (String × Schema)}
    {members : List (String × Json)} :
    unexpectedNames known members = [] ↔
      ∀ member ∈ members, ∃ schema, known.lookup member.1 = some schema := by
  simp only [unexpectedNames, List.filter_eq_nil_iff, List.forall_mem_map,
    Option.isNone_iff_eq_none, Option.ne_none_iff_exists']

theorem missingNames_eq_nil_iff {required : List String} {members : List (String × Json)} :
    missingNames required members = [] ↔
      ∀ name ∈ required, ∃ value, members.lookup name = some value := by
  simp only [missingNames, List.filter_eq_nil_iff, Option.isNone_iff_eq_none,
    Option.ne_none_iff_exists']

theorem accepts_objectOf_iff {known : List (String × Schema)} {required : List String}
    {v : Json} :
    (objectOf known required).Accepts v ↔
      ∃ members, v = .object members ∧
        (∀ member ∈ members, ∃ schema, known.lookup member.1 = some schema ∧
          schema.Accepts member.2) ∧
        ∀ name ∈ required, ∃ value, members.lookup name = some value := by
  cases v with
  | object members =>
      have hunexpected : (if (unexpectedNames known members).isEmpty then ([] : List Fault)
          else [.unexpected (unexpectedNames known members)]) = [] ↔
          unexpectedNames known members = [] := by
        split <;> simp_all
      simp only [Accepts, objectOf, List.append_eq_nil_iff, here_eq_nil_iff, hunexpected,
        List.map_eq_nil_iff, memberViolations_eq_nil_iff, unexpectedNames_eq_nil_iff,
        missingNames_eq_nil_iff, Json.object.injEq, exists_eq_left']
      constructor
      · rintro ⟨⟨hvalues, hknown⟩, hrequired⟩
        refine ⟨fun member hmember => ?_, hrequired⟩
        obtain ⟨schema, hschema⟩ := hknown member hmember
        exact ⟨schema, hschema, hvalues member hmember schema hschema⟩
      · rintro ⟨hknown, hrequired⟩
        refine ⟨⟨fun member hmember schema hschema => ?_, fun member hmember => ?_⟩, hrequired⟩
        · obtain ⟨schema', hschema', haccepts⟩ := hknown member hmember
          cases hschema.symm.trans hschema'
          exact haccepts
        · obtain ⟨schema, hschema, _⟩ := hknown member hmember
          exact ⟨schema, hschema⟩
  | _ => simp [Accepts, objectOf, here_eq_nil_iff]

/-- Where keys are distinct, an object is accepted or not by what its keys stand for. -/
theorem accepts_object_iff {known : List (String × Schema)} {required : List String}
    {members : List (String × Json)} (hknown : (known.map Prod.fst).Nodup)
    (hkeys : (members.map Prod.fst).Nodup) :
    (objectOf known required).Accepts (.object members) ↔
      (∀ member ∈ members, member.1 ∈ known.map Prod.fst) ∧
        (∀ entry ∈ known, ∀ value, members.lookup entry.1 = some value →
          entry.2.Accepts value) ∧
        ∀ name ∈ required, ∃ value, members.lookup name = some value := by
  rw [accepts_objectOf_iff]
  constructor
  · rintro ⟨_, ⟨⟩, hmembers, hrequired⟩
    refine ⟨fun member hmember => ?_, fun entry hentry value hvalue => ?_, hrequired⟩
    · obtain ⟨schema, hschema, _⟩ := hmembers member hmember
      exact List.mem_map.mpr ⟨_, Json.mem_of_lookup_eq_some hschema, rfl⟩
    · obtain ⟨schema, hschema, haccepts⟩ := hmembers _ (Json.mem_of_lookup_eq_some hvalue)
      rw [Json.lookup_eq_some_of_mem hknown hentry] at hschema
      cases hschema
      exact haccepts
  · rintro ⟨hnames, hvalues, hrequired⟩
    refine ⟨members, rfl, fun member hmember => ?_, hrequired⟩
    obtain ⟨entry, hentry, hname⟩ := List.mem_map.mp (hnames member hmember)
    have hlookup := Json.lookup_eq_some_of_mem hkeys hmember
    rw [← hname] at hlookup ⊢
    exact ⟨entry.2, Json.lookup_eq_some_of_mem hknown hentry, hvalues entry hentry _ hlookup⟩

/-- A member that has to be present and to have a certain form. -/
theorem required_iff {α : Type} {member : Option Json} {form : α → Json} {P : α → Prop} :
    ((∀ v, member = some v → ∃ a, v = form a ∧ P a) ∧ ∃ v, member = some v) ↔
      ∃ a, member = some (form a) ∧ P a := by
  constructor
  · rintro ⟨h, v, rfl⟩
    obtain ⟨a, rfl, ha⟩ := h v rfl
    exact ⟨a, rfl, ha⟩
  · rintro ⟨a, rfl, ha⟩
    exact ⟨fun v hv => ⟨a, (Option.some.inj hv).symm, ha⟩, form a, rfl⟩

/-- The shape of an accepted object can be told from its members. -/
theorem accepts_iff_of_members {known : List (String × Schema)} {required : List String}
    {P : List (String × Json) → Prop}
    (h : ∀ {members}, (Json.object members).DistinctKeys →
      ((objectOf known required).Accepts (.object members) ↔ P members))
    {v : Json} (hv : v.DistinctKeys) :
    (objectOf known required).Accepts v ↔ ∃ members, v = .object members ∧ P members := by
  constructor
  · intro haccepts
    obtain ⟨members, rfl, _⟩ := accepts_objectOf_iff.mp haccepts
    exact ⟨members, rfl, (h hv).mp haccepts⟩
  · rintro ⟨members, rfl, hmembers⟩
    exact (h hv).mpr hmembers

end CreditScorecard.Schema
