import CreditScorecard.Proofs.Schema.Reports
import CreditScorecard.Proofs.Scorecard.Language

/-! # What is reported of a scorecard document

The report on a document is empty exactly if the document has the shape of a scorecard. Each of its
lines ends in a pointer to the part that is at fault, and each group answers for its own lines.
-/

namespace CreditScorecard.Scorecard

/-! ## The schema of scorecards -/

theorem sound_rule : Schema.rule.Sound := by
  apply Schema.sound_objectOf
  simp [Schema.sound_nonEmptyText, Schema.sound_oneOf, Schema.sound_ofTypes, Schema.integer]

theorem sound_group : Schema.group.Sound := by
  apply Schema.sound_objectOf
  simp [Schema.sound_nonEmptyText, Schema.sound_ofTypes, Schema.text,
    Schema.sound_listOf sound_rule]

theorem sound_scorecard : Schema.scorecard.Sound := by
  apply Schema.sound_objectOf
  simp [Schema.sound_nonEmptyText, Schema.sound_ofTypes, Schema.text,
    Schema.sound_positiveInteger, Schema.sound_listOf sound_group]

theorem locates_rule : Schema.rule.Locates := by
  apply Schema.locates_objectOf
  simp [Schema.locates_nonEmptyText, Schema.locates_oneOf, Schema.locates_ofTypes, Schema.integer]

theorem locates_group : Schema.group.Locates := by
  apply Schema.locates_objectOf
  simp [Schema.locates_nonEmptyText, Schema.locates_ofTypes, Schema.text,
    Schema.locates_listOf locates_rule]

theorem locates_scorecard : Schema.scorecard.Locates := by
  apply Schema.locates_objectOf
  simp [Schema.locates_nonEmptyText, Schema.locates_ofTypes, Schema.text,
    Schema.locates_positiveInteger, Schema.locates_listOf locates_group]

/-! ## The report on the groups -/

/-- A document with a list of groups among its members. -/
def withGroups (left : List (String × Json)) (groups : List Json) (right : List (String × Json)) :
    Json :=
  .object (left ++ ("fields", .list groups) :: right)

def groupPointer (i : Nat) : String :=
  "/fields/" ++ Nat.repr i

/-- A violation that a group has by itself, seen from the document. -/
def inGroup (i : Nat) (x : Violation) : Violation :=
  (x.within (.index i)).within (.key "fields")

theorem pointer_group (i : Nat) : Json.pointer [.key "fields", .index i] = groupPointer i := by
  simp [Json.pointer, Json.Step.text, groupPointer, ← String.toList_inj]

/-- What is reported of the groups in a document with these other members. -/
structure GroupsReported (left right : List (String × Json)) : Prop where
  prefixed : ∀ i x, (inGroup i x).message =
    x.fault.message ++ " at " ++ groupPointer i ++ Json.pointer x.path
  inOrder : ∃ before after, (∀ x ∈ before ++ after, ∀ i, ¬x.liesUnder (groupPointer i) = true) ∧
    ∀ groups, Schema.scorecard.violations (withGroups left groups right) =
      before ++ (groups.zipIdx.flatMap fun entry =>
        (Schema.group.violations entry.1).map (inGroup entry.2)) ++ after
  own : ∀ earlier group later,
    (Schema.scorecard.violations (withGroups left (earlier ++ group :: later) right)).filter
        (·.liesUnder (groupPointer earlier.length)) =
      (Schema.group.violations group).map (inGroup earlier.length)
  repaired : ∀ earlier group later repair, Schema.group.admits repair = true →
    Schema.scorecard.violations (withGroups left (earlier ++ repair :: later) right) =
      (Schema.scorecard.violations (withGroups left (earlier ++ group :: later) right)).filter
        (!·.liesUnder (groupPointer earlier.length))

theorem message_inGroup (i : Nat) (x : Violation) :
    (inGroup i x).message = x.fault.message ++ " at " ++ groupPointer i ++ Json.pointer x.path := by
  have hpointer : Json.pointer (inGroup i x).path = groupPointer i ++ Json.pointer x.path := by
    simp [inGroup, Violation.within, ← pointer_group, Json.pointer, ← String.toList_inj]
  rw [Violation.message, hpointer]
  simp [String.append_assoc, inGroup, Violation.within]

theorem liesUnder_inGroup (i : Nat) (x : Violation) :
    (inGroup i x).liesUnder (groupPointer i) = true := by
  rw [← pointer_group, inGroup, Violation.liesUnder_within_key_iff,
    Violation.liesUnder_within_index_iff]
  exact ⟨rfl, rfl⟩

/-- What is picked out of the middle of a list, and what is left of the list. -/
theorem filter_middle {α : Type} {p : α → Bool} {before own after : List α}
    (hothers : ∀ x ∈ before ++ after, ¬p x = true) (hown : ∀ x ∈ own, p x = true) :
    (before ++ own ++ after).filter p = own ∧
      (before ++ own ++ after).filter (!p ·) = before ++ after := by
  rw [List.forall_mem_append] at hothers
  simp only [List.filter_append]
  constructor
  · rw [List.filter_eq_nil_iff.mpr hothers.1, List.filter_eq_nil_iff.mpr hothers.2,
      List.filter_eq_self.mpr hown, List.nil_append, List.append_nil]
  · have hbefore : before.filter (!p ·) = before :=
      List.filter_eq_self.mpr fun x hx => by simpa using hothers.1 x hx
    have hafter : after.filter (!p ·) = after :=
      List.filter_eq_self.mpr fun x hx => by simpa using hothers.2 x hx
    have hnone : own.filter (!p ·) = [] :=
      List.filter_eq_nil_iff.mpr fun x hx => by simpa using hown x hx
    rw [hbefore, hafter, hnone, List.append_nil]

section

variable {left right : List (String × Json)} (hleft : "fields" ∉ left.map Prod.fst)
  (hright : "fields" ∉ right.map Prod.fst)

include hleft hright in
/-- What is reported of the member of the groups stands together, and the rest does not lie under
it. -/
theorem exists_violations_fields_eq :
    ∃ before after, (∀ x ∈ before ++ after, ∀ base,
        ¬x.liesUnder (Json.pointer (.key "fields" :: base)) = true) ∧
      ∀ value, Schema.scorecard.violations (.object (left ++ ("fields", value) :: right)) =
        before ++ ((Schema.listOf Schema.group).violations value).map (·.within (.key "fields")) ++
          after :=
  Schema.exists_violations_member_eq _ rfl hleft hright

include hleft hright in
theorem exists_violations_groups_eq :
    ∃ before after, (∀ x ∈ before ++ after, ∀ i, ¬x.liesUnder (groupPointer i) = true) ∧
      ∀ groups, Schema.scorecard.violations (withGroups left groups right) =
        before ++ (groups.zipIdx.flatMap fun entry =>
          (Schema.group.violations entry.1).map (inGroup entry.2)) ++ after := by
  obtain ⟨before, after, hothers, hviolations⟩ := exists_violations_fields_eq hleft hright
  refine ⟨before, after, ?_, ?_⟩
  · intro x hx i
    rw [← pointer_group]
    exact hothers x hx _
  · intro groups
    have hlist : (Schema.listOf Schema.group).violations (.list groups) =
        Schema.itemViolations Schema.group 0 groups := rfl
    rw [withGroups, hviolations, hlist, Schema.itemViolations_eq_flatMap,
      List.map_flatMap]
    simp only [List.map_map]
    rfl

include hleft hright in
/-- One group can be exchanged in the report without a trace in the rest of it. -/
theorem exists_violations_group_eq (earlier later : List Json) :
    ∃ before after, (∀ x ∈ before ++ after,
        ¬x.liesUnder (groupPointer earlier.length) = true) ∧
      ∀ group, Schema.scorecard.violations (withGroups left (earlier ++ group :: later) right) =
        before ++ (Schema.group.violations group).map (inGroup earlier.length) ++ after := by
  rw [← pointer_group]
  exact Schema.exists_violations_item_eq _ rfl hleft hright earlier later

include hleft hright in
theorem groupsReported : GroupsReported left right where
  prefixed := message_inGroup
  inOrder := exists_violations_groups_eq hleft hright
  own := by
    intro earlier group later
    obtain ⟨before, after, hothers, hviolations⟩ :=
      exists_violations_group_eq hleft hright earlier later
    rw [hviolations]
    exact (filter_middle hothers (List.forall_mem_map.mpr fun x _ => liesUnder_inGroup _ x)).1
  repaired := by
    intro earlier group later repair hrepair
    obtain ⟨before, after, hothers, hviolations⟩ :=
      exists_violations_group_eq hleft hright earlier later
    have hnone : Schema.group.violations repair = [] := (sound_group repair).mp hrepair
    rw [hviolations, hviolations, hnone, List.map_nil, List.append_nil]
    exact (filter_middle hothers (List.forall_mem_map.mpr fun x _ => liesUnder_inGroup _ x)).2.symm

end

/-- What the report on a document is like. -/
structure WellReported (document : Json) : Prop where
  complete : Schema.scorecard.admits document = true ↔ Schema.scorecard.violations document = []
  located : ∀ x ∈ Schema.scorecard.violations document, ∃ part,
    x.message = x.fault.message ++ " at " ++ Json.pointer x.path ∧
      document.resolve? (Json.pointer x.path) = some part ∧ x.fault.Holds part
  groups : ∀ left groups right, document = withGroups left groups right →
    GroupsReported left right

theorem wellReported_of_distinctKeys {document : Json} (hkeys : document.DistinctKeys) :
    WellReported document where
  complete := sound_scorecard document
  located := by
    intro x hx
    obtain ⟨part, hpart, hholds⟩ := locates_scorecard hkeys x hx
    exact ⟨part, rfl, Json.resolve?_pointer hpart, hholds⟩
  groups := by
    rintro left groups right rfl
    have hnodup := hkeys.nodup
    rw [List.map_append, List.map_cons, List.nodup_append, List.nodup_cons] at hnodup
    obtain ⟨-, ⟨hright, -⟩, hleft⟩ := hnodup
    exact groupsReported (fun h => hleft _ h _ List.mem_cons_self rfl) hright

/-- Documents whose objects have distinct keys are well reported, and the documents that are read
from text, JSON or YAML, are of that kind. -/
theorem wellReported (document : Json) :
    (document.DistinctKeys → WellReported document) ∧
      ∀ text, Json.read? text = some document ∨ Yaml.read? text = some document →
        document.DistinctKeys := by
  refine ⟨wellReported_of_distinctKeys, ?_⟩
  rintro text (h | h)
  · exact Json.distinctKeys_read? h
  · exact Yaml.distinctKeys_read? h

/-- A document without an identifier in which a group has the given field. -/
def oneGroup (field : String) : Json :=
  withGroups [] [.object [("field", .text field)]]
    [("maxScore", .ofInt 100), ("name", .text "Demo")]

/-- A blank field is reported where it stands. With another field the identifier is still missed. -/
theorem wellReported_oneGroup :
    (oneGroup "").DistinctKeys ∧
    ((Schema.scorecard.violations (oneGroup "")).filter
      (·.liesUnder (groupPointer 0))).map (·.message) =
        ["\"\" is shorter than 1 character at /fields/0/field"] ∧
    (Schema.scorecard.violations (oneGroup "age")).map (·.message) =
      ["\"scoreCardId\" is a required property at "] := by
  have hkeys : (oneGroup "").DistinctKeys := by
    simp [oneGroup, withGroups, Json.ofInt]
  have hgroups := ((wellReported (oneGroup "")).1 hkeys).groups _ _ _ rfl
  have hown := hgroups.own [] (.object [("field", .text "")]) []
  have hrepaired := hgroups.repaired [] (.object [("field", .text "")]) []
    (.object [("field", .text "age")]) (by decide +kernel)
  refine ⟨hkeys, ?_, ?_⟩
  · calc ((Schema.scorecard.violations (oneGroup "")).filter
          (·.liesUnder (groupPointer 0))).map (·.message)
        = ((Schema.group.violations (.object [("field", .text "")])).map (inGroup 0)).map
            (·.message) := congrArg (List.map (·.message)) hown
      _ = _ := by decide +kernel
  · calc (Schema.scorecard.violations (oneGroup "age")).map (·.message)
        = ((Schema.scorecard.violations (oneGroup "")).filter
            (!·.liesUnder (groupPointer 0))).map (·.message) :=
          congrArg (List.map (·.message)) hrepaired
      _ = _ := by decide +kernel

end CreditScorecard.Scorecard
