import CreditScorecard.Proofs.Scorecard.Parts

/-! # Scorecards as they are written

A rule, a group and a scorecard are written in a document if it has their shape and can be read.
Of a well-shaped document only scores, the ceiling and instants can be unreadable.
-/

namespace CreditScorecard

open Json

/-- An object is written as its members are, if these have a shape and the object can be read. -/
theorem Json.object_and_read_iff {α : Type} {part : Part α} {a : α}
    {P Q : List (String × Json) → Prop}
    (h : ∀ {members}, P members ↔ Q members ∧ part (.object members) = .ok a) {v : Json} :
    (∃ members, v = .object members ∧ P members) ↔
      (∃ members, v = .object members ∧ Q members) ∧ part v = .ok a := by
  constructor
  · rintro ⟨members, rfl, hmembers⟩
    obtain ⟨hshaped, hread⟩ := h.mp hmembers
    exact ⟨⟨members, rfl, hshaped⟩, hread⟩
  · rintro ⟨⟨members, rfl, hshaped⟩, hread⟩
    exact ⟨members, rfl, h.mpr ⟨hshaped, hread⟩⟩

/-! ## Rules -/

namespace Rule

/-- The members of an object describe a rule. A rule without a field has an empty one. -/
structure WrittenIn (members : List (String × Json)) (rule : Rule) : Prop where
  known : ∀ member ∈ members, member.1 ∈ ["field", "operator", "value", "score"]
  field : (members.lookup "field" = none ∧ rule.field = "") ∨
    (members.lookup "field" = some (.text rule.field) ∧ rule.field ≠ "")
  operator : members.lookup "operator" = some (.text rule.operator.symbol)
  literal : ∃ v, members.lookup "value" = some v ∧ IsLiteral v rule.literal
  points : members.lookup "score" = some (.ofPoints rule.points)

def Written (v : Json) (rule : Rule) : Prop :=
  ∃ members, v = .object members ∧ WrittenIn members rule

theorem ofPart_eq_ok_iff {members : List (String × Json)} {rule : Rule} :
    ofPart (.object members) = .ok rule ↔
      (∃ field?, members.lookup "field" = Option.map Json.text field? ∧
        rule.field = field?.getD "") ∧
      (∃ s, members.lookup "operator" = some (.text s) ∧
        Operator.ofSymbol? s = some rule.operator) ∧
      (∃ v, members.lookup "value" = some v ∧ IsLiteral v rule.literal) ∧
      members.lookup "score" = some (.ofPoints rule.points) := by
  obtain ⟨field, operator, literal, points⟩ := rule
  simp only [ofPart, bind_eq_ok_iff, pure_eq_ok_iff, member?_asText_eq_ok_iff, member_eq_ok_iff,
    asOperator_eq_ok_iff, asPoints_eq_ok_iff, asLiteral_eq_ok_iff, Rule.mk.injEq]
  constructor
  · rintro ⟨field?, hfield, _, ⟨_, ho, s, rfl, hs⟩, _, ⟨_, hp, rfl⟩, _, hv, rfl, rfl, rfl, rfl⟩
    exact ⟨⟨field?, hfield, rfl⟩, ⟨s, ho, hs⟩, hv, hp⟩
  · rintro ⟨⟨field?, hfield, rfl⟩, ⟨s, ho, hs⟩, hv, hp⟩
    exact ⟨field?, hfield, operator, ⟨_, ho, s, rfl, hs⟩, points, ⟨_, hp, rfl⟩, literal, hv, rfl,
      rfl, rfl, rfl⟩

/-- A rule is written in a document that has the shape of a rule and can be read. -/
theorem writtenIn_iff {members : List (String × Json)} {rule : Rule} :
    WrittenIn members rule ↔ ShapedIn members ∧ ofPart (.object members) = .ok rule := by
  rw [ofPart_eq_ok_iff]
  constructor
  · intro h
    refine ⟨⟨h.known, ?_, ⟨_, h.operator⟩, ?_, ⟨_, h.points, rfl⟩⟩, ?_, ?_, h.literal, h.points⟩
    · intro v hv
      rcases h.field with ⟨hnone, _⟩ | ⟨hsome, hne⟩
      · cases hnone.symm.trans hv
      · cases hsome.symm.trans hv
        exact ⟨_, rfl, hne⟩
    · obtain ⟨v, hv, hliteral⟩ := h.literal
      exact ⟨v, _, hv, hliteral⟩
    · rcases h.field with ⟨hnone, hempty⟩ | ⟨hsome, _⟩
      · exact ⟨none, hnone, hempty⟩
      · exact ⟨some rule.field, hsome, rfl⟩
    · exact ⟨_, h.operator, ofSymbol?_symbol _⟩
  · rintro ⟨h, ⟨field?, hfield, heq⟩, ⟨s, hs, hoperator⟩, hliteral, hpoints⟩
    refine ⟨h.known, ?_, ?_, hliteral, hpoints⟩
    · cases field? with
      | none => exact .inl ⟨hfield, heq⟩
      | some s =>
          obtain ⟨_, ⟨⟩, hne⟩ := h.field _ hfield
          rw [heq]
          exact .inr ⟨hfield, hne⟩
    · obtain ⟨operator, ho⟩ := h.operator
      cases hs.symm.trans ho
      rw [ofSymbol?_symbol] at hoperator
      cases hoperator
      exact ho

theorem written_iff {v : Json} {rule : Rule} :
    Written v rule ↔ Shaped v ∧ ofPart v = .ok rule :=
  object_and_read_iff writtenIn_iff

/-- Of a well-shaped rule only the score can be unreadable. -/
theorem ofPart_eq_error_iff {v : Json} (h : Shaped v) {e : PartError} :
    ofPart v = .error e ↔ NoPointsAt v [.key "score"] e := by
  obtain ⟨members, rfl, h⟩ := h
  obtain ⟨field, hfield⟩ := exists_member?_asText fun v hv =>
    (h.field v hv).imp fun _ hs => hs.1
  obtain ⟨operator, hoperator⟩ := h.operator
  obtain ⟨v, literal, hv, hliteral⟩ := h.value
  obtain ⟨n, hn, hwhole⟩ := h.score
  have hoperator' : member members "operator" asOperator = .ok operator :=
    member_eq_ok_iff.mpr ⟨_, hoperator, asOperator_symbol operator⟩
  have hliteral' : member members "value" asLiteral = .ok literal :=
    member_eq_ok_iff.mpr ⟨v, hv, asLiteral_eq_ok_iff.mpr hliteral⟩
  have hscore : member members "score" asPoints = asPoints (.number n) := by
    rw [member, hn]
  have hread : ofPart (.object members) = .error e ↔ asPoints (.number n) = .error e := by
    simp [ofPart, hfield, hoperator', hliteral', hscore, bind_eq_error_iff]
  rw [hread, asPoints_eq_error_iff hwhole]
  simp [NoPointsAt, part?, hn]

theorem failsFor {v : Json} (h : Shaped v) :
    FailsFor ofPart (NoPointsAt · [.key "score"]) v where
  reason_of_error := (ofPart_eq_error_iff h).mp
  exists_error he := ⟨_, (ofPart_eq_error_iff h).mpr he⟩

end Rule

/-! ## Groups -/

namespace Group

/-- The members of an object describe a group. -/
structure WrittenIn (members : List (String × Json)) (group : Group) : Prop where
  known : ∀ member ∈ members, member.1 ∈ ["field", "description", "rules"]
  field : members.lookup "field" = some (.text group.field)
  field_ne : group.field ≠ ""
  description : members.lookup "description" = group.description.map .text
  rules : (members.lookup "rules" = none ∧ group.rules = []) ∨
    ∃ items, members.lookup "rules" = some (.list items) ∧
      List.Forall₂ Rule.Written items group.rules

def Written (v : Json) (group : Group) : Prop :=
  ∃ members, v = .object members ∧ WrittenIn members group

theorem ofPart_eq_ok_iff {members : List (String × Json)} {group : Group} :
    ofPart (.object members) = .ok group ↔
      members.lookup "field" = some (.text group.field) ∧
      members.lookup "description" = group.description.map .text ∧
      ((members.lookup "rules" = none ∧ group.rules = []) ∨
        ∃ items, members.lookup "rules" = some (.list items) ∧
          List.Forall₂ (fun item rule => Rule.ofPart item = .ok rule) items group.rules) := by
  rw [← member?_asList_iff]
  obtain ⟨field, description, rules⟩ := group
  simp only [ofPart, bind_eq_ok_iff, pure_eq_ok_iff, member?_asText_eq_ok_iff, member_eq_ok_iff,
    asText_eq_ok_iff, Group.mk.injEq]
  constructor
  · rintro ⟨_, hdescription, _, ⟨_, hfield, rfl⟩, rules?, hrules, rfl, rfl, hvalues⟩
    exact ⟨hfield, hdescription, rules?, hrules, hvalues⟩
  · rintro ⟨hfield, hdescription, rules?, hrules, hvalues⟩
    exact ⟨_, hdescription, _, ⟨_, hfield, rfl⟩, rules?, hrules, rfl, rfl, hvalues⟩

theorem forall₂_written_iff {items : List Json} {rules : List Rule} :
    List.Forall₂ Rule.Written items rules ↔
      (∀ item ∈ items, Rule.Shaped item) ∧
        List.Forall₂ (fun item rule => Rule.ofPart item = .ok rule) items rules := by
  rw [← List.forall₂_and_left]
  simp only [← Rule.written_iff]

theorem writtenIn_iff {members : List (String × Json)} {group : Group} :
    WrittenIn members group ↔ ShapedIn members ∧ ofPart (.object members) = .ok group := by
  rw [ofPart_eq_ok_iff]
  constructor
  · intro h
    refine ⟨⟨h.known, ⟨_, h.field, h.field_ne⟩, ?_, ?_⟩, h.field, h.description, ?_⟩
    · exact fun v hv => exists_text_of_eq_map h.description hv
    · intro v hv
      rcases h.rules with ⟨hnone, _⟩ | ⟨items, hsome, hrules⟩
      · cases hnone.symm.trans hv
      · cases hsome.symm.trans hv
        exact ⟨items, rfl, (forall₂_written_iff.mp hrules).1⟩
    · refine h.rules.imp_right ?_
      rintro ⟨items, hsome, hrules⟩
      exact ⟨items, hsome, (forall₂_written_iff.mp hrules).2⟩
  · rintro ⟨h, hfield, hdescription, hrules⟩
    obtain ⟨s, hs, hne⟩ := h.field
    cases hfield.symm.trans hs
    refine ⟨h.known, hfield, hne, hdescription, hrules.imp_right ?_⟩
    rintro ⟨items, hsome, hread⟩
    obtain ⟨_, ⟨⟩, hshaped⟩ := h.rules _ hsome
    exact ⟨items, hsome, forall₂_written_iff.mpr ⟨hshaped, hread⟩⟩

theorem written_iff {v : Json} {group : Group} :
    Written v group ↔ Shaped v ∧ ofPart v = .ok group :=
  object_and_read_iff writtenIn_iff

/-- Of a well-shaped group only the scores of its rules can be unreadable. -/
theorem failsFor {v : Json} (h : Shaped v) :
    FailsFor ofPart (fun v e => ∃ j, NoPointsAt v [.key "rules", .index j, .key "score"] e) v := by
  obtain ⟨members, rfl, h⟩ := h
  obtain ⟨description, hdescription⟩ := exists_member?_asText h.description
  obtain ⟨field, hfield, _⟩ := h.field
  have hfield' : member members "field" asText = .ok field :=
    member_eq_ok_iff.mpr ⟨_, hfield, rfl⟩
  have hread : ∀ e, ofPart (.object members) = .error e ↔
      member? members "rules" (asList Rule.ofPart) = .error e := by
    intro e
    cases hrules : member? members "rules" (asList Rule.ofPart) <;>
      simp [ofPart, hdescription, hfield', hrules, bind, Except.bind, pure, Except.pure]
  have hlist : ∀ v, members.lookup "rules" = some v →
      FailsFor (asList Rule.ofPart)
        (fun v e => ∃ j w, v.part? [.index j] = some w ∧ NoPointsAt w [.key "score"] e) v := by
    intro v hv
    obtain ⟨items, rfl, hitems⟩ := h.rules v hv
    exact FailsFor.asList fun item hi => Rule.failsFor (hitems item hi)
  refine ⟨?_, ?_⟩
  · intro e he
    obtain ⟨v, hv, he⟩ := member?_eq_error_iff.mp ((hread e).mp he)
    obtain ⟨j, w, hw, hscore⟩ := (hlist v hv).reason_of_error he
    exact ⟨j, noPointsAt_key_iff.mpr ⟨v, hv, noPointsAt_cons_iff.mpr ⟨w, hw, hscore⟩⟩⟩
  · rintro e ⟨j, hj⟩
    obtain ⟨v, hv, hj⟩ := noPointsAt_key_iff.mp hj
    obtain ⟨e', he'⟩ := (hlist v hv).exists_error ⟨j, noPointsAt_cons_iff.mp hj⟩
    exact ⟨e', (hread e').mpr (member?_eq_error_iff.mpr ⟨v, hv, he'⟩)⟩

end Group

/-! ## Scorecards -/

namespace Scorecard

/-- The members of an object describe a scorecard, whether that is valid or not. -/
structure WrittenIn (members : List (String × Json)) (card : Scorecard) : Prop where
  known : ∀ member ∈ members, member.1 ∈
    ["scoreCardId", "name", "description", "maxScore", "createdAt", "updatedAt", "fields"]
  id : members.lookup "scoreCardId" = some (.text card.id)
  id_ne : card.id ≠ ""
  name : members.lookup "name" = some (.text card.name)
  name_ne : card.name ≠ ""
  description : members.lookup "description" = card.description.map .text
  maxScore : members.lookup "maxScore" = some (.ofPoints card.maxScore)
  maxScore_pos : 0 < card.maxScore.value
  createdAt : Option.Rel IsInstant (members.lookup "createdAt") card.createdAt
  updatedAt : Option.Rel IsInstant (members.lookup "updatedAt") card.updatedAt
  groups : ∃ items, members.lookup "fields" = some (.list items) ∧
    List.Forall₂ Group.Written items card.groups

def Written (document : Json) (card : Scorecard) : Prop :=
  ∃ members, document = .object members ∧ WrittenIn members card

theorem ofPart_eq_ok_iff {members : List (String × Json)} {card : Scorecard} :
    ofPart (.object members) = .ok card ↔
      Option.Rel IsInstant (members.lookup "createdAt") card.createdAt ∧
      members.lookup "description" = card.description.map .text ∧
      ((members.lookup "fields" = none ∧ card.groups = []) ∨
        ∃ items, members.lookup "fields" = some (.list items) ∧
          List.Forall₂ (fun item group => Group.ofPart item = .ok group) items card.groups) ∧
      members.lookup "maxScore" = some (.ofPoints card.maxScore) ∧
      members.lookup "name" = some (.text card.name) ∧
      members.lookup "scoreCardId" = some (.text card.id) ∧
      Option.Rel IsInstant (members.lookup "updatedAt") card.updatedAt := by
  rw [← member?_asList_iff]
  obtain ⟨id, name, description, maxScore, groups, createdAt, updatedAt⟩ := card
  simp only [ofPart, bind_eq_ok_iff, pure_eq_ok_iff, member?_asText_eq_ok_iff,
    member?_asTimestamp_eq_ok_iff, member_eq_ok_iff, asText_eq_ok_iff, asPoints_eq_ok_iff,
    Scorecard.mk.injEq]
  constructor
  · rintro ⟨_, hcreated, _, hdescription, groups?, hgroups, _, ⟨_, hmax, rfl⟩, _, ⟨_, hname, rfl⟩,
      _, ⟨_, hid, rfl⟩, _, hupdated, rfl, rfl, rfl, rfl, hvalues, rfl, rfl⟩
    exact ⟨hcreated, hdescription, ⟨groups?, hgroups, hvalues⟩, hmax, hname, hid, hupdated⟩
  · rintro ⟨hcreated, hdescription, ⟨groups?, hgroups, hvalues⟩, hmax, hname, hid, hupdated⟩
    exact ⟨_, hcreated, _, hdescription, groups?, hgroups, _, ⟨_, hmax, rfl⟩, _, ⟨_, hname, rfl⟩,
      _, ⟨_, hid, rfl⟩, _, hupdated, rfl, rfl, rfl, rfl, hvalues, rfl, rfl⟩

theorem forall₂_written_iff {items : List Json} {groups : List Group} :
    List.Forall₂ Group.Written items groups ↔
      (∀ item ∈ items, Group.Shaped item) ∧
        List.Forall₂ (fun item group => Group.ofPart item = .ok group) items groups := by
  rw [← List.forall₂_and_left]
  simp only [← Group.written_iff]

theorem writtenIn_iff {members : List (String × Json)} {card : Scorecard} :
    WrittenIn members card ↔ ShapedIn members ∧ ofPart (.object members) = .ok card := by
  rw [ofPart_eq_ok_iff]
  have hpositive : ∀ a : Points, (Number.integer a.value).isPositive = true ↔ 0 < a.value := by
    simp [Number.isPositive]
  constructor
  · intro h
    obtain ⟨items, hitems, hgroups⟩ := h.groups
    obtain ⟨hshaped, hread⟩ := forall₂_written_iff.mp hgroups
    refine ⟨⟨h.known, ⟨_, h.id, h.id_ne⟩, ⟨_, h.name, h.name_ne⟩, ?_, ?_, ?_, ?_, ?_⟩,
      h.createdAt, h.description, .inr ⟨items, hitems, hread⟩, h.maxScore, h.name, h.id,
      h.updatedAt⟩
    · exact fun v hv => exists_text_of_eq_map h.description hv
    · exact ⟨_, h.maxScore, (hpositive _).mpr h.maxScore_pos, rfl⟩
    · exact fun v hv => exists_text_of_rel h.createdAt hv
    · exact fun v hv => exists_text_of_rel h.updatedAt hv
    · exact ⟨items, hitems, hshaped⟩
  · rintro ⟨h, hcreated, hdescription, hgroups, hmax, hname, hid, hupdated⟩
    obtain ⟨s, hs, hid_ne⟩ := h.id
    cases hid.symm.trans hs
    obtain ⟨t, ht, hname_ne⟩ := h.name
    cases hname.symm.trans ht
    obtain ⟨n, hn, hn_pos, _⟩ := h.maxScore
    cases hmax.symm.trans hn
    obtain ⟨items, hitems, hshaped⟩ := h.fields
    refine ⟨h.known, hid, hid_ne, hname, hname_ne, hdescription, hmax, (hpositive _).mp hn_pos,
      hcreated, hupdated, items, hitems, forall₂_written_iff.mpr ⟨hshaped, ?_⟩⟩
    rcases hgroups with ⟨hnone, _⟩ | ⟨items', hitems', hread⟩
    · cases hnone.symm.trans hitems
    · cases hitems.symm.trans hitems'
      exact hread

theorem written_iff {document : Json} {card : Scorecard} :
    Written document card ↔ Shaped document ∧ ofPart document = .ok card :=
  object_and_read_iff writtenIn_iff

/-- Why a well-shaped document cannot be read: the ceiling or the score of a rule is no score, or
the text of an instant is none. -/
inductive Unreadable (document : Json) : PartError → Prop where
  | maxScore {e : PartError} (h : NoPointsAt document [.key "maxScore"] e) : Unreadable document e
  | score {i j : Nat} {e : PartError}
      (h : NoPointsAt document [.key "fields", .index i, .key "rules", .index j, .key "score"] e) :
      Unreadable document e
  | instant {key s : String} {error : TimestampError} (hkey : key ∈ ["createdAt", "updatedAt"])
      (h : document.part? [.key key] = some (.text s)) (hread : Timestamp.read s = .error error) :
      Unreadable document (.timestamp error)

/-- An instant that may be left out is read unless its text is none. -/
theorem member?_asTimestamp_eq_error {members : List (String × Json)} {key : String}
    (hkey : key ∈ ["createdAt", "updatedAt"])
    (h : ∀ v, members.lookup key = some v → ∃ s, v = .text s) {e : PartError}
    (he : member? members key asTimestamp = .error e) : Unreadable (.object members) e := by
  obtain ⟨v, hv, he⟩ := member?_eq_error_iff.mp he
  obtain ⟨s, rfl⟩ := h v hv
  obtain ⟨error, hread, rfl⟩ := asTimestamp_text_eq_error_iff.mp he
  exact .instant hkey (by simp [part?, hv]) hread

theorem failsFor {document : Json} (h : Shaped document) :
    FailsFor ofPart Unreadable document := by
  obtain ⟨members, rfl, h⟩ := h
  obtain ⟨description, hdescription⟩ := exists_member?_asText h.description
  obtain ⟨name, hname, _⟩ := h.name
  obtain ⟨id, hid, _⟩ := h.id
  obtain ⟨n, hn, _, hwhole⟩ := h.maxScore
  obtain ⟨items, hitems, hshaped⟩ := h.fields
  have hname' : member members "name" asText = .ok name := member_eq_ok_iff.mpr ⟨_, hname, rfl⟩
  have hid' : member members "scoreCardId" asText = .ok id := member_eq_ok_iff.mpr ⟨_, hid, rfl⟩
  have hmax : member members "maxScore" asPoints = asPoints (.number n) := by
    rw [member, hn]
  have hgroups := FailsFor.asList fun item hi => Group.failsFor (hshaped item hi)
  refine ⟨?_, ?_⟩
  · intro e he
    have hfirst : member? members "createdAt" asTimestamp = .error e ∨
        member? members "fields" (asList Group.ofPart) = .error e ∨
        asPoints (.number n) = .error e ∨ member? members "updatedAt" asTimestamp = .error e := by
      simp only [ofPart, bind_eq_error_iff, hdescription, hname', hid', hmax, pure_ne_error] at he
      grind
    rcases hfirst with he | he | he | he
    · exact member?_asTimestamp_eq_error (by simp) h.createdAt he
    · obtain ⟨v, hv, he⟩ := member?_eq_error_iff.mp he
      cases hitems.symm.trans hv
      obtain ⟨i, w, hw, j, hj⟩ := hgroups.reason_of_error he
      exact .score (noPointsAt_key_iff.mpr ⟨_, hitems, noPointsAt_cons_iff.mpr ⟨w, hw, hj⟩⟩)
    · refine .maxScore (noPointsAt_key_iff.mpr ⟨_, hn, n, rfl, ?_⟩)
      exact (asPoints_eq_error_iff hwhole).mp he
    · exact member?_asTimestamp_eq_error (by simp) h.updatedAt he
  · intro e hreason
    cases hresult : ofPart (.object members) with
    | error e' => exact ⟨e', rfl⟩
    | ok card =>
        exfalso
        obtain ⟨hcreated, _, hlist, hpoints, _, _, hupdated⟩ := ofPart_eq_ok_iff.mp hresult
        cases hreason with
        | maxScore he =>
            obtain ⟨v, hv, n', hn', hno⟩ := noPointsAt_key_iff.mp he
            cases hpoints.symm.trans hv
            simp only [ofPoints, ofInt, part?, Option.some.injEq, Json.number.injEq] at hn'
            subst hn'
            exact not_noPoints card.maxScore e hno
        | score he =>
            obtain ⟨v, hv, he⟩ := noPointsAt_key_iff.mp he
            cases hitems.symm.trans hv
            obtain ⟨w, hw, he⟩ := noPointsAt_cons_iff.mp he
            obtain ⟨e', he'⟩ := hgroups.exists_error ⟨_, w, hw, _, he⟩
            obtain ⟨groups?, hgroups?, _⟩ := member?_asList_iff.mpr hlist
            cases hgroups?.symm.trans (member?_eq_error_iff.mpr ⟨_, hitems, he'⟩)
        | @instant key s error hkey hpart hread =>
            have hlookup : members.lookup key = some (.text s) := by simpa [part?] using hpart
            have hok : ∃ t, Timestamp.read s = .ok t := by
              simp only [List.mem_cons, List.not_mem_nil, or_false] at hkey
              rcases hkey with rfl | rfl
              · exact exists_read_eq_ok_of_rel (hlookup ▸ hcreated)
              · exact exists_read_eq_ok_of_rel (hlookup ▸ hupdated)
            obtain ⟨t, ht⟩ := hok
            cases hread.symm.trans ht

end Scorecard

end CreditScorecard
