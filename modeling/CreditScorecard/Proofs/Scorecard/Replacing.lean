import CreditScorecard.Proofs.Scorecard.Validity
import CreditScorecard.Scorecard.Edit

/-! # Replacing all groups

Replacing takes effect at once or not at all. While the new groups are filled and validated they
stand in the scorecard, valid or not; where they have a defect, the first one is reported and the
former groups stand again, whether those were valid or not.
-/

namespace CreditScorecard

/-! ## The first defect -/

/-- What is wrong with a group that stands at an index after groups of the given fields: its field
is blank, or else it is taken, or else the first rule that names another field is misplaced. -/
inductive Group.HasDefect (group : Group) (index : Nat) (earlier : List String) :
    Defect → Prop where
  | blank (h : Text.blank group.field = true) :
      group.HasDefect index earlier (.missing ("fields[" ++ Nat.repr index ++ "].field"))
  | duplicate (hblank : Text.blank group.field = false) (h : group.field ∈ earlier) :
      group.HasDefect index earlier (.duplicateField group.field)
  | misplaced {before : List Rule} {rule : Rule} {after : List Rule}
      (hblank : Text.blank group.field = false) (hnew : group.field ∉ earlier)
      (hrules : group.rules = before ++ rule :: after)
      (hbefore : ∀ r ∈ before, r.field = group.field) (h : rule.field ≠ group.field) :
      group.HasDefect index earlier (.misplacedRule rule.field group.field)

namespace Group

theorem defect?_eq_some_iff {group : Group} {index : Nat} {earlier : List String}
    {defect : Defect} :
    group.defect? index earlier = some defect ↔ group.HasDefect index earlier defect := by
  constructor
  · intro h
    unfold defect? at h
    split at h
    case isTrue hblank =>
      cases h
      exact .blank hblank
    case isFalse hblank =>
      rw [Bool.not_eq_true] at hblank
      split at h
      case isTrue hmem =>
        cases h
        exact .duplicate hblank (List.contains_iff_mem.mp hmem)
      case isFalse hmem =>
        obtain ⟨rule, hfind, rfl⟩ := Option.map_eq_some_iff.mp h
        obtain ⟨hrule, before, after, hrules, hbefore⟩ := List.find?_eq_some_iff_append.mp hfind
        exact .misplaced hblank (fun h => hmem (List.contains_iff_mem.mpr h)) hrules
          (by simpa using hbefore) (by simpa using hrule)
  · intro h
    cases h with
    | blank h => simp [defect?, h]
    | duplicate hblank h => simp [defect?, hblank, h]
    | @misplaced before rule after hblank hnew hrules hbefore h =>
        have hfind : group.rules.find? (·.field != group.field) = some rule := by
          apply List.find?_eq_some_iff_append.mpr
          exact ⟨by simpa using h, before, after, hrules, by simpa using hbefore⟩
        simp [defect?, hblank, hnew, hfind]

theorem firstDefect?_cons (earlier : List String) (group : Group) (groups : List Group) :
    firstDefect? earlier (group :: groups) =
      (group.defect? earlier.length earlier).or
        (firstDefect? (earlier ++ [group.field]) groups) := by
  rw [firstDefect?]
  cases group.defect? earlier.length earlier <;> rfl

/-- Of a list of groups the first one with a defect counts. -/
theorem firstDefect?_eq_some_iff {earlier : List String} {groups : List Group}
    {defect : Defect} :
    firstDefect? earlier groups = some defect ↔
      ∃ before group after, groups = before ++ group :: after ∧
        firstDefect? earlier before = none ∧
        group.HasDefect (earlier.length + before.length) (earlier ++ before.map (·.field))
          defect := by
  induction groups generalizing earlier with
  | nil => simp [firstDefect?]
  | cons first rest ih =>
      rw [firstDefect?_cons, Option.or_eq_some_iff, ih, defect?_eq_some_iff]
      constructor
      · rintro (hfirst | ⟨hnone, before, group, after, rfl, hbefore, hgroup⟩)
        · exact ⟨[], first, rest, rfl, rfl, by simpa using hfirst⟩
        · refine ⟨first :: before, group, after, rfl, ?_, ?_⟩
          · rw [firstDefect?_cons, hnone, hbefore]
            rfl
          · simpa [Nat.add_assoc, Nat.add_comm 1] using hgroup
      · rintro ⟨before, group, after, hsplit, hbefore, hgroup⟩
        cases before with
        | nil =>
            obtain ⟨rfl, rfl⟩ := List.cons.inj hsplit
            exact .inl (by simpa using hgroup)
        | cons head tail =>
            obtain ⟨rfl, rfl⟩ := List.cons.inj hsplit
            rw [firstDefect?_cons, Option.or_eq_none_iff] at hbefore
            refine .inr ⟨hbefore.1, tail, group, after, rfl, hbefore.2, ?_⟩
            simpa [Nat.add_assoc, Nat.add_comm 1] using hgroup

end Group

namespace Scorecard

/-- The first defect of a scorecard, in the order id, name, ceiling, then group by group. The groups
before a defective one are those of a valid scorecard. -/
inductive FirstDefect (card : Scorecard) : Defect → Prop where
  | id (h : Text.blank card.id = true) : card.FirstDefect (.missing "scoreCardId")
  | name (hid : Text.blank card.id = false) (h : Text.blank card.name = true) :
      card.FirstDefect (.missing "name")
  | ceiling (hid : Text.blank card.id = false) (hname : Text.blank card.name = false)
      (h : card.maxScore.value ≤ 0) : card.FirstDefect (.ceilingNotPositive card.maxScore)
  | group {before : List Group} {group : Group} {after : List Group} {defect : Defect}
      (hgroups : card.groups = before ++ group :: after)
      (hbefore : { card with groups := before }.Valid)
      (h : group.HasDefect before.length (before.map (·.field)) defect) :
      card.FirstDefect defect

theorem valid_withGroups_iff {card : Scorecard} {groups : List Group} :
    { card with groups := groups }.Valid ↔
      Text.blank card.id = false ∧ Text.blank card.name = false ∧ 0 < card.maxScore.value ∧
        Group.firstDefect? [] groups = none := by
  rw [← validate_eq_ok_iff_valid, validate_eq_ok_iff, defect?]
  grind

theorem validate_eq_error_iff {card : Scorecard} {defect : Defect} :
    card.validate = .error defect ↔ card.FirstDefect defect := by
  have hsome : card.validate = .error defect ↔ card.defect? = some defect := by
    unfold validate
    split <;> simp_all
  rw [hsome]
  constructor
  · intro h
    unfold defect? at h
    split at h
    case isTrue hid =>
      cases h
      exact .id hid
    case isFalse hid =>
      rw [Bool.not_eq_true] at hid
      split at h
      case isTrue hname =>
        cases h
        exact .name hid hname
      case isFalse hname =>
        rw [Bool.not_eq_true] at hname
        split at h
        case isTrue hceiling =>
          cases h
          exact .ceiling hid hname hceiling
        case isFalse hceiling =>
          obtain ⟨before, group, after, hgroups, hbefore, hgroup⟩ :=
            Group.firstDefect?_eq_some_iff.mp h
          apply FirstDefect.group hgroups
          · exact valid_withGroups_iff.mpr ⟨hid, hname, Int.not_le.mp hceiling, hbefore⟩
          · simpa using hgroup
  · intro h
    cases h with
    | id h => simp [defect?, h]
    | name hid h => simp [defect?, hid, h]
    | ceiling hid hname h => simp [defect?, hid, hname, h]
    | @group before group after _ hgroups hbefore h =>
        obtain ⟨hid, hname, hceiling, hnone⟩ := valid_withGroups_iff.mp hbefore
        have hfirst : Group.firstDefect? [] card.groups = some defect :=
          Group.firstDefect?_eq_some_iff.mpr
            ⟨before, group, after, hgroups, hnone, by simpa using h⟩
        simp [defect?, hid, hname, Int.not_le.mpr hceiling, hfirst]

/-! ## Replacing in place -/

/-- A rule that names no field, put on a field; any other rule stays as it is. -/
def fillRule (field : String) (rule : Rule) : Rule :=
  if rule.field = "" then { rule with field := field } else rule

theorem fillRule_fillRule (field : String) (rule : Rule) :
    fillRule field (fillRule field rule) = fillRule field rule := by
  by_cases h : rule.field = ""
  · simp [fillRule, h]
  · simp [fillRule, h]

/-- The scorecard with all groups replaced, valid or not. A rule that names no field has been given
the field of its group. -/
def candidate (card : Scorecard) (groups : List Group) : Scorecard :=
  { card with
    groups := groups.map fun group =>
      { group with rules := group.rules.map (fillRule group.field) } }

theorem fillRules_withGroups (card : Scorecard) (groups : List Group) :
    fillRules { card with groups := groups } = card.candidate groups := by
  have hgroup : Group.fillRules = fun group : Group =>
      { group with rules := group.rules.map (fillRule group.field) } := by
    funext group
    simp only [Group.fillRules, String.isEmpty_iff]
    rfl
  rw [fillRules, hgroup, candidate]

/-- Once the rules are filled there is nothing more to fill. -/
theorem candidate_groups_candidate (card : Scorecard) (groups : List Group) :
    (card.candidate groups).candidate (card.candidate groups).groups = card.candidate groups := by
  simp only [candidate, List.map_map, Function.comp_def, fillRule_fillRule]

theorem applyTo_normalizeInPlace (card : Scorecard) :
    normalizeInPlace.applyTo card = (card.fillRules.validate, card.fillRules) := by
  have hlift : normalizeInPlace.applyTo card =
      ((MonadExcept.ofExcept card.fillRules.validate : Change Unit)).applyTo card.fillRules := rfl
  rw [hlift]
  cases card.fillRules.validate with
  | error defect => rfl
  | ok => rfl

theorem Change.applyTo_tryCatch {α : Type} (change : Change α) (handler : Defect → Change α)
    (card : Scorecard) :
    Change.applyTo (tryCatch change handler) card =
      match change.applyTo card with
      | (.ok a, next) => (.ok a, next)
      | (.error defect, next) => (handler defect).applyTo next := by
  cases h : change.applyTo card with
  | mk result next =>
      have hrun : StateT.run change card = (result, next) := h
      simp only [Change.applyTo, tryCatch, tryCatchThe, MonadExceptOf.tryCatch, ExceptT.tryCatch,
        ExceptT.run_mk, StateT.run_bind, hrun]
      cases result with
      | error defect => rfl
      | ok a => rfl

theorem applyTo_replaceInPlace (card : Scorecard) (groups : List Group) :
    (replaceInPlace groups).applyTo card =
      match (card.candidate groups).validate with
      | .ok () => (.ok (), card.candidate groups)
      | .error defect => (.error defect, card) := by
  have hstep : (replaceInPlace groups).applyTo card =
      Change.applyTo (tryCatch normalizeInPlace fun defect => do
        modify fun next => { next with groups := card.groups }
        throw defect) { card with groups := groups } := rfl
  rw [hstep, Change.applyTo_tryCatch, applyTo_normalizeInPlace, fillRules_withGroups]
  cases (card.candidate groups).validate with
  | error defect => rfl
  | ok => rfl

/-- What comes of replacing all groups of a scorecard in place. Either the candidate is valid: then
it stands, and its own groups replace it by itself. Or its first defect is reported, and the
scorecard stands as before in every part. -/
structure Replaces (card : Scorecard) (groups : List Group) : Prop where
  replaced : (card.candidate groups).validate = .ok () →
    (replaceInPlace groups).applyTo card = (.ok (), card.candidate groups) ∧
      (replaceInPlace (card.candidate groups).groups).applyTo (card.candidate groups) =
        (.ok (), card.candidate groups)
  kept : ∀ defect, (card.candidate groups).validate = .error defect →
    (replaceInPlace groups).applyTo card = (.error defect, card)
  valid : (card.candidate groups).validate = .ok () ↔ (card.candidate groups).Valid
  first : ∀ defect, (card.candidate groups).validate = .error defect ↔
    (card.candidate groups).FirstDefect defect
  /-- In place the groups are replaced as they are in a copy. -/
  copied : (replaceInPlace groups).applyTo card =
    match card.replaceGroups groups with
    | .ok next => (.ok (), next)
    | .error defect => (.error defect, card)

/-- Replacing all groups is atomic and idempotent, for every scorecard and all lists of groups. -/
theorem replaces (card : Scorecard) (groups : List Group) : card.Replaces groups where
  replaced := by
    intro h
    constructor
    · rw [applyTo_replaceInPlace, h]
    · rw [applyTo_replaceInPlace, candidate_groups_candidate, h]
  kept := by
    intro defect h
    rw [applyTo_replaceInPlace, h]
  valid := validate_eq_ok_iff_valid
  first _ := validate_eq_error_iff
  copied := by
    rw [applyTo_replaceInPlace, replaceGroups, normalize, fillRules_withGroups]
    cases (card.candidate groups).validate with
    | error defect => rfl
    | ok => rfl

end Scorecard

end CreditScorecard
