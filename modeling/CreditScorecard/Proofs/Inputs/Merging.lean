import CreditScorecard.Inputs
import CreditScorecard.Proofs.Text.Digits
import CreditScorecard.Proofs.Text.Trim

/-! # Overriding inputs

Assignments override inputs one after the other, so the last one to name a field decides its text.
The first one that is malformed is reported, whatever was set before it.
-/

namespace CreditScorecard

namespace Inputs

/-! ## One assignment -/

/-- The text assigns a value to a field. What stands before its first `=` is the field, perhaps
between white space, and the value is all that follows. -/
inductive Assigns : String → String → String → Prop where
  | intro {before : String} (hfirst : '=' ∉ before.toList) (hfield : Text.blank before = false)
      (value : String) : Assigns (before ++ "=" ++ value) (Text.trim before) value

/-- The text is no assignment, with what is reported of it. -/
inductive Unassigned : String → InputsError → Prop where
  | noEquals {text : String} (h : '=' ∉ text.toList) : Unassigned text (.noEquals text)
  | noField {before : String} (hfirst : '=' ∉ before.toList) (hblank : Text.blank before = true)
      (value : String) :
      Unassigned (before ++ "=" ++ value) (.noField (before ++ "=" ++ value))

theorem forall_ne_of_not_mem {c : Char} {cs : List Char} (h : c ∉ cs) :
    ∀ d ∈ cs, (d != c) = true := by
  intro d hd
  rw [bne_iff_ne]
  rintro rfl
  exact h hd

theorem readAssignment_of_not_mem {text : String} (h : '=' ∉ text.toList) :
    readAssignment text = .error (.noEquals text) := by
  have hdrop : text.toList.dropWhile (· != '=') = [] :=
    List.dropWhile_eq_nil_iff.mpr (forall_ne_of_not_mem h)
  rw [readAssignment, hdrop]

theorem readAssignment_append {before : String} (hfirst : '=' ∉ before.toList) (value : String) :
    readAssignment (before ++ "=" ++ value) =
      if Text.blank before then .error (.noField (before ++ "=" ++ value))
      else .ok (Text.trim before, value) := by
  have htext : (before ++ "=" ++ value).toList = before.toList ++ '=' :: value.toList := by simp
  have hbefore := forall_ne_of_not_mem hfirst
  have hstops : Text.Stops (· != '=') ('=' :: value.toList) := by simp
  have hblank : (Text.trimChars before.toList).isEmpty = Text.blank before := by
    rw [Bool.eq_iff_iff, List.isEmpty_iff, Text.trimChars_eq_nil_iff, Text.blank, List.all_eq_true]
  simp only [readAssignment, htext, Text.takeWhile_append_of_stops hbefore hstops,
    Text.dropWhile_append_of_stops hbefore hstops, hblank, String.ofList_toList]
  rfl

theorem Assigns.readAssignment_eq {text field value : String} (h : Assigns text field value) :
    readAssignment text = .ok (field, value) := by
  cases h with
  | intro hfirst hfield => rw [readAssignment_append hfirst, hfield, if_neg Bool.false_ne_true]

theorem Unassigned.readAssignment_eq {text : String} {error : InputsError}
    (h : Unassigned text error) : readAssignment text = .error error := by
  cases h with
  | noEquals h => exact readAssignment_of_not_mem h
  | noField hfirst hblank => rw [readAssignment_append hfirst, hblank, if_pos rfl]

/-- Every text is an assignment or none. -/
theorem assigns_or_unassigned (text : String) :
    (∃ field value, Assigns text field value) ∨ ∃ error, Unassigned text error := by
  by_cases hequals : '=' ∈ text.toList
  · obtain ⟨before, value, htext, hfirst⟩ := List.eq_append_cons_of_mem hequals
    have hsplit : text = String.ofList before ++ "=" ++ String.ofList value := by
      rw [← String.toList_inj, htext]
      simp
    have hbefore : '=' ∉ (String.ofList before).toList := by
      rwa [String.toList_ofList]
    rw [hsplit]
    cases hblank : Text.blank (String.ofList before) with
    | false => exact .inl ⟨_, _, .intro hbefore hblank _⟩
    | true => exact .inr ⟨_, .noField hbefore hblank _⟩
  · exact .inr ⟨_, .noEquals hequals⟩

theorem readAssignment_eq_ok_iff {text field value : String} :
    readAssignment text = .ok (field, value) ↔ Assigns text field value := by
  refine ⟨fun h => ?_, Assigns.readAssignment_eq⟩
  rcases assigns_or_unassigned text with ⟨_, _, hassigns⟩ | ⟨_, hunassigned⟩
  · rw [hassigns.readAssignment_eq] at h
    cases h
    exact hassigns
  · rw [hunassigned.readAssignment_eq] at h
    cases h

/-- A text assigns one value to one field. -/
theorem Assigns.unique {text field value field' value' : String} (h : Assigns text field value)
    (h' : Assigns text field' value') : field' = field ∧ value' = value := by
  have hread := h.readAssignment_eq
  rw [h'.readAssignment_eq] at hread
  cases hread
  exact ⟨rfl, rfl⟩

theorem Unassigned.unique {text : String} {error other : InputsError} (h : Unassigned text error)
    (h' : Unassigned text other) : other = error := by
  have hread := h.readAssignment_eq
  rw [h'.readAssignment_eq] at hread
  cases hread
  rfl

theorem Assigns.not_unassigned {text field value : String} (h : Assigns text field value)
    {error : InputsError} : ¬Unassigned text error := by
  intro hunassigned
  have hread := h.readAssignment_eq
  rw [hunassigned.readAssignment_eq] at hread
  cases hread

/-! ## Assignments in order -/

/-- Some of the texts names the field. -/
def Names (texts : List String) (field : String) : Prop :=
  ∃ text ∈ texts, ∃ value, Assigns text field value

/-- The last of the texts that name the field assigns the value to it. -/
inductive LastAssigns (field value : String) : List String → Prop where
  | here {text : String} {texts : List String} (h : Assigns text field value)
      (hlater : ¬Names texts field) : LastAssigns field value (text :: texts)
  | later {text : String} {texts : List String} (h : LastAssigns field value texts) :
      LastAssigns field value (text :: texts)

/-- The first of the texts that is no assignment is reported by the error. -/
inductive FirstUnassigned (error : InputsError) : List String → Prop where
  | here {text : String} {texts : List String} (h : Unassigned text error) :
      FirstUnassigned error (text :: texts)
  | later {text field value : String} {texts : List String} (h : Assigns text field value)
      (hlater : FirstUnassigned error texts) : FirstUnassigned error (text :: texts)

variable {base merged : Inputs} {text field value : String} {texts : List String}
  {error : InputsError}

theorem merge_cons_of_assigns (h : Assigns text field value) :
    base.merge (text :: texts) = (base.insert field value).merge texts := by
  rw [merge, h.readAssignment_eq]
  rfl

theorem merge_cons_of_unassigned (h : Unassigned text error) :
    base.merge (text :: texts) = .error error := by
  rw [merge, h.readAssignment_eq]
  rfl

theorem exists_assigns_of_merge_cons_eq_ok (h : base.merge (text :: texts) = .ok merged) :
    ∃ field value, Assigns text field value ∧
      (base.insert field value).merge texts = .ok merged := by
  rcases assigns_or_unassigned text with ⟨field, value, hassigns⟩ | ⟨error, hunassigned⟩
  · rw [merge_cons_of_assigns hassigns] at h
    exact ⟨field, value, hassigns, h⟩
  · rw [merge_cons_of_unassigned hunassigned] at h
    cases h

/-- Whether assignments can be merged depends on each of them, not on what they override. -/
theorem exists_merge_iff :
    (∃ merged, base.merge texts = .ok merged) ↔
      ∀ text ∈ texts, ∃ field value, Assigns text field value := by
  induction texts generalizing base with
  | nil => simp [merge]
  | cons text texts ih =>
      rw [List.forall_mem_cons]
      rcases assigns_or_unassigned text with ⟨field, value, hassigns⟩ | ⟨error, hunassigned⟩
      · rw [merge_cons_of_assigns hassigns, ih, and_iff_right ⟨field, value, hassigns⟩]
      · rw [merge_cons_of_unassigned hunassigned]
        constructor
        · simp
        · rintro ⟨⟨_, _, hassigns⟩, -⟩
          exact absurd hunassigned hassigns.not_unassigned

theorem merge_eq_error_iff :
    base.merge texts = .error error ↔ FirstUnassigned error texts := by
  induction texts generalizing base with
  | nil => exact iff_of_false nofun nofun
  | cons text texts ih =>
      rcases assigns_or_unassigned text with ⟨field, value, hassigns⟩ | ⟨other, hunassigned⟩
      · rw [merge_cons_of_assigns hassigns, ih]
        constructor
        · exact .later hassigns
        · intro h
          cases h with
          | here hunassigned => exact absurd hunassigned hassigns.not_unassigned
          | later _ hlater => exact hlater
      · rw [merge_cons_of_unassigned hunassigned]
        constructor
        · intro h
          cases h
          exact .here hunassigned
        · intro h
          cases h with
          | here h => rw [h.unique hunassigned]
          | later hassigns => exact absurd hunassigned hassigns.not_unassigned

theorem merge_append (base : Inputs) (texts others : List String) :
    base.merge (texts ++ others) = base.merge texts >>= (·.merge others) := by
  induction texts generalizing base with
  | nil => rfl
  | cons text texts ih =>
      rw [List.cons_append]
      rcases assigns_or_unassigned text with ⟨field, value, hassigns⟩ | ⟨error, hunassigned⟩
      · rw [merge_cons_of_assigns hassigns, merge_cons_of_assigns hassigns, ih]
      · rw [merge_cons_of_unassigned hunassigned, merge_cons_of_unassigned hunassigned]
        rfl

/-! ## What is merged -/

theorem names_cons_iff {name : String} (h : Assigns text field value) :
    Names (text :: texts) name ↔ name = field ∨ Names texts name := by
  simp only [Names, List.mem_cons, exists_eq_or_imp]
  constructor
  · rintro (⟨_, hassigns⟩ | hnames)
    · exact .inl (h.unique hassigns).1
    · exact .inr hnames
  · rintro (rfl | hnames)
    · exact .inl ⟨value, h⟩
    · exact .inr hnames

theorem lastAssigns_cons_iff {name last : String} (h : Assigns text field value) :
    LastAssigns name last (text :: texts) ↔
      LastAssigns name last texts ∨ (name = field ∧ last = value ∧ ¬Names texts name) := by
  constructor
  · intro hlast
    cases hlast with
    | here hassigns hlater => exact .inr ⟨(h.unique hassigns).1, (h.unique hassigns).2, hlater⟩
    | later hlast => exact .inl hlast
  · rintro (hlast | ⟨rfl, rfl, hlater⟩)
    · exact .later hlast
    · exact .here h hlater

/-- A field has the value that the last text to name it assigns, and its former text where no text
names it. -/
theorem get?_merge_eq_some_iff (h : base.merge texts = .ok merged) {name last : String} :
    merged.get? name = some last ↔
      LastAssigns name last texts ∨ (¬Names texts name ∧ base.get? name = some last) := by
  induction texts generalizing base with
  | nil =>
      cases h
      simp [Names, show ¬LastAssigns name last [] from nofun]
  | cons text texts ih =>
      obtain ⟨field, value, hassigns, hmerge⟩ := exists_assigns_of_merge_cons_eq_ok h
      rw [ih hmerge, get?_insert, lastAssigns_cons_iff hassigns, names_cons_iff hassigns]
      by_cases hname : name = field
      -- the text itself counts where no later one names the field
      · grind
      · simp [hname]

theorem mem_keys_put {name : String} {entries : List (String × String)} :
    name ∈ (put field value entries).map (·.1) ↔ name = field ∨ name ∈ entries.map (·.1) := by
  induction entries with
  | nil => simp [put]
  | cons entry rest ih =>
      rw [put]
      split
      · simp [*]
      · rw [List.map_cons, List.mem_cons, ih, List.map_cons, List.mem_cons]
        exact or_left_comm

theorem mem_keys_merge_iff (h : base.merge texts = .ok merged) {name : String} :
    name ∈ merged.entries.map (·.1) ↔ Names texts name ∨ name ∈ base.entries.map (·.1) := by
  induction texts generalizing base with
  | nil =>
      cases h
      simp [Names]
  | cons text texts ih =>
      obtain ⟨field, value, hassigns, hmerge⟩ := exists_assigns_of_merge_cons_eq_ok h
      rw [ih hmerge, insert, mem_keys_put, names_cons_iff hassigns, or_left_comm, or_assoc]

/-- What comes of inputs that are overridden by assignments. -/
structure MergeLaws (base : Inputs) (texts : List String) : Prop where
  succeeds : (∃ merged, base.merge texts = .ok merged) ↔
    ∀ text ∈ texts, ∃ field value, Assigns text field value
  fails : ∀ error, base.merge texts = .error error ↔ FirstUnassigned error texts
  value : ∀ merged, base.merge texts = .ok merged → ∀ field value,
    merged.get? field = some value ↔
      LastAssigns field value texts ∨ (¬Names texts field ∧ base.get? field = some value)
  keys : ∀ merged, base.merge texts = .ok merged → ∀ field,
    field ∈ merged.entries.map (·.1) ↔ Names texts field ∨ field ∈ base.entries.map (·.1)
  append : ∀ others, base.merge (texts ++ others) = base.merge texts >>= (·.merge others)

/-- Merging is decided text by text, from left to right, and the last text to name a field wins. A
trimmed field and any value are read back from the text that joins them. -/
theorem merge_lastWins (base : Inputs) (texts : List String) :
    MergeLaws base texts ∧
    ∀ field value, Text.blank field = false → Text.trim field = field → '=' ∉ field.toList →
      readAssignment (field ++ "=" ++ value) = .ok (field, value) := by
  refine ⟨⟨exists_merge_iff, fun _ => merge_eq_error_iff, fun _ h _ _ => get?_merge_eq_some_iff h,
    fun _ h _ => mem_keys_merge_iff h, merge_append base texts⟩, ?_⟩
  intro field value hblank htrimmed hfirst
  have hassigns : Assigns (field ++ "=" ++ value) (Text.trim field) value :=
    .intro hfirst hblank value
  rw [hassigns.readAssignment_eq, htrimmed]

/-- The field is set twice, the second time with an `=` in the value. -/
example : (empty.merge ["age=25", " age =3=1"]).toOption.bind (·.get? "age") = some "3=1" := by
  decide +kernel

end Inputs

end CreditScorecard
