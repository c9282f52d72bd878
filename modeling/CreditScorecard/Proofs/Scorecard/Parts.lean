import CreditScorecard.Proofs.Scorecard.Shape
import Mathlib.Data.List.Forall2

/-! # Parts of a scorecard document

What each reader of a part takes, and which faults it can report once the schema has accepted the
part: only numbers that are no scores and texts that are no instants are left.
-/

namespace CreditScorecard

/-! ## Reading in sequence -/

theorem bind_eq_ok_iff {ε α β : Type} {x : Except ε α} {f : α → Except ε β} {b : β} :
    (x >>= f) = .ok b ↔ ∃ a, x = .ok a ∧ f a = .ok b := by
  cases x <;> simp [bind, Except.bind]

theorem bind_eq_error_iff {ε α β : Type} {x : Except ε α} {f : α → Except ε β} {e : ε} :
    (x >>= f) = .error e ↔ x = .error e ∨ ∃ a, x = .ok a ∧ f a = .error e := by
  cases x <;> simp [bind, Except.bind]

theorem pure_eq_ok_iff {ε α : Type} {a b : α} : (pure a : Except ε α) = .ok b ↔ a = b := by
  simp [pure, Except.pure]

theorem pure_ne_error {ε α : Type} {a : α} {e : ε} : (pure a : Except ε α) ≠ .error e := by
  simp [pure, Except.pure]

theorem map_eq_ok_iff {ε α β : Type} {x : Except ε α} {f : α → β} {b : β} :
    x.map f = .ok b ↔ ∃ a, x = .ok a ∧ f a = b := by
  cases x <;> simp [Except.map]

theorem map_eq_error_iff {ε α β : Type} {x : Except ε α} {f : α → β} {e : ε} :
    x.map f = .error e ↔ x = .error e := by
  cases x <;> simp [Except.map]

theorem mapM_eq_ok_iff {ε α β : Type} {f : α → Except ε β} {items : List α} {values : List β} :
    items.mapM f = .ok values ↔ List.Forall₂ (fun a b => f a = .ok b) items values := by
  induction items generalizing values with
  | nil => simp [pure, Except.pure, eq_comm]
  | cons item items ih =>
      simp only [List.mapM_cons, bind_eq_ok_iff, pure_eq_ok_iff, ih,
        List.forall₂_cons_left_iff]
      constructor
      · rintro ⟨b, hb, bs, hbs, rfl⟩
        exact ⟨b, bs, hb, hbs, rfl⟩
      · rintro ⟨b, bs, hb, hbs, rfl⟩
        exact ⟨b, hb, bs, hbs, rfl⟩

/-- A list cannot be read because one of its items cannot. -/
theorem exists_of_mapM_eq_error {ε α β : Type} {f : α → Except ε β} {items : List α} {e : ε}
    (h : items.mapM f = .error e) :
    ∃ (i : Nat) (item : α), items[i]? = some item ∧ f item = .error e := by
  induction items with
  | nil => exact absurd h pure_ne_error
  | cons item items ih =>
      simp only [List.mapM_cons, bind_eq_error_iff] at h
      rcases h with h | ⟨_, _, h | ⟨_, _, h⟩⟩
      · exact ⟨0, item, rfl, h⟩
      · obtain ⟨i, item', hi, hitem'⟩ := ih h
        exact ⟨i + 1, item', hi, hitem'⟩
      · exact absurd h pure_ne_error

theorem exists_mapM_eq_error {ε α β : Type} {f : α → Except ε β} {items : List α} {item : α}
    (hmem : item ∈ items) (h : ∃ e, f item = .error e) : ∃ e, items.mapM f = .error e := by
  induction items with
  | nil => exact absurd hmem (by simp)
  | cons first rest ih =>
      simp only [List.mapM_cons, bind_eq_error_iff]
      rcases List.mem_cons.mp hmem with rfl | hrest
      · exact h.imp fun _ he => .inl he
      · obtain ⟨e, he⟩ := ih hrest
        cases hfirst : f first with
        | error e' => exact ⟨e', .inl rfl⟩
        | ok b => exact ⟨e, .inr ⟨b, rfl, .inl he⟩⟩

namespace Json

/-! ## Single parts -/

theorem asText_eq_ok_iff {v : Json} {s : String} : asText v = .ok s ↔ v = .text s := by
  cases v <;> simp [asText]

theorem asPoints_eq_ok_iff {v : Json} {a : Points} : asPoints v = .ok a ↔ v = .ofPoints a := by
  cases v with
  | number n =>
      cases n with
      | integer k =>
          have hread : asPoints (.number (.integer k)) = .ok a ↔ Points.ofInt? k = some a := by
            cases hk : Points.ofInt? k <;> simp [asPoints, hk]
          rw [hread, Points.ofInt?_eq_some_iff]
          simp [ofPoints, ofInt, eq_comm]
      | real x finite => simp [asPoints, ofPoints, ofInt]
  | _ => simp [asPoints, ofPoints, ofInt]

/-- A whole number that is no score, and what is said of it. -/
inductive NoPoints : Number → PartError → Prop where
  | real {x : Binary64} {finite : x.isFinite = true} (h : (Number.real x finite).isWhole = true) :
      NoPoints (.real x finite) (.fractional x)
  | integer {k : Int} (h : k < -0x8000000000000000 ∨ 0x7FFFFFFFFFFFFFFF < k) :
      NoPoints (.integer k) (.tooLarge k)

theorem not_noPoints (a : Points) (e : PartError) : ¬NoPoints (.integer a.value) e := by
  rintro (_ | hrange)
  have := a.least_le
  have := a.le_most
  omega

theorem asPoints_eq_error_iff {n : Number} (h : n.isWhole = true) {e : PartError} :
    asPoints (.number n) = .error e ↔ NoPoints n e := by
  constructor
  · intro he
    cases n with
    | integer k =>
        have hk : Points.ofInt? k = none := by
          cases hk : Points.ofInt? k with
          | none => rfl
          | some a => simp [asPoints, hk] at he
        have hrange : k < -0x8000000000000000 ∨ 0x7FFFFFFFFFFFFFFF < k := by
          apply Classical.byContradiction
          intro hrange
          simp only [Points.ofInt?] at hk
          rw [dif_pos (by omega)] at hk
          cases hk
        simp only [asPoints, hk, Except.error.injEq] at he
        subst he
        exact .integer hrange
    | real x finite =>
        cases he
        exact .real h
  · rintro (_ | hk)
    · rfl
    · rw [asPoints, Points.ofInt?, dif_neg (by omega)]

/-- The text of an instant. -/
def IsInstant (v : Json) (t : Timestamp) : Prop :=
  ∃ s, v = .text s ∧ Timestamp.read s = .ok t

theorem asTimestamp_eq_ok_iff {v : Json} {t : Timestamp} :
    asTimestamp v = .ok t ↔ IsInstant v t := by
  unfold IsInstant
  cases v with
  | text s =>
      cases hread : Timestamp.read s <;> simp [asTimestamp, hread, Except.mapError]
  | _ => simp [asTimestamp]

theorem asTimestamp_text_eq_error_iff {s : String} {e : PartError} :
    asTimestamp (.text s) = .error e ↔
      ∃ error, Timestamp.read s = .error error ∧ e = .timestamp error := by
  cases hread : Timestamp.read s <;> simp [asTimestamp, hread, Except.mapError, eq_comm]

theorem asOperator_eq_ok_iff {v : Json} {operator : Operator} :
    asOperator v = .ok operator ↔ ∃ s, v = .text s ∧ Operator.ofSymbol? s = some operator := by
  cases v with
  | text s => cases hsymbol : Operator.ofSymbol? s <;> simp [asOperator, hsymbol]
  | _ => simp [asOperator]

theorem ofSymbol?_symbol (operator : Operator) :
    Operator.ofSymbol? operator.symbol = some operator := by
  cases operator <;> rfl

theorem asOperator_symbol (operator : Operator) :
    asOperator (.text operator.symbol) = .ok operator :=
  asOperator_eq_ok_iff.mpr ⟨_, rfl, ofSymbol?_symbol operator⟩

theorem asLiteral_eq_ok_iff {v : Json} {s : String} : asLiteral v = .ok s ↔ IsLiteral v s := by
  constructor
  · intro h
    cases v <;> simp only [asLiteral, Except.ok.injEq, reduceCtorEq] at h <;> subst h
    · exact .boolean _
    · exact .number _
    · exact .text _
  · rintro (_ | _ | _) <;> rfl

theorem asList_eq_ok_iff {α : Type} {part : Part α} {v : Json} {values : List α} :
    asList part v = .ok values ↔
      ∃ items, v = .list items ∧ List.Forall₂ (fun a b => part a = .ok b) items values := by
  cases v <;> simp [asList, mapM_eq_ok_iff]

theorem member?_eq_ok_iff {α : Type} {part : Part α} {members : List (String × Json)}
    {key : String} {value? : Option α} :
    member? members key part = .ok value? ↔
      Option.Rel (fun v a => part v = .ok a) (members.lookup key) value? := by
  unfold member?
  cases members.lookup key with
  | none => cases value? <;> simp
  | some v => cases value? <;> simp [map_eq_ok_iff]

theorem member?_eq_error_iff {α : Type} {part : Part α} {members : List (String × Json)}
    {key : String} {e : PartError} :
    member? members key part = .error e ↔
      ∃ v, members.lookup key = some v ∧ part v = .error e := by
  unfold member?
  cases members.lookup key <;> simp [map_eq_error_iff]

theorem member?_asText_eq_ok_iff {members : List (String × Json)} {key : String}
    {s? : Option String} :
    member? members key asText = .ok s? ↔ members.lookup key = s?.map .text := by
  rw [member?_eq_ok_iff]
  cases members.lookup key <;> cases s? <;> simp [asText_eq_ok_iff]

theorem member?_asTimestamp_eq_ok_iff {members : List (String × Json)} {key : String}
    {t? : Option Timestamp} :
    member? members key asTimestamp = .ok t? ↔
      Option.Rel IsInstant (members.lookup key) t? := by
  simp only [member?_eq_ok_iff, asTimestamp_eq_ok_iff]

/-- A list that may be left out is read as an empty one. -/
theorem member?_asList_iff {α : Type} {part : Part α} {members : List (String × Json)}
    {key : String} {values : List α} :
    (∃ values?, member? members key (asList part) = .ok values? ∧ values?.getD [] = values) ↔
      (members.lookup key = none ∧ values = []) ∨
        ∃ items, members.lookup key = some (.list items) ∧
          List.Forall₂ (fun item value => part item = .ok value) items values := by
  simp only [member?_eq_ok_iff]
  cases members.lookup key with
  | none =>
      constructor
      · rintro ⟨_, _ | _, rfl⟩
        exact .inl ⟨rfl, rfl⟩
      · rintro (⟨_, rfl⟩ | ⟨_, ⟨⟩, _⟩)
        exact ⟨none, .none, rfl⟩
  | some v =>
      constructor
      · rintro ⟨_, ⟨hv⟩ | _, rfl⟩
        obtain ⟨items, rfl, hitems⟩ := asList_eq_ok_iff.mp hv
        exact .inr ⟨items, rfl, hitems⟩
      · rintro (⟨⟨⟩, _⟩ | ⟨items, ⟨⟩, hitems⟩)
        exact ⟨some values, .some (asList_eq_ok_iff.mpr ⟨items, rfl, hitems⟩), rfl⟩

theorem exists_text_of_eq_map {member : Option Json} {s? : Option String}
    (h : member = s?.map .text) {v : Json} (hv : member = some v) : ∃ s, v = .text s := by
  obtain ⟨s, _, rfl⟩ := Option.map_eq_some_iff.mp (h.symm.trans hv)
  exact ⟨s, rfl⟩

theorem exists_text_of_rel {member : Option Json} {t? : Option Timestamp}
    (h : Option.Rel IsInstant member t?) {v : Json} (hv : member = some v) :
    ∃ s, v = .text s := by
  subst hv
  obtain ⟨s, hs, _⟩ | _ := h
  exact ⟨s, hs⟩

theorem exists_read_eq_ok_of_rel {s : String} {t? : Option Timestamp}
    (h : Option.Rel IsInstant (some (.text s)) t?) : ∃ t, Timestamp.read s = .ok t := by
  obtain ⟨_, ⟨⟩, ht⟩ | _ := h
  exact ⟨_, ht⟩

theorem exists_member?_asText {members : List (String × Json)} {key : String}
    (h : ∀ v, members.lookup key = some v → ∃ s, v = .text s) :
    ∃ s?, member? members key asText = .ok s? := by
  cases hv : members.lookup key with
  | none => exact ⟨none, member?_asText_eq_ok_iff.mpr hv⟩
  | some v =>
      obtain ⟨s, rfl⟩ := h v hv
      exact ⟨some s, member?_asText_eq_ok_iff.mpr hv⟩

theorem member_eq_ok_iff {α : Type} {part : Part α} {members : List (String × Json)}
    {key : String} {value : α} :
    member members key part = .ok value ↔
      ∃ v, members.lookup key = some v ∧ part v = .ok value := by
  unfold member
  cases members.lookup key <;> simp

/-! ## Parts that cannot be read -/

theorem part?_cons (v : Json) (step : Step) (path : List Step) :
    v.part? (step :: path) = (v.part? [step]).bind (part? · path) := by
  cases v <;> cases step <;> simp [part?]

/-- At the end of a path stands a number that is no score. -/
def NoPointsAt (v : Json) (path : List Step) (e : PartError) : Prop :=
  ∃ n, v.part? path = some (.number n) ∧ NoPoints n e

theorem noPointsAt_cons_iff {v : Json} {step : Step} {path : List Step} {e : PartError} :
    NoPointsAt v (step :: path) e ↔ ∃ w, v.part? [step] = some w ∧ NoPointsAt w path e := by
  simp only [NoPointsAt, part?_cons v step path, Option.bind_eq_some_iff]
  constructor
  · rintro ⟨n, ⟨w, hw, hn⟩, he⟩
    exact ⟨w, hw, n, hn, he⟩
  · rintro ⟨w, hw, n, hn, he⟩
    exact ⟨n, ⟨w, hw, hn⟩, he⟩

theorem noPointsAt_key_iff {members : List (String × Json)} {key : String} {path : List Step}
    {e : PartError} :
    NoPointsAt (.object members) (.key key :: path) e ↔
      ∃ v, members.lookup key = some v ∧ NoPointsAt v path e := by
  have hpart : (Json.object members).part? [.key key] = members.lookup key := by simp [part?]
  rw [noPointsAt_cons_iff, hpart]

/-- A part is read unless there is a reason not to, and what is reported is such a reason. -/
structure FailsFor {α : Type} (part : Part α) (reason : Json → PartError → Prop) (v : Json) :
    Prop where
  reason_of_error : ∀ {e}, part v = .error e → reason v e
  exists_error : ∀ {e}, reason v e → ∃ e', part v = .error e'

theorem FailsFor.asList {α : Type} {part : Part α} {reason : Json → PartError → Prop}
    {items : List Json} (h : ∀ item ∈ items, FailsFor part reason item) :
    FailsFor (asList part) (fun v e => ∃ i w, v.part? [.index i] = some w ∧ reason w e)
      (.list items) where
  reason_of_error := by
    intro e he
    obtain ⟨i, item, hitem, he⟩ := exists_of_mapM_eq_error he
    have hreason := (h item (List.mem_of_getElem? hitem)).reason_of_error he
    exact ⟨i, item, by simp [part?, hitem], hreason⟩
  exists_error := by
    rintro e ⟨i, item, hitem, hreason⟩
    have hmem : item ∈ items := by
      apply List.mem_of_getElem? (i := i)
      simpa [part?] using hitem
    exact exists_mapM_eq_error hmem ((h item hmem).exists_error hreason)

end Json

end CreditScorecard
