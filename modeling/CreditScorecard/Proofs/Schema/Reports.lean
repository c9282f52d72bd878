import CreditScorecard.Proofs.Json.Pointer
import CreditScorecard.Proofs.Schema.Accepts

/-! # What a schema reports

A report is complete: it is empty exactly if the value is admitted. It is located: each violation
leads to a part of the value, and its fault is a fault of that part. It is local: the violations
that a member or an item has by itself stand together, in their place, and the rest of the report
is the same whatever they are.
-/

namespace CreditScorecard

/-- The fault is indeed one of the value. -/
inductive Fault.Holds : Fault → Json → Prop where
  | wrongType {v : Json} {types : List JsonType} (h : ∀ type ∈ types, type.has v = false) :
      Holds (.wrongType v types) v
  | tooShort : Holds (.tooShort (.text "")) (.text "")
  | notAbove {n : Json.Number} (h : n.isPositive = false) :
      Holds (.notAbove (.number n) 0) (.number n)
  | notListed {v : Json} {options : List String} (h : ∀ s ∈ options, v ≠ .text s) :
      Holds (.notListed v options) v
  | unexpected {members : List (String × Json)} {names : List String}
      (h : ∀ name ∈ names, name ∈ members.map Prod.fst) :
      Holds (.unexpected names) (.object members)
  | missing {members : List (String × Json)} {name : String} (h : members.lookup name = none) :
      Holds (.missing name) (.object members)

namespace Schema

/-! ## Complete reports -/

theorem sound_nonEmptyText : nonEmptyText.Sound := by
  intro v
  rw [← Accepts, accepts_nonEmptyText_iff]
  cases v <;> simp [nonEmptyText]

theorem sound_positiveInteger : positiveInteger.Sound := by
  intro v
  rw [← Accepts, accepts_positiveInteger_iff]
  cases v <;> simp [positiveInteger]

theorem sound_oneOf (options : List String) : (oneOf options).Sound := by
  intro v
  rw [← Accepts, accepts_oneOf_iff]
  cases v <;> simp [oneOf]

theorem sound_listOf {item : Schema} (h : item.Sound) : (listOf item).Sound := by
  intro v
  rw [← Accepts, accepts_listOf_iff]
  cases v with
  | list items => simp [listOf, h _, Accepts]
  | _ => simp [listOf]

theorem sound_objectOf {known : List (String × Schema)} {required : List String}
    (h : ∀ entry ∈ known, entry.2.Sound) : (objectOf known required).Sound := by
  intro v
  rw [← Accepts, accepts_objectOf_iff]
  cases v with
  | object members =>
      simp only [objectOf, Bool.and_eq_true, List.all_eq_true, Option.isSome_iff_exists,
        Json.object.injEq, exists_eq_left']
      refine and_congr_left fun _ => forall₂_congr fun member _ => ?_
      cases hlookup : known.lookup member.1 with
      | none => simp
      | some schema => simp [h _ (Json.mem_of_lookup_eq_some hlookup) member.2, Accepts]
  | _ => simp [objectOf]

/-! ## Located violations -/

/-- Each violation leads to a part of the value, and the part has the fault. -/
def Locates (schema : Schema) : Prop :=
  ∀ ⦃v : Json⦄, v.DistinctKeys → ∀ x ∈ schema.violations v,
    ∃ part, v.part? x.path = some part ∧ x.fault.Holds part

theorem exists_part?_of_mem_here {v : Json} {faults : List Fault}
    (h : ∀ fault ∈ faults, fault.Holds v) {x : Violation} (hx : x ∈ here faults) :
    ∃ part, v.part? x.path = some part ∧ x.fault.Holds part := by
  obtain ⟨fault, hfault, rfl⟩ := List.mem_map.mp hx
  exact ⟨v, rfl, h fault hfault⟩

theorem locates_ofTypes (types : List JsonType) : (ofTypes types).Locates := by
  intro v _ x
  apply exists_part?_of_mem_here
  split
  · simp
  · rename_i hnone
    simp only [List.forall_mem_singleton]
    exact .wrongType (by simpa using hnone)

theorem locates_nonEmptyText : nonEmptyText.Locates := by
  intro v _ x
  apply exists_part?_of_mem_here
  cases v with
  | text s =>
      by_cases hs : s = ""
      · simpa [hs] using .tooShort
      · simp [hs]
  | _ => simpa using .wrongType (by simp [JsonType.has])

theorem locates_oneOf (options : List String) : (oneOf options).Locates := by
  intro v _ x
  apply exists_part?_of_mem_here
  cases v with
  | text s =>
      by_cases hs : s ∈ options
      · simp [hs]
      · simpa [hs] using .notListed (by grind)
  | _ => simpa using .notListed (by simp)

theorem locates_positiveInteger : positiveInteger.Locates := by
  intro v _ x
  apply exists_part?_of_mem_here
  intro fault hfault
  rcases List.mem_append.mp hfault with hsign | htype
  · cases v with
    | number n =>
        cases hpositive : n.isPositive with
        | false =>
            rw [show fault = .notAbove (.number n) 0 by simpa [hpositive] using hsign]
            exact .notAbove hpositive
        | true => simp [hpositive] at hsign
    | _ => simp at hsign
  · cases hwhole : JsonType.integer.has v with
    | false =>
        rw [show fault = .wrongType v [.integer] by simpa [hwhole] using htype]
        exact .wrongType (by simpa using hwhole)
    | true => simp [hwhole] at htype

/-- A violation of a list is one of an item, seen from the list. -/
theorem exists_of_mem_itemViolations {item : Schema} {start : Nat} {items : List Json}
    {x : Violation} (hx : x ∈ itemViolations item start items) :
    ∃ i v, items[i]? = some v ∧ ∃ y ∈ item.violations v, x = y.within (.index (start + i)) := by
  induction items generalizing start with
  | nil => simp [itemViolations] at hx
  | cons v vs ih =>
      rcases List.mem_append.mp hx with hfirst | hrest
      · obtain ⟨y, hy, rfl⟩ := List.mem_map.mp hfirst
        exact ⟨0, v, rfl, y, hy, rfl⟩
      · obtain ⟨i, w, hw, y, hy, rfl⟩ := ih hrest
        exact ⟨i + 1, w, hw, y, hy, by rw [Nat.add_comm i 1, Nat.add_assoc]⟩

theorem locates_listOf {item : Schema} (h : item.Locates) : (listOf item).Locates := by
  intro v hv x hx
  cases v with
  | list items =>
      obtain ⟨i, w, hw, y, hy, rfl⟩ := exists_of_mem_itemViolations hx
      obtain ⟨part, hpart, hholds⟩ := h (hv.of_mem (List.mem_of_getElem? hw)) y hy
      refine ⟨part, ?_, hholds⟩
      simpa [Violation.within, Json.part?, hw] using hpart
  | _ => exact exists_part?_of_mem_here (by simpa using .wrongType (by simp [JsonType.has])) hx

/-- A violation of the members of an object is one of a known member, seen from the object. -/
theorem exists_of_mem_memberViolations {known : List (String × Schema)}
    {members : List (String × Json)} {x : Violation} (hx : x ∈ memberViolations known members) :
    ∃ member ∈ members, ∃ schema, known.lookup member.1 = some schema ∧
      ∃ y ∈ schema.violations member.2, x = y.within (.key member.1) := by
  obtain ⟨member, hmember, hx⟩ := List.mem_flatMap.mp hx
  cases hlookup : known.lookup member.1 with
  | none => simp [hlookup] at hx
  | some schema =>
      obtain ⟨y, hy, rfl⟩ : ∃ y ∈ schema.violations member.2, y.within (.key member.1) = x := by
        simpa [hlookup] using hx
      exact ⟨member, hmember, schema, hlookup, y, hy, rfl⟩

/-- The faults of an object itself. -/
def objectFaults (known : List (String × Schema)) (required : List String)
    (members : List (String × Json)) : List Fault :=
  (if (unexpectedNames known members).isEmpty then []
    else [.unexpected (unexpectedNames known members)]) ++
  (missingNames required members).map .missing

theorem violations_object (known : List (String × Schema)) (required : List String)
    (members : List (String × Json)) :
    (objectOf known required).violations (.object members) =
      memberViolations known members ++ here (objectFaults known required members) := by
  simp only [objectOf, objectFaults, here, List.map_append, List.append_assoc]

theorem holds_of_mem_objectFaults {known : List (String × Schema)} {required : List String}
    {members : List (String × Json)} :
    ∀ fault ∈ objectFaults known required members, fault.Holds (.object members) := by
  intro fault hfault
  rcases List.mem_append.mp hfault with hunexpected | hmissing
  · split at hunexpected
    · simp at hunexpected
    · rw [List.mem_singleton.mp hunexpected]
      exact .unexpected fun name hname => (List.mem_filter.mp hname).1
  · obtain ⟨name, hname, rfl⟩ := List.mem_map.mp hmissing
    exact .missing (by simpa using (List.mem_filter.mp hname).2)

theorem locates_objectOf {known : List (String × Schema)} {required : List String}
    (h : ∀ entry ∈ known, entry.2.Locates) : (objectOf known required).Locates := by
  intro v hv x hx
  cases v with
  | object members =>
      rw [violations_object] at hx
      rcases List.mem_append.mp hx with hknown | hobject
      · obtain ⟨member, hmember, schema, hschema, y, hy, rfl⟩ :=
          exists_of_mem_memberViolations hknown
        have hlookup := Json.lookup_eq_some_of_mem hv.nodup hmember
        obtain ⟨part, hpart, hholds⟩ :=
          h _ (Json.mem_of_lookup_eq_some hschema) (hv.of_lookup hlookup) y hy
        refine ⟨part, ?_, hholds⟩
        simpa [Violation.within, Json.part?, hlookup] using hpart
      · exact exists_part?_of_mem_here holds_of_mem_objectFaults hobject
  | _ => exact exists_part?_of_mem_here (by simpa using .wrongType (by simp [JsonType.has])) hx

/-! ## Local reports -/

end Schema

/-- The violation is reported at the base or at a part of what stands there. -/
def Violation.liesUnder (base : String) (x : Violation) : Bool :=
  Json.liesUnder base (Json.pointer x.path)

theorem Violation.liesUnder_within_key_iff {key name : String} {base : List Json.Step}
    {x : Violation} :
    (x.within (.key name)).liesUnder (Json.pointer (.key key :: base)) = true ↔
      key = name ∧ x.liesUnder (Json.pointer base) = true := by
  rw [liesUnder, within, Json.liesUnder_cons_iff, Json.Step.token_key_inj]
  rfl

theorem Violation.liesUnder_within_index_iff {i j : Nat} {x : Violation} :
    (x.within (.index j)).liesUnder (Json.pointer [.index i]) = true ↔ i = j := by
  rw [liesUnder, within, Json.liesUnder_cons_iff, Json.Step.token_index_inj,
    and_iff_left (Json.liesUnder_nil x.path)]

namespace Schema

theorem not_liesUnder_of_mem_here {faults : List Fault} {x : Violation} (hx : x ∈ here faults)
    (step : Json.Step) (base : List Json.Step) :
    ¬x.liesUnder (Json.pointer (step :: base)) = true := by
  obtain ⟨fault, -, rfl⟩ := List.mem_map.mp hx
  exact Json.not_liesUnder_nil step base

/-- The faults of an object itself depend on its keys only. -/
theorem objectFaults_eq_of_keys_eq {known : List (String × Schema)} {required : List String}
    {members others : List (String × Json)} (h : members.map Prod.fst = others.map Prod.fst) :
    objectFaults known required members = objectFaults known required others := by
  have hlookup : ∀ (members : List (String × Json)) name,
      (members.lookup name).isNone = !(members.map Prod.fst).contains name := by
    intro members name
    induction members with
    | nil => rfl
    | cons member rest ih =>
        rw [List.lookup_cons, List.map_cons, List.contains_cons]
        cases name == member.1 with
        | false => simpa using ih
        | true => rfl
  have hmissing : missingNames required members = missingNames required others := by
    simp only [missingNames, hlookup, h]
  rw [objectFaults, objectFaults, hmissing, unexpectedNames, unexpectedNames, h]

section

variable {known : List (String × Schema)} (required : List String)
  {left right : List (String × Json)} {key : String}

/-- The violations of a member stand together in the report on its object, and the others are the
same for all values of the member. -/
theorem exists_violations_member_eq {schema : Schema} (hschema : known.lookup key = some schema)
    (hleft : key ∉ left.map Prod.fst) (hright : key ∉ right.map Prod.fst) :
    ∃ before after, (∀ x ∈ before ++ after, ∀ base,
        ¬x.liesUnder (Json.pointer (.key key :: base)) = true) ∧
      ∀ value, (objectOf known required).violations (.object (left ++ (key, value) :: right)) =
        before ++ (schema.violations value).map (·.within (.key key)) ++ after := by
  have hmembers : ∀ {members : List (String × Json)}, key ∉ members.map Prod.fst →
      ∀ x ∈ memberViolations known members, ∀ base,
        ¬x.liesUnder (Json.pointer (.key key :: base)) = true := by
    intro members hkey x hx base
    obtain ⟨member, hmember, schema, -, y, -, rfl⟩ := exists_of_mem_memberViolations hx
    rw [Violation.liesUnder_within_key_iff]
    rintro ⟨rfl, -⟩
    exact hkey (List.mem_map_of_mem hmember)
  refine ⟨memberViolations known left, memberViolations known right ++
    here (objectFaults known required (left ++ (key, .null) :: right)), ?_, ?_⟩
  · rw [List.forall_mem_append, List.forall_mem_append]
    exact ⟨hmembers hleft, hmembers hright, fun x hx => not_liesUnder_of_mem_here hx _⟩
  · intro value
    have hfaults : objectFaults known required (left ++ (key, value) :: right) =
        objectFaults known required (left ++ (key, .null) :: right) :=
      objectFaults_eq_of_keys_eq (by simp)
    rw [violations_object, hfaults]
    simp [memberViolations, hschema]

theorem itemViolations_eq_flatMap (item : Schema) (start : Nat) (items : List Json) :
    itemViolations item start items = (items.zipIdx start).flatMap fun entry =>
      (item.violations entry.1).map (·.within (.index entry.2)) := by
  induction items generalizing start with
  | nil => rfl
  | cons v vs ih => rw [itemViolations, ih, List.zipIdx_cons, List.flatMap_cons]

theorem itemViolations_append_cons (item : Schema) (start : Nat) (earlier : List Json) (v : Json)
    (later : List Json) :
    itemViolations item start (earlier ++ v :: later) =
      itemViolations item start earlier ++
        (item.violations v).map (·.within (.index (start + earlier.length))) ++
        itemViolations item (start + earlier.length + 1) later := by
  induction earlier generalizing start with
  | nil => rfl
  | cons w rest ih =>
      rw [List.cons_append, itemViolations, ih, itemViolations, List.length_cons]
      simp only [List.append_assoc, Nat.add_assoc, Nat.add_comm 1]

/-- The violations of an item of a list that is a member stand together in the report, and the
others, none of them at the item or under it, are the same for all items in its place. -/
theorem exists_violations_item_eq {item : Schema} (hschema : known.lookup key = some (listOf item))
    (hleft : key ∉ left.map Prod.fst) (hright : key ∉ right.map Prod.fst)
    (earlier later : List Json) :
    ∃ before after, (∀ x ∈ before ++ after,
        ¬x.liesUnder (Json.pointer [.key key, .index earlier.length]) = true) ∧
      ∀ v, (objectOf known required).violations
          (.object (left ++ (key, .list (earlier ++ v :: later)) :: right)) =
        before ++ (item.violations v).map (fun x =>
          (x.within (.index earlier.length)).within (.key key)) ++ after := by
  obtain ⟨before, after, hothers, hviolations⟩ :=
    exists_violations_member_eq required hschema hleft hright
  have hitems : ∀ {start : Nat} {items : List Json},
      (∀ i, i < items.length → earlier.length ≠ start + i) →
      ∀ x ∈ (itemViolations item start items).map (·.within (.key key)),
        ¬x.liesUnder (Json.pointer [.key key, .index earlier.length]) = true := by
    intro start items hplace
    rw [List.forall_mem_map]
    intro x hx
    obtain ⟨i, v, hv, y, -, rfl⟩ := exists_of_mem_itemViolations hx
    rw [Violation.liesUnder_within_key_iff, Violation.liesUnder_within_index_iff]
    rintro ⟨-, hi⟩
    exact hplace i (List.getElem?_eq_some_iff.mp hv).1 hi
  rw [List.forall_mem_append] at hothers
  refine ⟨before ++ (itemViolations item 0 earlier).map (·.within (.key key)),
    (itemViolations item (earlier.length + 1) later).map (·.within (.key key)) ++ after, ?_, ?_⟩
  · simp only [List.forall_mem_append]
    refine ⟨⟨fun x hx => hothers.1 x hx _, hitems fun i hi => ?_⟩, hitems fun i _ => ?_,
      fun x hx => hothers.2 x hx _⟩
    · omega
    · omega
  · intro v
    have hlist : (listOf item).violations (.list (earlier ++ v :: later)) =
        itemViolations item 0 (earlier ++ v :: later) := rfl
    rw [hviolations, hlist, itemViolations_append_cons, Nat.zero_add]
    simp

end

end Schema

end CreditScorecard
