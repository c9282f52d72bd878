import CreditScorecard.Json.Read

/-! # Objects with distinct keys

Objects that are read have one member for each key. Where the keys of a list of members are
distinct, looking a key up and finding its member come to the same thing, and sorting the members
changes neither.
-/

namespace CreditScorecard.Json

/-! ## Looking up members -/

theorem mem_of_lookup_eq_some {α : Type} {members : List (String × α)} {key : String} {v : α}
    (h : members.lookup key = some v) : (key, v) ∈ members := by
  obtain ⟨before, after, rfl, _⟩ := List.lookup_eq_some_iff.mp h
  simp

theorem lookup_eq_some_of_mem {α : Type} {members : List (String × α)}
    (hkeys : (members.map Prod.fst).Nodup) {key : String} {v : α} (h : (key, v) ∈ members) :
    members.lookup key = some v := by
  induction members with
  | nil => exact absurd h (by simp)
  | cons member members ih =>
      obtain ⟨k, w⟩ := member
      obtain ⟨hk, hkeys⟩ := List.nodup_cons.mp hkeys
      rcases List.mem_cons.mp h with heq | hrest
      · cases heq
        simp
      · have hne : key ≠ k := by
          rintro rfl
          exact hk (List.mem_map.mpr ⟨(key, v), hrest, rfl⟩)
        rw [List.lookup_cons, beq_false_of_ne hne]
        exact ih hkeys hrest

/-! ## Sorted members -/

/-- The members stand in the order of their keys. -/
def Sorted (members : List (String × Json)) : Prop :=
  members.Pairwise fun a b => a.1 < b.1

theorem mem_put {key : String} {value : Json} {members : List (String × Json)}
    {member : String × Json} (h : member ∈ put key value members) :
    member = (key, value) ∨ member ∈ members := by
  induction members with
  | nil => simpa [put] using h
  | cons first rest ih =>
      obtain ⟨k, v⟩ := first
      simp only [put] at h
      split at h
      · simpa using h
      · split at h
        · rcases List.mem_cons.mp h with h | h
          · exact .inl h
          · exact .inr (List.mem_cons_of_mem _ h)
        · rcases List.mem_cons.mp h with h | h
          · exact .inr (by simp [h])
          · exact (ih h).imp_right (List.mem_cons_of_mem _)

theorem sorted_put (key : String) (value : Json) {members : List (String × Json)}
    (h : Sorted members) : Sorted (put key value members) := by
  induction members with
  | nil => simp [put, Sorted]
  | cons first rest ih =>
      obtain ⟨k, v⟩ := first
      obtain ⟨hfirst, hrest⟩ := List.pairwise_cons.mp h
      simp only [put]
      split
      · rename_i hlt
        refine List.pairwise_cons.mpr ⟨?_, h⟩
        intro member hmember
        rcases List.mem_cons.mp hmember with rfl | hmember
        · exact hlt
        · exact String.lt_trans hlt (hfirst member hmember)
      · rename_i hle
        split
        · rename_i heq
          subst heq
          exact List.pairwise_cons.mpr ⟨hfirst, hrest⟩
        · rename_i hne
          have hlt : k < key := by
            apply Classical.byContradiction
            intro hnot
            exact hne (String.le_antisymm (String.not_lt.mp hnot) (String.not_lt.mp hle))
          refine List.pairwise_cons.mpr ⟨?_, ih hrest⟩
          intro member hmember
          rcases mem_put hmember with rfl | hmember
          · exact hlt
          · exact hfirst member hmember

theorem nodup_of_sorted {members : List (String × Json)} (h : Sorted members) :
    (members.map Prod.fst).Nodup := by
  rw [List.nodup_iff_pairwise_ne, List.pairwise_map]
  exact h.imp fun hlt => String.ne_of_lt hlt

theorem sortMembers_eq_foldl (members : List (String × Json)) :
    sortMembers members =
      members.foldl (fun sorted member => put member.1 member.2 sorted) [] :=
  rfl

theorem sorted_sortMembers (members : List (String × Json)) : Sorted (sortMembers members) := by
  have hfold : ∀ sorted : List (String × Json), Sorted sorted →
      Sorted (members.foldl (fun sorted member => put member.1 member.2 sorted) sorted) := by
    induction members with
    | nil => exact fun _ h => h
    | cons member members ih => exact fun _ h => ih _ (sorted_put member.1 member.2 h)
  exact hfold [] List.Pairwise.nil

theorem mem_sortMembers {members : List (String × Json)} {member : String × Json}
    (h : member ∈ sortMembers members) : member ∈ members := by
  have hfold : ∀ sorted : List (String × Json),
      member ∈ members.foldl (fun sorted member => put member.1 member.2 sorted) sorted →
        member ∈ members ∨ member ∈ sorted := by
    clear h
    induction members with
    | nil => exact fun _ h => .inr h
    | cons first rest ih =>
        intro sorted h
        rcases ih _ h with h | h
        · exact .inl (List.mem_cons_of_mem _ h)
        · rcases mem_put h with rfl | h
          · exact .inl List.mem_cons_self
          · exact .inr h
  rw [sortMembers_eq_foldl] at h
  simpa using hfold [] h

/-- Sorting members with distinct keys does not change what the keys stand for. -/
theorem lookup_sortMembers {members : List (String × Json)}
    (hkeys : (members.map Prod.fst).Nodup) (key : String) :
    (sortMembers members).lookup key = members.lookup key := by
  have hfold : ∀ sorted : List (String × Json),
      (members.foldl (fun sorted member => put member.1 member.2 sorted) sorted).lookup key =
        (members.lookup key).or (sorted.lookup key) := by
    induction members with
    | nil => simp
    | cons first rest ih =>
        obtain ⟨k, v⟩ := first
        obtain ⟨hk, hkeys⟩ := List.nodup_cons.mp hkeys
        intro sorted
        rw [List.foldl_cons, ih hkeys, lookup_put, List.lookup_cons]
        by_cases hkey : key = k
        · subst hkey
          have hnone : rest.lookup key = none := by
            rw [List.lookup_eq_none_iff]
            intro member hmember
            simp only [bne_iff_ne, ne_eq]
            rintro rfl
            exact hk (List.mem_map.mpr ⟨member, hmember, rfl⟩)
          simp [hnone]
        · simp [hkey, beq_false_of_ne hkey]
  simpa [sortMembers_eq_foldl] using hfold []

/-! ## Distinct keys throughout -/

/-- Every object in a value has at most one member for each key. -/
inductive DistinctKeys : Json → Prop where
  | null : DistinctKeys .null
  | boolean (b : Bool) : DistinctKeys (.boolean b)
  | number (n : Number) : DistinctKeys (.number n)
  | text (s : String) : DistinctKeys (.text s)
  | list {items : List Json} (h : ∀ item ∈ items, DistinctKeys item) : DistinctKeys (.list items)
  | object {members : List (String × Json)} (hkeys : (members.map Prod.fst).Nodup)
      (h : ∀ member ∈ members, DistinctKeys member.2) : DistinctKeys (.object members)

attribute [simp] DistinctKeys.null DistinctKeys.boolean DistinctKeys.number DistinctKeys.text

@[simp] theorem distinctKeys_list_iff {items : List Json} :
    DistinctKeys (.list items) ↔ ∀ item ∈ items, DistinctKeys item := by
  constructor
  · rintro ⟨⟩
    assumption
  · exact .list

@[simp] theorem distinctKeys_object_iff {members : List (String × Json)} :
    DistinctKeys (.object members) ↔
      (members.map Prod.fst).Nodup ∧ ∀ member ∈ members, DistinctKeys member.2 := by
  constructor
  · rintro ⟨⟩
    constructor <;> assumption
  · rintro ⟨hkeys, h⟩
    exact .object hkeys h

theorem DistinctKeys.nodup {members : List (String × Json)}
    (h : DistinctKeys (.object members)) : (members.map Prod.fst).Nodup :=
  (distinctKeys_object_iff.mp h).1

theorem DistinctKeys.of_lookup {members : List (String × Json)}
    (h : DistinctKeys (.object members)) {key : String} {v : Json}
    (hv : members.lookup key = some v) : DistinctKeys v :=
  (distinctKeys_object_iff.mp h).2 (key, v) (mem_of_lookup_eq_some hv)

theorem DistinctKeys.of_mem {items : List Json} (h : DistinctKeys (.list items)) {item : Json}
    (hitem : item ∈ items) : DistinctKeys item :=
  distinctKeys_list_iff.mp h item hitem

theorem distinctKeys_sortMembers {members : List (String × Json)}
    (h : ∀ member ∈ members, DistinctKeys member.2) :
    DistinctKeys (.object (sortMembers members)) :=
  .object (nodup_of_sorted (sorted_sortMembers members)) fun _ hm => h _ (mem_sortMembers hm)

mutual

theorem distinctKeys_ofTree? : ∀ (t : Tree) {v : Json}, ofTree? t = some v → DistinctKeys v
  | .null, v, h => by
      cases h
      exact .null
  | .boolean b, v, h => by
      cases h
      exact .boolean b
  | .number n, v, h => by
      obtain ⟨x, _, rfl⟩ := Option.map_eq_some_iff.mp h
      exact .number x
  | .text glyphs, v, h => by
      obtain ⟨s, _, rfl⟩ := Option.map_eq_some_iff.mp h
      exact .text s
  | .list items, v, h => by
      obtain ⟨vs, hvs, rfl⟩ := Option.map_eq_some_iff.mp h
      exact .list (distinctKeys_ofItems? items hvs)
  | .object members, v, h => by
      obtain ⟨kvs, hkvs, rfl⟩ := Option.map_eq_some_iff.mp h
      exact distinctKeys_sortMembers (distinctKeys_ofMembers? members hkvs)

theorem distinctKeys_ofItems? : ∀ (items : List Tree) {vs : List Json},
    ofItems? items = some vs → ∀ v ∈ vs, DistinctKeys v
  | [], vs, h => by
      cases h
      simp
  | item :: items, vs, h => by
      simp only [ofItems?, Option.bind_eq_bind, Option.bind_eq_some_iff] at h
      obtain ⟨v, hv, rest, hrest, h⟩ := h
      cases h
      intro w hw
      rcases List.mem_cons.mp hw with hw | hw
      · rw [hw]
        exact distinctKeys_ofTree? item hv
      · exact distinctKeys_ofItems? items hrest w hw

theorem distinctKeys_ofMembers? : ∀ (members : List (List Glyph × Tree))
    {kvs : List (String × Json)}, ofMembers? members = some kvs →
    ∀ member ∈ kvs, DistinctKeys member.2
  | [], kvs, h => by
      cases h
      simp
  | (key, value) :: members, kvs, h => by
      simp only [ofMembers?, Option.bind_eq_bind, Option.bind_eq_some_iff] at h
      obtain ⟨k, _, v, hv, rest, hrest, h⟩ := h
      cases h
      intro w hw
      rcases List.mem_cons.mp hw with hw | hw
      · rw [hw]
        exact distinctKeys_ofTree? value hv
      · exact distinctKeys_ofMembers? members hrest w hw

end

/-- A value read from a text has distinct keys throughout. -/
theorem distinctKeys_read? {text : String} {v : Json} (h : read? text = some v) :
    DistinctKeys v := by
  obtain ⟨t, _, ht⟩ := Option.bind_eq_some_iff.mp h
  exact distinctKeys_ofTree? t ht

end CreditScorecard.Json
