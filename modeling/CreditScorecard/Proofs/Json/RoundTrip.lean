import CreditScorecard.Proofs.Json.Members
import CreditScorecard.Proofs.Json.Syntax

/-! # Values in JSON text and back

A value whose numbers are read as they are written comes back from its own text, except that the
members of its objects are sorted. Integers of 64 bits are such numbers.
-/

namespace CreditScorecard.Json

/-! ## Numbers -/

/-- A number is read as it is written. -/
def Number.Exact (n : Number) : Prop :=
  n.numeral.toNumber? = some n

/-- Integers with a sign and those without one are exact up to 64 bits. -/
theorem exact_integer {k : Int} (hleast : -0x8000000000000000 ≤ k)
    (hmost : k < 0x10000000000000000) : (Number.integer k).Exact := by
  have hsize : Nat.ofDigitChars 10 (Nat.toDigits 10 k.natAbs) 0 = k.natAbs :=
    Nat.ofDigitChars_ten_toDigits
  by_cases hk : k < 0
  · have hrange : 0 < k.natAbs ∧ k.natAbs ≤ 0x8000000000000000 := by omega
    have hvalue : -(k.natAbs : Int) = k := by omega
    simp only [Number.Exact, Number.numeral, Numeral.toNumber?, Numeral.isInteger, hsize]
    rw [if_neg (by simp [hk]), if_pos (by simp [hk, hrange]), hvalue]
  · have hrange : k.natAbs < 0x10000000000000000 := by omega
    have hvalue : (k.natAbs : Int) = k := by omega
    simp only [Number.Exact, Number.numeral, Numeral.toNumber?, Numeral.isInteger, hsize]
    rw [if_pos (by simp [hk, hrange]), hvalue]

theorem exact_points (a : Points) : (Number.integer a.value).Exact := by
  have := a.least_le
  have := a.le_most
  exact exact_integer (by omega) (by omega)

/-! ## Values -/

/-- Every number in a value is read as it is written. -/
inductive Exact : Json → Prop where
  | null : Exact .null
  | boolean (b : Bool) : Exact (.boolean b)
  | number {n : Number} (h : n.Exact) : Exact (.number n)
  | text (s : String) : Exact (.text s)
  | list {items : List Json} (h : ∀ item ∈ items, Exact item) : Exact (.list items)
  | object {members : List (String × Json)} (h : ∀ member ∈ members, Exact member.2) :
      Exact (.object members)

mutual

/-- A value with the members of its objects in the order of their keys, as it is read. -/
def sorted : Json → Json
  | .list items => .list (sortedItems items)
  | .object members => .object (sortMembers (sortedValues members))
  | v => v

def sortedItems : List Json → List Json
  | [] => []
  | item :: items => sorted item :: sortedItems items

def sortedValues : List (String × Json) → List (String × Json)
  | [] => []
  | (key, value) :: members => (key, sorted value) :: sortedValues members

end

theorem sortedItems_eq_map (items : List Json) : sortedItems items = items.map sorted := by
  induction items with
  | nil => rfl
  | cons item items ih => rw [sortedItems, ih, List.map_cons]

theorem sortedValues_eq_map (members : List (String × Json)) :
    sortedValues members = members.map fun member => (member.1, sorted member.2) := by
  induction members with
  | nil => rfl
  | cons member members ih => rw [sortedValues, ih, List.map_cons]

theorem ofItems?_itemTrees {items : List Json}
    (h : ∀ item ∈ items, ofTree? (tree item) = some item.sorted) :
    ofItems? (itemTrees items) = some (sortedItems items) := by
  induction items with
  | nil => rfl
  | cons item items ih =>
      have hitems := ih fun i hi => h i (List.mem_cons_of_mem _ hi)
      simp [itemTrees, ofItems?, sortedItems, h item List.mem_cons_self, hitems]

theorem ofMembers?_memberTrees {members : List (String × Json)}
    (h : ∀ member ∈ members, ofTree? (tree member.2) = some member.2.sorted) :
    ofMembers? (memberTrees members) = some (sortedValues members) := by
  induction members with
  | nil => rfl
  | cons member members ih =>
      obtain ⟨key, value⟩ := member
      have hvalue := h (key, value) List.mem_cons_self
      have hmembers := ih fun m hm => h m (List.mem_cons_of_mem _ hm)
      simp only at hvalue
      simp [memberTrees, ofMembers?, sortedValues, text?_map_char, hvalue, hmembers]

/-- The syntax of an exact value stands for that value. -/
theorem ofTree?_tree {v : Json} (h : Exact v) : ofTree? (tree v) = some v.sorted := by
  induction h with
  | null => rfl
  | boolean b => rfl
  | number h =>
      rw [tree, ofTree?, h]
      rfl
  | text s =>
      rw [tree, ofTree?, text?_map_char]
      simp [sorted]
  | list _ ih => rw [tree, ofTree?, ofItems?_itemTrees ih, Option.map_some, sorted]
  | object _ ih => rw [tree, ofTree?, ofMembers?_memberTrees ih, Option.map_some, sorted]

/-- A value is exact, and so many lists and objects at most lie inside one another in it. -/
def Readable (room : Nat) (v : Json) : Prop :=
  Exact v ∧ depth v ≤ room

@[simp] theorem readable_text (room : Nat) (s : String) : Readable room (.text s) :=
  ⟨.text s, Nat.zero_le room⟩

@[simp] theorem readable_ofPoints (room : Nat) (a : Points) : Readable room (.ofPoints a) :=
  ⟨.number (exact_points a), Nat.zero_le room⟩

@[simp] theorem readable_list_iff {room : Nat} {items : List Json} :
    Readable (room + 1) (.list items) ↔ ∀ item ∈ items, Readable room item := by
  have hdepth : itemDepth items ≤ room ↔ ∀ item ∈ items, depth item ≤ room := by
    induction items with
    | nil => simp [itemDepth]
    | cons item items ih => simp only [itemDepth, Nat.max_le, List.forall_mem_cons, ih]
  rw [Readable, depth, Nat.add_le_add_iff_right, hdepth]
  constructor
  · rintro ⟨hexact, hdepth⟩ item hitem
    cases hexact with
    | list hitems => exact ⟨hitems item hitem, hdepth item hitem⟩
  · intro h
    exact ⟨.list fun item hitem => (h item hitem).1, fun item hitem => (h item hitem).2⟩

@[simp] theorem readable_object_iff {room : Nat} {members : List (String × Json)} :
    Readable (room + 1) (.object members) ↔ ∀ member ∈ members, Readable room member.2 := by
  have hdepth : memberDepth members ≤ room ↔ ∀ member ∈ members, depth member.2 ≤ room := by
    induction members with
    | nil => simp [memberDepth]
    | cons member members ih => simp only [memberDepth, Nat.max_le, List.forall_mem_cons, ih]
  rw [Readable, depth, Nat.add_le_add_iff_right, hdepth]
  constructor
  · rintro ⟨hexact, hdepth⟩ member hmember
    cases hexact with
    | object hmembers => exact ⟨hmembers member hmember, hdepth member hmember⟩
  · intro h
    exact ⟨.object fun member hmember => (h member hmember).1,
      fun member hmember => (h member hmember).2⟩

/-- A readable value comes back from its text, its members sorted. -/
theorem read?_compact {v : Json} {room : Nat} (h : Readable room v) (hroom : room ≤ 127) :
    read? v.compact = some v.sorted := by
  have hsyntax := read?_compactChars v (Nat.le_trans h.2 hroom)
  rw [read?, compact, String.toList_ofList, hsyntax, Option.bind_some, ofTree?_tree h.1]

/-! ## Members of a sorted value -/

theorem keys_sortedValues (members : List (String × Json)) :
    (sortedValues members).map Prod.fst = members.map Prod.fst := by
  simp [sortedValues_eq_map, Function.comp_def]

theorem lookup_sortedValues (members : List (String × Json)) (key : String) :
    (sortedValues members).lookup key = (members.lookup key).map sorted := by
  induction members with
  | nil => rfl
  | cons member members ih =>
      obtain ⟨k, v⟩ := member
      rw [sortedValues, List.lookup_cons, List.lookup_cons, ih]
      split <;> rfl

/-- The members that a sorted object has under its keys. -/
theorem lookup_sorted {members : List (String × Json)} (hkeys : (members.map Prod.fst).Nodup)
    (key : String) :
    (sortMembers (sortedValues members)).lookup key = (members.lookup key).map sorted := by
  rw [lookup_sortMembers (by rwa [keys_sortedValues]), lookup_sortedValues]

theorem forall_mem_sorted {members : List (String × Json)} {P : String → Prop}
    (h : ∀ member ∈ members, P member.1) :
    ∀ member ∈ sortMembers (sortedValues members), P member.1 := by
  intro member hmember
  have hmem := mem_sortMembers hmember
  rw [sortedValues_eq_map] at hmem
  obtain ⟨original, horiginal, rfl⟩ := List.mem_map.mp hmem
  exact h original horiginal

end CreditScorecard.Json
