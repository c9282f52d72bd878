import CreditScorecard.Json.Record
import CreditScorecard.Proofs.Json.RoundTrip

/-! # Records in JSON text and back

A record that is written as an object is read part by part, each under its own name. The room for
nesting is the length of the text, which is always enough.
-/

namespace CreditScorecard.Json

/-! ## The room for nesting -/

mutual

theorem depth_le_length : ∀ v : Json, depth v ≤ (compactChars v).length
  | .null | .boolean _ | .number _ | .text _ => Nat.zero_le _
  | .list [] => by simp [depth, itemDepth, compactChars]
  | .list (item :: items) => by
      have hitem := depth_le_length item
      have hitems := itemDepth_le_length items
      simp only [depth, itemDepth, compactChars, List.length_append, List.length_cons,
        List.length_nil]
      omega
  | .object [] => by simp [depth, memberDepth, compactChars]
  | .object ((key, value) :: members) => by
      have hvalue := depth_le_length value
      have hmembers := memberDepth_le_length members
      simp only [depth, memberDepth, compactChars, List.length_append, List.length_cons,
        List.length_nil]
      omega

theorem itemDepth_le_length : ∀ items : List Json, itemDepth items ≤ (compactItems items).length
  | [] => Nat.zero_le _
  | item :: items => by
      have hitem := depth_le_length item
      have hitems := itemDepth_le_length items
      simp only [itemDepth, compactItems, List.length_append, List.length_cons]
      omega

theorem memberDepth_le_length : ∀ members : List (String × Json),
    memberDepth members ≤ (compactMembers members).length
  | [] => Nat.zero_le _
  | (key, value) :: members => by
      have hvalue := depth_le_length value
      have hmembers := memberDepth_le_length members
      simp only [memberDepth, compactMembers, List.length_append, List.length_cons]
      omega

end

theorem length_le_utf8ByteSize (cs : List Char) :
    cs.length ≤ (String.ofList cs).utf8ByteSize := by
  induction cs with
  | nil => exact Nat.zero_le _
  | cons c cs ih =>
      have hsize := Char.utf8Size_pos c
      rw [String.ofList_cons, String.utf8ByteSize_append, String.utf8ByteSize_singleton,
        List.length_cons]
      omega

namespace Tree

/-- The compact text of any value is read as the syntax of the value. -/
theorem ofText?_compact (v : Json) : ofText? v.compact = some (tree v) := by
  have hroom : depth v ≤ v.compact.utf8ByteSize :=
    (depth_le_length v).trans (length_le_utf8ByteSize _)
  have hsyntax := read?_compactChars v hroom
  rwa [ofText?, compact, String.toList_ofList]

/-! ## Records -/

theorem decodeKeys?_memberTrees (members : List (String × Json)) :
    decodeKeys? (memberTrees members) =
      some (members.map fun member => (member.1, tree member.2)) := by
  induction members with
  | nil => rfl
  | cons member members ih =>
      obtain ⟨key, value⟩ := member
      simp [memberTrees, decodeKeys?, text?_map_char, ih]

/-- A record is read with exactly the parts that were written. -/
theorem parts?_object {names : List String} {members : List (String × Json)}
    (hnames : members.map (·.1) = names) (hdistinct : names.Nodup) :
    parts? names (tree (.object members)) =
      some (members.map fun member => (member.1, tree member.2)) := by
  have hkeys : (members.map fun member => (member.1, tree member.2)).map (·.1) = names := by
    rw [List.map_map, ← hnames]
    rfl
  have hknown : (members.map fun member => (member.1, tree member.2)).filter
      (fun member => names.contains member.1) =
        members.map fun member => (member.1, tree member.2) := by
    rw [List.filter_eq_self]
    intro member hmember
    rw [List.contains_iff_mem, ← hkeys]
    exact List.mem_map_of_mem hmember
  rw [tree, parts?, decodeKeys?_memberTrees, Option.bind_eq_bind, Option.bind_some]
  dsimp only
  rw [hknown, hkeys, if_pos hdistinct]

/-! ## Parts -/

@[simp]
theorem text?_tree (s : String) : text? (tree (.text s)) = some s := by
  rw [tree, text?, text?_map_char, String.ofList_toList]

@[simp]
theorem constant?_tree (s : String) : constant? (tree (.text s)) = some s := by
  rw [tree, constant?, text?_map_char, String.ofList_toList]

@[simp]
theorem boolean?_tree (b : Bool) : boolean? (tree (.boolean b)) = some b :=
  rfl

@[simp]
theorem points?_tree (a : Points) : points? (tree (.ofPoints a)) = some a := by
  have hread : number? (tree (.ofPoints a)) = some (.integer a.value) := exact_points a
  rw [points?, hread]
  exact Points.ofInt?_eq_some_iff.mpr rfl

/-- A number that is not read as an integer of 64 bits is no integer at all. -/
theorem readReal?_ne_integer (n : Numeral) (k : ℤ) : n.readReal? ≠ some (.integer k) := by
  have hreal : ∀ (negative : Bool) (x? : Option Binary64),
      x?.bind (Numeral.real? negative) ≠ some (.integer k) := by
    intro negative x? h
    obtain ⟨x, -, hx⟩ := Option.bind_eq_some_iff.mp h
    cases x <;> simp [Numeral.real?] at hx
  unfold Numeral.readReal?
  dsimp only
  split
  · exact hreal _ _
  · split
    · exact hreal _ _
    · split <;> simp

theorem count?_tree (k : ℕ) :
    count? (tree (.ofInt k)) = if k < 0x10000000000000000 then some k else none := by
  split
  · rename_i hk
    have hread : number? (tree (.ofInt k)) = some (.integer k) :=
      exact_integer (by omega) (by omega)
    rw [count?, hread]
    simp [hk]
  · rename_i hk
    have hread : number? (tree (.ofInt k)) = (Number.integer k).numeral.readReal? := by
      change Numeral.toNumber? _ = _
      simp only [Numeral.toNumber?, Number.numeral, Int.natAbs_natCast,
        Nat.ofDigitChars_ten_toDigits]
      rw [if_neg fun h => hk h.2.2, if_neg fun h => absurd h.2.1 (by simp)]
    rw [count?, hread]
    split
    · rename_i hinteger
      exact absurd hinteger (readReal?_ne_integer _ _)
    · rfl

theorem itemTrees_eq_map (items : List Json) : itemTrees items = items.map tree := by
  induction items with
  | nil => rfl
  | cons item items ih => rw [itemTrees, ih, List.map_cons]

theorem mapM_eq_some_map {α β : Type} {f : α → Option β} {g : α → β} {items : List α}
    (h : ∀ item ∈ items, f item = some (g item)) : items.mapM f = some (items.map g) := by
  induction items with
  | nil => rfl
  | cons item items ih =>
      have hitems := ih fun i hi => h i (List.mem_cons_of_mem _ hi)
      simp [List.mapM_cons, h item List.mem_cons_self, hitems]

/-- A list is read item by item. -/
theorem listOf?_tree {α β : Type} {part : Tree → Option β} {write : α → Json} {g : α → β}
    {items : List α} (h : ∀ item ∈ items, part (tree (write item)) = some (g item)) :
    listOf? part (tree (.list (items.map write))) = some (items.map g) := by
  rw [tree, listOf?, itemTrees_eq_map, List.map_map, List.mapM_map]
  exact mapM_eq_some_map h

end Tree

end CreditScorecard.Json
