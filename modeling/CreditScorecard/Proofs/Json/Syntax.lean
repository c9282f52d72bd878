import CreditScorecard.Json.Text
import CreditScorecard.Proofs.Json.Numeral

/-! # Reading written JSON text

The compact text of a value is read as the syntax tree of that value, whatever stands after it.
-/

namespace CreditScorecard.Json

open Text

/-! ## Quoted text -/

theorem hexValue?_hexDigit (n : Nat) : hexValue? (hexDigit n) = some (n % 16) := by
  have h : ∀ d < 16, hexValue? (Nat.digitChar d) = some d := by decide
  exact h (n % 16) (Nat.mod_lt n (by decide))

/-- The escape of a control character stands for its code. -/
theorem hexNumber?_escape {n : Nat} (h : n < 0x20) :
    hexNumber? ['0', '0', hexDigit (n / 16), hexDigit n] = some n := by
  simp only [hexNumber?, List.foldlM_cons, List.foldlM_nil, hexValue?_hexDigit,
    show hexValue? '0' = some 0 from rfl, Option.map_some, Option.bind_eq_bind,
    Option.bind_some, Option.pure_def, Option.some.injEq]
  omega

theorem glyphOfCode_toNat (c : Char) (h : c.toNat < 0x20) :
    Tree.glyphOfCode c.toNat = .char c := by
  have hsurrogate : ¬(0xD800 ≤ c.toNat ∧ c.toNat ≤ 0xDFFF) := by omega
  rw [Tree.glyphOfCode, if_neg hsurrogate, Char.ofNat_toNat]

/-- Puts a character in front of what is read of a quoted text. -/
def consGlyph (c : Char) : List Glyph × List Char → List Glyph × List Char
  | (glyphs, rest) => (.char c :: glyphs, rest)

theorem readQuoted_backslash {e c : Char} (h : Tree.unescape? e = some c) (rest : List Char) :
    Tree.readQuoted ('\\' :: e :: rest) = (Tree.readQuoted rest).map (consGlyph c) := by
  have hu : e ≠ 'u' := by
    rintro rfl
    cases h
  simp [Tree.readQuoted, hu, h, consGlyph, Option.map_eq_bind, Function.comp_def]

theorem readQuoted_hexadecimal (c : Char) (h : c.toNat < 0x20) (rest : List Char) :
    Tree.readQuoted
        ('\\' :: 'u' :: '0' :: '0' :: hexDigit (c.toNat / 16) :: hexDigit c.toNat :: rest) =
      (Tree.readQuoted rest).map (consGlyph c) := by
  simp only [Tree.readQuoted, hexNumber?_escape h, glyphOfCode_toNat c h, Option.bind_eq_bind,
    Option.bind_some, Option.map_eq_bind, Function.comp_def, consGlyph, Option.pure_def]

theorem readQuoted_plain {c : Char} (hquote : c ≠ '"') (hslash : c ≠ '\\')
    (hcontrol : ¬c.toNat < 0x20) (rest : List Char) :
    Tree.readQuoted (c :: rest) = (Tree.readQuoted rest).map (consGlyph c) := by
  simp [Tree.readQuoted, hslash, hcontrol, consGlyph, Option.map_eq_bind, Function.comp_def]

theorem readQuoted_escape (c : Char) (rest : List Char) :
    Tree.readQuoted (escape c ++ rest) = (Tree.readQuoted rest).map (consGlyph c) := by
  unfold escape
  split
  · subst c
    exact readQuoted_backslash rfl rest
  split
  · subst c
    exact readQuoted_backslash rfl rest
  split
  · subst c
    exact readQuoted_backslash rfl rest
  split
  · subst c
    exact readQuoted_backslash rfl rest
  split
  · subst c
    exact readQuoted_backslash rfl rest
  split
  · rename_i h
    rw [show c = '\x08' from Char.toNat_inj.mp h]
    exact readQuoted_backslash rfl rest
  split
  · rename_i h
    rw [show c = '\x0c' from Char.toNat_inj.mp h]
    exact readQuoted_backslash rfl rest
  split
  · exact readQuoted_hexadecimal c (by assumption) rest
  · exact readQuoted_plain (by assumption) (by assumption) (by assumption) rest

/-- The characters of a text between quotes are read back one by one. -/
theorem readQuoted_flatMap_escape (cs rest : List Char) :
    Tree.readQuoted (cs.flatMap escape ++ '"' :: rest) = some (cs.map Glyph.char, rest) := by
  induction cs with
  | nil => simp [Tree.readQuoted]
  | cons c cs ih =>
      rw [List.flatMap_cons, List.append_assoc, readQuoted_escape, ih]
      rfl

theorem text?_map_char (cs : List Char) :
    Glyph.text? (cs.map Glyph.char) = some (String.ofList cs) := by
  have hdecode : Glyph.decode? (cs.map Glyph.char) = some cs := by
    induction cs with
    | nil => rfl
    | cons c cs ih => simp [Glyph.decode?, ih]
  rw [Glyph.text?, hdecode]
  rfl

/-! ## Values -/

mutual

/-- The syntax of a value as it is written. -/
def tree : Json → Tree
  | .null => .null
  | .boolean b => .boolean b
  | .number n => .number n.numeral
  | .text s => .text (s.toList.map Glyph.char)
  | .list items => .list (itemTrees items)
  | .object members => .object (memberTrees members)

def itemTrees : List Json → List Tree
  | [] => []
  | item :: items => tree item :: itemTrees items

def memberTrees : List (String × Json) → List (List Glyph × Tree)
  | [] => []
  | (key, value) :: members => (key.toList.map Glyph.char, tree value) :: memberTrees members

end

mutual

/-- The number of lists and objects that lie inside one another in a value. -/
def depth : Json → Nat
  | .list items => itemDepth items + 1
  | .object members => memberDepth members + 1
  | _ => 0

def itemDepth : List Json → Nat
  | [] => 0
  | item :: items => max (depth item) (itemDepth items)

def memberDepth : List (String × Json) → Nat
  | [] => 0
  | (_, value) :: members => max (depth value) (memberDepth members)

end

/-- What stands after a value inside a list or object, or at the end of a text. -/
def Ends (rest : List Char) : Prop :=
  Stops (fun c => c != ',' && c != ']' && c != '\x7d') rest

theorem Ends.stops_continuesNumber {rest : List Char} (h : Ends rest) :
    Stops continuesNumber rest := by
  intro c hc
  have hend := h c hc
  simp only [Bool.and_eq_false_iff, bne_eq_false_iff_eq] at hend
  rcases hend with (rfl | rfl) | rfl <;> decide

namespace Tree

@[simp] theorem skipSpace_cons {c : Char}
    (h : (c = ' ' || c = '\t' || c = '\n' || c = '\r') = false) (cs : List Char) :
    skipSpace (c :: cs) = c :: cs := by
  simp only [skipSpace, List.dropWhile_cons, h]
  rfl

theorem isSpace_digit {c : Char} (h : c.isDigit = true) :
    (c = ' ' || c = '\t' || c = '\n' || c = '\r') = false := by
  simp [ne_of_isDigit h (show Char.isDigit ' ' = false from rfl),
    ne_of_isDigit h (show Char.isDigit '\t' = false from rfl),
    ne_of_isDigit h (show Char.isDigit '\n' = false from rfl),
    ne_of_isDigit h (show Char.isDigit '\r' = false from rfl)]

/-- A value that begins with a digit is a number. -/
theorem readValue_digit {c : Char} (h : c.isDigit = true) (room fuel : Nat) (cs : List Char) :
    readValue room (fuel + 1) (c :: cs) =
      (readNumeral false (c :: cs)).map fun (n, rest) => (.number n, rest) := by
  rw [readValue, skipSpace_cons (isSpace_digit h)]
  split
  case h_8 => rfl
  -- no other kind of value begins with a digit
  all_goals
    rename_i heq
    cases heq
    exact absurd h (by decide)

theorem readValue_numeral {n : Numeral} (h : n.WellFormed) (room fuel : Nat)
    {rest : List Char} (hrest : Stops continuesNumber rest) :
    readValue room (fuel + 1)
        (Binary64.signText n.negative ++ n.unsignedChars ++ rest) = some (.number n, rest) := by
  have hscan := readNumeral_unsignedChars h hrest
  cases hneg : n.negative with
  | true =>
      rw [hneg] at hscan
      simp only [Binary64.signText, if_true, List.cons_append, List.nil_append, readValue,
        skipSpace_cons (c := '-') rfl, hscan, Option.map_some]
  | false =>
      rw [hneg] at hscan
      obtain ⟨d, ds, hds⟩ := List.exists_cons_of_ne_nil h.whole.ne_nil
      have hd : d.isDigit = true := h.whole.isDigit d (by simp [hds])
      have hchars : n.unsignedChars = d :: (ds ++ n.fractionChars ++ n.exponentChars) := by
        simp [Numeral.unsignedChars, hds]
      rw [hchars] at hscan ⊢
      have hsign : Binary64.signText false = [] := rfl
      rw [hsign, List.nil_append, List.cons_append, readValue_digit hd, ← List.cons_append, hscan]
      rfl

end Tree

theorem readValue_text (s : String) (room fuel : Nat) (rest : List Char) :
    Tree.readValue room (fuel + 1) (quote s ++ rest) =
      some (.text (s.toList.map Glyph.char), rest) := by
  have hquoted := readQuoted_flatMap_escape s.toList rest
  simp [quote, Tree.readValue, hquoted]

theorem ends_nil : Ends [] :=
  stops_nil _

theorem ends_compactItems (items : List Json) (rest : List Char) :
    Ends (compactItems items ++ ']' :: rest) := by
  cases items <;> simp [compactItems, Ends]

theorem ends_compactMembers (members : List (String × Json)) (rest : List Char) :
    Ends (compactMembers members ++ '\x7d' :: rest) := by
  cases members <;> simp [compactMembers, Ends]

/-- A value is read back from its text, with room for its depth and fuel for its length. -/
def ReadsBack (v : Json) (room : Nat) : Prop :=
  ∀ fuel rest, 2 * (compactChars v).length ≤ fuel → Ends rest →
    Tree.readValue room fuel (compactChars v ++ rest) = some (tree v, rest)

theorem readItems_of_readsBack (first : Json) (items : List Json) {room : Nat}
    (hfirst : ReadsBack first room) (hitems : ∀ item ∈ items, ReadsBack item room) :
    ∀ fuel rest, 2 * (compactChars first ++ compactItems items).length + 1 ≤ fuel →
      Tree.readItems room fuel (compactChars first ++ compactItems items ++ ']' :: rest) =
        some (itemTrees (first :: items), rest) := by
  induction items generalizing first with
  | nil =>
      intro fuel rest hfuel
      obtain ⟨fuel, rfl⟩ : ∃ k, fuel = k + 1 := ⟨fuel - 1, by omega⟩
      simp only [compactItems, List.append_nil] at hfuel
      have hread := hfirst fuel (']' :: rest) (by omega) (ends_compactItems [] rest)
      simp [compactItems, Tree.readItems, hread, itemTrees]
  | cons item items ih =>
      intro fuel rest hfuel
      obtain ⟨fuel, rfl⟩ : ∃ k, fuel = k + 1 := ⟨fuel - 1, by omega⟩
      simp only [compactItems, List.length_append, List.length_cons] at hfuel
      have hread := hfirst fuel (compactItems (item :: items) ++ ']' :: rest) (by omega)
        (ends_compactItems _ _)
      have hrest := ih item (hitems item (by simp)) (fun i hi => hitems i (by simp [hi])) fuel rest
        (by simp only [List.length_append]; omega)
      simp only [compactItems, List.append_assoc, List.cons_append] at hread hrest ⊢
      simp [Tree.readItems, hread, hrest, itemTrees]

/-- The first member of an object is read up to what stands after its value. -/
theorem readMembers_quote (key : String) (v : Json) {room fuel : Nat} {after : List Char}
    (hread : Tree.readValue room fuel (compactChars v ++ after) = some (tree v, after)) :
    Tree.readMembers room (fuel + 1) (quote key ++ ':' :: (compactChars v ++ after)) =
      match Tree.skipSpace after with
      | '\x7d' :: rest => some ([(key.toList.map Glyph.char, tree v)], rest)
      | ',' :: rest =>
        (Tree.readMembers room fuel rest).map fun (members, rest) =>
          ((key.toList.map Glyph.char, tree v) :: members, rest)
      | _ => none := by
  have hkey := readQuoted_flatMap_escape key.toList (':' :: (compactChars v ++ after))
  have hquote : quote key ++ ':' :: (compactChars v ++ after) =
      '"' :: (key.toList.flatMap escape ++ '"' :: ':' :: (compactChars v ++ after)) := by
    simp [quote]
  rw [hquote, Tree.readMembers, Tree.skipSpace_cons rfl]
  simp only [hkey, Option.bind_eq_bind, Option.bind_some, Tree.skipSpace_cons (c := ':') rfl,
    hread]
  generalize Tree.skipSpace after = next
  split
  · rfl
  · simp only [Option.map_eq_bind, Function.comp_def]
    rfl
  · simp_all

theorem readMembers_of_readsBack (key : String) (value : Json) (members : List (String × Json))
    {room : Nat} (hvalue : ReadsBack value room)
    (hmembers : ∀ member ∈ members, ReadsBack member.2 room) :
    ∀ fuel rest,
      2 * (quote key ++ ':' :: compactChars value ++ compactMembers members).length + 1 ≤ fuel →
      Tree.readMembers room fuel
          (quote key ++ ':' :: compactChars value ++ compactMembers members ++ '\x7d' :: rest) =
        some (memberTrees ((key, value) :: members), rest) := by
  induction members generalizing key value with
  | nil =>
      intro fuel rest hfuel
      obtain ⟨fuel, rfl⟩ : ∃ k, fuel = k + 1 := ⟨fuel - 1, by omega⟩
      simp only [compactMembers, List.append_nil, List.length_append, List.length_cons] at hfuel
      have hread := hvalue fuel ('\x7d' :: rest) (by omega) (ends_compactMembers [] rest)
      simp only [compactMembers, List.append_nil, List.append_assoc, List.cons_append]
      rw [readMembers_quote key value hread, Tree.skipSpace_cons rfl]
      rfl
  | cons member members ih =>
      obtain ⟨nextKey, nextValue⟩ := member
      intro fuel rest hfuel
      obtain ⟨fuel, rfl⟩ : ∃ k, fuel = k + 1 := ⟨fuel - 1, by omega⟩
      simp only [compactMembers, List.length_append, List.length_cons] at hfuel
      have hread := hvalue fuel (compactMembers ((nextKey, nextValue) :: members) ++ '\x7d' :: rest)
        (by omega) (ends_compactMembers _ _)
      have hrest := ih nextKey nextValue (hmembers (nextKey, nextValue) (by simp))
        (fun m hm => hmembers m (by simp [hm])) fuel rest
        (by simp only [List.length_append, List.length_cons]; omega)
      simp only [compactMembers, List.append_assoc, List.cons_append] at hread hrest ⊢
      rw [readMembers_quote key value hread, Tree.skipSpace_cons rfl]
      simp only [hrest, memberTrees, Option.map_some]

theorem readsBack_number (n : Number) (room : Nat) : ReadsBack (.number n) room := by
  intro fuel rest hfuel hends
  have hlen : 0 < (compactChars (.number n)).length := by
    have := List.length_pos_iff.mpr (wellFormed_numeral n).whole.ne_nil
    simp only [compactChars, toList_text, Numeral.unsignedChars, List.length_append]
    omega
  obtain ⟨fuel, rfl⟩ : ∃ k, fuel = k + 1 := ⟨fuel - 1, by omega⟩
  rw [compactChars, toList_text]
  exact Tree.readValue_numeral (wellFormed_numeral n) room fuel hends.stops_continuesNumber

/-- The text of a value begins with neither white space nor the end of a list. -/
theorem compactChars_eq_cons (v : Json) : ∃ c cs, compactChars v = c :: cs ∧
    (c = ' ' || c = '\t' || c = '\n' || c = '\r') = false ∧ c ≠ ']' := by
  cases v with
  | null => exact ⟨'n', ['u', 'l', 'l'], rfl, rfl, by decide⟩
  | boolean b =>
      cases b with
      | true => exact ⟨'t', ['r', 'u', 'e'], rfl, rfl, by decide⟩
      | false => exact ⟨'f', ['a', 'l', 's', 'e'], rfl, rfl, by decide⟩
  | number n =>
      rw [compactChars, toList_text]
      cases n.numeral.negative with
      | true => exact ⟨'-', _, rfl, rfl, by decide⟩
      | false =>
          have hwhole := (wellFormed_numeral n).whole
          obtain ⟨d, ds, hds⟩ := List.exists_cons_of_ne_nil hwhole.ne_nil
          have hd : d.isDigit = true := hwhole.isDigit d (by simp [hds])
          refine ⟨d, ds ++ n.numeral.fractionChars ++ n.numeral.exponentChars, ?_,
            Tree.isSpace_digit hd, ne_of_isDigit hd rfl⟩
          simp [Binary64.signText, Numeral.unsignedChars, hds]
  | text s => exact ⟨'"', _, rfl, rfl, by decide⟩
  | list items =>
      cases items with
      | nil => exact ⟨'[', _, rfl, rfl, by decide⟩
      | cons item items => exact ⟨'[', _, rfl, rfl, by decide⟩
  | object members =>
      cases members with
      | nil => exact ⟨'\x7b', _, rfl, rfl, by decide⟩
      | cons member members => exact ⟨'\x7b', _, rfl, rfl, by decide⟩

theorem readsBack_list {items : List Json} {room : Nat}
    (h : ∀ item ∈ items, ReadsBack item room) : ReadsBack (.list items) (room + 1) := by
  intro fuel rest hfuel _
  cases items with
  | nil =>
      obtain ⟨fuel, rfl⟩ : ∃ k, fuel = k + 1 := ⟨fuel - 1, by simp [compactChars] at hfuel; omega⟩
      simp [compactChars, Tree.readValue, tree, itemTrees]
  | cons item items =>
      simp only [compactChars, List.length_append, List.length_cons] at hfuel
      obtain ⟨fuel, rfl⟩ : ∃ k, fuel = k + 1 := ⟨fuel - 1, by omega⟩
      have hitems := readItems_of_readsBack item items (h item (by simp))
        (fun i hi => h i (by simp [hi])) fuel rest
        (by simp only [List.length_append]; omega)
      obtain ⟨c, cs, hchars, hspace, hbracket⟩ := compactChars_eq_cons item
      simp only [hchars, List.append_assoc, List.cons_append] at hitems
      simp only [compactChars, hchars, List.append_assoc, List.cons_append, List.nil_append]
      rw [Tree.readValue, Tree.skipSpace_cons rfl]
      simp [Tree.skipSpace_cons hspace, hbracket, hitems, tree]

theorem readsBack_object {members : List (String × Json)} {room : Nat}
    (h : ∀ member ∈ members, ReadsBack member.2 room) : ReadsBack (.object members) (room + 1) := by
  intro fuel rest hfuel _
  cases members with
  | nil =>
      obtain ⟨fuel, rfl⟩ : ∃ k, fuel = k + 1 := ⟨fuel - 1, by simp [compactChars] at hfuel; omega⟩
      simp [compactChars, Tree.readValue, tree, memberTrees]
  | cons member members =>
      obtain ⟨key, value⟩ := member
      simp only [compactChars, List.length_append, List.length_cons] at hfuel
      obtain ⟨fuel, rfl⟩ : ∃ k, fuel = k + 1 := ⟨fuel - 1, by omega⟩
      have hmembers := readMembers_of_readsBack key value members (h (key, value) (by simp))
        (fun m hm => h m (by simp [hm])) fuel rest
        (by simp only [List.length_append, List.length_cons]; omega)
      simp only [quote, List.append_assoc, List.cons_append, List.nil_append] at hmembers
      simp only [compactChars, quote, List.append_assoc, List.cons_append, List.nil_append]
      rw [Tree.readValue, Tree.skipSpace_cons rfl]
      simp [Tree.skipSpace_cons (c := '"') rfl, hmembers, tree]

mutual

theorem readsBack : ∀ (v : Json) {room : Nat}, depth v ≤ room → ReadsBack v room
  | .null, _, _ => by
      intro fuel rest hfuel _
      obtain ⟨fuel, rfl⟩ : ∃ k, fuel = k + 1 := ⟨fuel - 1, by simp [compactChars] at hfuel; omega⟩
      rfl
  | .boolean b, _, _ => by
      intro fuel rest hfuel _
      obtain ⟨fuel, rfl⟩ : ∃ k, fuel = k + 1 := ⟨fuel - 1, by
        cases b <;> simp [compactChars] at hfuel <;> omega⟩
      cases b <;> rfl
  | .number n, room, _ => readsBack_number n room
  | .text s, room, _ => by
      intro fuel rest hfuel _
      obtain ⟨fuel, rfl⟩ : ∃ k, fuel = k + 1 := ⟨fuel - 1, by
        simp [compactChars, quote] at hfuel; omega⟩
      exact readValue_text s room fuel rest
  | .list items, room, h => by
      obtain ⟨room, rfl⟩ : ∃ k, room = k + 1 := ⟨room - 1, by simp [depth] at h; omega⟩
      exact readsBack_list (readsBack_items items (Nat.le_of_succ_le_succ h))
  | .object members, room, h => by
      obtain ⟨room, rfl⟩ : ∃ k, room = k + 1 := ⟨room - 1, by simp [depth] at h; omega⟩
      exact readsBack_object (readsBack_members members (Nat.le_of_succ_le_succ h))

theorem readsBack_items : ∀ (items : List Json) {room : Nat}, itemDepth items ≤ room →
    ∀ item ∈ items, ReadsBack item room
  | [], _, _ => by simp
  | item :: items, room, h => by
      simp only [itemDepth, Nat.max_le] at h
      intro i hi
      rcases List.mem_cons.mp hi with hi | hi
      · rw [hi]
        exact readsBack item h.1
      · exact readsBack_items items h.2 i hi

theorem readsBack_members : ∀ (members : List (String × Json)) {room : Nat},
    memberDepth members ≤ room → ∀ member ∈ members, ReadsBack member.2 room
  | [], _, _ => by simp
  | (key, value) :: members, room, h => by
      simp only [memberDepth, Nat.max_le] at h
      intro m hm
      rcases List.mem_cons.mp hm with hm | hm
      · rw [hm]
        exact readsBack value h.1
      · exact readsBack_members members h.2 m hm

end

/-- A whole text written from a value is read as the syntax of that value. -/
theorem read?_compactChars (v : Json) {room : Nat} (h : depth v ≤ room) :
    Tree.read? room (compactChars v) = some (tree v) := by
  have hread := readsBack v h (2 * (compactChars v).length + 2) [] (by omega) ends_nil
  rw [List.append_nil] at hread
  simp [Tree.read?, hread, Tree.skipSpace]

end CreditScorecard.Json
