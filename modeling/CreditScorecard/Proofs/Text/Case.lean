import CreditScorecard.Text.Case

/-! # The lower case of a part

The lower-case form of a text is that of its parts one after the other, each taken in its place.
What stands around a part matters to its capital sigmas alone, and only to those that the part
itself leaves open.
-/

namespace CreditScorecard.Text

/-! ## Parts -/

/-- The lower-case form of a part between the text before it, nearest character first, and the text
after it. -/
def lowerBetween (before : List Char) : List Char → List Char → List Char
  | [], _ => []
  | c :: cs, after => lowerChar before c (cs ++ after) ++ lowerBetween (c :: before) cs after

theorem lowerAfter_append (before cs after : List Char) :
    lowerAfter before (cs ++ after) =
      lowerBetween before cs after ++ lowerAfter (cs.reverse ++ before) after := by
  induction cs generalizing before with
  | nil => rfl
  | cons c cs ih =>
      rw [List.cons_append, lowerAfter, ih, lowerBetween, List.append_assoc, List.reverse_cons,
        List.append_assoc]
      rfl

theorem lowerAfter_eq_lowerBetween (before cs : List Char) :
    lowerAfter before cs = lowerBetween before cs [] := by
  have happend := lowerAfter_append before cs []
  rwa [List.append_nil, lowerAfter, List.append_nil] at happend

/-- A part has its lower-case form inside that of the whole. -/
theorem lower_append (before part after : List Char) :
    lower (before ++ (part ++ after)) =
      lowerBetween [] before (part ++ after) ++
        (lowerBetween before.reverse part after ++
          lowerAfter (part.reverse ++ before.reverse) after) := by
  rw [lower, lowerAfter_append, lowerAfter_append, List.append_nil]

/-! ## Places -/

/-- The text around a character: what stands before it, nearest character first, and after it. -/
structure Place where
  before : List Char
  after : List Char

/-- A place in a part, seen in the whole. -/
def Place.within (place : Place) (before after : List Char) : Place :=
  ⟨place.before ++ before, place.after ++ after⟩

@[simp]
theorem Place.within_nil (place : Place) : place.within [] [] = place := by
  simp [within]

/-- The places of a character in the rest of a text. -/
def placesAfter (target : Char) (before : List Char) : List Char → List Place
  | [] => []
  | c :: cs =>
    if c = target then ⟨before, cs⟩ :: placesAfter target (c :: before) cs
    else placesAfter target (c :: before) cs

/-- The places of a character in a text. -/
def places (target : Char) (cs : List Char) : List Place :=
  placesAfter target [] cs

theorem mem_placesAfter_iff {target : Char} {place : Place} {before cs : List Char} :
    place ∈ placesAfter target before cs ↔
      ∃ passed, cs = passed ++ target :: place.after ∧
        place.before = passed.reverse ++ before := by
  induction cs generalizing before with
  | nil => simp [placesAfter]
  | cons c cs ih =>
      have hlater : place ∈ placesAfter target (c :: before) cs ↔
          ∃ passed, c :: cs = (c :: passed) ++ target :: place.after ∧
            place.before = (c :: passed).reverse ++ before := by
        rw [ih]
        simp
      rw [placesAfter]
      constructor
      · intro h
        have hcases : c = target ∧ place = ⟨before, cs⟩ ∨
            place ∈ placesAfter target (c :: before) cs := by
          split at h
          · rename_i hc
            exact (List.mem_cons.mp h).imp_left fun hplace => ⟨hc, hplace⟩
          · exact .inr h
        rcases hcases with ⟨rfl, rfl⟩ | hmem
        · exact ⟨[], rfl, rfl⟩
        · obtain ⟨passed, hcs, hbefore⟩ := hlater.mp hmem
          exact ⟨c :: passed, hcs, hbefore⟩
      · rintro ⟨passed, hcs, hbefore⟩
        cases passed with
        | nil =>
            obtain ⟨hc, hafter⟩ := List.cons.inj hcs
            rw [if_pos hc, List.mem_cons]
            left
            cases place
            simp_all
        | cons d passed =>
            obtain rfl := (List.cons.inj hcs).1
            have hmem := hlater.mpr ⟨passed, hcs, hbefore⟩
            split
            · exact List.mem_cons_of_mem _ hmem
            · exact hmem

/-- A character stands at a place of a text exactly if it joins what comes before and after. -/
theorem mem_places_iff {target : Char} {place : Place} {cs : List Char} :
    place ∈ places target cs ↔ cs = place.before.reverse ++ target :: place.after := by
  rw [places, mem_placesAfter_iff]
  constructor
  · rintro ⟨passed, hcs, hbefore⟩
    rw [hbefore, List.append_nil, List.reverse_reverse]
    exact hcs
  · intro hcs
    exact ⟨place.before.reverse, hcs, by simp⟩

/-- What holds of every place of a character holds of it between any two parts that it joins. -/
theorem forall_places_iff {target : Char} {cs : List Char} {p : Place → Prop} :
    (∀ place ∈ places target cs, p place) ↔
      ∀ before after, cs = before ++ target :: after → p ⟨before.reverse, after⟩ := by
  constructor
  · intro h before after hcs
    apply h
    rw [mem_places_iff, List.reverse_reverse]
    exact hcs
  · intro h place hmem
    have hplace := h _ _ (mem_places_iff.mp hmem)
    rwa [List.reverse_reverse] at hplace

/-! ## Capital sigmas -/

/-- The lower-case form of a capital sigma. -/
def Place.sigma (place : Place) : Char :=
  if startsCased place.before && !startsCased place.after then 'ς' else 'σ'

theorem lowerChar_sigma (before after : List Char) :
    lowerChar before 'Σ' after = [(Place.mk before after).sigma] :=
  rfl

theorem lowerChar_of_ne_sigma {c : Char} (h : c ≠ 'Σ') (before after before' after' : List Char) :
    lowerChar before c after = lowerChar before' c after' := by
  simp only [lowerChar, if_neg h]

/-- A part has one lower-case form in two places if each of its capital sigmas has. -/
theorem lowerBetween_congr {before after before' after' passed cs : List Char}
    (h : ∀ place ∈ placesAfter 'Σ' passed cs,
      (place.within before after).sigma = (place.within before' after').sigma) :
    lowerBetween (passed ++ before) cs after = lowerBetween (passed ++ before') cs after' := by
  induction cs generalizing passed with
  | nil => rfl
  | cons c cs ih =>
      rw [placesAfter] at h
      rw [lowerBetween, lowerBetween]
      by_cases hc : c = 'Σ'
      · rw [if_pos hc] at h
        obtain ⟨hhead, htail⟩ := List.forall_mem_cons.mp h
        have hform : lowerChar (passed ++ before) c (cs ++ after) =
            lowerChar (passed ++ before') c (cs ++ after') := by
          rw [hc, lowerChar_sigma, lowerChar_sigma]
          exact congrArg (fun form => [form]) hhead
        rw [hform]
        exact congrArg _ (ih htail)
      · rw [if_neg hc] at h
        rw [lowerChar_of_ne_sigma hc _ _ (passed ++ before') (cs ++ after')]
        exact congrArg _ (ih h)

theorem lower_eq_lowerBetween {before after part : List Char}
    (h : ∀ place ∈ places 'Σ' part, (place.within before after).sigma = place.sigma) :
    lower part = lowerBetween before part after := by
  rw [lower, lowerAfter_eq_lowerBetween]
  have hcongr : lowerBetween ([] ++ []) part [] = lowerBetween ([] ++ before) part after := by
    apply lowerBetween_congr
    intro place hmem
    rw [h place hmem, Place.within_nil]
  exact hcongr

/-- Apart from its capital sigmas, a part has the same characters in every place. -/
theorem count_lowerBetween (x : Char) (before after passed cs : List Char) :
    (lowerBetween (passed ++ before) cs after).count x =
      ((cs.filter (· ≠ 'Σ')).flatMap fun c => lowerChar [] c []).count x +
        (placesAfter 'Σ' passed cs).countP fun place =>
          (place.within before after).sigma == x := by
  induction cs generalizing passed with
  | nil => rfl
  | cons c cs ih =>
      have hrest := ih (c :: passed)
      rw [List.cons_append] at hrest
      rw [lowerBetween, List.count_append, hrest, placesAfter]
      by_cases hc : c = 'Σ'
      · have hform : (lowerChar (passed ++ before) c (cs ++ after)).count x =
            if (Place.within ⟨passed, cs⟩ before after).sigma == x then 1 else 0 := by
          rw [hc, lowerChar_sigma]
          exact List.count_singleton
        rw [if_pos hc, List.filter_cons_of_neg (by simpa using hc), List.countP_cons, hform]
        omega
      · rw [if_neg hc, List.filter_cons_of_pos (by simpa using hc), List.flatMap_cons,
          List.count_append, lowerChar_of_ne_sigma hc (passed ++ before) (cs ++ after) [] []]
        omega

theorem countP_lt_countP {α : Type} {p q : α → Bool} {xs : List α} {x : α}
    (h : ∀ x ∈ xs, p x = true → q x = true) (hx : x ∈ xs) (hp : p x = false) (hq : q x = true) :
    xs.countP p < xs.countP q := by
  obtain ⟨before, after, rfl⟩ := List.append_of_mem hx
  obtain ⟨hbefore, hafter⟩ := List.forall_mem_append.mp h
  have hleft := List.countP_mono_left hbefore
  have hright := List.countP_mono_left (List.forall_mem_cons.mp hafter).2
  rw [List.countP_append, List.countP_append, List.countP_cons, List.countP_cons, if_pos hq,
    if_neg (by simp [hp])]
  omega

/-! ## Sigmas whose form is settled -/

/-- Whether a character comes first that is not cased, once the ignorable ones are passed over. -/
def startsUncased (cs : List Char) : Bool :=
  match cs.dropWhile isCaseIgnorable with
  | [] => false
  | c :: _ => !isCased c

@[simp]
theorem startsCased_nil : startsCased [] = false :=
  rfl

theorem startsCased_letter : startsCased ['a'] = true := by
  decide +kernel

theorem startsCased_eq_false_of_startsUncased {cs : List Char} (h : startsUncased cs = true) :
    startsCased cs = false := by
  unfold startsUncased at h
  unfold startsCased
  cases hcs : cs.dropWhile isCaseIgnorable with
  | nil => rfl
  | cons c rest => simpa [hcs] using h

/-- A text that holds nothing but ignorable characters leaves the answer to what follows. -/
theorem startsCased_append (cs rest : List Char) :
    startsCased (cs ++ rest) = (startsCased cs || !startsUncased cs && startsCased rest) := by
  unfold startsCased startsUncased
  rw [List.dropWhile_append]
  cases hcs : cs.dropWhile isCaseIgnorable with
  | nil => simp
  | cons c others => cases hc : isCased c <;> simp [hc]

/-- The form of a sigma is settled if it follows a character that is not cased or precedes a cased
one, or if it follows a cased one and precedes one that is not, ignorable characters aside. -/
def Place.Settled (place : Place) : Prop :=
  startsUncased place.before = true ∨ startsCased place.after = true ∨
    startsCased place.before = true ∧ startsUncased place.after = true

instance (place : Place) : Decidable place.Settled :=
  inferInstanceAs (Decidable (_ ∨ _))

/-- A settled sigma has one form, whatever stands around the part. -/
theorem Place.Settled.sigma_within {place : Place} (h : place.Settled) (before after : List Char) :
    (place.within before after).sigma = place.sigma := by
  rw [sigma, sigma, within, startsCased_append, startsCased_append]
  rcases h with hbefore | hafter | ⟨hbefore, hafter⟩
  · simp [hbefore, startsCased_eq_false_of_startsUncased hbefore]
  · simp [hafter]
  · simp [hbefore, hafter, startsCased_eq_false_of_startsUncased hafter]

/-! ## Sigmas whose form is open -/

theorem Place.sigma_eq_final_iff {place : Place} :
    place.sigma = 'ς' ↔ startsCased place.before = true ∧ startsCased place.after = false := by
  have hne : 'σ' ≠ 'ς' := by decide
  unfold sigma
  cases startsCased place.before <;> cases startsCased place.after <;> simp [hne]

theorem Place.sigma_within_eq_final_iff {place : Place} {before after : List Char} :
    (place.within before after).sigma = 'ς' ↔
      (startsCased place.before || !startsUncased place.before && startsCased before) = true ∧
        (startsCased place.after || !startsUncased place.after && startsCased after) = false := by
  rw [sigma_eq_final_iff, within, startsCased_append, startsCased_append]

theorem Place.sigma_eq_medial_iff {place : Place} :
    place.sigma = 'σ' ↔ place.sigma ≠ 'ς' := by
  have hne : 'σ' ≠ 'ς' := by decide
  unfold sigma
  split <;> simp [hne, hne.symm]

theorem not_settled_iff {place : Place} :
    ¬place.Settled ↔ startsUncased place.before = false ∧ startsCased place.after = false ∧
      (startsCased place.before = true → startsUncased place.after = false) := by
  simp [Place.Settled]

/-- If no sigma of a part has a form in some place only, and one loses that form there, the part
has fewer characters of that form in the place than by itself. -/
theorem count_lowerBetween_lt {x : Char} {part before after : List Char} {place : Place}
    (h : ∀ place ∈ places 'Σ' part, (place.within before after).sigma = x → place.sigma = x)
    (hmem : place ∈ places 'Σ' part) (hlost : (place.within before after).sigma ≠ x)
    (hform : place.sigma = x) :
    (lowerBetween before part after).count x < (lower part).count x := by
  have hwithin := count_lowerBetween x before after [] part
  have hself := count_lowerBetween x [] [] [] part
  have hlt : (places 'Σ' part).countP (fun place => (place.within before after).sigma == x) <
      (places 'Σ' part).countP fun place => (place.within [] []).sigma == x := by
    apply countP_lt_countP _ hmem
    · exact beq_false_of_ne hlost
    · simpa using hform
    · simpa using h
  rw [List.nil_append] at hwithin hself
  rw [lower, lowerAfter_eq_lowerBetween, hwithin, hself]
  exact Nat.add_lt_add_left hlt _

/-- A part with more of a character than there is elsewhere does not occur there. -/
theorem not_infix_of_count_lt {x : Char} {part whole : List Char}
    (h : whole.count x < part.count x) : ¬part <:+: whole :=
  fun hpart => Nat.not_le_of_lt h (hpart.sublist.count_le x)

/-- A letter behind the part makes an open sigma at the end of a word medial, and no sigma final. -/
theorem not_infix_lower_append_letter {part : List Char} {place : Place}
    (hmem : place ∈ places 'Σ' part) (hbefore : startsCased place.before = true)
    (h : ¬place.Settled) : ¬lower part <:+: lower (part ++ ['a']) := by
  obtain ⟨-, hafter, hopen⟩ := not_settled_iff.mp h
  have hlt : (lowerBetween [] part ['a']).count 'ς' < (lower part).count 'ς' := by
    apply count_lowerBetween_lt _ hmem
    · rw [Ne, Place.sigma_within_eq_final_iff, hopen hbefore, startsCased_letter]
      simp
    · exact Place.sigma_eq_final_iff.mpr ⟨hbefore, hafter⟩
    · intro place _
      rw [Place.sigma_within_eq_final_iff, Place.sigma_eq_final_iff]
      simp +contextual
  have hlower : lower (part ++ ['a']) = lowerBetween [] part ['a'] ++ ['a'] :=
    lowerAfter_append [] part ['a']
  apply not_infix_of_count_lt (x := 'ς')
  rw [hlower, List.count_append]
  exact hlt

/-- A letter in front of the part makes an open sigma at the start of a word final, and no sigma
medial. -/
theorem not_infix_lower_letter_append {part : List Char} {place : Place}
    (hmem : place ∈ places 'Σ' part) (hbefore : startsCased place.before = false)
    (h : ¬place.Settled) : ¬lower part <:+: lower (['a'] ++ part) := by
  obtain ⟨hopen, hafter, -⟩ := not_settled_iff.mp h
  have hlt : (lowerBetween ['a'] part []).count 'σ' < (lower part).count 'σ' := by
    apply count_lowerBetween_lt _ hmem
    · rw [Ne, Place.sigma_eq_medial_iff, Decidable.not_not, Place.sigma_within_eq_final_iff,
        hopen, hafter, startsCased_letter]
      simp
    · rw [Place.sigma_eq_medial_iff, Ne, Place.sigma_eq_final_iff, hbefore]
      simp
    · intro place _
      rw [Place.sigma_eq_medial_iff, Place.sigma_eq_medial_iff, Ne, Ne,
        Place.sigma_within_eq_final_iff, Place.sigma_eq_final_iff]
      simp +contextual
  have hlower : lower (['a'] ++ part) = ['a'] ++ lowerBetween ['a'] part [] :=
    congrArg _ (lowerAfter_eq_lowerBetween ['a'] part)
  apply not_infix_of_count_lt (x := 'σ')
  rw [hlower, List.count_append]
  simpa using hlt

end CreditScorecard.Text
