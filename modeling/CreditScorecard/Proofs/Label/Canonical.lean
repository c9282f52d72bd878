import CreditScorecard.Proofs.Label.Words
import CreditScorecard.Proofs.Text.Trim
import CreditScorecard.Proofs.Text.Upper

/-! # Labels are canonical

The label of a field's name shows the letters of the name in order, the first of them in upper case,
in words with single spaces between them. No boundary is left inside a word, and no capital at the
start makes a new one, so the label of a label is the label itself.
-/

namespace CreditScorecard.Label

open Text

theorem isSeparator_of_isBlank {c : Char} (h : isBlank c = true) : isSeparator c = true := by
  simp [isSeparator, h]

theorem isBlank_of_isSeparator {c : Char} (h : isSeparator c = false) : isBlank c = false := by
  rw [isSeparator, Bool.or_eq_false_iff] at h
  exact h.2

/-! ## Capitals at the start -/

section

variable {c d : Char} {cs : List Char}

theorem isSeparator_of_isCapital (h : isCapital c = true) : isSeparator c = false := by
  simp only [isCapital, Bool.and_eq_true, Bool.not_eq_true', bne_iff_ne] at h
  simp [isSeparator, h]

theorem joined_of_isCapital (h : isCapital c = true) (d : Char) : Joined c d := by
  simp only [isCapital, Bool.and_eq_true, Bool.not_eq_true', bne_iff_ne] at h
  exact joined_of_isLower_isDigit h.1.2 h.2 d

theorem isSeparator_of_mem_upperChar (hc : isSeparator c = false) (hd : d ∈ upperChar c) :
    isSeparator d = false := by
  rcases upperChar_cases c with hself | ⟨-, hcapital⟩
  · rw [hself] at hd
    rwa [List.mem_singleton.mp hd]
  · exact isSeparator_of_isCapital (hcapital d hd)

theorem isChain_capitalize (h : cs.IsChain Joined) : (capitalize cs).IsChain Joined := by
  cases cs with
  | nil => exact .nil
  | cons c cs =>
      rcases upperChar_cases c with hself | ⟨-, hcapital⟩
      · rwa [capitalize, hself]
      · rw [capitalize]
        -- no capital is the first half of a boundary
        have hcapitals : ∀ ds : List Char, (∀ d ∈ ds, isCapital d = true) →
            (ds ++ cs).IsChain Joined := by
          intro ds hds
          induction ds with
          | nil => exact h.tail
          | cons d ds ih =>
              obtain ⟨hd, hds⟩ := List.forall_mem_cons.mp hds
              exact (ih hds).cons fun b _ => joined_of_isCapital hd b
        exact hcapitals _ hcapital

theorem upperChar_of_mem_head? (h : d ∈ (capitalize cs).head?) : upperChar d = [d] := by
  cases cs with
  | nil => cases h
  | cons c cs =>
      rw [capitalize] at h
      rcases upperChar_cases c with hself | ⟨hne, hcapital⟩
      · rw [hself] at h
        obtain rfl := Option.some.inj h
        exact hself
      · obtain ⟨e, es, heq⟩ := List.exists_cons_of_ne_nil hne
        rw [heq] at h hcapital
        obtain rfl := Option.some.inj h
        exact upperChar_of_isCapital (hcapital _ List.mem_cons_self)

theorem capitalize_eq_nil_iff : capitalize cs = [] ↔ cs = [] := by
  cases cs with
  | nil => rfl
  | cons c cs => simp [capitalize, upperChar_ne_nil c]

theorem capitalize_eq_self (h : ∀ c ∈ cs.head?, upperChar c = [c]) : capitalize cs = cs := by
  cases cs with
  | nil => rfl
  | cons c cs => rw [capitalize, h c rfl, List.singleton_append]

end

/-! ## The words of a label -/

/-- Turns the first character of the first word into its upper-case form. -/
def capitalizeFirst : List (List Char) → List (List Char)
  | [] => []
  | word :: others => capitalize word :: others

/-- The words of a label. -/
structure Titled (ws : List (List Char)) : Prop extends AreWords ws where
  joined : ∀ word ∈ ws, word.IsChain Joined
  capital : capitalize (unwords ws) = unwords ws

section

variable {ws : List (List Char)}

theorem unwords_capitalizeFirst (h : AreWords ws) :
    unwords (capitalizeFirst ws) = capitalize (unwords ws) := by
  cases ws with
  | nil => rfl
  | cons word ws =>
      obtain ⟨c, rest, rfl⟩ := List.exists_cons_of_ne_nil (h.ne_nil word List.mem_cons_self)
      have heq := unwords_append_cons [c] rest ws
      rw [List.singleton_append] at heq
      rw [capitalizeFirst, capitalize, unwords_append_cons, heq]
      rfl

theorem flatten_capitalizeFirst (h : AreWords ws) :
    (capitalizeFirst ws).flatten = capitalize ws.flatten := by
  cases ws with
  | nil => rfl
  | cons word ws =>
      obtain ⟨c, rest, rfl⟩ := List.exists_cons_of_ne_nil (h.ne_nil word List.mem_cons_self)
      simp [capitalizeFirst, capitalize]

theorem titled_capitalizeFirst (h : AreWords ws) (hjoined : ∀ word ∈ ws, word.IsChain Joined) :
    Titled (capitalizeFirst ws) := by
  have hcapital : capitalize (unwords (capitalizeFirst ws)) = unwords (capitalizeFirst ws) := by
    rw [unwords_capitalizeFirst h]
    exact capitalize_eq_self fun c hc => upperChar_of_mem_head? hc
  cases ws with
  | nil => exact ⟨h, hjoined, hcapital⟩
  | cons word ws =>
      obtain ⟨c, rest, rfl⟩ := List.exists_cons_of_ne_nil (h.ne_nil word List.mem_cons_self)
      obtain ⟨hword, hws⟩ := List.forall_mem_cons.mp hjoined
      obtain ⟨hc, hrest⟩ := List.forall_mem_cons.mp (h.letters _ List.mem_cons_self)
      have hletters : ∀ d ∈ upperChar c ++ rest, isSeparator d = false := by
        intro d hd
        rcases List.mem_append.mp hd with hd | hd
        · exact isSeparator_of_mem_upperChar hc hd
        · exact hrest d hd
      have hne : upperChar c ++ rest ≠ [] := by simp [upperChar_ne_nil]
      refine ⟨⟨?_, ?_⟩, ?_, hcapital⟩
      · exact List.forall_mem_cons.mpr ⟨hne, h.of_cons.ne_nil⟩
      · exact List.forall_mem_cons.mpr ⟨hletters, h.of_cons.letters⟩
      · exact List.forall_mem_cons.mpr ⟨isChain_capitalize hword, hws⟩

theorem trimmed_unwords (h : AreWords ws) : Trimmed (unwords ws) where
  first _ hc := isBlank_of_isSeparator (h.isSeparator_of_mem_head? hc)
  last _ hc := isBlank_of_isSeparator (h.isSeparator_of_mem_getLast? hc)

theorem Titled.isChain_joined (h : Titled ws) : (unwords ws).IsChain Joined :=
  h.isChain_unwords h.joined fun c _ => ⟨joined_space c, space_joined c⟩

/-- The words of a label make a label that is shown as it is. -/
theorem Titled.humanize_eq (h : Titled ws) :
    humanize (String.ofList (unwords ws)) = String.ofList (unwords ws) := by
  rw [humanize, String.toList_ofList, splitWords_of_isChain h.isChain_joined, h.words_unwords,
    h.capital]

end

/-- Every label consists of such words, and they hold the letters of the name. -/
theorem exists_titled (field : String) : ∃ ws, Titled ws ∧ (humanize field).toList = unwords ws ∧
    ws.flatten = capitalize (letters field.toList) := by
  have hwords := areWords_words (splitWords field.toList)
  refine ⟨capitalizeFirst (words (splitWords field.toList)), ?_, ?_, ?_⟩
  · apply titled_capitalizeFirst hwords
    exact fun word hword => isChain_of_mem_words (isChain_splitWords field.toList) hword
  · rw [humanize, String.toList_ofList, unwords_capitalizeFirst hwords]
  · rw [flatten_capitalizeFirst hwords, flatten_words, letters_splitWords]

theorem trimmed_humanize (field : String) : Trimmed (humanize field).toList := by
  obtain ⟨ws, hws, hlabel, -⟩ := exists_titled field
  exact hlabel ▸ trimmed_unwords hws.toAreWords

theorem eq_space_of_mem_humanize {field : String} {c : Char} (hc : c ∈ (humanize field).toList)
    (hseparator : isSeparator c = true) : c = ' ' := by
  obtain ⟨ws, hws, hlabel, -⟩ := exists_titled field
  rw [hlabel] at hc
  rcases mem_unwords hc with hspace | ⟨word, hword, hmem⟩
  · exact hspace
  · rw [hws.letters word hword c hmem] at hseparator
    cases hseparator

/-- Names without letters have no label. -/
theorem humanize_eq_empty_iff {field : String} :
    humanize field = "" ↔ ∀ c ∈ field.toList, isSeparator c = true := by
  obtain ⟨ws, hws, hlabel, hflatten⟩ := exists_titled field
  rw [← String.toList_eq_nil_iff, hlabel, hws.unwords_eq_nil_iff, hflatten, capitalize_eq_nil_iff,
    letters, List.filter_eq_nil_iff]
  simp only [Bool.not_eq_true', Bool.not_eq_false]

/-! ## Rewriting the name -/

/-- Puts a space into every pair of a small letter or digit and a capital, ASCII only. The pairs are
taken from the left and do not overlap. -/
def spacePairs : List Char → List Char
  | a :: b :: cs =>
    if (a.isLower || a.isDigit) && b.isUpper then a :: ' ' :: b :: spacePairs cs
    else a :: spacePairs (b :: cs)
  | cs => cs

/-- Puts a single space for every run of separators; `within` says that the text before ends with a
separator of the run. -/
def spaceRuns (within : Bool) : List Char → List Char
  | [] => []
  | c :: cs =>
    if isSeparator c then
      if within then spaceRuns true cs else ' ' :: spaceRuns true cs
    else c :: spaceRuns false cs

/-- Pairs that do not overlap are enough: the capital of a pair is not the small letter of
another. -/
theorem spacePairs_eq (cs : List Char) : spacePairs cs = splitWords cs := by
  fun_induction spacePairs cs with
  | case1 a b cs hboundary ih =>
      obtain ⟨hlower, hdigit⟩ := isLower_isDigit_of_isUpper (Bool.and_eq_true_iff.mp hboundary).2
      have hcapital : splitWords (b :: cs) = b :: splitWords cs := by
        cases cs with
        | nil => rfl
        | cons c cs => simp [splitWords, hlower, hdigit]
      rw [splitWords, if_pos hboundary, hcapital, ih]
  | case2 a b cs hjoined ih => rw [splitWords, if_neg hjoined, ih]
  | case3 cs hshort =>
      cases cs with
      | nil => rfl
      | cons a rest =>
          cases rest with
          | nil => rfl
          | cons b cs => exact (hshort a b cs rfl).elim

theorem spaceRuns_append {word : List Char} (hne : word ≠ [])
    (hword : ∀ c ∈ word, isSeparator c = false) (within : Bool) (rest : List Char) :
    spaceRuns within (word ++ rest) = word ++ spaceRuns false rest := by
  induction word generalizing within with
  | nil => exact absurd rfl hne
  | cons c word ih =>
      obtain ⟨hc, hword⟩ := List.forall_mem_cons.mp hword
      rw [List.cons_append, spaceRuns, if_neg (by simp [hc])]
      cases word with
      | nil => rfl
      | cons d word =>
          rw [ih (List.cons_ne_nil d word) hword]
          rfl

theorem exists_spaceRuns_eq_append (cs : List Char) :
    ∃ left, (∀ c ∈ left, isBlank c = true) ∧ spaceRuns false cs = left ++ spaceRuns true cs := by
  cases cs with
  | nil => exact ⟨[], by simp, rfl⟩
  | cons c cs =>
      cases hc : isSeparator c with
      | true => exact ⟨[' '], List.forall_mem_singleton.mpr (by decide), by simp [spaceRuns, hc]⟩
      | false => exact ⟨[], by simp, by simp [spaceRuns, hc]⟩

/-- With one space for each run of separators a text shows its words, white space at the ends
aside. -/
theorem exists_spaceRuns_eq_unwords (cs : List Char) : ∃ right, (∀ c ∈ right, isBlank c = true) ∧
    spaceRuns true cs = unwords (words cs) ++ right := by
  induction cs using words_induction with
  | nil => exact ⟨[], by simp, rfl⟩
  | separator c cs hc ih => rwa [spaceRuns, if_pos hc, if_pos rfl]
  | word word rest hne hletters hrest ih =>
      rw [spaceRuns_append hne hletters]
      cases rest with
      | nil => exact ⟨[], by simp, rfl⟩
      | cons d rest =>
          obtain ⟨right, hright, hruns⟩ := ih
          have hd := hrest d rfl
          have hspace : spaceRuns false (d :: rest) = ' ' :: spaceRuns true (d :: rest) := by
            simp [spaceRuns, hd]
          rw [hspace, hruns]
          cases words (d :: rest) with
          | nil =>
              refine ⟨' ' :: right, List.forall_mem_cons.mpr ⟨by decide, hright⟩, rfl⟩
          | cons next others =>
              refine ⟨right, hright, ?_⟩
              rw [unwords_cons_cons, List.append_assoc, List.cons_append]

theorem trimChars_spaceRuns (cs : List Char) :
    trimChars (spaceRuns false cs) = unwords (words cs) := by
  obtain ⟨left, hleft, hstart⟩ := exists_spaceRuns_eq_append cs
  obtain ⟨right, hright, hruns⟩ := exists_spaceRuns_eq_unwords cs
  rw [hstart, hruns, ← List.append_assoc, trimChars_padded hleft hright,
    (trimmed_unwords (areWords_words cs)).trimChars_eq]

/-! ## The label of a name -/

/-- What the label of a name says of it, and how the label is written. -/
structure Humanized (field label : String) : Prop where
  again : humanize label = label
  letters : letters label.toList = capitalize (letters field.toList)
  underscore : '_' ∉ label.toList
  spaces : ∀ c ∈ label.toList, isBlank c = true → c = ' '
  single : label.toList.IsChain fun a b => ¬(isBlank a = true ∧ isBlank b = true)
  trimmed : Trimmed label.toList
  unbroken : label.toList.IsChain fun a b =>
    ¬((a.isLower = true ∨ a.isDigit = true) ∧ b.isUpper = true)
  rewritten : label =
    String.ofList (capitalize (trimChars (spaceRuns false (spacePairs field.toList))))

theorem humanized (field : String) : Humanized field (humanize field) := by
  obtain ⟨ws, hws, hlabel, hflatten⟩ := exists_titled field
  have htext : humanize field = String.ofList (unwords ws) := by
    rw [← hlabel, String.ofList_toList]
  constructor
  case again => rw [htext, hws.humanize_eq]
  case letters => rw [hlabel, hws.letters_unwords, hflatten]
  case underscore =>
    intro hmem
    exact absurd (eq_space_of_mem_humanize hmem (by decide)) (by decide)
  case spaces =>
    exact fun c hc hblank => eq_space_of_mem_humanize hc (isSeparator_of_isBlank hblank)
  case single =>
    rw [hlabel]
    apply hws.isChain_unwords
    · intro word hword
      apply (List.pairwise_of_forall_mem_list fun a ha b _ => ?_).isChain
      simp [isBlank_of_isSeparator (hws.letters word hword a ha)]
    · intro c hc
      simp [isBlank_of_isSeparator hc]
  case trimmed => exact trimmed_humanize field
  case unbroken =>
    rw [hlabel]
    refine hws.isChain_joined.imp fun a b hjoined => ?_
    simpa [Joined] using hjoined
  case rewritten => rw [trimChars_spaceRuns, spacePairs_eq, humanize]

example : humanize "aBcD1E__code " = "A Bc D1 E code" := by
  decide +kernel

end CreditScorecard.Label
