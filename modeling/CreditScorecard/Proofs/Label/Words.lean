import CreditScorecard.Scorecard.Label
import Mathlib.Data.List.Chain
import Mathlib.Data.List.TakeWhile

/-! # The words of a field's name

A name is taken apart at its boundaries and separators, and its words are joined by single spaces.
Nothing but separators is lost on the way, and words that are joined are taken apart again into the
same words.
-/

namespace CreditScorecard.Label

/-- What is left of a text without its separators. -/
def letters (cs : List Char) : List Char :=
  cs.filter (!isSeparator ·)

theorem letters_cons (c : Char) (cs : List Char) :
    letters (c :: cs) = if isSeparator c then letters cs else c :: letters cs := by
  rw [letters, List.filter_cons, ← letters]
  cases isSeparator c <;> rfl

theorem letters_append (cs ds : List Char) : letters (cs ++ ds) = letters cs ++ letters ds :=
  List.filter_append cs ds

theorem letters_eq_self {cs : List Char} (h : ∀ c ∈ cs, isSeparator c = false) :
    letters cs = cs :=
  List.filter_eq_self.mpr fun c hc => by simp [h c hc]

theorem isSeparator_space : isSeparator ' ' = true := by
  decide

/-! ## Boundaries -/

/-- Two neighbours with no boundary between them: the first is no small letter or digit, or the
second no capital, of ASCII in each case. -/
def Joined (a b : Char) : Prop :=
  ((a.isLower || a.isDigit) && b.isUpper) = false

theorem joined_of_isLower_isDigit {a : Char} (hlower : a.isLower = false)
    (hdigit : a.isDigit = false) (b : Char) : Joined a b := by
  simp [Joined, hlower, hdigit]

theorem joined_of_isUpper (a : Char) {b : Char} (h : b.isUpper = false) : Joined a b := by
  simp [Joined, h]

theorem isLower_isDigit_of_isUpper {c : Char} (h : c.isUpper = true) :
    c.isLower = false ∧ c.isDigit = false := by
  obtain ⟨hlow, hhigh⟩ : 65 ≤ c.val ∧ c.val ≤ 90 := of_decide_eq_true h
  constructor
  · change (decide (97 ≤ c.val) && decide (c.val ≤ 122)) = false
    grind
  · change (decide (48 ≤ c.val) && decide (c.val ≤ 57)) = false
    grind

theorem joined_space (a : Char) : Joined a ' ' :=
  joined_of_isUpper a (by decide)

theorem space_joined (b : Char) : Joined ' ' b :=
  joined_of_isLower_isDigit (by decide) (by decide) b

theorem exists_splitWords_cons (c : Char) (cs : List Char) :
    ∃ rest, splitWords (c :: cs) = c :: rest := by
  cases cs with
  | nil => exact ⟨[], rfl⟩
  | cons d cs =>
      rw [splitWords]
      split
      · exact ⟨_, rfl⟩
      · exact ⟨_, rfl⟩

theorem letters_splitWords (cs : List Char) : letters (splitWords cs) = letters cs := by
  fun_induction splitWords cs with
  | case1 a b cs _ ih =>
      rw [letters_cons, letters_cons, if_pos isSeparator_space, ih, ← letters_cons]
  | case2 a b cs _ ih => rw [letters_cons, ih, ← letters_cons]
  | case3 cs => rfl

/-- No boundary is left where the words have been set apart. -/
theorem isChain_splitWords (cs : List Char) : (splitWords cs).IsChain Joined := by
  fun_induction splitWords cs with
  | case1 a b cs _ ih =>
      refine .cons_cons (joined_space a) ?_
      exact ih.cons fun c _ => space_joined c
  | case2 a b cs hjoined ih =>
      obtain ⟨rest, hrest⟩ := exists_splitWords_cons b cs
      rw [hrest] at ih ⊢
      exact .cons_cons (Bool.eq_false_iff.mpr hjoined) ih
  | case3 cs hshort =>
      cases cs with
      | nil => exact .nil
      | cons a rest =>
          cases rest with
          | nil => exact .singleton a
          | cons b cs => exact (hshort a b cs rfl).elim

theorem splitWords_of_isChain {cs : List Char} (h : cs.IsChain Joined) : splitWords cs = cs := by
  induction h with
  | nil => rfl
  | singleton a => rfl
  | cons_cons hjoined _ ih => rw [splitWords, if_neg (Bool.eq_false_iff.mp hjoined), ih]

/-! ## Taking apart -/

section

variable {c d : Char}

theorem words_cons_of_separator (h : isSeparator c = true) (cs : List Char) :
    words (c :: cs) = words cs := by
  cases cs <;> simp [words, h]

theorem words_singleton (h : isSeparator c = false) : words [c] = [[c]] := by
  simp [words, h]

theorem words_cons_separator (hc : isSeparator c = false) (hd : isSeparator d = true)
    (cs : List Char) : words (c :: d :: cs) = [c] :: words cs := by
  rw [← words_cons_of_separator hd]
  simp [words, hc, hd]

theorem words_cons_cons {cs word : List Char} {others : List (List Char)}
    (hc : isSeparator c = false) (hd : isSeparator d = false)
    (h : words (d :: cs) = word :: others) : words (c :: d :: cs) = (c :: word) :: others := by
  rw [words.eq_def]
  simp only [hc, hd, h, Bool.false_eq_true, if_false]

end

/-- The text of a run of letters and what follows it, if that begins with a separator. -/
theorem words_append {word rest : List Char} (hne : word ≠ [])
    (hword : ∀ c ∈ word, isSeparator c = false) (hrest : ∀ c ∈ rest.head?, isSeparator c = true) :
    words (word ++ rest) = word :: words rest := by
  induction word with
  | nil => exact absurd rfl hne
  | cons c word ih =>
      obtain ⟨hc, hword⟩ := List.forall_mem_cons.mp hword
      cases word with
      | nil =>
          cases rest with
          | nil => exact words_singleton hc
          | cons d rest =>
              have hd := hrest d rfl
              rw [words_cons_of_separator hd]
              exact words_cons_separator hc hd rest
      | cons d word =>
          have hd := hword d List.mem_cons_self
          exact words_cons_cons hc hd (ih (List.cons_ne_nil d word) hword)

/-- The words of a text follow from those of the text after a separator, and from those of the
text after a longest run of letters. -/
@[elab_as_elim]
theorem words_induction {motive : List Char → List (List Char) → Prop} (nil : motive [] [])
    (separator : ∀ c cs, isSeparator c = true → motive cs (words cs) → motive (c :: cs) (words cs))
    (word : ∀ word rest, word ≠ [] → (∀ c ∈ word, isSeparator c = false) →
      (∀ c ∈ rest.head?, isSeparator c = true) → motive rest (words rest) →
      motive (word ++ rest) (word :: words rest))
    (cs : List Char) : motive cs (words cs) := by
  induction hlength : cs.length using Nat.strongRecOn generalizing cs with
  | ind n ih =>
      cases cs with
      | nil => exact nil
      | cons c cs =>
          cases hc : isSeparator c with
          | true =>
              rw [words_cons_of_separator hc]
              exact separator c cs hc (ih cs.length (by simp [← hlength]) cs rfl)
          | false =>
              obtain ⟨run, rest, hcs, hrun, hrest⟩ : ∃ run rest, cs = run ++ rest ∧
                  (∀ d ∈ run, isSeparator d = false) ∧ ∀ d ∈ rest.head?, isSeparator d = true := by
                refine ⟨cs.takeWhile (!isSeparator ·), cs.dropWhile (!isSeparator ·),
                  List.takeWhile_append_dropWhile.symm, fun d hd => ?_, fun d hd => ?_⟩
                · simpa using List.mem_takeWhile_imp hd
                · have hnot := List.head?_dropWhile_not (!isSeparator ·) cs
                  rw [hd] at hnot
                  simpa using hnot
              have hletters : ∀ d ∈ c :: run, isSeparator d = false :=
                List.forall_mem_cons.mpr ⟨hc, hrun⟩
              rw [hcs, ← List.cons_append, words_append (List.cons_ne_nil c run) hletters hrest]
              apply word _ _ (List.cons_ne_nil c run) hletters hrest
              have hshorter : rest.length < n := by
                rw [← hlength, hcs, List.length_cons, List.length_append]
                omega
              exact ih rest.length hshorter rest rfl

theorem flatten_words (cs : List Char) : (words cs).flatten = letters cs := by
  induction cs using words_induction with
  | nil => rfl
  | separator c cs hc ih => rw [letters_cons, if_pos hc, ih]
  | word word rest _ hletters _ ih =>
      rw [letters_append, letters_eq_self hletters, List.flatten_cons, ih]

theorem ne_nil_of_mem_words {cs word : List Char} (h : word ∈ words cs) : word ≠ [] := by
  induction cs using words_induction with
  | nil => cases h
  | separator c cs hc ih => exact ih h
  | word first rest hne _ _ ih =>
      rcases List.mem_cons.mp h with rfl | hmem
      · exact hne
      · exact ih hmem

theorem isChain_of_mem_words {cs word : List Char} {R : Char → Char → Prop} (hcs : cs.IsChain R)
    (h : word ∈ words cs) : word.IsChain R := by
  induction cs using words_induction with
  | nil => cases h
  | separator c cs hc ih => exact ih hcs.tail h
  | word first rest _ _ _ ih =>
      rcases List.mem_cons.mp h with rfl | hmem
      · exact hcs.left_of_append
      · exact ih hcs.right_of_append hmem

theorem isSeparator_of_mem_words {cs word : List Char} (h : word ∈ words cs) {c : Char}
    (hc : c ∈ word) : isSeparator c = false := by
  have hmem : c ∈ letters cs := flatten_words cs ▸ List.mem_flatten_of_mem h hc
  simpa using (List.mem_filter.mp hmem).2

/-! ## Joining -/

theorem unwords_cons_cons (word next : List Char) (others : List (List Char)) :
    unwords (word :: next :: others) = word ++ ' ' :: unwords (next :: others) :=
  rfl

theorem unwords_append_cons (cs word : List Char) (others : List (List Char)) :
    unwords ((cs ++ word) :: others) = cs ++ unwords (word :: others) := by
  cases others with
  | nil => rfl
  | cons next others => exact List.append_assoc cs word _

theorem mem_unwords {ws : List (List Char)} {c : Char} (h : c ∈ unwords ws) :
    c = ' ' ∨ ∃ word ∈ ws, c ∈ word := by
  induction ws with
  | nil => cases h
  | cons word ws ih =>
      cases ws with
      | nil => exact .inr ⟨word, List.mem_cons_self, h⟩
      | cons next ws =>
          rw [unwords_cons_cons, List.mem_append, List.mem_cons] at h
          rcases h with hword | hspace | hrest
          · exact .inr ⟨word, List.mem_cons_self, hword⟩
          · exact .inl hspace
          · exact (ih hrest).imp_right fun ⟨other, hmem, hc⟩ =>
              ⟨other, List.mem_cons_of_mem _ hmem, hc⟩

/-- Words without separators in them. -/
structure AreWords (ws : List (List Char)) : Prop where
  ne_nil : ∀ word ∈ ws, word ≠ []
  letters : ∀ word ∈ ws, ∀ c ∈ word, isSeparator c = false

theorem areWords_words (cs : List Char) : AreWords (words cs) :=
  ⟨fun _ h => ne_nil_of_mem_words h, fun _ h _ hc => isSeparator_of_mem_words h hc⟩

namespace AreWords

variable {word : List Char} {ws : List (List Char)}

theorem of_cons (h : AreWords (word :: ws)) : AreWords ws :=
  ⟨fun w hw => h.ne_nil w (List.mem_cons_of_mem _ hw),
    fun w hw => h.letters w (List.mem_cons_of_mem _ hw)⟩

theorem letters_unwords (h : AreWords ws) : Label.letters (unwords ws) = ws.flatten := by
  induction ws with
  | nil => rfl
  | cons word ws ih =>
      have hword := letters_eq_self (h.letters word List.mem_cons_self)
      cases ws with
      | nil => rw [unwords, hword, List.flatten_singleton]
      | cons next ws =>
          rw [unwords_cons_cons, letters_append, letters_cons, if_pos isSeparator_space, hword,
            ih h.of_cons, List.flatten_cons (l := word)]

/-- Joined words are taken apart again into the same words. -/
theorem words_unwords (h : AreWords ws) : words (unwords ws) = ws := by
  induction ws with
  | nil => rfl
  | cons word ws ih =>
      have hne := h.ne_nil word List.mem_cons_self
      have hletters := h.letters word List.mem_cons_self
      cases ws with
      | nil =>
          have hself : words (word ++ []) = [word] := words_append hne hletters (by simp)
          rwa [List.append_nil] at hself
      | cons next ws =>
          rw [unwords_cons_cons, words_append hne hletters (by simp [isSeparator_space]),
            words_cons_of_separator isSeparator_space, ih h.of_cons]

/-- Joined words begin with a letter. -/
theorem exists_unwords_eq_cons (h : AreWords (word :: ws)) :
    ∃ c rest, unwords (word :: ws) = c :: rest ∧ isSeparator c = false := by
  cases word with
  | nil => exact absurd rfl (h.ne_nil [] List.mem_cons_self)
  | cons c word =>
      have hc := h.letters _ List.mem_cons_self c List.mem_cons_self
      exact ⟨c, unwords (word :: ws), unwords_append_cons [c] word ws, hc⟩

theorem unwords_eq_nil_iff (h : AreWords ws) : unwords ws = [] ↔ ws.flatten = [] := by
  cases ws with
  | nil => rfl
  | cons word ws =>
      obtain ⟨c, rest, heq, -⟩ := h.exists_unwords_eq_cons
      have hne := h.ne_nil word List.mem_cons_self
      simp [heq, hne]

theorem isSeparator_of_mem_head? (h : AreWords ws) {c : Char} (hc : c ∈ (unwords ws).head?) :
    isSeparator c = false := by
  cases ws with
  | nil => cases hc
  | cons word ws =>
      obtain ⟨d, rest, heq, hd⟩ := h.exists_unwords_eq_cons
      rw [heq] at hc
      obtain rfl := Option.some.inj hc
      exact hd

theorem isSeparator_of_mem_getLast? (h : AreWords ws) {c : Char}
    (hc : c ∈ (unwords ws).getLast?) : isSeparator c = false := by
  induction ws with
  | nil => cases hc
  | cons word ws ih =>
      cases ws with
      | nil => exact h.letters word List.mem_cons_self c (List.mem_of_mem_getLast? hc)
      | cons next ws =>
          obtain ⟨d, rest, heq, -⟩ := h.of_cons.exists_unwords_eq_cons
          apply ih h.of_cons
          rw [unwords_cons_cons, heq, List.getLast?_append, List.getLast?_cons_cons] at hc
          rw [heq]
          simpa [List.getLast?_cons] using hc

/-- What holds of all neighbours in the words, and of any letter next to a space, holds of all
neighbours in the joined words. -/
theorem isChain_unwords {R : Char → Char → Prop} (h : AreWords ws)
    (hchain : ∀ word ∈ ws, word.IsChain R)
    (hspace : ∀ c, isSeparator c = false → R c ' ' ∧ R ' ' c) : (unwords ws).IsChain R := by
  induction ws with
  | nil => exact .nil
  | cons word ws ih =>
      obtain ⟨hword, hws⟩ := List.forall_mem_cons.mp hchain
      cases ws with
      | nil => exact hword
      | cons next ws =>
          have hnext : (' ' :: unwords (next :: ws)).IsChain R :=
            (ih h.of_cons hws).cons fun c hc => (hspace c (h.of_cons.isSeparator_of_mem_head? hc)).2
          refine hword.append hnext fun a ha b hb => ?_
          obtain rfl := Option.some.inj hb
          have hmem := List.mem_of_mem_getLast? ha
          exact (hspace a (h.letters word List.mem_cons_self a hmem)).1

end AreWords

end CreditScorecard.Label
