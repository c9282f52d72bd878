import CreditScorecard.Matching
import CreditScorecard.Proofs.Text.Case

/-! # Looking for a part of a text

The operator `contains` looks for the lower-case form of a literal in that of the value. A text
that holds the literal as it is written matches, as long as the capital sigmas of the literal have
the same form in the text as by themselves; for a literal that leaves the form of one open there is
a text that holds it and does not match.
-/

namespace CreditScorecard

open Text

/-- What stands before and after a capital sigma within the literal settles its form. -/
def SettlesSigmas (literal : String) : Prop :=
  ∀ before after, literal.toList = before ++ 'Σ' :: after →
    Place.Settled ⟨before.reverse, after⟩

theorem settlesSigmas_iff {literal : String} :
    SettlesSigmas literal ↔ ∀ place ∈ places 'Σ' literal.toList, place.Settled :=
  forall_places_iff.symm

instance (literal : String) : Decidable (SettlesSigmas literal) :=
  decidable_of_iff _ settlesSigmas_iff.symm

/-- The capital sigmas of a literal have the form that they have by themselves when the literal
stands between two texts. -/
def KeepsSigmas (before literal after : String) : Prop :=
  ∀ left right, literal.toList = left ++ 'Σ' :: right →
    (Place.within ⟨left.reverse, right⟩ before.toList.reverse after.toList).sigma =
      Place.sigma ⟨left.reverse, right⟩

theorem keepsSigmas_iff {before literal after : String} :
    KeepsSigmas before literal after ↔ ∀ place ∈ places 'Σ' literal.toList,
      (place.within before.toList.reverse after.toList).sigma = place.sigma := by
  rw [forall_places_iff]
  exact Iff.rfl

theorem SettlesSigmas.keepsSigmas {literal : String} (h : SettlesSigmas literal)
    (before after : String) : KeepsSigmas before literal after :=
  fun left right hliteral => (h left right hliteral).sigma_within _ _

theorem Operator.holds_contains_text_iff {literal : String} (h : blank literal = false)
    (s : String) :
    Operator.contains.holds literal (.text s) = true ↔
      lower literal.toList <:+: lower s.toList := by
  rw [Operator.holds, h, Bool.not_false, Bool.true_and, occursIn_iff_isInfix]
  rfl

/-- A literal whose sigmas keep their form is found. -/
theorem lower_infix_of_keepsSigmas {before literal after : String}
    (h : KeepsSigmas before literal after) :
    lower literal.toList <:+: lower (before ++ literal ++ after).toList := by
  rw [String.toList_append, String.toList_append, List.append_assoc, lower_append,
    lower_eq_lowerBetween (keepsSigmas_iff.mp h)]
  exact ⟨_, _, List.append_assoc _ _ _⟩

/-- A literal that leaves the form of a sigma open is missed in some text that holds it. -/
theorem exists_not_infix_lower {literal : String} (h : ¬SettlesSigmas literal) :
    ∃ s : String, literal.toList <:+: s.toList ∧ ¬lower literal.toList <:+: lower s.toList := by
  obtain ⟨place, hmem, hopen⟩ : ∃ place ∈ places 'Σ' literal.toList, ¬place.Settled := by
    simpa [settlesSigmas_iff] using h
  cases hbefore : startsCased place.before with
  | true =>
      refine ⟨literal ++ "a", ?_, ?_⟩
      · rw [String.toList_append]
        exact (List.prefix_append _ _).isInfix
      · rw [String.toList_append]
        exact not_infix_lower_append_letter hmem hbefore hopen
  | false =>
      refine ⟨"a" ++ literal, ?_, ?_⟩
      · rw [String.toList_append]
        exact (List.suffix_append _ _).isInfix
      · rw [String.toList_append]
        exact not_infix_lower_letter_append hmem hbefore hopen

/-! ## Occurrences -/

/-- What `contains` finds of a literal in the texts that hold it as it is written: every text where
its sigmas keep their form, and every text at all exactly if it settles them. -/
structure FindsOccurrences (literal : String) : Prop where
  kept : ∀ before after : String, KeepsSigmas before literal after →
    Operator.contains.holds literal (.text (before ++ literal ++ after)) = true
  always_iff : (∀ s : String, literal.toList <:+: s.toList →
    Operator.contains.holds literal (.text s) = true) ↔ SettlesSigmas literal
  stays : SettlesSigmas literal → ∀ before s after : String, literal.toList <:+: s.toList →
    Operator.contains.holds literal (.text (before ++ s ++ after)) = true

theorem exists_eq_append_of_isInfix {literal s : String} (h : literal.toList <:+: s.toList) :
    ∃ before after : String, s = before ++ literal ++ after := by
  obtain ⟨before, after, hs⟩ := h
  refine ⟨String.ofList before, String.ofList after, ?_⟩
  rw [← String.toList_inj, ← hs]
  simp

theorem findsOccurrences {literal : String} (hliteral : blank literal = false) :
    FindsOccurrences literal := by
  have hkept : ∀ before after : String, KeepsSigmas before literal after →
      Operator.contains.holds literal (.text (before ++ literal ++ after)) = true := by
    intro before after h
    exact (Operator.holds_contains_text_iff hliteral _).mpr (lower_infix_of_keepsSigmas h)
  have hsettled : SettlesSigmas literal → ∀ s : String, literal.toList <:+: s.toList →
      Operator.contains.holds literal (.text s) = true := by
    intro hsettles s hoccurs
    obtain ⟨before, after, rfl⟩ := exists_eq_append_of_isInfix hoccurs
    exact hkept before after (hsettles.keepsSigmas before after)
  constructor
  case kept => exact hkept
  case always_iff =>
    refine ⟨fun halways => ?_, hsettled⟩
    apply Decidable.byContradiction
    intro hopen
    obtain ⟨s, hoccurs, hmissed⟩ := exists_not_infix_lower hopen
    exact hmissed ((Operator.holds_contains_text_iff hliteral s).mp (halways s hoccurs))
  case stays =>
    intro hsettles before s after hoccurs
    apply hsettled hsettles
    rw [String.toList_append, String.toList_append]
    exact hoccurs.trans ⟨_, _, rfl⟩

/-- A sigma before a space is final in every text. -/
theorem findsOccurrences_streetOf :
    blank "ΟΔΟΣ ΑΘΗΝΑΣ 5" = false ∧ SettlesSigmas "ΟΔΟΣ ΑΘΗΝΑΣ 5" ∧
      Operator.contains.holds "ΟΔΟΣ ΑΘΗΝΑΣ 5" (.text "ΛΕΩΦΟΡΟΣ Η ΟΔΟΣ ΑΘΗΝΑΣ 57") = true := by
  have hliteral : blank "ΟΔΟΣ ΑΘΗΝΑΣ 5" = false := by decide +kernel
  have hsettles : SettlesSigmas "ΟΔΟΣ ΑΘΗΝΑΣ 5" := by decide +kernel
  refine ⟨hliteral, hsettles, (findsOccurrences hliteral).always_iff.mpr hsettles _ ?_⟩
  exact occursIn_iff_isInfix.mp (by decide +kernel)

/-- The word is missed in a longer word that begins with it, where its sigma is not final. -/
theorem not_holds_contains_beginning :
    blank "ΟΔΟΣ" = false ∧ "ΟΔΟΣ".toList <:+: "ΟΔΟΣΗΜΑΝΣΗ".toList ∧
      Operator.contains.holds "ΟΔΟΣ" (.text "ΟΔΟΣ") = true ∧
      Operator.contains.holds "ΟΔΟΣ" (.text "ΟΔΟΣΗΜΑΝΣΗ") = false := by
  refine ⟨by decide +kernel, ?_, by decide +kernel, by decide +kernel⟩
  exact occursIn_iff_isInfix.mp (by decide +kernel)

end CreditScorecard
