import CreditScorecard.Text.Blank
import CreditScorecard.Text.Case

/-! # Upper-case forms

A character that has no upper-case form of its own stays as it is. All others turn into capitals,
which the mapping leaves alone, so taking the upper-case form twice is taking it once.
-/

namespace CreditScorecard.Text

/-! ## The codes that the mapping changes -/

/-- A set of codes as the bits of a number: the table has too many entries to go through it once
for every character that it maps to. -/
def codeSet (codes : List Nat) : Nat :=
  codes.foldr (fun code set => set ||| 1 <<< code) 0

theorem testBit_codeSet_iff {codes : List Nat} {code : Nat} :
    (codeSet codes).testBit code = true ↔ code ∈ codes := by
  induction codes with
  | nil => simp [codeSet]
  | cons first rest ih =>
      rw [codeSet, List.foldr_cons, Nat.testBit_or, Bool.or_eq_true, ← codeSet, ih,
        Nat.one_shiftLeft, Nat.testBit_two_pow, decide_eq_true_eq, List.mem_cons, or_comm]
      exact or_congr_left eq_comm

/-- The codes that a run covers. -/
def CaseRun.codes (run : CaseRun) : List Nat :=
  (List.range ((run.last - run.first) / run.stride + 1)).map fun k => run.first + run.stride * k

theorem CaseRun.mem_codes_of_covers {run : CaseRun} {code : Nat} (h : run.covers code = true) :
    code ∈ run.codes := by
  simp only [covers, Bool.and_eq_true, decide_eq_true_eq, beq_iff_eq] at h
  obtain ⟨⟨hfirst, hlast⟩, hstride⟩ := h
  have hsteps : run.stride * ((code - run.first) / run.stride) = code - run.first :=
    Nat.mul_div_cancel' (Nat.dvd_of_mod_eq_zero hstride)
  refine List.mem_map.mpr ⟨(code - run.first) / run.stride, List.mem_range.mpr ?_, by omega⟩
  exact Nat.lt_succ_of_le (Nat.div_le_div_right (by omega))

/-- The codes of the characters with an upper-case form of their own. -/
def upperCodes : List Nat :=
  upperExpansions.map (·.1) ++ upperRuns.flatMap CaseRun.codes

theorem upperChar_of_not_mem {c : Char} (h : c.toNat ∉ upperCodes) : upperChar c = [c] := by
  rw [upperCodes, List.mem_append, not_or] at h
  have hexpansion : upperExpansions.find? (·.1 == c.toNat) = none := by
    refine List.find?_eq_none.mpr fun expansion hmem heq => h.1 ?_
    exact List.mem_map.mpr ⟨expansion, hmem, beq_iff_eq.mp heq⟩
  have hrun : upperRuns.find? (·.covers c.toNat) = none := by
    refine List.find?_eq_none.mpr fun run hmem hcovers => h.2 ?_
    exact List.mem_flatMap.mpr ⟨run, hmem, run.mem_codes_of_covers hcovers⟩
  rw [upperChar, hexpansion, mapCase, hrun]

/-! ## Capitals -/

/-- A character that the mapping leaves alone, none of the separators of words and none of the
small letters and digits of ASCII. -/
def isCapital (c : Char) : Bool :=
  !(codeSet upperCodes).testBit c.toNat && !isBlank c && c != '_' && !c.isLower && !c.isDigit

theorem isCapital_of_mem_runs :
    ∀ run ∈ upperRuns, ∀ code ∈ run.codes, isCapital (Char.ofNat (run.apply code)) = true := by
  decide +kernel

theorem isCapital_of_mem_expansions :
    ∀ expansion ∈ upperExpansions, expansion.2 ≠ [] ∧
      ∀ code ∈ expansion.2, isCapital (Char.ofNat code) = true := by
  decide +kernel

theorem upperChar_of_isCapital {c : Char} (h : isCapital c = true) : upperChar c = [c] := by
  apply upperChar_of_not_mem
  intro hmem
  simp [isCapital, testBit_codeSet_iff.mpr hmem] at h

/-- A character stays as it is or turns into capitals. -/
theorem upperChar_cases (c : Char) :
    upperChar c = [c] ∨ upperChar c ≠ [] ∧ ∀ d ∈ upperChar c, isCapital d = true := by
  rw [upperChar]
  cases hexpansion : upperExpansions.find? (·.1 == c.toNat) with
  | some expansion =>
      right
      obtain ⟨hne, hcapital⟩ :=
        isCapital_of_mem_expansions expansion (List.mem_of_find?_eq_some hexpansion)
      exact ⟨mt List.map_eq_nil_iff.mp hne, List.forall_mem_map.mpr hcapital⟩
  | none =>
      rw [mapCase]
      cases hrun : upperRuns.find? (·.covers c.toNat) with
      | none => exact .inl rfl
      | some run =>
          right
          have hcovers := List.find?_some hrun
          refine ⟨List.cons_ne_nil _ _, fun d hd => ?_⟩
          rw [List.mem_singleton.mp hd]
          exact isCapital_of_mem_runs run (List.mem_of_find?_eq_some hrun) _
            (run.mem_codes_of_covers hcovers)

theorem upperChar_ne_nil (c : Char) : upperChar c ≠ [] := by
  rcases upperChar_cases c with hself | ⟨hne, -⟩
  · simp [hself]
  · exact hne

end CreditScorecard.Text
