import CreditScorecard.Json.Basic
import CreditScorecard.Json.Tree
import CreditScorecard.Proofs.Binary64.Shortest
import CreditScorecard.Proofs.Text.Digits

/-! # Numbers in JSON text

The text of every JSON number is a numeral of the JSON grammar: reading it takes the whole text
and nothing after it, and yields the digits that were written.
-/

namespace CreditScorecard.Json

open Text

/-! ## Writing and scanning numerals -/

/-- The fraction of a numeral with its point. -/
def Numeral.fractionChars (n : Numeral) : List Char :=
  if n.fraction.isEmpty then [] else '.' :: n.fraction

/-- The exponent of a numeral with its mark and sign. -/
def Numeral.exponentChars (n : Numeral) : List Char :=
  match n.exponent with
  | none => []
  | some (negative, digits) => 'e' :: (if negative then '-' else '+') :: digits

/-- The characters of a numeral after its sign. -/
def Numeral.unsignedChars (n : Numeral) : List Char :=
  n.whole ++ n.fractionChars ++ n.exponentChars

/-- The digits before a point: at least one, and no zero in front of others. -/
structure IsWhole (digits : List Char) : Prop where
  isDigit : ∀ c ∈ digits, c.isDigit = true
  ne_nil : digits ≠ []
  no_leading_zero : digits.head? = some '0' → digits.length ≤ 1

/-- The grammar of numerals. An exponent has at least one digit. -/
structure Numeral.WellFormed (n : Numeral) : Prop where
  whole : IsWhole n.whole
  fraction : ∀ c ∈ n.fraction, c.isDigit = true
  exponent : ∀ e ∈ n.exponent, e.2 ≠ [] ∧ ∀ c ∈ e.2, c.isDigit = true

/-- The characters that a number goes on with. -/
def continuesNumber (c : Char) : Bool :=
  c.isDigit || c == '.' || c == 'e' || c == 'E'

theorem stops_isDigit {rest : List Char} (h : Stops continuesNumber rest) :
    Stops Char.isDigit rest := by
  intro c hc
  have := h c hc
  simp_all [continuesNumber]

namespace Tree

theorem readExponent_of_stops {rest : List Char} (h : Stops continuesNumber rest) :
    readExponent rest = some (none, rest) := by
  cases rest with
  | nil => rfl
  | cons c cs =>
      have hc := (stops_cons _ c cs).mp h
      simp only [continuesNumber, Bool.or_eq_false_iff, beq_eq_false_iff_ne] at hc
      simp [readExponent, hc.1.2, hc.2]

theorem readExponent_digits {digits rest : List Char} (negative : Bool) (hne : digits ≠ [])
    (hdigits : ∀ c ∈ digits, c.isDigit = true) (hrest : Stops continuesNumber rest) :
    readExponent ('e' :: (if negative then '-' else '+') :: (digits ++ rest)) =
      some (some (negative, digits), rest) := by
  have htake := takeWhile_append_of_stops hdigits (stops_isDigit hrest)
  have hdrop := dropWhile_append_of_stops hdigits (stops_isDigit hrest)
  cases negative <;> simp [readExponent, htake, hdrop, hne]

theorem readFraction_of_stops {rest : List Char} (h : ∀ cs, rest ≠ '.' :: cs) :
    readFraction rest = some ([], rest) := by
  unfold readFraction
  split
  · rename_i cs
    exact absurd rfl (h cs)
  · rfl

theorem readFraction_digits {digits rest : List Char} (hne : digits ≠ [])
    (hdigits : ∀ c ∈ digits, c.isDigit = true) (hrest : Stops Char.isDigit rest) :
    readFraction ('.' :: (digits ++ rest)) = some (digits, rest) := by
  simp only [readFraction, takeWhile_append_of_stops hdigits hrest,
    dropWhile_append_of_stops hdigits hrest]
  simp [hne]

/-- The exponent of a well-formed numeral is scanned as it was written. -/
theorem readExponent_exponentChars {n : Numeral} (h : n.WellFormed) {rest : List Char}
    (hrest : Stops continuesNumber rest) :
    readExponent (n.exponentChars ++ rest) = some (n.exponent, rest) := by
  cases he : n.exponent with
  | none => simpa [Numeral.exponentChars, he] using readExponent_of_stops hrest
  | some e =>
      obtain ⟨negative, digits⟩ := e
      obtain ⟨hne, hdigits⟩ := h.exponent (negative, digits) (by simp [he])
      simpa [Numeral.exponentChars, he] using readExponent_digits negative hne hdigits hrest

theorem stops_exponentChars (n : Numeral) {rest : List Char}
    (hrest : Stops continuesNumber rest) :
    Stops Char.isDigit (n.exponentChars ++ rest) ∧ ∀ cs, n.exponentChars ++ rest ≠ '.' :: cs := by
  cases he : n.exponent with
  | none =>
      refine ⟨by simpa [Numeral.exponentChars, he] using stops_isDigit hrest, ?_⟩
      rintro cs h
      simp only [Numeral.exponentChars, he, List.nil_append] at h
      subst h
      exact absurd ((stops_cons _ _ _).mp hrest) (by decide)
  | some e => simp [Numeral.exponentChars, he, show Char.isDigit 'e' = false from rfl]

theorem readFraction_fractionChars {n : Numeral} (h : n.WellFormed) {rest : List Char}
    (hrest : Stops Char.isDigit rest ∧ ∀ cs, rest ≠ '.' :: cs) :
    readFraction (n.fractionChars ++ rest) = some (n.fraction, rest) := by
  by_cases hf : n.fraction = []
  · simpa [Numeral.fractionChars, hf] using readFraction_of_stops hrest.2
  · simpa [Numeral.fractionChars, hf] using readFraction_digits hf h.fraction hrest.1

theorem stops_fractionChars (n : Numeral) {rest : List Char} (hrest : Stops Char.isDigit rest) :
    Stops Char.isDigit (n.fractionChars ++ rest) := by
  by_cases hf : n.fraction = []
  · simpa [Numeral.fractionChars, hf] using hrest
  · simp [Numeral.fractionChars, hf, show Char.isDigit '.' = false from rfl]

/-- A well-formed numeral is scanned as it was written, whatever stands after it. -/
theorem readNumeral_unsignedChars {n : Numeral} (h : n.WellFormed) {rest : List Char}
    (hrest : Stops continuesNumber rest) :
    readNumeral n.negative (n.unsignedChars ++ rest) = some (n, rest) := by
  have hexponent := stops_exponentChars n hrest
  have hfraction := stops_fractionChars n hexponent.1
  have hwhole : ¬(n.whole.isEmpty = true ∨
      n.whole.head? = some '0' ∧ 1 < n.whole.length) := by
    rintro (hempty | ⟨hzero, hlong⟩)
    · exact h.whole.ne_nil (List.isEmpty_iff.mp hempty)
    · exact absurd (h.whole.no_leading_zero hzero) (by omega)
  simp only [readNumeral, Numeral.unsignedChars, List.append_assoc,
    takeWhile_append_of_stops h.whole.isDigit hfraction,
    dropWhile_append_of_stops h.whole.isDigit hfraction, if_neg hwhole,
    readFraction_fractionChars h hexponent, Option.bind_eq_bind, Option.bind_some,
    readExponent_exponentChars h hrest]
  rfl

end Tree

/-! ## The numerals that are written -/

/-- The layout of a decimal in JSON text: positional near one, scientific elsewhere. -/
def decimalNumeral (negative : Bool) (d : Decimal) : Numeral :=
  let digits := Nat.toDigits 10 d.digits
  let point := digits.length + d.exponent
  if -5 < point ∧ point ≤ 16 then
    match d.exponent with
    | .ofNat zeros => ⟨negative, digits ++ List.replicate zeros '0', ['0'], none⟩
    | .negSucc places =>
      let places := places + 1
      if places < digits.length then
        ⟨negative, digits.take (digits.length - places), digits.drop (digits.length - places),
          none⟩
      else ⟨negative, ['0'], List.replicate (places - digits.length) '0' ++ digits, none⟩
  else
    ⟨negative, digits.take 1, digits.drop 1,
      some (decide (point - 1 < 0), Nat.toDigits 10 (point - 1).natAbs)⟩

@[simp] theorem negative_decimalNumeral (negative : Bool) (d : Decimal) :
    (decimalNumeral negative d).negative = negative := by
  unfold decimalNumeral
  dsimp only
  split
  · split
    · rfl
    · split <;> rfl
  · rfl

theorem unsignedChars_decimalNumeral (negative : Bool) (d : Decimal) :
    (decimalNumeral negative d).unsignedChars = Binary64.withPoint d := by
  have hne : Nat.toDigits 10 d.digits ≠ [] := Nat.toDigits_ne_nil
  unfold decimalNumeral Binary64.withPoint Decimal.positional
  dsimp only
  split
  · cases hexp : d.exponent with
    | ofNat zeros => simp [Numeral.unsignedChars, Numeral.fractionChars, Numeral.exponentChars]
    | negSucc places =>
        dsimp only
        split
        · rename_i hlt
          have hdrop : (Nat.toDigits 10 d.digits).length - (places + 1) <
              (Nat.toDigits 10 d.digits).length := by omega
          simp [Numeral.unsignedChars, Numeral.fractionChars, Numeral.exponentChars, hdrop]
        · simp [Numeral.unsignedChars, Numeral.fractionChars, Numeral.exponentChars, hne]
  · simp [Numeral.unsignedChars, Numeral.fractionChars, Numeral.exponentChars]

theorem isWhole_toDigits (n : Nat) : IsWhole (Nat.toDigits 10 n) := by
  refine ⟨fun c hc => isDigit_of_mem_toDigits hc, Nat.toDigits_ne_nil, ?_⟩
  intro h
  rw [(head?_toDigits_eq_zero_iff n).mp h]
  decide

theorem isWhole_toDigits_append {n : Nat} (hn : n ≠ 0) (zeros : Nat) :
    IsWhole (Nat.toDigits 10 n ++ List.replicate zeros '0') := by
  refine ⟨?_, by simp, ?_⟩
  · intro c hc
    rcases List.mem_append.mp hc with hc | hc
    · exact isDigit_of_mem_toDigits hc
    · rw [List.eq_of_mem_replicate hc]
      decide
  · intro h
    rw [head?_toDigits_append, head?_toDigits_eq_zero_iff] at h
    exact absurd h hn

theorem isWhole_take_toDigits {n : Nat} (hn : n ≠ 0) {k : Nat} (hk : k ≠ 0) :
    IsWhole ((Nat.toDigits 10 n).take k) := by
  refine ⟨fun c hc => isDigit_of_mem_toDigits (List.mem_of_mem_take hc), by simp [hk], ?_⟩
  intro h
  rw [List.head?_take, if_neg hk, head?_toDigits_eq_zero_iff] at h
  exact absurd h hn

theorem wellFormed_decimalNumeral (negative : Bool) {d : Decimal}
    (hzero : d.digits = 0 → d.exponent = 0) : (decimalNumeral negative d).WellFormed := by
  have hlength : 0 < (Nat.toDigits 10 d.digits).length := Nat.length_toDigits_pos
  unfold decimalNumeral
  dsimp only
  split
  · cases hexp : d.exponent with
    | ofNat zeros =>
        refine ⟨?_, by simp, by simp⟩
        by_cases hd : d.digits = 0
        · have hz : zeros = 0 := by simpa [hexp] using hzero hd
          simpa [hz] using isWhole_toDigits d.digits
        · exact isWhole_toDigits_append hd zeros
    | negSucc places =>
        have hd : d.digits ≠ 0 := by
          intro h
          simp [hexp] at hzero
          exact hzero h
        dsimp only
        split
        · rename_i hlt
          refine ⟨isWhole_take_toDigits hd (by omega), ?_, by simp⟩
          exact fun c hc => isDigit_of_mem_toDigits (List.mem_of_mem_drop hc)
        · refine ⟨isWhole_toDigits 0, ?_, by simp⟩
          intro c hc
          rcases List.mem_append.mp hc with hc | hc
          · rw [List.eq_of_mem_replicate hc]
            decide
          · exact isDigit_of_mem_toDigits hc
  · rename_i hpoint
    have hd : d.digits ≠ 0 := by
      intro h
      rw [h, hzero h] at hpoint
      simp at hpoint
    refine ⟨isWhole_take_toDigits hd (by decide), ?_, ?_⟩
    · exact fun c hc => isDigit_of_mem_toDigits (List.mem_of_mem_drop hc)
    · rintro e ⟨⟩
      exact ⟨Nat.toDigits_ne_nil, fun c hc => isDigit_of_mem_toDigits hc⟩

/-! ## Numbers -/

/-- The numeral of a number. -/
def Number.numeral : Number → Numeral
  | .integer k => ⟨decide (k < 0), Nat.toDigits 10 k.natAbs, [], none⟩
  | .real (.finite negative n _) _ => decimalNumeral negative (Binary64.shortest .even n)
  | .real _ _ => ⟨false, ['0'], [], none⟩

theorem wellFormed_numeral (n : Number) : n.numeral.WellFormed := by
  cases n with
  | integer k => exact ⟨isWhole_toDigits k.natAbs, by simp [Number.numeral],
      by simp [Number.numeral]⟩
  | real x finite =>
      cases x with
      | finite negative n _ =>
          exact wellFormed_decimalNumeral negative Binary64.exponent_shortest_of_digits_eq_zero
      | nan => exact nomatch finite
      | infinite negative => exact nomatch finite

/-- The text of a number is its numeral, after a minus for a negative one. -/
theorem toList_text (n : Number) :
    n.text.toList = Binary64.signText n.numeral.negative ++ n.numeral.unsignedChars := by
  cases n with
  | integer k =>
      by_cases hk : k < 0 <;>
        simp [Number.text, intText, Number.numeral, hk, Binary64.signText, Numeral.unsignedChars,
          Numeral.fractionChars, Numeral.exponentChars]
  | real x finite =>
      cases x with
      | finite negative n _ =>
          simp [Number.text, Binary64.jsonText, Number.numeral, unsignedChars_decimalNumeral]
      | nan => exact nomatch finite
      | infinite negative => exact nomatch finite

end CreditScorecard.Json
