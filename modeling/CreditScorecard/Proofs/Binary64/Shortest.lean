import CreditScorecard.Binary64.Shortest
import CreditScorecard.Proofs.Binary64.Decimals
import Mathlib.Data.Nat.Log

/-! # The shortest decimal reads back

The search for the shortest decimal ends at a point of the interval of a magnitude, and every such
point is rounded to that magnitude. On which grid the search ends does not depend on how ties are
broken.
-/

namespace CreditScorecard.Binary64

/-! ## Points of the interval -/

/-- The units of `10 ^ -1074` in a unit of `2 ^ -1074`. -/
def scale : ℕ :=
  Nat.pow 5 1074

theorem scale_pos : 0 < scale := by
  unfold scale
  generalize 1074 = k
  exact Nat.pow_pos (by decide)

theorem value_interval (n : ℕ) : (interval n).value = 4 * n * scale := by
  unfold interval scale
  generalize Nat.pow 5 1074 = s
  rfl

theorem low_interval (n : ℕ) : (interval n).low = (4 * n - gapBelow n) * scale := by
  unfold interval scale
  generalize Nat.pow 5 1074 = s
  rfl

theorem high_interval (n : ℕ) : (interval n).high = (4 * n + 2 * spacing n) * scale := by
  unfold interval scale
  generalize Nat.pow 5 1074 = s
  rfl

theorem closed_interval (n : ℕ) : (interval n).closed = (n / spacing n % 2 == 0) :=
  rfl

theorem roundsTo_of_contains {n x : ℕ} (h : (interval n).contains (4 * x) = true) :
    RoundsTo n x scale := by
  rw [Interval.contains, low_interval, high_interval, closed_interval] at h
  generalize scale = s at h
  split at h
  · rename_i hclosed
    simp only [Bool.and_eq_true, decide_eq_true_eq] at h
    have heven : n / spacing n % 2 = 0 := eq_of_beq hclosed
    exact ⟨h.1, h.2, fun _ => heven, fun _ => heven⟩
  · simp only [Bool.and_eq_true, decide_eq_true_eq] at h
    exact ⟨h.1.le, h.2.le, fun heq => absurd heq h.1.ne, fun heq => absurd heq h.2.ne⟩

theorem gapBelow_pos (n : ℕ) : 0 < gapBelow n := by
  have := spacing_pos n
  unfold gapBelow
  split <;> omega

/-- A magnitude lies in its own interval. -/
theorem contains_value {n : ℕ} (hn : n ≠ 0) :
    (interval n).contains (interval n).value = true := by
  have hgap := gapBelow_pos n
  have hstep := spacing_pos n
  have hs := scale_pos
  rw [Interval.contains, value_interval, low_interval, high_interval]
  generalize scale = s at hs ⊢
  have hlow : (4 * n - gapBelow n) * s < 4 * n * s :=
    Nat.mul_lt_mul_of_pos_right (by omega) hs
  have hhigh : 4 * n * s < (4 * n + 2 * spacing n) * s :=
    Nat.mul_lt_mul_of_pos_right (by omega) hs
  simp [hlow, hhigh, hlow.le, hhigh.le]

/-! ## The search -/

/-- What is found on a grid is one of its two points around the number, inside the interval. -/
theorem Interval.contains_of_onGrid {i : Interval} {tie : Tie} {g digits : ℕ}
    (h : i.onGrid tie g = some digits) : i.contains (4 * (digits * 10 ^ g)) = true := by
  have hpoint : ∀ d, d * (4 * Nat.pow 10 g) = 4 * (d * 10 ^ g) := fun d => by
    rw [Nat.mul_left_comm]
    rfl
  unfold onGrid at h
  simp only [hpoint] at h
  split at h
  · cases h
  · cases h
    assumption
  · cases h
    assumption
  · split at h
    · cases h
      assumption
    · split at h
      · cases h
        assumption
      · cases tie with
        | greater =>
            cases h
            assumption
        | even =>
            cases h
            split <;> assumption

theorem Interval.onGrid_eq_none_iff {i : Interval} {tie : Tie} {g : ℕ} :
    i.onGrid tie g = none ↔
      i.contains (i.value / (4 * 10 ^ g) * (4 * 10 ^ g)) = false ∧
        i.contains ((i.value / (4 * 10 ^ g) + 1) * (4 * 10 ^ g)) = false := by
  have hpow : Nat.pow 10 g = 10 ^ g := rfl
  unfold onGrid
  simp only [hpow]
  split
  · simp_all
  · simp_all
  · simp_all
  · rename_i hlower hupper
    simp only [hlower, hupper, Bool.true_eq_false, false_and, iff_false]
    split
    · simp
    · split
      · simp
      · cases tie <;> simp

theorem contains_search {n : ℕ} (hn : n ≠ 0) (tie : Tie) (g : ℕ) :
    (interval n).contains
      (4 * (((interval n).search tie g).1 * 10 ^ ((interval n).search tie g).2)) = true := by
  induction g with
  | zero =>
      have hvalue := contains_value hn
      have hquarter : 4 * ((interval n).value / 4 * 10 ^ 0) = (interval n).value := by
        rw [value_interval, Nat.mul_assoc, Nat.mul_div_cancel_left _ (by decide), pow_zero,
          Nat.mul_one]
      rw [Interval.search, hquarter]
      exact hvalue
  | succ g ih =>
      rw [Interval.search]
      split
      · rename_i digits hgrid
        exact Interval.contains_of_onGrid hgrid
      · exact ih

/-- The grid on which the search begins. -/
def Interval.firstGrid (i : Interval) : ℕ :=
  i.value.log2 * 302 / 1000 + 2

/-- All ways to break ties find the same grid. -/
theorem Interval.grid_search (i : Interval) (tie tie' : Tie) (g : ℕ) :
    (i.search tie g).2 = (i.search tie' g).2 := by
  induction g with
  | zero => rfl
  | succ g ih =>
      rw [search, search]
      cases hgrid : i.onGrid tie (g + 1) with
      | none =>
          have hgrid' : i.onGrid tie' (g + 1) = none :=
            onGrid_eq_none_iff.mpr (onGrid_eq_none_iff.mp hgrid)
          rw [hgrid']
          exact ih
      | some digits =>
          cases hgrid' : i.onGrid tie' (g + 1) with
          | none =>
              rw [onGrid_eq_none_iff.mpr (onGrid_eq_none_iff.mp hgrid')] at hgrid
              cases hgrid
          | some digits' => rfl

theorem exponent_shortest (tie tie' : Tie) (n : ℕ) :
    (shortest tie n).exponent = (shortest tie' n).exponent := by
  unfold shortest
  split
  · rfl
  · rw [Interval.shortest, Interval.shortest, Interval.grid_search _ tie tie']

/-! ## Reading the shortest decimal -/

theorem exists_units_mul_scale_eq : ∃ k, k = 1074 ∧ unitsPerOne * scale = 10 ^ k := by
  refine ⟨1074, rfl, ?_⟩
  unfold unitsPerOne scale
  generalize 1074 = k
  exact (Nat.mul_pow 2 5 k).symm

/-- A decimal on a grid, as a quotient of units. -/
theorem num_mul_scale_eq (digits g : ℕ) :
    Decimal.num ⟨digits, g - 1074⟩ * unitsPerOne * scale =
      digits * 10 ^ g * Decimal.den ⟨digits, g - 1074⟩ := by
  obtain ⟨k, hk, hscale⟩ := exists_units_mul_scale_eq
  have hexponent : ((g : ℤ) - 1074).toNat + k = g + (-((g : ℤ) - 1074)).toNat := by omega
  rw [Decimal.num, Decimal.den, Nat.mul_assoc, Nat.mul_assoc, hscale, Nat.mul_assoc, ← pow_add,
    ← pow_add, hexponent]

theorem shortest_of_ne_zero {n : ℕ} (hn : n ≠ 0) (tie : Tie) :
    shortest tie n = ⟨((interval n).search tie (interval n).firstGrid).1,
      ((interval n).search tie (interval n).firstGrid).2 - 1074⟩ :=
  if_neg hn

theorem exists_shortest_eq {n : ℕ} (hn : n ≠ 0) (tie : Tie) :
    ∃ digits g : ℕ, shortest tie n = ⟨digits, g - 1074⟩ ∧
      (interval n).contains (4 * (digits * 10 ^ g)) = true :=
  ⟨_, _, shortest_of_ne_zero hn tie, contains_search hn tie _⟩

theorem nearestMagnitude_shortest {n : ℕ} (hn : spacing n ∣ n) (tie : Tie) :
    nearestMagnitude ((shortest tie n).num * unitsPerOne) (shortest tie n).den = n := by
  by_cases hzero : n = 0
  · subst hzero
    apply nearestMagnitude_eq_zero
    rw [shortest, if_pos rfl, Decimal.num, Nat.zero_mul, Nat.zero_mul]
    exact Decimal.den_pos _
  · obtain ⟨digits, g, hshortest, hcontains⟩ := exists_shortest_eq hzero tie
    rw [hshortest, nearestMagnitude_eq_of_mul_eq (Decimal.den_pos _) scale_pos
      (num_mul_scale_eq digits g)]
    exact nearestMagnitude_eq_of_roundsTo hn scale_pos (roundsTo_of_contains hcontains)

/-- The shortest decimal of a number is read as that number. -/
theorem ofDecimal_shortest {n : ℕ} (h : Representable n) (tie : Tie) (negative : Bool) :
    ofDecimal negative (shortest tie n) = .finite negative n h := by
  rw [ofDecimal_eq_ofUnits]
  exact ofUnits_eq_finite h (nearestMagnitude_shortest h.2 tie)

/-- A shortest decimal without places lies no further above its magnitude than half the gap. -/
theorem two_mul_shortest_le {n digits e : ℕ} {tie : Tie} (hn : n ≠ 0)
    (h : shortest tie n = ⟨digits, e⟩) :
    2 * (digits * 10 ^ e * unitsPerOne) ≤ 2 * n + spacing n := by
  obtain ⟨digits', g, hshortest, hcontains⟩ := exists_shortest_eq hn tie
  obtain ⟨k, hk, hscale⟩ := exists_units_mul_scale_eq
  obtain ⟨rfl, hexponent⟩ := Decimal.mk.inj (h.symm.trans hshortest)
  have hgrid : 10 ^ g = 10 ^ e * (unitsPerOne * scale) := by
    rw [hscale, ← pow_add, show g = e + k by omega]
  have hhigh := (roundsTo_of_contains hcontains).high
  rw [hgrid] at hhigh
  have hscaled : (4 * (digits * 10 ^ e * unitsPerOne)) * scale ≤
      (4 * n + 2 * spacing n) * scale := by
    calc (4 * (digits * 10 ^ e * unitsPerOne)) * scale
        = 4 * (digits * (10 ^ e * (unitsPerOne * scale))) := by ring
      _ ≤ _ := hhigh
  have := Nat.le_of_mul_le_mul_right hscaled scale_pos
  omega

/-! ## The number of digits -/

/-- A point of the interval of a positive magnitude is positive. -/
theorem pos_of_contains {n x : ℕ} (hn : n ≠ 0) (h : (interval n).contains (4 * x) = true) :
    0 < x := by
  have hgap : gapBelow n ≤ 2 * spacing n := by
    have := spacing_pos n
    unfold gapBelow
    split <;> omega
  have hlow : 0 < (4 * n - gapBelow n) * scale := by
    have := spacing_le hn
    exact Nat.mul_pos (by omega) scale_pos
  have := (roundsTo_of_contains h).low
  omega

theorem digits_shortest_ne_zero {n : ℕ} (hn : n ≠ 0) (tie : Tie) :
    (shortest tie n).digits ≠ 0 := by
  obtain ⟨digits, g, hshortest, hcontains⟩ := exists_shortest_eq hn tie
  rw [hshortest]
  exact (Nat.pos_of_mul_pos_right (pos_of_contains hn hcontains)).ne'

/-- Only zero is written with the digit zero, and then without any exponent. -/
theorem exponent_shortest_of_digits_eq_zero {n : ℕ} {tie : Tie}
    (h : (shortest tie n).digits = 0) : (shortest tie n).exponent = 0 := by
  by_cases hn : n = 0
  · rw [shortest, if_pos hn]
  · exact absurd h (digits_shortest_ne_zero hn tie)

theorem Interval.le_of_onGrid {i : Interval} {tie : Tie} {g digits : ℕ}
    (h : i.onGrid tie g = some digits) : digits ≤ i.value / (4 * 10 ^ g) + 1 := by
  have hpow : Nat.pow 10 g = 10 ^ g := rfl
  unfold onGrid at h
  simp only [hpow] at h
  grind

theorem Interval.search_le (i : Interval) (tie : Tie) (g : ℕ) :
    (i.search tie g).1 ≤ i.value / (4 * 10 ^ (i.search tie g).2) + 1 := by
  induction g with
  | zero => simp [search]
  | succ g ih =>
      rw [search]
      split
      · rename_i digits hgrid
        exact le_of_onGrid hgrid
      · exact ih

/-- The search does not go past a grid with a point in the interval. -/
theorem Interval.le_grid_search {i : Interval} {tie : Tie} {g₀ g : ℕ}
    (h : i.onGrid tie g₀ ≠ none) (hle : g₀ ≤ g) : g₀ ≤ (i.search tie g).2 := by
  induction g with
  | zero =>
      rw [Nat.le_zero.mp hle]
      exact Nat.zero_le _
  | succ g ih =>
      rw [search]
      cases hgrid : i.onGrid tie (g + 1) with
      | some digits => exact hle
      | none =>
          apply ih
          rcases Nat.lt_or_eq_of_le hle with hlt | rfl
          · exact Nat.le_of_lt_succ hlt
          · exact absurd hgrid h

/-- A grid finer than half the gap above a magnitude has a point in its interval. -/
theorem onGrid_ne_none {n g : ℕ} (tie : Tie) (h : 2 * 10 ^ g < spacing n * scale) :
    (interval n).onGrid tie g ≠ none := by
  intro hnone
  obtain ⟨-, hupper⟩ := Interval.onGrid_eq_none_iff.mp hnone
  have hpos : 0 < 4 * 10 ^ g := by positivity
  have hvalue : (interval n).value < ((interval n).value / (4 * 10 ^ g) + 1) * (4 * 10 ^ g) :=
    Nat.lt_mul_of_div_lt (Nat.lt_succ_self _) hpos
  have hnext : ((interval n).value / (4 * 10 ^ g) + 1) * (4 * 10 ^ g) ≤
      (interval n).value + 4 * 10 ^ g := by
    rw [Nat.succ_mul]
    exact Nat.add_le_add_right (Nat.div_mul_le_self _ _) _
  generalize ((interval n).value / (4 * 10 ^ g) + 1) * (4 * 10 ^ g) = point at *
  rw [value_interval] at hvalue hnext
  rw [Interval.contains, low_interval, high_interval] at hupper
  have hlow : (4 * n - gapBelow n) * scale ≤ 4 * n * scale :=
    Nat.mul_le_mul_right _ (Nat.sub_le _ _)
  have hhigh : (4 * n + 2 * spacing n) * scale = 4 * n * scale + 2 * (spacing n * scale) := by
    ring
  split at hupper <;> simp at hupper <;> omega

theorem le_log2_of_pow_le {g v : ℕ} (h : 10 ^ g ≤ v) : g ≤ v.log2 * 302 / 1000 + 2 := by
  have hlt : 10 ^ g < 2 ^ (v.log2 + 1) := Nat.lt_of_le_of_lt h Nat.lt_log2_self
  have hpow : 10 ^ (93 * g) < 10 ^ (28 * (v.log2 + 1)) := by
    calc 10 ^ (93 * g) = (10 ^ g) ^ 93 := by rw [← pow_mul, Nat.mul_comm]
      _ < (2 ^ (v.log2 + 1)) ^ 93 := Nat.pow_lt_pow_left hlt (by decide)
      _ = (2 ^ 93) ^ (v.log2 + 1) := by rw [← pow_mul, ← pow_mul, Nat.mul_comm]
      _ ≤ (10 ^ 28) ^ (v.log2 + 1) := Nat.pow_le_pow_left (by norm_num) _
      _ = 10 ^ (28 * (v.log2 + 1)) := (pow_mul 10 28 _).symm
  have := (Nat.pow_lt_pow_iff_right (by decide)).mp hpow
  omega

/-- A grid that fits below the gap of a magnitude, and almost fills it. -/
theorem exists_grid (n : ℕ) :
    ∃ g, 2 * 10 ^ g < spacing n * scale ∧ spacing n * scale ≤ 20 * 10 ^ g := by
  have hscale : 5 ≤ scale := by
    unfold scale
    generalize hk : 1074 = k
    exact Nat.le_self_pow (by omega) 5
  have hwide : 5 ≤ spacing n * scale := hscale.trans (Nat.le_mul_of_pos_left _ (spacing_pos n))
  refine ⟨Nat.log 10 ((spacing n * scale - 1) / 2), ?_, ?_⟩
  · have := Nat.pow_log_le_self 10 (x := (spacing n * scale - 1) / 2) (by omega)
    omega
  · have := Nat.lt_pow_succ_log_self (b := 10) (by decide) ((spacing n * scale - 1) / 2)
    rw [pow_succ] at this
    omega

theorem value_div_lt {n g : ℕ} (hfill : spacing n * scale ≤ 20 * 10 ^ g) :
    (interval n).value / (4 * 10 ^ g) < 20 * 2 ^ 53 := by
  rw [value_interval, Nat.mul_assoc, Nat.mul_div_mul_left _ _ (by decide),
    Nat.div_lt_iff_lt_mul (by positivity)]
  calc
    n * scale < 2 ^ 53 * spacing n * scale :=
      Nat.mul_lt_mul_of_pos_right (lt_mul_spacing n) scale_pos
    _ = 2 ^ 53 * (spacing n * scale) := Nat.mul_assoc _ _ _
    _ ≤ 2 ^ 53 * (20 * 10 ^ g) := Nat.mul_le_mul_left _ hfill
    _ = 20 * 2 ^ 53 * 10 ^ g := by ring

theorem digits_search_le {n : ℕ} (hn : n ≠ 0) (tie : Tie) :
    ((interval n).search tie (interval n).firstGrid).1 ≤ 20 * 2 ^ 53 := by
  obtain ⟨g, hgrid, hfill⟩ := exists_grid n
  have hfirst : g ≤ (interval n).firstGrid := by
    apply le_log2_of_pow_le
    rw [value_interval]
    have := Nat.mul_le_mul_right scale (spacing_le hn)
    nlinarith
  have hfound := Interval.le_grid_search (onGrid_ne_none tie hgrid) hfirst
  have hdigits := (interval n).search_le tie (interval n).firstGrid
  generalize (interval n).search tie (interval n).firstGrid = found at hfound hdigits ⊢
  have hcoarse : (interval n).value / (4 * 10 ^ found.2) ≤
      (interval n).value / (4 * 10 ^ g) := by
    apply Nat.div_le_div_left
    · exact Nat.mul_le_mul_left 4 (Nat.pow_le_pow_right (by decide) hfound)
    · positivity
  have hfine := value_div_lt hfill
  omega

/-- The shortest decimal has at most eighteen digits. -/
theorem digits_shortest_le (tie : Tie) (n : ℕ) : (shortest tie n).digits ≤ 20 * 2 ^ 53 := by
  by_cases hn : n = 0
  · rw [shortest, if_pos hn]
    exact Nat.zero_le _
  · -- the parts are named, so that the search itself is not unfolded
    obtain ⟨digits, exponent, hshortest, hle⟩ :
        ∃ digits exponent, shortest tie n = ⟨digits, exponent⟩ ∧ digits ≤ 20 * 2 ^ 53 :=
      ⟨_, _, shortest_of_ne_zero hn tie, digits_search_le hn tie⟩
    rw [hshortest]
    exact hle

theorem length_toDigits_shortest_le (tie : Tie) (n : ℕ) :
    (Nat.toDigits 10 (shortest tie n).digits).length ≤ 18 := by
  rw [Nat.length_toDigits_le_iff (by decide) (by decide)]
  exact Nat.lt_of_le_of_lt (digits_shortest_le tie n) (by norm_num)

/-- The exponents of shortest decimals have three or four digits at most. -/
theorem exponent_shortest_bounds {n : ℕ} (h : Representable n) (tie : Tie) :
    -1074 ≤ (shortest tie n).exponent ∧ (shortest tie n).exponent ≤ 401 := by
  by_cases hn : n = 0
  · rw [shortest, if_pos hn]
    decide
  · obtain ⟨digits, g, hshortest, -⟩ := exists_shortest_eq hn tie
    have hdigits := digits_shortest_ne_zero hn tie
    rw [hshortest] at hdigits ⊢
    dsimp only at hdigits ⊢
    refine ⟨by omega, ?_⟩
    by_contra hlarge
    obtain ⟨e, he⟩ : ∃ e : ℕ, ((e + 1 : ℕ) : ℤ) = g - 1074 := ⟨g - 1075, by omega⟩
    rw [← he] at hshortest
    have htwice := two_mul_shortest_le hn hshortest
    have hspacing := spacing_le hn
    have hbound : magnitudeBound ≤ digits * 10 ^ e * unitsPerOne :=
      magnitudeBound_le_of_lt hdigits (by omega)
    have hten : digits * 10 ^ (e + 1) * unitsPerOne = 10 * (digits * 10 ^ e * unitsPerOne) := by
      generalize unitsPerOne = units
      ring
    have hlt := h.1
    rw [hten] at htwice
    omega

end CreditScorecard.Binary64
