import CreditScorecard.Binary64.Basic
import Mathlib.Tactic.Linarith
import Mathlib.Tactic.Ring

/-! # Rounding to 53 bits

Rounding is monotone, depends on the quotient only, and leaves alone what fits the format. From
this follows which quotients are rounded to a given magnitude: those no further from it than half
the way to its neighbours.
-/

namespace CreditScorecard.Binary64

/-! ## The spacing of magnitudes -/

theorem spacing_eq_two_pow (n : ℕ) : spacing n = 2 ^ (n.log2 - 52) :=
  rfl

theorem log2_le_log2 {a b : ℕ} (h : a ≤ b) : a.log2 ≤ b.log2 := by
  by_cases ha : a = 0
  · simp [ha]
  · have hb : b ≠ 0 := Nat.ne_of_gt (Nat.lt_of_lt_of_le (Nat.pos_of_ne_zero ha) h)
    exact (Nat.le_log2 hb).mpr ((Nat.log2_self_le ha).trans h)

theorem spacing_le {n : ℕ} (hn : n ≠ 0) : spacing n ≤ n :=
  (Nat.pow_le_pow_right (by decide) (Nat.sub_le n.log2 52)).trans (Nat.log2_self_le hn)

theorem lt_mul_spacing (n : ℕ) : n < 2 ^ 53 * spacing n := by
  rw [spacing_eq_two_pow, ← pow_add]
  calc n < 2 ^ (n.log2 + 1) := Nat.lt_log2_self
    _ ≤ 2 ^ (53 + (n.log2 - 52)) := Nat.pow_le_pow_right (by decide) (by omega)

theorem spacing_eq_of_le_of_lt {n k : ℕ} (hle : 2 ^ 52 * 2 ^ k ≤ n) (hlt : n < 2 ^ 53 * 2 ^ k) :
    spacing n = 2 ^ k := by
  rw [← pow_add] at hle hlt
  have hn : n ≠ 0 := Nat.ne_of_gt (Nat.lt_of_lt_of_le (Nat.two_pow_pos _) hle)
  have hlog : n.log2 = 52 + k := (Nat.log2_eq_iff hn).mpr ⟨hle, by rwa [Nat.add_right_comm]⟩
  rw [spacing_eq_two_pow, hlog, Nat.add_sub_cancel_left]

theorem spacing_eq_one {n : ℕ} (h : n < 2 ^ 53) : spacing n = 1 := by
  have hlog : n.log2 ≤ 52 := by
    by_cases hn : n = 0
    · simp [hn]
    · exact Nat.le_of_lt_succ ((Nat.log2_lt hn).mpr h)
  rw [spacing_eq_two_pow, Nat.sub_eq_zero_of_le hlog, pow_zero]

theorem mul_spacing_le {n : ℕ} (h : 2 ^ 53 ≤ n) : 2 ^ 52 * spacing n ≤ n := by
  have hn : n ≠ 0 := Nat.ne_of_gt (Nat.lt_of_lt_of_le (Nat.two_pow_pos _) h)
  have hlog : 53 ≤ n.log2 := (Nat.le_log2 hn).mpr h
  rw [spacing_eq_two_pow, ← pow_add, Nat.add_sub_cancel' (by omega)]
  exact Nat.log2_self_le hn

/-- Neighbours on a grid are a step apart. -/
theorem add_le_of_dvd_of_lt {step m n : ℕ} (hm : step ∣ m) (hn : step ∣ n) (h : m < n) :
    m + step ≤ n := by
  obtain ⟨j, rfl⟩ := hm
  obtain ⟨k, rfl⟩ := hn
  rw [← Nat.mul_succ]
  exact Nat.mul_le_mul_left step (Nat.lt_of_mul_lt_mul_left h)

/-- A number of 53 significant bits lies on the grid of its own spacing. -/
theorem spacing_dvd_of_le {m : ℕ} (hm : m ≤ 2 ^ 53) (k : ℕ) :
    spacing (m * 2 ^ k) ∣ m * 2 ^ k := by
  rcases Nat.lt_or_eq_of_le hm with hlt | rfl
  · apply Dvd.dvd.mul_left
    rw [spacing_eq_two_pow]
    apply pow_dvd_pow
    by_cases hzero : m * 2 ^ k = 0
    · simp [hzero]
    · have hlog : (m * 2 ^ k).log2 < 53 + k := by
        rw [Nat.log2_lt hzero, pow_add]
        exact Nat.mul_lt_mul_of_pos_right hlt (Nat.two_pow_pos k)
      omega
  · rw [← pow_add, spacing_eq_two_pow, Nat.log2_two_pow]
    exact pow_dvd_pow 2 (by omega)

/-! ## The nearest natural -/

/-- The natural nearest to a quotient, even if another one is as near. -/
structure Nearest (k num den : ℕ) : Prop where
  up : 2 * num ≤ (2 * k + 1) * den
  down : 2 * k * den ≤ 2 * num + den
  even_of_up : 2 * num = (2 * k + 1) * den → k % 2 = 0
  even_of_down : 2 * k * den = 2 * num + den → k % 2 = 0

theorem nearest_roundDiv (num : ℕ) {den : ℕ} (hden : 0 < den) :
    Nearest (roundDiv num den) num den := by
  have hnum : num = num / den * den + num % den := (Nat.div_add_mod' num den).symm
  have hrest : num % den < den := Nat.mod_lt num hden
  unfold roundDiv
  dsimp only
  generalize num / den = q at hnum ⊢
  generalize num % den = r at hnum hrest ⊢
  subst hnum
  split
  · constructor <;> intros <;> nlinarith
  · split
    · constructor <;> intros <;> nlinarith
    · split
      · constructor <;> intros <;> first | assumption | nlinarith
      · constructor <;> intros <;> first | omega | nlinarith

/-- A greater quotient is not nearest to a smaller natural. -/
theorem Nearest.le_of_le {k num den k' num' den' : ℕ} (h : Nearest k num den)
    (h' : Nearest k' num' den') (hden : 0 < den) (hden' : 0 < den')
    (hle : num * den' ≤ num' * den) : k ≤ k' := by
  by_contra hlt
  have hsucc : k' + 1 ≤ k := Nat.lt_of_not_le hlt
  have hpos : 0 < den * den' := Nat.mul_pos hden hden'
  have hup := Nat.mul_le_mul_right den h'.up
  have hdown := Nat.mul_le_mul_right den' h.down
  -- the quotients can only lie midway between two neighbours, of which one is odd
  have hk : k = k' + 1 := by nlinarith
  subst hk
  have hup_eq : 2 * num' = (2 * k' + 1) * den' := by
    apply Nat.le_antisymm h'.up
    by_contra hne
    have := Nat.mul_lt_mul_of_pos_right (Nat.lt_of_not_le hne) hden
    nlinarith
  have hdown_eq : 2 * (k' + 1) * den = 2 * num + den := by
    apply Nat.le_antisymm h.down
    by_contra hne
    have := Nat.mul_lt_mul_of_pos_right (Nat.lt_of_not_le hne) hden'
    nlinarith
  have heven := h'.even_of_up hup_eq
  have hodd := h.even_of_down hdown_eq
  omega

theorem roundDiv_eq_iff {num den k : ℕ} (hden : 0 < den) :
    roundDiv num den = k ↔ Nearest k num den := by
  constructor
  · rintro rfl
    exact nearest_roundDiv num hden
  · intro h
    have hround := nearest_roundDiv num hden
    exact Nat.le_antisymm (hround.le_of_le h hden hden le_rfl)
      (h.le_of_le hround hden hden le_rfl)

theorem roundDiv_le_roundDiv {num den num' den' : ℕ} (hden : 0 < den) (hden' : 0 < den')
    (hle : num * den' ≤ num' * den) : roundDiv num den ≤ roundDiv num' den' :=
  (nearest_roundDiv num hden).le_of_le (nearest_roundDiv num' hden') hden hden' hle

theorem roundDiv_mul_self (k : ℕ) {den : ℕ} (hden : 0 < den) : roundDiv (k * den) den = k := by
  rw [roundDiv_eq_iff hden]
  constructor <;> intros <;> nlinarith

/-! ## The nearest magnitude -/

section

variable {num den num' den' : ℕ}

theorem roundDiv_spacing_le (hden : 0 < den) :
    roundDiv num (den * spacing (num / den)) ≤ 2 ^ 53 := by
  have hpos : 0 < den * spacing (num / den) := Nat.mul_pos hden (spacing_pos _)
  rw [← roundDiv_mul_self (2 ^ 53) hpos]
  apply roundDiv_le_roundDiv hpos hpos
  apply Nat.mul_le_mul_right
  have hquot : num < (num / den + 1) * den :=
    (Nat.div_lt_iff_lt_mul hden).mp (Nat.lt_succ_self _)
  have hlt := lt_mul_spacing (num / den)
  calc num ≤ (num / den + 1) * den := Nat.le_of_lt hquot
    _ ≤ 2 ^ 53 * spacing (num / den) * den := Nat.mul_le_mul_right den hlt
    _ = 2 ^ 53 * (den * spacing (num / den)) := by ring

/-- What a quotient is rounded to has at most 53 significant bits. -/
theorem spacing_dvd_nearestMagnitude (hden : 0 < den) :
    spacing (nearestMagnitude num den) ∣ nearestMagnitude num den :=
  spacing_dvd_of_le (roundDiv_spacing_le hden) _

theorem nearestMagnitude_le_nearestMagnitude (hden : 0 < den) (hden' : 0 < den')
    (hle : num * den' ≤ num' * den) : nearestMagnitude num den ≤ nearestMagnitude num' den' := by
  have hquot : num / den ≤ num' / den' := by
    rw [Nat.le_div_iff_mul_le hden']
    have hfloor := Nat.div_mul_le_self num den
    have hscaled := Nat.mul_le_mul_right den' hfloor
    exact Nat.le_of_mul_le_mul_right (by nlinarith) hden
  have hlog := log2_le_log2 hquot
  unfold nearestMagnitude
  dsimp only
  by_cases hspacing : spacing (num / den) = spacing (num' / den')
  · rw [hspacing]
    apply Nat.mul_le_mul_right
    apply roundDiv_le_roundDiv (Nat.mul_pos hden (spacing_pos _))
      (Nat.mul_pos hden' (spacing_pos _))
    nlinarith [Nat.mul_le_mul_right (spacing (num' / den')) hle]
  · -- a power of two lies between the two grids
    have hlt : 52 < (num' / den').log2 ∧ (num / den).log2 - 52 < (num' / den').log2 - 52 := by
      have hne : (num / den).log2 - 52 ≠ (num' / den').log2 - 52 := fun heq =>
        hspacing (by rw [spacing_eq_two_pow, heq, spacing_eq_two_pow])
      omega
    have hbig : 2 ^ 53 ≤ num' / den' := by
      have hne : num' / den' ≠ 0 := fun hzero => by simp [hzero] at hlt
      exact (Nat.le_log2 hne).mp hlt.1
    have hpos : 0 < den' * spacing (num' / den') := Nat.mul_pos hden' (spacing_pos _)
    have hround : 2 ^ 52 ≤ roundDiv num' (den' * spacing (num' / den')) := by
      rw [← roundDiv_mul_self (2 ^ 52) hpos]
      apply roundDiv_le_roundDiv hpos hpos
      apply Nat.mul_le_mul_right
      calc 2 ^ 52 * (den' * spacing (num' / den'))
          = 2 ^ 52 * spacing (num' / den') * den' := by ring
        _ ≤ num' / den' * den' := Nat.mul_le_mul_right den' (mul_spacing_le hbig)
        _ ≤ num' := Nat.div_mul_le_self num' den'
    have hdouble : 2 * spacing (num / den) ≤ spacing (num' / den') := by
      rw [spacing_eq_two_pow, spacing_eq_two_pow, ← pow_succ']
      exact Nat.pow_le_pow_right (by decide) hlt.2
    calc roundDiv num (den * spacing (num / den)) * spacing (num / den)
        ≤ 2 ^ 53 * spacing (num / den) := Nat.mul_le_mul_right _ (roundDiv_spacing_le hden)
      _ = 2 ^ 52 * (2 * spacing (num / den)) := by ring
      _ ≤ 2 ^ 52 * spacing (num' / den') := Nat.mul_le_mul_left _ hdouble
      _ ≤ _ := Nat.mul_le_mul_right _ hround

/-- The nearest magnitude depends on the quotient only. -/
theorem nearestMagnitude_eq_of_mul_eq (hden : 0 < den) (hden' : 0 < den')
    (h : num * den' = num' * den) : nearestMagnitude num den = nearestMagnitude num' den' :=
  Nat.le_antisymm (nearestMagnitude_le_nearestMagnitude hden hden' h.le)
    (nearestMagnitude_le_nearestMagnitude hden' hden h.ge)

theorem nearestMagnitude_mul_self {n : ℕ} (h : spacing n ∣ n) (hden : 0 < den) :
    nearestMagnitude (n * den) den = n := by
  obtain ⟨k, hk⟩ := h
  have hpos : 0 < den * spacing n := Nat.mul_pos hden (spacing_pos n)
  have hnum : n * den = k * (den * spacing n) := by
    nth_rewrite 1 [hk]
    ring
  have hround : roundDiv (n * den) (den * spacing n) = k := by
    rw [hnum, roundDiv_mul_self k hpos]
  rw [nearestMagnitude, Nat.mul_div_cancel n hden, hround, Nat.mul_comm, ← hk]

theorem nearestMagnitude_le {n : ℕ} (h : spacing n ∣ n) (hden : 0 < den) (hle : num ≤ n * den) :
    nearestMagnitude num den ≤ n := by
  rw [← nearestMagnitude_mul_self h hden]
  exact nearestMagnitude_le_nearestMagnitude hden hden (Nat.mul_le_mul_right den hle)

theorem le_nearestMagnitude {n : ℕ} (h : spacing n ∣ n) (hden : 0 < den) (hle : n * den ≤ num) :
    n ≤ nearestMagnitude num den := by
  rw [← nearestMagnitude_mul_self h hden]
  exact nearestMagnitude_le_nearestMagnitude hden hden (Nat.mul_le_mul_right den hle)

end

/-! ## The quotients that are rounded to a magnitude -/

/-- The gap below a magnitude, in halves of its spacing. Below a power of two it is narrower. -/
def gapBelow (n : ℕ) : ℕ :=
  if n = 2 ^ n.log2 ∧ 1 < spacing n then spacing n else 2 * spacing n

/-- A quotient lies no further from a magnitude than half the way to its neighbours. Midway it
belongs to an even significand. -/
structure RoundsTo (n num den : ℕ) : Prop where
  low : (4 * n - gapBelow n) * den ≤ 4 * num
  high : 4 * num ≤ (4 * n + 2 * spacing n) * den
  even_of_low : (4 * n - gapBelow n) * den = 4 * num → n / spacing n % 2 = 0
  even_of_high : 4 * num = (4 * n + 2 * spacing n) * den → n / spacing n % 2 = 0

section

variable {n num den : ℕ}

/-- On the grid of the magnitude itself the nearest natural is its significand. -/
theorem nearestMagnitude_eq_of_spacing (hn : spacing n ∣ n) (hden : 0 < den)
    (hspacing : spacing (num / den) = spacing n) (h : RoundsTo n num den)
    (hgap : num < n * den → gapBelow n = 2 * spacing n) : nearestMagnitude num den = n := by
  obtain ⟨k, hk⟩ := hn
  have hpos : 0 < spacing n := spacing_pos n
  have hquot : n / spacing n = k := by
    nth_rewrite 1 [hk]
    exact Nat.mul_div_cancel_left k hpos
  have hup := h.high
  have heven := h.even_of_high
  have hlow := h.low
  have hevenlow := h.even_of_low
  rw [hquot] at heven hevenlow
  rw [nearestMagnitude, hspacing]
  generalize spacing n = s at *
  subst hk
  suffices hround : roundDiv num (den * s) = k by
    rw [hround, Nat.mul_comm]
  have hdens : 0 < den * s := Nat.mul_pos hden hpos
  rw [roundDiv_eq_iff hdens]
  -- a quotient above the magnitude is bounded by the middle of the gap above it only
  rcases Nat.lt_or_ge num (s * k * den) with hlt | hge
  · rw [hgap hlt] at hlow hevenlow
    have hsplit : (4 * (s * k) - 2 * s) * den + 2 * (s * den) = 4 * (s * k * den) ∨ k = 0 := by
      rcases Nat.eq_zero_or_pos k with hzero | hkpos
      · exact .inr hzero
      · left
        have hle : 2 * s ≤ 4 * (s * k) := by nlinarith
        obtain ⟨rest, hrest⟩ := Nat.exists_eq_add_of_le hle
        rw [hrest, Nat.add_sub_cancel_left]
        nlinarith
    rcases hsplit with hsplit | rfl
    · constructor
      · nlinarith
      · nlinarith
      · intro h
        exact heven (by nlinarith)
      · intro h
        exact hevenlow (by nlinarith)
    · simp at hlt
  · constructor
    · nlinarith
    · nlinarith
    · intro h
      exact heven (by nlinarith)
    · intro h
      nlinarith

/-- Just below a power of two the grid is finer, and rounding goes up to the power itself. -/
theorem nearestMagnitude_eq_of_two_pow {k : ℕ} (hden : 0 < den) (hlt : num < 2 ^ 53 * 2 ^ k * den)
    (hle : (4 * (2 ^ 53 * 2 ^ k) - 2 * 2 ^ k) * den ≤ 4 * num) :
    nearestMagnitude num den = 2 ^ 53 * 2 ^ k := by
  have hlow : (4 * (2 ^ 53 * 2 ^ k) - 2 * 2 ^ k) * den + 2 * 2 ^ k * den =
      4 * (2 ^ 53 * 2 ^ k) * den := by
    rw [← Nat.add_mul, Nat.sub_add_cancel (by omega)]
  have hspacing : spacing (num / den) = 2 ^ k := by
    apply spacing_eq_of_le_of_lt
    · rw [Nat.le_div_iff_mul_le hden]
      nlinarith [Nat.two_pow_pos k]
    · rwa [Nat.div_lt_iff_lt_mul hden]
  have hround : roundDiv num (den * 2 ^ k) = 2 ^ 53 := by
    rw [roundDiv_eq_iff (Nat.mul_pos hden (Nat.two_pow_pos k))]
    constructor
    · nlinarith
    · nlinarith
    · exact fun _ => by decide
    · exact fun _ => by decide
  rw [nearestMagnitude, hspacing, hround]

theorem nearestMagnitude_eq_of_roundsTo (hn : spacing n ∣ n) (hden : 0 < den)
    (h : RoundsTo n num den) : nearestMagnitude num den = n := by
  have hhigh := h.high
  have hlow := h.low
  rcases Nat.lt_or_ge n (2 ^ 53) with hsmall | hlarge
  · have hone : spacing n = 1 := spacing_eq_one hsmall
    have hquot : num / den < 2 ^ 53 := by
      rw [Nat.div_lt_iff_lt_mul hden]
      rw [hone] at hhigh
      nlinarith
    apply nearestMagnitude_eq_of_spacing hn hden (by rw [hone, spacing_eq_one hquot]) h
    intro _
    rw [gapBelow, if_neg (by omega)]
  · have hpos : 0 < spacing n := spacing_pos n
    have hbelow : num < 2 ^ 53 * spacing n * den := by
      have hnext : n + spacing n ≤ 2 ^ 53 * spacing n :=
        add_le_of_dvd_of_lt hn (Nat.dvd_mul_left _ _) (lt_mul_spacing n)
      nlinarith [Nat.mul_le_mul_right den hnext]
    have hsame : 2 ^ 52 * spacing n * den ≤ num → spacing (num / den) = spacing n := by
      intro hge
      rw [spacing_eq_two_pow n] at hbelow hge ⊢
      apply spacing_eq_of_le_of_lt
      · rwa [Nat.le_div_iff_mul_le hden]
      · rwa [Nat.div_lt_iff_lt_mul hden]
    rcases Nat.lt_or_ge num (n * den) with hlt | hge
    · have hlog : 53 ≤ n.log2 := (Nat.le_log2 (by omega)).mpr hlarge
      have hfloor : 2 ^ 52 * spacing n = 2 ^ n.log2 := by
        rw [spacing_eq_two_pow, ← pow_add, Nat.add_sub_cancel' (by omega)]
      by_cases hpow : n = 2 ^ n.log2 ∧ 1 < spacing n
      · obtain ⟨k, hk⟩ : ∃ k, n.log2 = 53 + k := ⟨n.log2 - 53, by omega⟩
        have hn53 : n = 2 ^ 53 * 2 ^ k := by rw [hpow.1, hk, pow_add]
        have hspacing : spacing n = 2 * 2 ^ k := by
          rw [spacing_eq_two_pow, hk, ← pow_succ']
          congr 1
          omega
        rw [gapBelow, if_pos hpow, hspacing] at hlow
        rw [hn53] at hlow hlt ⊢
        exact nearestMagnitude_eq_of_two_pow hden hlt hlow
      · have hgap : gapBelow n = 2 * spacing n := if_neg hpow
        have hne : n ≠ 2 ^ 52 * spacing n := by
          intro heq
          apply hpow
          rw [← hfloor, ← heq]
          refine ⟨rfl, ?_⟩
          rw [spacing_eq_two_pow]
          exact Nat.one_lt_two_pow (by omega)
        have hnext : 2 ^ 52 * spacing n + spacing n ≤ n :=
          add_le_of_dvd_of_lt (Nat.dvd_mul_left _ _) hn
            (Nat.lt_of_le_of_ne (mul_spacing_le hlarge) (Ne.symm hne))
        rw [hgap] at hlow
        have hfar : 4 * (2 ^ 52 * spacing n) ≤ 4 * n - 2 * spacing n := by omega
        apply nearestMagnitude_eq_of_spacing hn hden (hsame ?_) h (fun _ => hgap)
        nlinarith [Nat.mul_le_mul_right den hfar]
    · apply nearestMagnitude_eq_of_spacing hn hden ?_ h
      · exact fun hlt => absurd hge (Nat.not_le_of_lt hlt)
      · exact hsame ((Nat.mul_le_mul_right den (mul_spacing_le hlarge)).trans hge)

end

end CreditScorecard.Binary64
