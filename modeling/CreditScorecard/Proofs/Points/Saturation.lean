import CreditScorecard.Points

/-! # Sums that stop at the ends of the range

Adding scores one after the other stops at the ends of the range on the way, so the result can
depend on the order. It is the exact sum, held between what the same scores make of the least and
of the greatest score. Over all orders the lowest result is that of the order in which the positive
scores come first, and the highest that of the order in which they come last.
-/

namespace CreditScorecard.Points

def least : Points :=
  ⟨-0x8000000000000000, by decide, by decide⟩

def most : Points :=
  ⟨0x7FFFFFFFFFFFFFFF, by decide, by decide⟩

/-- Adds scores to a total, one after the other. -/
def sum (total : Points) (scores : List Points) : Points :=
  scores.foldl add total

/-- The exact sum of a part of each score. -/
def sumOf (part : Int → Int) : List Points → Int
  | [] => 0
  | a :: scores => part a.value + sumOf part scores

/-- The exact sum of scores. -/
def exactSum (scores : List Points) : Int :=
  sumOf id scores

/-- The sum of the scores above zero. -/
def gains (scores : List Points) : Int :=
  sumOf (max 0) scores

/-- The sum of the scores below zero. -/
def losses (scores : List Points) : Int :=
  sumOf (min 0) scores

@[simp] theorem sum_nil (total : Points) : sum total [] = total :=
  rfl

@[simp] theorem sum_cons (total a : Points) (scores : List Points) :
    sum total (a :: scores) = sum (total.add a) scores :=
  rfl

theorem value_add (a b : Points) :
    (a.add b).value = max (-0x8000000000000000) (min (a.value + b.value) 0x7FFFFFFFFFFFFFFF) :=
  rfl

theorem sumOf_perm (part : Int → Int) {a b : List Points} (h : a.Perm b) :
    sumOf part a = sumOf part b := by
  induction h with
  | nil => rfl
  | cons c _ ih => simp only [sumOf, ih]
  | swap c d scores =>
      simp only [sumOf]
      omega
  | trans _ _ ih₁ ih₂ => exact ih₁.trans ih₂

@[simp] theorem exactSum_cons (a : Points) (scores : List Points) :
    exactSum (a :: scores) = a.value + exactSum scores :=
  rfl

@[simp] theorem gains_cons (a : Points) (scores : List Points) :
    gains (a :: scores) = max 0 a.value + gains scores :=
  rfl

@[simp] theorem losses_cons (a : Points) (scores : List Points) :
    losses (a :: scores) = min 0 a.value + losses scores :=
  rfl

@[simp] theorem sums_nil : exactSum [] = 0 ∧ gains [] = 0 ∧ losses [] = 0 :=
  ⟨rfl, rfl, rfl⟩

theorem exactSum_eq_gains_add_losses (scores : List Points) :
    exactSum scores = gains scores + losses scores := by
  induction scores with
  | nil => rfl
  | cons a scores ih =>
      simp only [exactSum_cons, gains_cons, losses_cons, ih]
      omega

theorem gains_nonneg (scores : List Points) : 0 ≤ gains scores := by
  induction scores with
  | nil => simp
  | cons a scores ih =>
      rw [gains_cons]
      omega

theorem losses_nonpos (scores : List Points) : losses scores ≤ 0 := by
  induction scores with
  | nil => simp
  | cons a scores ih =>
      rw [losses_cons]
      omega

/-! ## One order -/

/-- What is added to a lower total stays lower. -/
theorem sum_mono {a b : Points} (h : a.value ≤ b.value) (scores : List Points) :
    (sum a scores).value ≤ (sum b scores).value := by
  induction scores generalizing a b with
  | nil => exact h
  | cons c scores ih =>
      apply ih
      simp only [value_add]
      omega

/-- The sum is the exact sum, held between the sums from the ends of the range. -/
theorem value_sum (total : Points) (scores : List Points) :
    (sum total scores).value =
      max (sum least scores).value
        (min (total.value + exactSum scores) (sum most scores).value) := by
  induction scores generalizing total with
  | nil =>
      have := total.least_le
      have := total.le_most
      simp only [sum_nil, sums_nil, least, most]
      omega
  | cons a scores ih =>
      have hle : (sum least scores).value ≤ (sum most scores).value :=
        sum_mono (by decide) scores
      have hends : (least.add a).value ≤ (most.add a).value := by
        simp only [value_add, least, most]
        omega
      -- one step from any total lies between the same step from the two ends
      have hstep : (total.add a).value =
          max (least.add a).value (min (total.value + a.value) (most.add a).value) := by
        have := total.least_le
        have := total.le_most
        simp only [value_add, least, most]
        omega
      simp only [sum_cons, exactSum_cons]
      rw [ih (total.add a), ih (least.add a), ih (most.add a), hstep]
      omega

/-! ## All orders -/

/-- The lowest total that an order of scores with these gains and losses can lead to. -/
def lowest (gains losses : Int) : Int :=
  max (-0x8000000000000000) (min gains 0x7FFFFFFFFFFFFFFF + losses)

/-- The highest total that an order of scores with these gains and losses can lead to. -/
def highest (gains losses : Int) : Int :=
  min 0x7FFFFFFFFFFFFFFF (max losses (-0x8000000000000000) + gains)

theorem lowest_le_value_sum (total : Points) (scores : List Points) :
    lowest (total.value + gains scores) (losses scores) ≤ (sum total scores).value := by
  induction scores generalizing total with
  | nil =>
      have := total.least_le
      have := total.le_most
      simp only [sum_nil, sums_nil, lowest]
      omega
  | cons a scores ih =>
      have hgains := gains_nonneg scores
      refine Int.le_trans ?_ (ih (total.add a))
      simp only [gains_cons, losses_cons, value_add, lowest]
      omega

theorem value_sum_le_highest (total : Points) (scores : List Points) :
    (sum total scores).value ≤ highest (gains scores) (total.value + losses scores) := by
  induction scores generalizing total with
  | nil =>
      have := total.least_le
      have := total.le_most
      simp only [sum_nil, sums_nil, highest]
      omega
  | cons a scores ih =>
      have hlosses := losses_nonpos scores
      refine Int.le_trans (ih (total.add a)) ?_
      simp only [gains_cons, losses_cons, value_add, highest]
      omega

/-- Scores above zero stop at the upper end at most. -/
theorem value_sum_of_losses_eq_zero (total : Points) {scores : List Points}
    (h : losses scores = 0) :
    (sum total scores).value = min (total.value + gains scores) 0x7FFFFFFFFFFFFFFF := by
  have hlow := lowest_le_value_sum total scores
  have hhigh := value_sum_le_highest total scores
  have := total.least_le
  simp only [lowest, highest, h] at hlow hhigh
  omega

/-- Scores below zero stop at the lower end at most. -/
theorem value_sum_of_gains_eq_zero (total : Points) {scores : List Points}
    (h : gains scores = 0) :
    (sum total scores).value = max (-0x8000000000000000) (total.value + losses scores) := by
  have hlow := lowest_le_value_sum total scores
  have hhigh := value_sum_le_highest total scores
  have := total.le_most
  simp only [lowest, highest, h] at hlow hhigh
  omega

theorem sum_append (total : Points) (first rest : List Points) :
    sum total (first ++ rest) = sum (sum total first) rest :=
  List.foldl_append

/-- The scores above zero and the others. -/
def isGain (a : Points) : Bool :=
  0 < a.value

theorem gains_filter_isGain (scores : List Points) :
    gains (scores.filter isGain) = gains scores ∧ losses (scores.filter isGain) = 0 := by
  induction scores with
  | nil => exact ⟨rfl, rfl⟩
  | cons a scores ih =>
      rw [List.filter_cons]
      split <;> rename_i h <;> simp only [isGain, decide_eq_true_eq] at h <;>
        simp only [gains_cons, losses_cons] <;> omega

theorem losses_filter_not_isGain (scores : List Points) :
    losses (scores.filter (!isGain ·)) = losses scores ∧ gains (scores.filter (!isGain ·)) = 0 := by
  induction scores with
  | nil => exact ⟨rfl, rfl⟩
  | cons a scores ih =>
      rw [List.filter_cons]
      split <;> rename_i h <;>
        simp only [isGain, Bool.not_eq_true', decide_eq_false_iff_not] at h <;>
        simp only [gains_cons, losses_cons] <;> omega

/-- The order with the gains first leads to the lowest total. -/
theorem value_sum_gains_first (total : Points) (scores : List Points) :
    (sum total (scores.filter isGain ++ scores.filter (!isGain ·))).value =
      lowest (total.value + gains scores) (losses scores) := by
  obtain ⟨hgains, hnone⟩ := gains_filter_isGain scores
  obtain ⟨hlosses, hnone'⟩ := losses_filter_not_isGain scores
  rw [sum_append, value_sum_of_gains_eq_zero _ hnone', value_sum_of_losses_eq_zero _ hnone,
    hgains, hlosses, lowest]

/-- The order with the gains last leads to the highest total. -/
theorem value_sum_gains_last (total : Points) (scores : List Points) :
    (sum total (scores.filter (!isGain ·) ++ scores.filter isGain)).value =
      highest (gains scores) (total.value + losses scores) := by
  obtain ⟨hgains, hnone⟩ := gains_filter_isGain scores
  obtain ⟨hlosses, hnone'⟩ := losses_filter_not_isGain scores
  rw [sum_append, value_sum_of_losses_eq_zero _ hnone, value_sum_of_gains_eq_zero _ hnone',
    hgains, hlosses, highest]
  omega

/-! ## Sums under a ceiling -/

/-- Under the ceiling, the exact sum does not pass what the scores make of the two ends of the
range. -/
def StaysWithin (ceiling : Points) (scores : List Points) : Prop :=
  min ceiling.value (sum least scores).value ≤ (clamp (exactSum scores)).value ∧
    min ceiling.value (clamp (exactSum scores)).value ≤ (sum most scores).value

/-- Under the ceiling, the lowest and the highest total of all orders are the same. -/
def OrderFree (ceiling : Points) (scores : List Points) : Prop :=
  min ceiling.value (lowest (gains scores) (losses scores)) =
    min ceiling.value (highest (gains scores) (losses scores))

instance (ceiling : Points) (scores : List Points) : Decidable (StaysWithin ceiling scores) :=
  inferInstanceAs (Decidable (_ ∧ _))

instance (ceiling : Points) (scores : List Points) : Decidable (OrderFree ceiling scores) :=
  inferInstanceAs (Decidable (_ = _))

theorem lower_eq_lower_iff {a b ceiling : Points} :
    a.lower ceiling = b.lower ceiling ↔
      min ceiling.value a.value = min ceiling.value b.value := by
  constructor
  · intro h
    have hvalue := congrArg value h
    simp only [value_lower] at hvalue
    omega
  · intro h
    apply ext_value
    simp only [value_lower]
    omega

/-- One order leads to the exact sum under the ceiling exactly if the sum stays within bounds. -/
theorem lower_sum_eq_iff {ceiling : Points} {scores : List Points} :
    (sum (clamp 0) scores).lower ceiling = (clamp (exactSum scores)).lower ceiling ↔
      StaysWithin ceiling scores := by
  have hle : (sum least scores).value ≤ (sum most scores).value := sum_mono (by decide) scores
  have hlow := (sum least scores).least_le
  have hhigh := (sum most scores).le_most
  have hzero : (clamp 0).value = 0 := rfl
  rw [lower_eq_lower_iff, value_sum, hzero, StaysWithin]
  simp only [value_clamp]
  omega

/-- All orders lead to the exact sum under the ceiling exactly if the two extreme ones agree. -/
theorem forall_perm_lower_sum_eq_iff {ceiling : Points} {scores : List Points} :
    (∀ order, order.Perm scores →
      (sum (clamp 0) order).lower ceiling = (clamp (exactSum scores)).lower ceiling) ↔
      OrderFree ceiling scores := by
  have hzero : (clamp 0).value = 0 := rfl
  have hexact := exactSum_eq_gains_add_losses scores
  have hgains := gains_nonneg scores
  have hlosses := losses_nonpos scores
  constructor
  · intro h
    have hfirst := h _ (List.filter_append_perm isGain scores)
    have hlast := h _ (List.perm_append_comm.trans (List.filter_append_perm isGain scores))
    rw [lower_eq_lower_iff] at hfirst hlast
    rw [value_sum_gains_first, hzero, Int.zero_add] at hfirst
    rw [value_sum_gains_last, hzero, Int.zero_add] at hlast
    exact hfirst.trans hlast.symm
  · intro h order horder
    have hlow := lowest_le_value_sum (clamp 0) order
    have hhigh := value_sum_le_highest (clamp 0) order
    have hsame : gains order = gains scores ∧ losses order = losses scores :=
      ⟨sumOf_perm _ horder, sumOf_perm _ horder⟩
    rw [hzero, Int.zero_add, hsame.1, hsame.2] at hlow hhigh
    rw [lower_eq_lower_iff]
    simp only [OrderFree, lowest, highest, value_clamp] at h hlow hhigh ⊢
    omega

end CreditScorecard.Points
