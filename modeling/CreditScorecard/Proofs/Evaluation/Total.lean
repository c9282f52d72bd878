import CreditScorecard.Proofs.Evaluation.Order
import CreditScorecard.Proofs.Points.Saturation

/-! # The total and the order of the rules

The points of the rules that match are added one after the other, and every addition stops at the
ends of the range. So the total need not be the exact sum under the ceiling, and it can depend on
the order. It is the exact sum, in one order or in all of them, exactly under the conditions given
here.
-/

namespace CreditScorecard

namespace Evaluation

/-- The points of the rules that match, in order. -/
def matchedPoints (outcomes : List Outcome) : List Points :=
  (outcomes.filter (·.matched)).map (·.points)

theorem rawTotal_eq_sum (outcomes : List Outcome) :
    rawTotal outcomes = Points.sum (Points.clamp 0) (matchedPoints outcomes) := by
  rw [rawTotal, Points.sum, matchedPoints, List.foldl_map]

theorem matchedPoints_perm {outcomes order : List Outcome} (h : outcomes.Perm order) :
    (matchedPoints outcomes).Perm (matchedPoints order) :=
  (h.filter _).map _

theorem exists_perm_of_map_perm {α β : Type} {f : α → β} {ys zs : List β} (h : ys.Perm zs) :
    ∀ {xs : List α}, xs.map f = ys → ∃ order : List α, order.Perm xs ∧ order.map f = zs := by
  induction h with
  | nil => exact fun {xs} hxs => ⟨xs, .refl _, hxs⟩
  | cons y _ ih =>
      intro xs hxs
      obtain ⟨x, rest, rfl, rfl, hrest⟩ := List.map_eq_cons_iff.mp hxs
      obtain ⟨order, hperm, horder⟩ := ih hrest
      exact ⟨x :: order, hperm.cons x, by rw [List.map_cons, horder]⟩
  | swap y z _ =>
      intro xs hxs
      obtain ⟨a, tail, rfl, rfl, htail⟩ := List.map_eq_cons_iff.mp hxs
      obtain ⟨b, rest, rfl, rfl, rfl⟩ := List.map_eq_cons_iff.mp htail
      exact ⟨b :: a :: rest, .swap a b rest, rfl⟩
  | trans _ _ ih₁ ih₂ =>
      intro xs hxs
      obtain ⟨order, hperm, horder⟩ := ih₁ hxs
      obtain ⟨order', hperm', horder'⟩ := ih₂ horder
      exact ⟨order', hperm'.trans hperm, horder'⟩

/-- Every order of the points that match is that of some order of the outcomes. -/
theorem exists_order_of_matchedPoints_perm {outcomes : List Outcome} {scores : List Points}
    (h : (matchedPoints outcomes).Perm scores) :
    ∃ order, order.Perm outcomes ∧ matchedPoints order = scores := by
  obtain ⟨matched, hperm, hscores⟩ := exists_perm_of_map_perm h rfl
  refine ⟨matched ++ outcomes.filter (!·.matched), ?_, ?_⟩
  · exact (hperm.append_right _).trans (List.filter_append_perm _ _)
  · have hall : ∀ outcome ∈ matched, outcome.matched = true := by
      intro outcome hmem
      exact (List.mem_filter.mp (hperm.mem_iff.mp hmem)).2
    have hnone : (outcomes.filter (!·.matched)).filter (·.matched) = [] := by
      simp [List.filter_filter]
    rw [matchedPoints, List.filter_append, List.filter_eq_self.mpr hall, hnone, List.append_nil,
      hscores]

end Evaluation

namespace Scorecard

open Evaluation Points

/-- The exact sum of the points that match, held inside the range and under the ceiling. -/
def exactTotal (card : Scorecard) (inputs : Inputs) : Points :=
  (clamp (exactSum (matchedPoints (card.evaluate inputs).outcomes))).lower card.maxScore

theorem totalScore_eq (ceiling : Points) (outcomes : List Outcome) :
    (ofOutcomes ceiling outcomes).totalScore =
      (Points.sum (clamp 0) (matchedPoints outcomes)).lower ceiling := by
  rw [ofOutcomes, rawTotal_eq_sum]

theorem exactTotal_eq_of_reordered {a b : Scorecard} (h : a.Reordered b) (inputs : Inputs) :
    a.exactTotal inputs = b.exactTotal inputs := by
  have hpoints := matchedPoints_perm (outcomes_perm h inputs)
  rw [exactTotal, exactTotal, exactSum, exactSum, sumOf_perm _ hpoints, h.maxScore]

theorem totalScore_eq_exactTotal_iff (card : Scorecard) (inputs : Inputs) :
    (card.evaluate inputs).totalScore = card.exactTotal inputs ↔
      StaysWithin card.maxScore (matchedPoints (card.evaluate inputs).outcomes) := by
  rw [evaluate, totalScore_eq, exactTotal]
  exact lower_sum_eq_iff

theorem forall_order_totalScore_eq_iff (card : Scorecard) (inputs : Inputs) :
    (∀ order, order.Perm (card.evaluate inputs).outcomes →
      (ofOutcomes card.maxScore order).totalScore = card.exactTotal inputs) ↔
      OrderFree card.maxScore (matchedPoints (card.evaluate inputs).outcomes) := by
  rw [← forall_perm_lower_sum_eq_iff]
  simp only [totalScore_eq, exactTotal]
  constructor
  · intro h scores hscores
    obtain ⟨order, horder, rfl⟩ := exists_order_of_matchedPoints_perm hscores.symm
    exact h order horder
  · intro h order horder
    exact h _ (matchedPoints_perm horder)

theorem grade_evaluate (card : Scorecard) (inputs : Inputs) :
    (card.evaluate inputs).grade =
      Grade.ofScore (card.evaluate inputs).totalScore card.maxScore := by
  simp only [evaluate, ofOutcomes]

theorem documents_evaluate (card : Scorecard) (inputs : Inputs) :
    (card.evaluate inputs).documents = (card.evaluate inputs).grade.documents := by
  simp only [evaluate, ofOutcomes]

/-- Grade and documents follow from the total and the ceiling. -/
theorem grade_eq_of_totalScore_eq {a b : Scorecard} {inputs : Inputs}
    (hceiling : a.maxScore = b.maxScore)
    (htotal : (a.evaluate inputs).totalScore = (b.evaluate inputs).totalScore) :
    (a.evaluate inputs).grade = (b.evaluate inputs).grade ∧
      (a.evaluate inputs).documents = (b.evaluate inputs).documents := by
  have hgrade : (a.evaluate inputs).grade = (b.evaluate inputs).grade := by
    rw [grade_evaluate, grade_evaluate, htotal, hceiling]
  exact ⟨hgrade, by rw [documents_evaluate, documents_evaluate, hgrade]⟩

/-- The total is the exact sum under the ceiling exactly if that sum stays within what the points
make of the ends of the range, for the scorecard and for each of its reorderings. It is so in all
orders of the outcomes exactly if the lowest and the highest total agree, and then no reordering of
the scorecard changes the total, the grade or the documents. -/
theorem totalScore_spec (card : Scorecard) (inputs : Inputs) :
    ((card.evaluate inputs).totalScore = card.exactTotal inputs ↔
      StaysWithin card.maxScore (matchedPoints (card.evaluate inputs).outcomes)) ∧
    (∀ other, card.Reordered other →
      ((other.evaluate inputs).totalScore = card.exactTotal inputs ↔
        StaysWithin card.maxScore (matchedPoints (other.evaluate inputs).outcomes))) ∧
    ((∀ order, order.Perm (card.evaluate inputs).outcomes →
      (ofOutcomes card.maxScore order).totalScore = card.exactTotal inputs) ↔
        OrderFree card.maxScore (matchedPoints (card.evaluate inputs).outcomes)) ∧
    (OrderFree card.maxScore (matchedPoints (card.evaluate inputs).outcomes) →
      ∀ other, card.Reordered other →
        (other.evaluate inputs).totalScore = (card.evaluate inputs).totalScore ∧
        (other.evaluate inputs).grade = (card.evaluate inputs).grade ∧
        (other.evaluate inputs).documents = (card.evaluate inputs).documents) := by
  refine ⟨totalScore_eq_exactTotal_iff card inputs, ?_, forall_order_totalScore_eq_iff card inputs,
    ?_⟩
  · intro other h
    rw [exactTotal_eq_of_reordered h, totalScore_eq_exactTotal_iff, h.maxScore]
  · intro hfree other h
    have hall := (forall_order_totalScore_eq_iff card inputs).mpr hfree
    have hother := hall _ (outcomes_perm h inputs).symm
    rw [h.maxScore] at hother
    have htotal : (other.evaluate inputs).totalScore = (card.evaluate inputs).totalScore :=
      hother.trans (hall _ (.refl _)).symm
    exact ⟨htotal, grade_eq_of_totalScore_eq h.maxScore.symm htotal⟩

/-! ## A total that depends on the order -/

/-- A scorecard of one group with a rule for each score, all of which match the same text. -/
def ofScores (ceiling : Points) (scores : List Points) : Scorecard :=
  { id := "demo"
    name := "Demo"
    maxScore := ceiling
    groups := [⟨"purpose", none, scores.map fun a => ⟨"purpose", .equal, "car", a⟩⟩] }

/-- Two of the greatest scores, and then a penalty of the same size. -/
def penaltyLast : Scorecard :=
  ofScores (clamp 100) [most, most, clamp (-0x7FFFFFFFFFFFFFFF)]

/-- The same rules with the penalty first. -/
def penaltyFirst : Scorecard :=
  ofScores (clamp 100) [clamp (-0x7FFFFFFFFFFFFFFF), most, most]

/-- A penalty that comes last is taken off the end of the range, so the total is zero and the risk
is high. The exact sum, which is reached with the penalty first, is the greatest score. -/
theorem totalScore_penaltyLast :
    penaltyLast.Reordered penaltyFirst ∧
    penaltyLast.exactTotal (Inputs.empty.insert "purpose" "car") = clamp 100 ∧
    (penaltyLast.evaluate (Inputs.empty.insert "purpose" "car")).totalScore = clamp 0 ∧
    (penaltyFirst.evaluate (Inputs.empty.insert "purpose" "car")).totalScore = clamp 100 ∧
    (penaltyLast.evaluate (Inputs.empty.insert "purpose" "car")).grade = .high ∧
    (penaltyFirst.evaluate (Inputs.empty.insert "purpose" "car")).grade = .low ∧
    (penaltyLast.evaluate (Inputs.empty.insert "purpose" "car")).documents ≠
      (penaltyFirst.evaluate (Inputs.empty.insert "purpose" "car")).documents := by
  have hrules : penaltyLast.rules.Perm penaltyFirst.rules := by decide +kernel
  refine ⟨⟨rfl, rfl, rfl, rfl, rfl, rfl, _, .refl _, .cons ⟨rfl, rfl, ?_⟩ .nil⟩, ?_⟩
  · simpa [penaltyLast, penaltyFirst, ofScores, Scorecard.rules] using hrules
  · decide +kernel

end Scorecard

end CreditScorecard
