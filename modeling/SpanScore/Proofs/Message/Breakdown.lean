import SpanScore.Message.Breakdown
import SpanScore.Proofs.Feature.Distribution

/-!
# Composite scores

The mean of the scores in a breakdown is a share when they are, and it is a number when all of them
are: rounding a sum of at most three shares never takes it above their count.
-/

namespace SpanScore.Breakdown

open Double SpanScore.Distribution

variable (scores : Breakdown)

theorem length_present_le : scores.present.length ≤ 3 :=
  List.length_filterMap_le _ _

/-- Up to three ones are counted exactly. -/
theorem count_of_le {count : ℕ} (le : count ≤ 3) (positive : 0 < count) :
    (List.replicate count 1).foldl (· + ·) (-0.0) = count.toFloat ∧ 0 < count.toFloat ∧
      count.toFloat.isFinite = true := by
  obtain rfl | rfl | rfl : count = 1 ∨ count = 2 ∨ count = 3 := by omega
  all_goals decide +kernel

/-- The sum of up to three shares lies between zero and their count, when it is a number. -/
theorem sum_mem {values : List Float} (few : values.length ≤ 3) (nonempty : 0 < values.length)
    (shares : ∀ value ∈ values, IsShare value) (number : (sum values).isNaN = false) :
    0 ≤ sum values ∧ sum values ≤ values.length.toFloat := by
  obtain ⟨amount, isNaN_iff⟩ := sum_of_isAmount fun value mem ↦ (shares value mem).isAmount
  have numbers : ∀ value ∈ values, 0 ≤ value ∧ value ≤ 1 := by
    intro value mem
    refine shares value mem ?_
    by_contra not
    rw [isNaN_iff.2 ⟨value, mem, by simpa using not⟩] at number
    cases number
  have start : (0 : Float) ≤ -0.0 ∧ (-0.0 : Float) ≤ -0.0 := by decide
  have bound := foldl_add_le id (fun _ ↦ 1) start.1 start.2 numbers
  rw [List.map_id, List.map_const', (count_of_le few nonempty).1] at bound
  exact ⟨amount number, bound⟩

/-- The mean of shares is a share, and it is a number when all of them are. -/
theorem isShare_composite (shares : ∀ score ∈ scores.present, IsShare score) {mean : Float}
    (h : scores.composite = some mean) :
    IsShare mean ∧ (mean.isNaN = true ↔ ∃ score ∈ scores.present, score.isNaN = true) := by
  unfold composite at h
  split at h
  · cases h
  next nonempty =>
  obtain rfl := Option.some.inj h
  change IsShare (sum scores.present / _) ∧ ((sum scores.present / _).isNaN = true ↔ _)
  have positive : 0 < scores.present.length := List.length_pos_iff.2 (by simpa using nonempty)
  obtain ⟨-, count_pos, count_finite⟩ := count_of_le scores.length_present_le positive
  have count := (isFinite_iff _).1 count_finite
  have isNaN_iff := (sum_of_isAmount fun score mem ↦ (shares score mem).isAmount).2
  have mean_iff : (sum scores.present / scores.present.length.toFloat).isNaN = true ↔
      (sum scores.present).isNaN = true := by
    rw [isNaN_div_iff, count.1, count.2, beq_zero_of_pos count_pos]
    simp
  refine ⟨fun number ↦ ?_, mean_iff.trans isNaN_iff⟩
  have summed : (sum scores.present).isNaN = false := by
    rwa [Bool.eq_false_iff, Ne, mean_iff, ← Ne, ← Bool.eq_false_iff] at number
  obtain ⟨low, high⟩ := sum_mem scores.length_present_le positive shares summed
  have finite : (sum scores.present).isFinite = true := by
    rw [isFinite_iff, and_iff_right summed]
    by_contra infinite
    have beyond := isInf_of_le low high (by simpa using infinite)
    rw [count.2] at beyond
    cases beyond
  exact div_mem low high count_pos finite

/-- The mean of three scores is rounded after each sum, from left to right, and once more. -/
theorem composite_mk (graphlet mapperOverlap stgnn : Float) :
    composite ⟨some graphlet, some mapperOverlap, some stgnn⟩ =
      some ((graphlet + mapperOverlap + stgnn) / 3) := by
  have start := Double.neg_zero_add graphlet
  rw [composite, if_neg (by simp [present])]
  change some ((-0.0 + graphlet + mapperOverlap + stgnn) / 3) = _
  rw [start]

end SpanScore.Breakdown
