import SpanScore.Proofs.Feature.Overlap
import SpanScore.Proofs.Score.Structural

/-!
# Heuristic scores

The score of two spans is the inverse of one more than their distance.  Sums and quotients are
rounded the same way on both sides of an inequality, so a span that is closer in every metric never
scores less, even where a difference or a sum of them is infinite.
-/

namespace SpanScore.Heuristic

open Double SpanScore.Distribution

/-! ## Distances -/

theorem isAmount_distance (left right : Json.Value) :
    IsAmount (distance (metrics left) (metrics right)) := by
  rw [distance_metrics]
  refine (sum_of_isAmount ?_).1
  rw [List.forall_mem_map]
  exact fun path _ ↦ isAmount_abs _

/-- Two spans are not further apart than two others that are further apart in every metric. -/
theorem distance_le {left right left' right' : Json.Value}
    (closer : ∀ path ∈ metricPaths,
      (metric left path - metric right path).abs ≤ (metric left' path - metric right' path).abs) :
    0 ≤ distance (metrics left) (metrics right) ∧
      distance (metrics left) (metrics right) ≤ distance (metrics left') (metrics right') := by
  have nonneg : ∀ path ∈ metricPaths, 0 ≤ (metric left path - metric right path).abs :=
    fun path mem ↦ isAmount_abs _ (isNaN_eq_false_of_le (closer path mem)).1
  have start : (0 : Float) ≤ -0.0 ∧ (-0.0 : Float) ≤ -0.0 := by decide
  have le :
      distance (metrics left) (metrics right) ≤ distance (metrics left') (metrics right') := by
    rw [distance_metrics, distance_metrics]
    exact foldl_add_le _ _ start.1 start.2 fun path mem ↦ ⟨nonneg path mem, closer path mem⟩
  exact ⟨isAmount_distance left right (isNaN_eq_false_of_le le).1, le⟩

/-! ## Scores -/

section

variable {amount : Float} (low : 0 ≤ amount)

include low

theorem one_le_one_add : 1 ≤ 1 + amount ∧ 0 < 1 + amount := by
  have grown : 1 ≤ 1 + amount := (le_add (by decide) low).1
  exact ⟨grown, pos_of_le (by decide) grown⟩

/-- Inverting one more than an amount gives a share, so the clamp changes nothing. -/
theorem clamp_inverse : clamp (1 / (1 + amount)) = 1 / (1 + amount) := by
  obtain ⟨grown, pos⟩ := one_le_one_add low
  obtain ⟨nonneg, le_one⟩ := div_mem (by decide) grown pos (by decide)
  exact clamp_eq_self nonneg le_one

/-- Greater amounts have smaller inverses. -/
theorem inverse_le {bound : Float} (le : amount ≤ bound) :
    1 / (1 + bound) ≤ 1 / (1 + amount) := by
  have grown : 1 + amount ≤ 1 + bound := Double.add_le_add (by decide) low (by decide) le
  exact Double.div_le_div_left (by decide) (by decide) (one_le_one_add low).2 grown

end

/-- Beside itself a span lacks a score just where one of its metrics is infinite or no number. -/
theorem undefined_self_iff (span : Json.Value) :
    Undefined span span ↔ ¬∀ path ∈ metricPaths, (metric span path).isFinite = true := by
  simp only [Undefined, not_forall, exists_prop]
  refine exists_congr fun path ↦ and_congr_right fun _ ↦ ?_
  rw [isFinite_iff, ← Bool.not_eq_true, ← Bool.not_eq_true]
  tauto

theorem isNaN_score_self_eq_false_iff (span : Json.Value) :
    (score span span).isNaN = false ↔
      ∀ path ∈ metricPaths, (metric span path).isFinite = true := by
  rw [Bool.eq_false_iff, Ne, isNaN_score_iff, undefined_self_iff, not_not]

/-- Beside itself a span scores one, or what is no number. -/
theorem score_self_eq_one_iff (span : Json.Value) :
    score span span = 1 ↔ ∀ path ∈ metricPaths, (metric span path).isFinite = true := by
  constructor
  · intro one
    refine (isNaN_score_self_eq_false_iff span).1 ?_
    exact Bool.eq_false_iff.2 fun not ↦ ne_one_of_isNaN not one
  · intro finite
    have none : distance (metrics span) (metrics span) = 0 := by
      rw [distance_metrics]
      refine sum_of_forall_eq_zero (by simp [metricPaths]) ?_
      rw [List.forall_mem_map]
      exact fun path mem ↦ abs_sub_self (finite path mem)
    rw [score, none]
    decide

theorem score_self_of_isNaN_eq_false {span : Json.Value}
    (number : (score span span).isNaN = false) : score span span = 1 :=
  (score_self_eq_one_iff span).2 ((isNaN_score_self_eq_false_iff span).1 number)

/-- A score is no number exactly where a metric is none or is the same infinity on both sides, and
otherwise it is a share.  A span that is closer in every metric never scores less. -/
theorem score_falls_with_distance (left right : Json.Value) :
    ((score left right).isNaN = true ↔ Undefined left right) ∧
    (0 ≤ score left right ∧ score left right ≤ 1 ↔ ¬Undefined left right) ∧
    ∀ right', (∀ path ∈ metricPaths,
        (metric left path - metric right path).abs ≤
          (metric left path - metric right' path).abs) →
      score left right' ≤ score left right := by
  refine ⟨isNaN_score_iff left right, ?_, fun right' closer ↦ ?_⟩
  · rw [← isNaN_score_iff, Bool.not_eq_true]
    exact ⟨fun mem ↦ (isNaN_eq_false_of_le mem.1).2, isShare_score left right⟩
  · obtain ⟨low, le⟩ := distance_le closer
    have low' : 0 ≤ distance (metrics left) (metrics right') :=
      le_trans_of_nonneg (by decide) low le
    calc score left right'
        = 1 / (1 + distance (metrics left) (metrics right')) := clamp_inverse low'
      _ ≤ 1 / (1 + distance (metrics left) (metrics right)) := inverse_le low le
      _ = score left right := (clamp_inverse low).symm

/-- A span without metrics is closer to the metric `-1e308` than a span with `1e308`, although the
difference of those two overflows. -/
theorem score_falls_with_distance_at_overflow :
    let span (metric : Float) : Json.Value :=
      .object [("analysis", .object [("max_rmsd", .number (.double metric))])]
    let left := span (-1e308)
    let right := .object []
    let right' := span 1e308
    (∀ path ∈ metricPaths,
        (metric left path - metric right path).abs ≤
          (metric left path - metric right' path).abs) ∧
      (metric left "analysis.max_rmsd" - metric right' "analysis.max_rmsd").abs = infinity ∧
      score left right' ≤ score left right ∧
      (score left right').isNaN = false ∧ (score left right).isNaN = false := by
  intro span left right right'
  have closer : ∀ path ∈ metricPaths,
      (metric left path - metric right path).abs ≤
        (metric left path - metric right' path).abs := by
    decide +kernel
  obtain ⟨-, -, falls⟩ := score_falls_with_distance left right
  have falls := falls right' closer
  exact ⟨closer, by decide +kernel, falls, (isNaN_eq_false_of_le falls).1,
    (isNaN_eq_false_of_le falls).2⟩

end SpanScore.Heuristic
