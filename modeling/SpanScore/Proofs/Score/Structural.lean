import SpanScore.Proofs.Feature.Distribution
import SpanScore.Score.Graphlet
import SpanScore.Score.Heuristic
import SpanScore.Score.Mapper

/-!
# Structural scores

A structural score lies between zero and one unless it is no number.  Main statements: which
features make it no number.  Graphlets need an infinite entry, profiles a sum that overflows, and
metrics two infinities that cancel, or a metric that is none.
-/

namespace SpanScore

open Double SpanScore.Distribution

/-! ## Graphlet scores -/

namespace Graphlet

/-- Whether the lists that are compared have an infinite entry. -/
def Undefined (left right : Json.Value) : Prop :=
  if !(histogram left).isEmpty || !(histogram right).isEmpty then
    IsUnbounded (histogram left) ∨ IsUnbounded (histogram right)
  else metrics left ≠ [] ∧ metrics right ≠ [] ∧
    (IsUnbounded (metrics left) ∨ IsUnbounded (metrics right))

theorem isNaN_score_iff (left right : Json.Value) :
    (score left right).isNaN = true ↔ Undefined left right := by
  unfold score Undefined
  split
  · exact isNaN_overlap_iff _ _
  · split
    · next missing =>
      rw [Bool.or_eq_true, List.isEmpty_iff, List.isEmpty_iff] at missing
      exact iff_of_false (by decide) (by tauto)
    · next present =>
      rw [Bool.or_eq_true, List.isEmpty_iff, List.isEmpty_iff, not_or] at present
      rw [isNaN_overlap_iff, and_iff_right present.1, and_iff_right present.2]

theorem isShare_score (left right : Json.Value) : IsShare (score left right) := by
  unfold score
  split
  · exact isShare_overlap _ _
  · split
    · exact isShare_zero
    · exact isShare_overlap _ _

end Graphlet

/-! ## Mapper scores -/

namespace Mapper

/-- Whether two profiles are compared of which one has no finite sum. -/
def Undefined (left right : Json.Value) : Prop :=
  profile left ≠ [] ∧ profile right ≠ [] ∧ (Overflows (profile left) ∨ Overflows (profile right))

section

variable {left right : Float} (hl : 0 ≤ left) (hr : 0 ≤ right)

include hl hr

theorem isInf_sum (infinite : left.isInf = true ∨ right.isInf = true) :
    (left + right).isInf = true := by
  obtain ⟨left_le, right_le⟩ := le_add hl hr
  exact infinite.elim (isInf_of_le hl left_le) (isInf_of_le hr right_le)

/-- A penalty is a number unless one of the sums is infinite. -/
theorem isNaN_penalty_iff :
    (penalty left right).isNaN = true ↔ left.isInf = true ∨ right.isInf = true := by
  have infinite := isInf_sum hl hr
  have sum_nonneg := add_nonneg hl hr
  have finite_iff {x : Float} (nonneg : 0 ≤ x) : x.isFinite = true ↔ x.isInf = false := by
    rw [isFinite_iff, and_iff_right (isNaN_eq_false_of_le nonneg).2]
  unfold penalty
  split
  · next positive =>
    rw [isNaN_clamp, isNaN_div_iff, isNaN_abs, isInf_abs, beq_zero_of_pos positive,
      (isNaN_eq_false_of_le sum_nonneg).2]
    constructor
    · intro not
      by_contra finite
      rw [not_or, Bool.not_eq_true, Bool.not_eq_true] at finite
      have difference := (isFinite_iff _).1
        (isFinite_sub hl hr ((finite_iff hl).2 finite.1) ((finite_iff hr).2 finite.2))
      rw [difference.1, difference.2] at not
      simp at not
    · intro lost
      rw [infinite lost]
      by_contra number
      have finite := isFinite_of_sub ((isFinite_iff (left - right)).2 (by simpa using number))
      rw [finite_iff hl, finite_iff hr] at finite
      rw [finite.1, finite.2] at lost
      simp at lost
  · next absent =>
    refine iff_of_false (by decide) fun lost ↦ absent ?_
    exact pos_of_isInf sum_nonneg (infinite lost)

end

theorem isShare_penalty (left right : Float) : IsShare (penalty left right) := by
  unfold penalty
  split
  · exact isShare_clamp _
  · exact isShare_zero

/-- The score of two profiles is a number unless one of their sums is infinite. -/
theorem isNaN_profileScore_iff (left right : List Float) :
    (profileScore left right).isNaN = true ↔
      left ≠ [] ∧ right ≠ [] ∧ (Overflows left ∨ Overflows right) := by
  unfold profileScore
  split
  · next missing =>
    rw [Bool.or_eq_true, List.isEmpty_iff, List.isEmpty_iff] at missing
    exact iff_of_false (by decide) (by tauto)
  · next present =>
    rw [Bool.or_eq_true, List.isEmpty_iff, List.isEmpty_iff, not_or] at present
    rw [and_iff_right present.1, and_iff_right present.2]
    dsimp only
    have penalty_iff := isNaN_penalty_iff (positiveSum_mem left).1 (positiveSum_mem right).1
    rw [isNaN_clamp, Overflows, Overflows, ← penalty_iff]
    refine ⟨fun not ↦ ?_, fun not ↦ (isNaN_of_operand (.inr (by rwa [isNaN_one_sub]))).2.2.1⟩
    by_contra number
    have overlapped : (overlap left right).isNaN = false := by
      rw [Bool.eq_false_iff, Ne, isNaN_overlap_iff]
      rw [penalty_iff] at number
      exact fun unbounded ↦
        number (unbounded.imp IsUnbounded.overflows IsUnbounded.overflows)
    rw [Bool.not_eq_true] at number
    have share := isShare_penalty (positiveSum left) (positiveSum right)
    have kept := isFinite_sub (by decide) (share number).1 (show (1 : Float).isFinite = true by
      decide) (share.isFinite number)
    rw [isNaN_mul_of_isFinite ((isShare_overlap left right).isFinite overlapped) kept] at not
    cases not

theorem isNaN_score_iff (left right : Json.Value) :
    (score left right).isNaN = true ↔ Undefined left right :=
  isNaN_profileScore_iff _ _

theorem isShare_score (left right : Json.Value) : IsShare (score left right) := by
  unfold score profileScore
  split
  · exact isShare_zero
  · exact isShare_clamp _

end Mapper

/-! ## Heuristic scores -/

namespace Heuristic

/-- A metric of a span, a missing one counting as zero. -/
def metric (span : Json.Value) (path : String) : Float :=
  (Path.resolveFeature span path).getD 0

/-- Whether one of two metrics is no number, or both are the same infinity. -/
def Undefined (left right : Json.Value) : Prop :=
  ∃ path ∈ metricPaths, (metric left path).isNaN = true ∨ (metric right path).isNaN = true ∨
    (metric left path).isInf = true ∧ metric right path = metric left path

theorem distance_metrics (left right : Json.Value) :
    distance (metrics left) (metrics right) =
      sum (metricPaths.map fun path ↦ (metric left path - metric right path).abs) := by
  rw [distance, metrics, metrics, List.zipWith_map, List.zipWith_self]
  rfl

/-- Inverting what is greater than an amount by one gives a number when the amount is one. -/
theorem isNaN_inverse_iff {amount : Float} (h : IsAmount amount) :
    (1 / (1 + amount)).isNaN = true ↔ amount.isNaN = true := by
  have one : IsAmount 1 := isAmount_of_nonneg (by decide)
  have ones : (1 : Float).isNaN = false ∧ (1 : Float).isInf = false ∧
      ((1 : Float) == 0) = false := by decide
  rw [isNaN_div_iff, one.isNaN_add_iff h, ones.1, ones.2.1, ones.2.2]
  simp

theorem isNaN_score_iff (left right : Json.Value) :
    (score left right).isNaN = true ↔ Undefined left right := by
  have amounts : ∀ distance ∈ metricPaths.map fun path ↦
      (metric left path - metric right path).abs, IsAmount distance := by
    rw [List.forall_mem_map]
    exact fun path _ ↦ isAmount_abs _
  obtain ⟨amount, isNaN_iff⟩ := sum_of_isAmount amounts
  rw [score, isNaN_clamp, distance_metrics, isNaN_inverse_iff amount, isNaN_iff]
  simp only [List.mem_map, exists_exists_and_eq_and, isNaN_abs, isNaN_sub_iff, Undefined]

theorem isShare_score (left right : Json.Value) : IsShare (score left right) :=
  isShare_clamp _

end Heuristic

end SpanScore
