import SpanScore.Proofs.Feature.Overlap
import SpanScore.Proofs.Score.Structural

/-!
# Mapper scores

The score of two profiles is their overlap, lowered by a penalty for sums that are apart.  It is a
number unless a sum is infinite, and then it lies between zero and the overlap.  Equal sums have no
penalty, even where they have no finite total.
-/

namespace SpanScore.Mapper

open Double SpanScore.Distribution

/-- Equal finite sums are not apart, whether their total is finite or not. -/
theorem penalty_of_beq {left right : Float} (hl : left.isFinite = true)
    (hr : right.isFinite = true) (equal : (left == right) = true) : penalty left right = 0 := by
  unfold penalty
  split
  · next positive =>
    rw [abs_sub_of_beq hl hr equal, zero_div_of_pos positive]
    rfl
  · rfl

/-- A sum of positive entries that does not overflow is finite. -/
theorem isFinite_positiveSum {values : List Float} (finite : ¬Overflows values) :
    (positiveSum values).isFinite = true := by
  rw [isFinite_iff, ← Bool.not_eq_true (Float.isInf _)]
  exact ⟨(isNaN_eq_false_of_le (positiveSum_mem values).1).2, finite⟩

section

variable {left right : List Float} (hl : left ≠ []) (hr : right ≠ []) (finite : ¬Overflows left)
  (finite' : ¬Overflows right)

theorem profileScore_of_eq_nil (missing : left = [] ∨ right = []) :
    profileScore left right = 0 := by
  unfold profileScore
  rw [if_pos]
  simpa using missing

include finite finite'

theorem overlap_mem : 0 ≤ overlap left right ∧ overlap left right ≤ 1 := by
  refine isShare_overlap left right ?_
  rw [Bool.eq_false_iff, Ne, isNaN_overlap_iff]
  exact not_or.2 ⟨mt IsUnbounded.overflows finite, mt IsUnbounded.overflows finite'⟩

theorem penalty_mem :
    0 ≤ penalty (positiveSum left) (positiveSum right) ∧
      penalty (positiveSum left) (positiveSum right) ≤ 1 := by
  refine isShare_penalty _ _ ?_
  rw [Bool.eq_false_iff, Ne, isNaN_penalty_iff (positiveSum_mem left).1 (positiveSum_mem right).1]
  exact not_or.2 ⟨finite, finite'⟩

include hl hr

/-- The clamp changes nothing, for the product lies between zero and the overlap already. -/
theorem profileScore_eq_mul :
    profileScore left right =
        overlap left right * (1 - penalty (positiveSum left) (positiveSum right)) ∧
      0 ≤ profileScore left right ∧ profileScore left right ≤ overlap left right := by
  obtain ⟨low, high⟩ := overlap_mem finite finite'
  obtain ⟨penalty_low, penalty_high⟩ := penalty_mem finite finite'
  obtain ⟨kept_low, kept_high⟩ := one_sub_mem penalty_low penalty_high
  obtain ⟨product_low, product_high⟩ :=
    mul_mem_of_unit low (isFinite_of_unit low high) kept_low kept_high
  have score_eq : profileScore left right =
      overlap left right * (1 - penalty (positiveSum left) (positiveSum right)) := by
    unfold profileScore
    rw [if_neg (by simp [hl, hr])]
    exact clamp_eq_self product_low (le_trans_of_nonneg product_low product_high high)
  rw [score_eq]
  exact ⟨rfl, product_low, product_high⟩

theorem profileScore_of_beq (equal : (positiveSum left == positiveSum right) = true) :
    profileScore left right = overlap left right := by
  obtain ⟨low, high⟩ := overlap_mem finite finite'
  have kept : 1 - penalty (positiveSum left) (positiveSum right) = 1 := by
    rw [penalty_of_beq (isFinite_positiveSum finite) (isFinite_positiveSum finite') equal]
    decide
  calc profileScore left right
      = overlap left right * (1 - penalty (positiveSum left) (positiveSum right)) :=
        (profileScore_eq_mul hl hr finite finite').1
    _ = overlap left right * 1 := by rw [kept]
    _ = overlap left right := mul_one_of_isFinite (isFinite_of_unit low high)

end

/-! ## Spans -/

/-- A span beside itself scores one unless it has no profile or one with an infinite sum. -/
theorem score_self_eq_one_iff (span : Json.Value) :
    score span span = 1 ↔ profile span ≠ [] ∧ positiveSum (profile span) ≠ infinity := by
  rw [Ne, Ne, ← overflows_iff]
  constructor
  · intro one
    have present : profile span ≠ [] := by
      intro missing
      rw [score, profileScore_of_eq_nil (.inl missing)] at one
      exact absurd one (by decide)
    refine ⟨present, fun overflows ↦ ?_⟩
    exact ne_one_of_isNaN ((isNaN_score_iff span span).2 ⟨present, present, .inl overflows⟩) one
  · rintro ⟨present, finite⟩
    have number := (isNaN_eq_false_of_le (positiveSum_mem (profile span)).1).2
    rw [score, profileScore_of_beq present present finite finite (beq_self number)]
    refine (overlap_self_eq_one_iff _).2 ⟨present, fun mem ↦ ?_⟩
    exact finite ((isUnbounded_iff _).2 mem).overflows

theorem score_self_of_eq_nil {span : Json.Value} (missing : profile span = []) :
    score span span = 0 :=
  profileScore_of_eq_nil (.inl missing)

/-- Nothing but one, zero or no number comes of a span beside itself. -/
theorem score_self_eq_zero_or_one {span : Json.Value} (number : (score span span).isNaN = false) :
    score span span = 0 ∨ score span span = 1 := by
  by_cases missing : profile span = []
  · exact .inl (score_self_of_eq_nil missing)
  · refine .inr ((score_self_eq_one_iff span).2 ⟨missing, fun infinite ↦ ?_⟩)
    rw [← overflows_iff] at infinite
    rw [Bool.eq_false_iff, Ne, isNaN_score_iff] at number
    exact number ⟨missing, missing, .inl infinite⟩

/-- The Mapper score of two spans is zero where one of them has no profile.  Else it is no number
exactly beside an infinite sum, and otherwise it does not exceed the overlap of the profiles, which
it is when the sums are equal. -/
theorem score_bounds (left right : Json.Value) :
    (profile left = [] ∨ profile right = [] → score left right = 0) ∧
    (profile left ≠ [] ∧ profile right ≠ [] →
      ((score left right).isNaN = true ↔
        positiveSum (profile left) = infinity ∨ positiveSum (profile right) = infinity) ∧
      (¬(positiveSum (profile left) = infinity ∨ positiveSum (profile right) = infinity) →
        0 ≤ score left right ∧ score left right ≤ overlap (profile left) (profile right) ∧
        ((positiveSum (profile left) == positiveSum (profile right)) = true →
          score left right = overlap (profile left) (profile right)))) := by
  unfold score
  rw [← overflows_iff, ← overflows_iff]
  refine ⟨profileScore_of_eq_nil, fun ⟨hl, hr⟩ ↦ ⟨?_, fun finite ↦ ?_⟩⟩
  · rw [isNaN_profileScore_iff, and_iff_right hl, and_iff_right hr]
  · rw [not_or] at finite
    obtain ⟨-, low, high⟩ := profileScore_eq_mul hl hr finite.1 finite.2
    exact ⟨low, high, profileScore_of_beq hl hr finite.1 finite.2⟩

/-- Two profiles with the sum `1e308` score what they overlap, although their total overflows. -/
theorem score_bounds_at_overflowing_total :
    let span (nodes : List Float) : Json.Value :=
      .object [("mapper", .object [("nodes",
        .array (nodes.map fun node ↦ .number (.double node)))])]
    let left := span [5e307, 5e307]
    let right := span [1e308]
    (profile left ≠ [] ∧ profile right ≠ []) ∧
      ¬(positiveSum (profile left) = infinity ∨ positiveSum (profile right) = infinity) ∧
      (positiveSum (profile left) == positiveSum (profile right)) = true ∧
      positiveSum (profile left) + positiveSum (profile right) = infinity ∧
      score left right = overlap (profile left) (profile right) ∧
      score left right = 0.5 := by
  intro span left right
  have profiles : profile left = [5e307, 5e307] ∧ profile right = [1e308] := ⟨rfl, rfl⟩
  have present : profile left ≠ [] ∧ profile right ≠ [] := by
    rw [profiles.1, profiles.2]
    exact ⟨List.cons_ne_nil _ _, List.cons_ne_nil _ _⟩
  have finite :
      ¬(positiveSum (profile left) = infinity ∨ positiveSum (profile right) = infinity) := by
    rw [profiles.1, profiles.2]
    decide +kernel
  have equal : (positiveSum (profile left) == positiveSum (profile right)) = true := by
    rw [profiles.1, profiles.2]
    decide +kernel
  have total : positiveSum (profile left) + positiveSum (profile right) = infinity := by
    rw [profiles.1, profiles.2]
    decide +kernel
  have score_eq := (((score_bounds left right).2 present).2 finite).2.2 equal
  have overlap_eq : overlap (profile left) (profile right) = 0.5 := by
    have halves : normalize [5e307, 5e307] = [0.5, 0.5] := by decide +kernel
    have whole : normalize [1e308] = [1] := by decide +kernel
    rw [profiles.1, profiles.2, overlap, halves, whole, distances, distances, distances]
    decide +kernel
  exact ⟨present, finite, equal, total, score_eq, score_eq.trans overlap_eq⟩

end SpanScore.Mapper
