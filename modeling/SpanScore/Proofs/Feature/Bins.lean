import SpanScore.Proofs.Feature.Overlap
import SpanScore.Proofs.Score.Symmetry

/-!
# Bins that hold nothing

A bin whose entry is not positive, or no number, holds nothing.  Main statement: such bins at the
end of a list make no difference to an overlap, whether the other list is shorter, longer, or has
entries beside them, and whatever else the two lists hold.
-/

namespace SpanScore.Distribution

open Double

/-! ## Sums of distances -/

theorem isMagnitude_of_mem_distances (left right : List Float) :
    ∀ distance ∈ distances left right, IsMagnitude distance := by
  fun_induction distances left right with
  | case1 => simp
  | case2 first rest ih => exact List.forall_mem_cons.2 ⟨isMagnitude_abs _, ih⟩
  | case3 first rest ih => exact List.forall_mem_cons.2 ⟨isMagnitude_abs _, ih⟩
  | case4 first rest first' rest' ih => exact List.forall_mem_cons.2 ⟨isMagnitude_abs _, ih⟩

theorem distances_ne_nil {left right : List Float} (present : left ≠ [] ∨ right ≠ []) :
    distances left right ≠ [] := by
  fun_cases distances left right with
  | case1 => exact absurd rfl (or_self_iff.1 present)
  | case2 | case3 | case4 => exact List.cons_ne_nil _ _

/-- Zeros behind nothing are no distance from it. -/
theorem distances_zeros (count : ℕ) :
    distances (List.replicate count 0) [] = List.replicate count 0 := by
  induction count with
  | zero => rw [List.replicate_zero, distances]
  | succ count ih =>
    have none : (0 - 0 : Float).abs = 0 := by decide
    rw [List.replicate_succ, distances, ih, none]

/-- Zeros behind a list stand either beside entries that had nothing beside them before, or beside
nothing. -/
theorem foldl_distances_append_zeros (left right : List Float) (count : ℕ) {start : Float}
    (magnitude : IsMagnitude start) :
    (distances (left ++ List.replicate count 0) right).foldl (· + ·) start =
      (distances left right).foldl (· + ·) start := by
  fun_induction distances left right generalizing count start with
  | case1 =>
    rw [List.nil_append, distances_zeros]
    exact foldl_add_zeros magnitude count
  | case2 first rest ih =>
    rw [List.cons_append, distances, List.foldl_cons, List.foldl_cons]
    exact ih count (magnitude.add (isMagnitude_abs _))
  | case3 first rest ih =>
    cases count with
    | zero => rw [List.replicate_zero, List.append_nil, distances]
    | succ count =>
      rw [List.nil_append, List.replicate_succ, distances, List.foldl_cons, List.foldl_cons]
      exact ih count (magnitude.add (isMagnitude_abs _))
  | case4 first rest first' rest' ih =>
    rw [List.cons_append, distances, List.foldl_cons, List.foldl_cons]
    exact ih count (magnitude.add (isMagnitude_abs _))

theorem sum_distances_append_zeros {left right : List Float} (present : left ≠ [] ∨ right ≠ [])
    (count : ℕ) :
    sum (distances (left ++ List.replicate count 0) right) = sum (distances left right) := by
  have present' : left ++ List.replicate count 0 ≠ [] ∨ right ≠ [] :=
    present.imp_left (List.append_ne_nil_of_left_ne_nil · _)
  rw [sum_eq_foldl_zero (distances_ne_nil present') (isMagnitude_of_mem_distances _ _),
    sum_eq_foldl_zero (distances_ne_nil present) (isMagnitude_of_mem_distances _ _)]
  exact foldl_distances_append_zeros left right count rfl

/-! ## Scaling -/

theorem positivePart_of_absent {bin : Float} (absent : bin ≤ 0 ∨ bin.isNaN = true) :
    positivePart bin = 0 := by
  rw [positivePart, if_neg]
  rcases absent with low | not
  · have number := isNaN_eq_false_of_le low
    exact (not_lt_iff number.2 number.1).2 low
  · exact (not_lt_of_isNaN not 0).2

section

variable {values bins : List Float} (absent : ∀ bin ∈ bins, bin ≤ 0 ∨ bin.isNaN = true)

include absent

theorem map_positivePart_of_absent :
    bins.map positivePart = List.replicate bins.length 0 := by
  rw [List.eq_replicate_iff, List.length_map, List.forall_mem_map]
  exact ⟨rfl, fun bin mem ↦ positivePart_of_absent (absent bin mem)⟩

theorem positiveSum_append_of_absent (present : values ≠ []) :
    positiveSum (values ++ bins) = positiveSum values := by
  have none : positivePart 0 = 0 := by decide
  rw [← positiveSum_append_zeros present bins.length]
  simp only [positiveSum, List.map_append, map_positivePart_of_absent absent, List.map_replicate,
    none]

/-- Bins that hold nothing are scaled to zeros and leave the scale of the others as it is. -/
theorem normalize_append_of_absent :
    normalize (values ++ bins) = normalize values ++ List.replicate bins.length 0 := by
  have zeros : bins.map (scaled (positiveSum (values ++ bins))) =
      List.replicate bins.length 0 := by
    rw [List.eq_replicate_iff, List.length_map, List.forall_mem_map]
    refine ⟨rfl, fun bin mem ↦ ?_⟩
    have none : positivePart 0 = 0 := by decide
    rw [← scaled_zero (values ++ bins), scaled, scaled, positivePart_of_absent (absent bin mem),
      none]
  rw [normalize_eq_map, normalize_eq_map, List.map_append, zeros]
  rcases values.eq_nil_or_concat with rfl | ⟨_, _, rfl⟩
  · rfl
  · rw [positiveSum_append_of_absent absent (by simp)]

/-! ## Overlaps -/

theorem overlap_append_of_absent {right : List Float} (present : values ≠ [] ∨ right ≠ []) :
    overlap (values ++ bins) right = overlap values right := by
  have present' : values ++ bins ≠ [] ∨ right ≠ [] :=
    present.imp_left (List.append_ne_nil_of_left_ne_nil · _)
  have scaled_present : normalize values ≠ [] ∨ normalize right ≠ [] := by
    simpa only [normalize_eq_map, ne_eq, List.map_eq_nil_iff] using present
  rw [overlap_of_ne_nil present', overlap_of_ne_nil present, normalize_append_of_absent absent,
    sum_distances_append_zeros scaled_present]

end

/-- Missing bins count as zero: bins that hold nothing, behind either of two lists that are not both
empty, leave the overlap the double that it is. -/
theorem overlap_ignores_empty_bins {left right bins : List Float}
    (present : left ≠ [] ∨ right ≠ []) (absent : ∀ bin ∈ bins, bin ≤ 0 ∨ bin.isNaN = true) :
    overlap (left ++ bins) right = overlap left right ∧
      overlap left (right ++ bins) = overlap left right := by
  refine ⟨overlap_append_of_absent absent present, ?_⟩
  rw [overlap_comm left, overlap_comm left, overlap_append_of_absent absent present.symm]

/-- A list whose sum overflows, one without entries, and bins that go beyond both. -/
theorem overlap_ignores_empty_bins_at_overflow :
    let bins : List Float := [-0.0, 0.0 / 0.0, -1.0 / 0.0]
    overlap ([1e308, 1e308] ++ bins) [] = overlap [1e308, 1e308] [] ∧
      overlap [1e308, 1e308] ([] ++ bins) = overlap [1e308, 1e308] [] :=
  overlap_ignores_empty_bins (.inl (List.cons_ne_nil _ _)) (by decide)

end SpanScore.Distribution
