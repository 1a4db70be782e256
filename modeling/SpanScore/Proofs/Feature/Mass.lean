import SpanScore.Proofs.Double.Absorption
import SpanScore.Proofs.Feature.Bins

/-!
# Mass of histograms

A histogram without mass is scaled to zeros, and so is one whose mass is next to nothing.  Main
statement: as long as the mass is finite nothing else is, for however long a histogram is, one of
its entries has a share of the mass that is not rounded to zero.
-/

namespace SpanScore.Distribution

open Double

def IsZeros (values : List Float) : Prop :=
  ∀ entry ∈ values, (entry == 0) = true

/-! ## Great entries -/

theorem epsilon_eq : epsilon = signed .positive (971 * 2 ^ 52) := by
  decide

/-- A sum of positive parts is at most `2 ^ 54` times their bound. -/
theorem positiveSum_le_of_absorbs {values : List Float} {small great : ℕ} (pos : 0 < small)
    (great_eq : value great = 2 ^ 54 * value small)
    (le : ∀ value ∈ values, positivePart value ≤ signed .positive small) :
    positiveSum values ≤ signed .positive great := by
  have start : (-0.0 : Float) = signed .negative 0 := by decide
  refine foldl_add_le_of_absorbs (add_eq_of_absorbs pos great_eq) (by decide) ?_ ?_
  · rw [start]
    exact signed_le_signed (.inr rfl) (.inl rfl) (Nat.zero_le great)
  · rw [List.forall_mem_map]
    exact fun value mem ↦ ⟨positivePart_nonneg value, le value mem⟩

/-- A positive part that is no smaller than a double has a place behind it, up to that of the
sum. -/
theorem exists_part_of_not_le {values : List Float} {entry : Float} (mem : entry ∈ values)
    {small place : ℕ} (finite : place ≤ infinityPlace)
    (sum_eq : positiveSum values = signed .positive place)
    (greater : ¬positivePart entry ≤ signed .positive small) :
    ∃ part, positivePart entry = signed .positive part ∧ small < part ∧ part ≤ place := by
  have le_sum := (positiveSum_mem values).2 entry mem
  obtain ⟨sign, part, within, part_eq, nonneg⟩ :=
    exists_place_of_nonneg (positivePart_nonneg entry)
  rw [part_eq] at le_sum greater
  rw [sum_eq] at le_sum
  have part_le := place_le_of_signed_le nonneg (.inl rfl) within finite le_sum
  have longer : small < part := by
    by_contra le
    exact greater (signed_le_signed nonneg (.inl rfl) (Nat.not_lt.1 le))
  obtain rfl : sign = .positive := nonneg.resolve_right (by omega)
  exact ⟨part, part_eq, longer, part_le⟩

/-- A share of more than one in `2 ^ 55` parts is not rounded to zero. -/
theorem exists_share {part place : ℕ} (pos : 0 < place) (finite : place < infinityPlace)
    (le : part ≤ place) (great : value place < 2 ^ 55 * value part) :
    ∃ share, 0 < share ∧ share < infinityPlace ∧
      signed .positive part / signed .positive place = signed .positive share := by
  have place_pos := value_pos pos
  obtain ⟨share, rounds, share_eq⟩ :=
    exists_div_signed .positive .positive (le.trans_lt finite) finite pos
  have least_eq : value 1 = 1 * 2 ^ (-1074 : ℤ) := @value_scaled 0 1 (.inl rfl) (by decide)
  have power : (2 : ℚ) ^ (-1074 : ℤ) ≤ 2 ^ (-55 : ℤ) :=
    zpow_le_zpow_right₀ (by norm_num) (by decide)
  have least : value 1 ≤ value part / value place := by
    rw [le_div_iff₀ place_pos, least_eq, one_mul]
    refine (mul_le_mul_of_nonneg_right power place_pos.le).trans ?_
    norm_num at great ⊢
    linarith
  have most : value part / value place ≤ value onePlace := by
    rw [value_onePlace, div_le_one place_pos]
    exact value_strictMono.monotone le
  have one_lt : onePlace < infinityPlace := by decide
  have share_lt := (rounds.le_of_le_value most).trans_lt one_lt
  exact ⟨share, rounds.le_of_value_le least, share_lt, share_eq⟩

section

variable {values : List Float} (total : (positiveSum values).isFinite = true)
  (above : ¬positiveSum values ≤ epsilon)

include total above

/-- A mass that is not next to nothing has a place behind that of epsilon. -/
theorem exists_place_of_mass :
    ∃ place, 971 * 2 ^ 52 < place ∧ place < infinityPlace ∧
      positiveSum values = signed .positive place := by
  obtain ⟨place, within, -, sum_eq⟩ := exists_place_of_pos (positiveSum_pos above)
  rw [sum_eq, isFinite_signed] at total
  refine ⟨place, ?_, total, sum_eq⟩
  rw [sum_eq, epsilon_eq, le_iff _ _ within (by decide), rank, rank] at above
  omega

/-- Some positive part is more than one in `2 ^ 55` parts of the mass, for else the mass would be at
most half of what it is. -/
theorem exists_great_part :
    ∃ entry ∈ values, ∃ part place, positivePart entry = signed .positive part ∧
      positiveSum values = signed .positive place ∧ 0 < place ∧ place < infinityPlace ∧
      part ≤ place ∧ value place < 2 ^ 55 * value part := by
  obtain ⟨place, beyond, finite, sum_eq⟩ := exists_place_of_mass total above
  have place_pos := value_pos (show 0 < place by omega)
  obtain ⟨small, small_eq⟩ := @exists_value_mul_eq place 55 (by
    unfold Double.exponent
    rw [if_neg (by omega)]
    omega)
  obtain ⟨great, great_eq⟩ := exists_value_eq_mul small 54
  have small_pos : 0 < small := by
    rw [← value_strictMono.lt_iff_lt, value_zero]
    linarith
  have half : great < place := by
    rw [← value_strictMono.lt_iff_lt]
    linarith
  by_contra none
  have bound : positiveSum values ≤ signed .positive great := by
    refine positiveSum_le_of_absorbs small_pos great_eq fun entry mem ↦ ?_
    by_contra greater
    obtain ⟨part, part_eq, longer, part_le⟩ :=
      exists_part_of_not_le mem finite.le sum_eq greater
    refine none ⟨entry, mem, part, place, part_eq, sum_eq, by omega, finite, part_le, ?_⟩
    have value_lt := value_strictMono longer
    linarith
  rw [sum_eq] at bound
  have le := place_le_of_signed_le (.inl rfl) (.inl rfl) finite.le (by omega) bound
  omega

/-- A mass that is finite and not next to nothing leaves an entry that is no zero. -/
theorem not_isZeros_normalize : ¬IsZeros (normalize values) := by
  obtain ⟨entry, mem, part, place, part_eq, sum_eq, pos, finite, le, great⟩ :=
    exists_great_part total above
  obtain ⟨share, share_pos, share_le, share_eq⟩ := exists_share pos finite le great
  intro zeros
  have zero := zeros (scaled (positiveSum values) entry) (by
    rw [normalize_eq_map]
    exact List.mem_map_of_mem mem)
  rw [scaled, if_neg above, part_eq, sum_eq, share_eq, beq_zero_signed _ share_le.le] at zero
  omega

end

/-! ## Lists of zeros -/

theorem normalize_of_le {values : List Float} (below : positiveSum values ≤ epsilon) :
    normalize values = List.replicate values.length 0 :=
  if_pos below

theorem isZeros_normalize_iff {values : List Float}
    (total : (positiveSum values).isFinite = true) :
    IsZeros (normalize values) ↔ positiveSum values ≤ epsilon := by
  constructor
  · intro zeros
    by_contra above
    exact not_isZeros_normalize total above zeros
  · intro below
    rw [normalize_of_le below]
    intro entry mem
    rw [List.eq_of_mem_replicate mem]
    decide

theorem eq_zero_of_mem_distances {left right : List Float} (hl : ∀ entry ∈ left, entry = 0)
    (hr : ∀ entry ∈ right, entry = 0) : ∀ distance ∈ distances left right, distance = 0 := by
  have none : (0 - 0 : Float).abs = 0 := by decide
  fun_induction distances left right with
  | case1 => simp
  | case2 first rest ih =>
    rw [List.forall_mem_cons] at hl ⊢
    exact ⟨by rw [hl.1, none], ih hl.2 hr⟩
  | case3 first rest ih =>
    rw [List.forall_mem_cons] at hr ⊢
    exact ⟨by rw [hr.1, none], ih hl hr.2⟩
  | case4 first rest first' rest' ih =>
    rw [List.forall_mem_cons] at hl hr ⊢
    exact ⟨by rw [hl.1, hr.1, none], ih hl.2 hr.2⟩

/-- Two histograms without mass are taken to agree, unless neither has any bins. -/
theorem overlap_of_le {left right : List Float} (present : left ≠ [] ∨ right ≠ [])
    (hl : positiveSum left ≤ epsilon) (hr : positiveSum right ≤ epsilon) :
    overlap left right = 1 := by
  have present' : normalize left ≠ [] ∨ normalize right ≠ [] := by
    simpa only [normalize_eq_map, ne_eq, List.map_eq_nil_iff] using present
  have zeros (values : List Float) : ∀ entry ∈ List.replicate values.length (0 : Float),
      entry = 0 := fun _ ↦ List.eq_of_mem_replicate
  rw [overlap_of_ne_nil present, sum_of_forall_eq_zero (distances_ne_nil present')]
  · decide
  · rw [normalize_of_le hl, normalize_of_le hr]
    exact eq_zero_of_mem_distances (zeros left) (zeros right)

/-- Of histograms with a finite mass exactly those are scaled to zeros whose mass is at most
epsilon.  So two of them are both taken to be empty only where neither has more, and then, unless
neither has any bins, they are scored one. -/
theorem isZeros_normalize_iff_le_epsilon {left right : List Float}
    (hl : (positiveSum left).isFinite = true) (hr : (positiveSum right).isFinite = true) :
    (IsZeros (normalize left) ↔ positiveSum left ≤ epsilon) ∧
      (IsZeros (normalize left) ∧ IsZeros (normalize right) ↔
        positiveSum left ≤ epsilon ∧ positiveSum right ≤ epsilon) ∧
      (left ≠ [] ∨ right ≠ [] → IsZeros (normalize left) → IsZeros (normalize right) →
        overlap left right = 1) := by
  have left_iff := isZeros_normalize_iff hl
  have right_iff := isZeros_normalize_iff hr
  refine ⟨left_iff, and_congr left_iff right_iff, fun present zeros zeros' ↦ ?_⟩
  exact overlap_of_le present (left_iff.1 zeros) (right_iff.1 zeros')

/-- Masses on either side of epsilon, the greater one in bins that are smaller. -/
theorem isZeros_normalize_iff_le_epsilon_at_tiny :
    let left : List Float := [2e-16, -1.0]
    let right : List Float := [1e-16, 1e-16, 1e-16]
    (positiveSum left).isFinite = true ∧ (positiveSum right).isFinite = true ∧
      IsZeros (normalize left) ∧ ¬(IsZeros (normalize left) ∧ IsZeros (normalize right)) := by
  intro left right
  have hl : (positiveSum left).isFinite = true := by decide
  have hr : (positiveSum right).isFinite = true := by decide
  obtain ⟨left_iff, both_iff, -⟩ := isZeros_normalize_iff_le_epsilon hl hr
  exact ⟨hl, hr, left_iff.2 (by decide), fun both ↦ absurd (both_iff.1 both).2 (by decide)⟩

/-- A histogram with mass is scaled to zeros when the mass is tiny: two of them with nothing in
common are scored one. -/
theorem exists_isZeros_normalize_of_positive :
    (¬∀ values : List Float, (∀ value ∈ values, value.isFinite = true) →
      IsZeros (normalize values) → ∀ value ∈ values, ¬0 < value) ∧
      overlap [1e-20] [0, 1e-20] = 1 := by
  refine ⟨fun only ↦ ?_, overlap_of_le (.inl (List.cons_ne_nil _ _)) (by decide) (by decide)⟩
  have zeros : IsZeros (normalize [1e-20]) := by
    unfold IsZeros
    decide
  exact absurd (by decide) (only [1e-20] (by decide) zeros 1e-20 (List.mem_singleton_self _))

end SpanScore.Distribution
