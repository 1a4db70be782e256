import SpanScore.Proofs.Double.Amounts

/-!
# Overlaps of distributions

The positive part of every double is a number, so sums of positive parts only grow, up to infinity.
What is scaled by such a sum lies between zero and one, except for infinity scaled by infinity,
which is no number.  Hence an overlap is a number between zero and one unless one of the two lists
has an infinite positive entry.
-/

namespace SpanScore.Distribution

open Double

/-- Whether a list has an infinite positive entry. -/
def IsUnbounded (values : List Float) : Prop :=
  ∃ value ∈ values, (positivePart value).isInf = true

/-- Whether the positive entries of a list have no finite sum. -/
def Overflows (values : List Float) : Prop :=
  (positiveSum values).isInf = true

/-! ## Sums -/

/-- A sum of amounts is an amount, and a number when all of them are. -/
theorem foldl_add_of_isAmount {values : List Float} {start : Float} (amount : IsAmount start)
    (amounts : ∀ value ∈ values, IsAmount value) :
    IsAmount (values.foldl (· + ·) start) ∧
      ((values.foldl (· + ·) start).isNaN = true ↔
        start.isNaN = true ∨ ∃ value ∈ values, value.isNaN = true) := by
  induction values generalizing start with
  | nil => simpa using amount
  | cons first rest ih =>
    rw [List.forall_mem_cons] at amounts
    rw [List.foldl_cons, List.exists_mem_cons_iff, ← or_assoc, ← amount.isNaN_add_iff amounts.1]
    exact ih (amount.add amounts.1) amounts.2

theorem sum_of_isAmount {values : List Float} (amounts : ∀ value ∈ values, IsAmount value) :
    IsAmount (sum values) ∧
      ((sum values).isNaN = true ↔ ∃ value ∈ values, value.isNaN = true) := by
  have start : (0 : Float) ≤ -0.0 := by decide
  obtain ⟨amount, isNaN_iff⟩ := foldl_add_of_isAmount (isAmount_of_nonneg start) amounts
  refine ⟨amount, ?_⟩
  rw [sum, isNaN_iff, (isNaN_eq_false_of_le start).2]
  simp

/-- A sum of doubles that are not negative is not smaller than any of them. -/
theorem foldl_add_mem {values : List Float} {start : Float} (low : 0 ≤ start)
    (nonneg : ∀ value ∈ values, 0 ≤ value) :
    start ≤ values.foldl (· + ·) start ∧ ∀ value ∈ values, value ≤ values.foldl (· + ·) start := by
  induction values generalizing start with
  | nil => simpa using le_refl_of_nonneg low
  | cons first rest ih =>
    rw [List.forall_mem_cons] at nonneg
    have grown := le_add low nonneg.1
    obtain ⟨start_le, mem_le⟩ := ih (add_nonneg low nonneg.1) nonneg.2
    rw [List.foldl_cons, List.forall_mem_cons]
    exact ⟨le_trans_of_nonneg low grown.1 start_le, le_trans_of_nonneg nonneg.1 grown.2 start_le,
      mem_le⟩

/-- Sums of doubles that are not negative grow with each of them and with their start. -/
theorem foldl_add_le {α : Type} {items : List α} (left right : α → Float) {start bound : Float}
    (low : 0 ≤ start) (start_le : start ≤ bound)
    (le : ∀ item ∈ items, 0 ≤ left item ∧ left item ≤ right item) :
    (items.map left).foldl (· + ·) start ≤ (items.map right).foldl (· + ·) bound := by
  induction items generalizing start bound with
  | nil => exact start_le
  | cons first rest ih =>
    rw [List.forall_mem_cons] at le
    exact ih (add_nonneg low le.1.1) (Double.add_le_add low le.1.1 start_le le.1.2) le.2

theorem positivePart_nonneg (value : Float) : 0 ≤ positivePart value := by
  unfold positivePart
  split
  · next positive =>
    obtain ⟨place, -, -, rfl⟩ := exists_place_of_pos positive
    exact zero_le_signed (.inl rfl)
  · decide

/-- The sum of positive parts is not negative, and no part of it is greater. -/
theorem positiveSum_mem (values : List Float) :
    0 ≤ positiveSum values ∧ ∀ value ∈ values, positivePart value ≤ positiveSum values := by
  have start : (0 : Float) ≤ -0.0 := by decide
  have nonneg : ∀ part ∈ values.map positivePart, 0 ≤ part := by
    rw [List.forall_mem_map]
    exact fun value _ ↦ positivePart_nonneg value
  obtain ⟨start_le, mem_le⟩ := foldl_add_mem start nonneg
  rw [List.forall_mem_map] at mem_le
  exact ⟨le_trans_of_nonneg (le_refl_of_nonneg (by decide)) start start_le, mem_le⟩

/-- A list with an infinite positive entry has no finite sum. -/
theorem IsUnbounded.overflows {values : List Float} (unbounded : IsUnbounded values) :
    Overflows values := by
  obtain ⟨value, mem, infinite⟩ := unbounded
  exact isInf_of_le (positivePart_nonneg value) ((positiveSum_mem values).2 value mem) infinite

/-! ## Scaling -/

/-- Whether an entry is a share of a whole, unless it is no number. -/
def IsShare (entry : Float) : Prop :=
  entry.isNaN = false → 0 ≤ entry ∧ entry ≤ 1

theorem IsShare.isAmount {entry : Float} (share : IsShare entry) : IsAmount entry :=
  fun number ↦ (share number).1

theorem isShare_zero : IsShare 0 :=
  fun _ ↦ by decide

theorem isShare_clamp (value : Float) : IsShare (clamp value) :=
  fun number ↦ clamp_mem (by rwa [isNaN_clamp] at number)

theorem IsShare.isFinite {entry : Float} (share : IsShare entry) (number : entry.isNaN = false) :
    entry.isFinite = true :=
  isFinite_of_unit (share number).1 (share number).2

/-- A sum that is not next to nothing is positive. -/
theorem positiveSum_pos {values : List Float} (above : ¬positiveSum values ≤ epsilon) :
    0 < positiveSum values := by
  by_contra bound
  have nonneg := (positiveSum_mem values).1
  rw [not_lt_iff (by decide) (isNaN_eq_false_of_le nonneg).2] at bound
  exact above (le_trans_of_nonneg nonneg bound (by decide))

section

variable {values : List Float} {value : Float} (mem : value ∈ values)
  (above : ¬positiveSum values ≤ epsilon)

include mem above

/-- Only infinity scaled by an infinite sum is no number. -/
theorem isNaN_scaled_iff :
    (positivePart value / positiveSum values).isNaN = true ↔ (positivePart value).isInf = true := by
  have part := positivePart_nonneg value
  have infinite := isInf_of_le part ((positiveSum_mem values).2 value mem)
  rw [isNaN_div_iff, (isNaN_eq_false_of_le part).2,
    (isNaN_eq_false_of_le (positiveSum_mem values).1).2, beq_zero_of_pos (positiveSum_pos above)]
  simpa using infinite

theorem isShare_scaled : IsShare (positivePart value / positiveSum values) := by
  intro number
  have part := positivePart_nonneg value
  have finite : (positivePart value).isFinite = true := by
    rw [isFinite_iff, ← Bool.not_eq_true (Float.isInf _), ← isNaN_scaled_iff mem above]
    exact ⟨(isNaN_eq_false_of_le part).2, Bool.eq_false_iff.1 number⟩
  exact div_mem part ((positiveSum_mem values).2 value mem) (positiveSum_pos above) finite

end

theorem isShare_of_mem_normalize {values : List Float} {entry : Float}
    (mem : entry ∈ normalize values) : IsShare entry := by
  simp only [normalize] at mem
  split at mem
  · rw [List.eq_of_mem_replicate mem]
    exact isShare_zero
  · next above =>
    obtain ⟨value, inside, rfl⟩ := List.mem_map.1 mem
    exact isShare_scaled inside above

/-- Scaling is of numbers only unless an entry is infinite. -/
theorem exists_isNaN_normalize_iff (values : List Float) :
    (∃ entry ∈ normalize values, entry.isNaN = true) ↔ IsUnbounded values := by
  simp only [normalize]
  split
  · next small =>
    refine iff_of_false ?_ fun unbounded ↦ ?_
    · rintro ⟨entry, mem, not⟩
      rw [List.eq_of_mem_replicate mem] at not
      exact absurd not (by decide)
    · have infinite := isInf_of_le (positiveSum_mem values).1 small unbounded.overflows
      exact absurd infinite (by decide)
  · next above =>
    simp only [List.mem_map, exists_exists_and_eq_and]
    exact exists_congr fun value ↦ and_congr_right fun mem ↦ isNaN_scaled_iff mem above

/-! ## Distances -/

theorem isAmount_of_mem_distances (left right : List Float) :
    ∀ distance ∈ distances left right, IsAmount distance := by
  fun_induction distances left right with
  | case1 => simp
  | case2 first rest ih => exact List.forall_mem_cons.2 ⟨isAmount_abs _, ih⟩
  | case3 first rest ih => exact List.forall_mem_cons.2 ⟨isAmount_abs _, ih⟩
  | case4 first rest first' rest' ih => exact List.forall_mem_cons.2 ⟨isAmount_abs _, ih⟩

/-- The distance of two shares is a number when they are. -/
theorem isNaN_distance_iff {left : Float} (share : IsShare left) (right : Float) :
    (left - right).abs.isNaN = true ↔ left.isNaN = true ∨ right.isNaN = true := by
  rw [isNaN_abs, isNaN_sub_iff]
  cases number : left.isNaN with
  | true => simp
  | false =>
    rw [((isFinite_iff left).1 (share.isFinite number)).2]
    simp

theorem exists_isNaN_distances_iff {left right : List Float}
    (hl : ∀ entry ∈ left, IsShare entry) (hr : ∀ entry ∈ right, IsShare entry) :
    (∃ distance ∈ distances left right, distance.isNaN = true) ↔
      (∃ entry ∈ left, entry.isNaN = true) ∨ ∃ entry ∈ right, entry.isNaN = true := by
  have zero : (0 : Float).isNaN = false := by decide
  fun_induction distances left right with
  | case1 => simp
  | case2 first rest ih =>
    rw [List.forall_mem_cons] at hl
    simp only [List.exists_mem_cons_iff, isNaN_distance_iff hl.1, ih hl.2 hr, zero]
    simp
  | case3 first rest ih =>
    rw [List.forall_mem_cons] at hr
    simp only [List.exists_mem_cons_iff, isNaN_distance_iff isShare_zero, ih hl hr.2, zero]
    simp
  | case4 first rest first' rest' ih =>
    rw [List.forall_mem_cons] at hl hr
    simp only [List.exists_mem_cons_iff, isNaN_distance_iff hl.1, ih hl.2 hr.2]
    exact or_or_or_comm

/-! ## Overlaps -/

/-- The overlap of two lists is a number unless one of them has an infinite positive entry. -/
theorem isNaN_overlap_iff (left right : List Float) :
    (overlap left right).isNaN = true ↔ IsUnbounded left ∨ IsUnbounded right := by
  unfold overlap
  split
  · next empty =>
    rw [Bool.and_eq_true, List.isEmpty_iff, List.isEmpty_iff] at empty
    rw [empty.1, empty.2]
    exact iff_of_false (by decide) (by simp [IsUnbounded])
  · rw [isNaN_clamp, isNaN_one_sub, isNaN_half_mul,
      (sum_of_isAmount (isAmount_of_mem_distances _ _)).2,
      exists_isNaN_distances_iff (fun _ ↦ isShare_of_mem_normalize)
        (fun _ ↦ isShare_of_mem_normalize),
      exists_isNaN_normalize_iff, exists_isNaN_normalize_iff]

theorem isShare_overlap (left right : List Float) : IsShare (overlap left right) := by
  unfold overlap
  split
  · exact isShare_zero
  · exact isShare_clamp _

/-! ## Infinite entries -/

def infinity : Float := 1 / 0

/-- Of the doubles that are not negative, only positive infinity is infinite. -/
theorem isInf_iff_of_nonneg {value : Float} (low : 0 ≤ value) :
    value.isInf = true ↔ value = infinity := by
  obtain ⟨sign, place, -, rfl, nonneg⟩ := exists_place_of_nonneg low
  have place_infinity : infinity = signed .positive infinityPlace := by decide
  constructor
  · intro infinite
    rw [isInf_signed] at infinite
    have positive : 0 < infinityPlace := by decide
    obtain rfl : sign = .positive := nonneg.resolve_right (by omega)
    rw [place_infinity, signed_of_le .positive infinite]
  · intro eq
    rw [eq]
    decide

/-- Of all doubles, only positive infinity has an infinite positive part. -/
theorem isInf_positivePart_iff (value : Float) :
    (positivePart value).isInf = true ↔ value = infinity := by
  rw [isInf_iff_of_nonneg (positivePart_nonneg value)]
  unfold positivePart
  split
  · rfl
  · next absent =>
    refine iff_of_false (by decide) ?_
    rintro rfl
    exact absent (by decide)

theorem overflows_iff (values : List Float) :
    Overflows values ↔ positiveSum values = infinity :=
  isInf_iff_of_nonneg (positiveSum_mem values).1

theorem isUnbounded_iff (values : List Float) : IsUnbounded values ↔ infinity ∈ values := by
  unfold IsUnbounded
  constructor
  · rintro ⟨value, mem, infinite⟩
    rwa [← (isInf_positivePart_iff value).1 infinite]
  · intro mem
    exact ⟨infinity, mem, (isInf_positivePart_iff infinity).2 rfl⟩

/-- An overlap is no number exactly beside an entry that is positive infinity.  Beside all other
entries, negative infinity, what is no number, and finite ones without a finite sum included, it is
a share of a whole; and nothing has no overlap with nothing. -/
theorem overlap_mem_unit_or_isNaN (left right : List Float) :
    ((overlap left right).isNaN = true ↔ infinity ∈ left ∨ infinity ∈ right) ∧
      (0 ≤ overlap left right ∧ overlap left right ≤ 1 ↔
        ¬(infinity ∈ left ∨ infinity ∈ right)) ∧
      overlap [] [] = 0 := by
  have isNaN_iff : (overlap left right).isNaN = true ↔ infinity ∈ left ∨ infinity ∈ right := by
    rw [isNaN_overlap_iff, isUnbounded_iff, isUnbounded_iff]
  refine ⟨isNaN_iff, ?_, rfl⟩
  rw [← isNaN_iff, Bool.not_eq_true]
  constructor
  · rintro ⟨low, -⟩
    exact (isNaN_eq_false_of_le low).2
  · exact isShare_overlap left right

end SpanScore.Distribution
