import SpanScore.Proofs.Double.Distance
import SpanScore.Proofs.Double.Magnitude
import SpanScore.Proofs.Double.Unit
import SpanScore.Proofs.Feature.Distribution

/-!
# Overlaps by place

Lists are compared place by place, so zeros matter only for what they shift.  Main statements: a
list has all of itself in common with itself, and leaving out zeros does not change an overlap as
long as no entry comes to stand beside one from another place.
-/

namespace SpanScore.Distribution

open Double

/-! ## Sums with zeros -/

/-- What a sum of magnitudes starts with makes no difference, unless there are none. -/
theorem sum_eq_foldl_zero {values : List Float} (present : values ≠ [])
    (magnitudes : ∀ value ∈ values, IsMagnitude value) : sum values = values.foldl (· + ·) 0 := by
  cases values with
  | nil => exact absurd rfl present
  | cons first rest =>
    rw [List.forall_mem_cons] at magnitudes
    rw [sum, List.foldl_cons, List.foldl_cons, neg_zero_add, magnitudes.1.zero_add]

theorem isMagnitude_foldl_add {values : List Float} {start : Float} (magnitude : IsMagnitude start)
    (magnitudes : ∀ value ∈ values, IsMagnitude value) :
    IsMagnitude (values.foldl (· + ·) start) := by
  induction values generalizing start with
  | nil => exact magnitude
  | cons first rest ih =>
    rw [List.forall_mem_cons] at magnitudes
    exact ih (magnitude.add magnitudes.1) magnitudes.2

theorem foldl_add_zeros {start : Float} (magnitude : IsMagnitude start) (count : ℕ) :
    (List.replicate count 0).foldl (· + ·) start = start := by
  induction count with
  | zero => rfl
  | succ count ih => rwa [List.replicate_succ, List.foldl_cons, Double.add_comm, magnitude.zero_add]

theorem sum_of_forall_eq_zero {values : List Float} (present : values ≠ [])
    (zeros : ∀ value ∈ values, value = 0) : sum values = 0 := by
  have zero : IsMagnitude 0 := rfl
  rw [sum_eq_foldl_zero present fun value mem ↦ zeros value mem ▸ zero,
    List.eq_replicate_of_mem zeros]
  exact foldl_add_zeros zero _

section

variable {α : Type} {items : List α} {value : α → Float} {keep : α → Bool}
  (magnitudes : ∀ item ∈ items, IsMagnitude (value item))
  (absent : ∀ item ∈ items, keep item = false → value item = 0)

include magnitudes absent

theorem foldl_add_filter {start : Float} (magnitude : IsMagnitude start) :
    ((items.filter keep).map value).foldl (· + ·) start =
      (items.map value).foldl (· + ·) start := by
  induction items generalizing start with
  | nil => rfl
  | cons first rest ih =>
    rw [List.forall_mem_cons] at magnitudes absent
    cases kept : keep first with
    | true =>
      rw [List.filter_cons_of_pos kept]
      exact ih magnitudes.2 absent.2 (magnitude.add magnitudes.1)
    | false =>
      rw [List.filter_cons_of_neg (by simp [kept]), List.map_cons, List.foldl_cons, absent.1 kept,
        Double.add_comm, magnitude.zero_add]
      exact ih magnitudes.2 absent.2 magnitude

/-- Zeros that are left out make no difference to a sum, unless nothing else is there. -/
theorem sum_map_filter (present : items.filter keep ≠ []) :
    sum ((items.filter keep).map value) = sum (items.map value) := by
  have kept_magnitudes : ∀ entry ∈ (items.filter keep).map value, IsMagnitude entry := by
    rw [List.forall_mem_map]
    exact fun item mem ↦ magnitudes item (List.mem_of_mem_filter mem)
  have all_magnitudes : ∀ entry ∈ items.map value, IsMagnitude entry := by
    rwa [List.forall_mem_map]
  have items_ne : items ≠ [] := by
    rintro rfl
    exact present rfl
  rw [sum_eq_foldl_zero (mt List.map_eq_nil_iff.1 present) kept_magnitudes,
    sum_eq_foldl_zero (mt List.map_eq_nil_iff.1 items_ne) all_magnitudes]
  exact foldl_add_filter magnitudes absent rfl

end

/-! ## Distances by place -/

section

variable {α : Type} {items more : List α} (left right : α → Float)

/-- Places at which only one list has an entry are as if the other one had a zero there. -/
theorem distances_map_append (absent : ∀ item ∈ more, left item = 0) :
    distances (items.map left) ((items ++ more).map right) =
      (items ++ more).map fun item ↦ (left item - right item).abs := by
  induction items with
  | nil =>
    induction more with
    | nil => rw [List.append_nil, List.map_nil, List.map_nil, List.map_nil, distances]
    | cons first rest ih =>
      rw [List.forall_mem_cons] at absent
      have tail := ih absent.2
      simp only [List.nil_append, List.map_cons, List.map_nil, distances, absent.1] at tail ⊢
      rw [tail]
  | cons first rest ih => simp only [List.map_cons, List.cons_append, distances, ih]

theorem distances_map :
    distances (items.map left) (items.map right) =
      items.map fun item ↦ (left item - right item).abs := by
  simpa using @distances_map_append _ items [] left right (by simp)

end

/-! ## Scaling by place -/

/-- An entry that is scaled by the sum of all. -/
def scaled (sum value : Float) : Float :=
  if sum ≤ epsilon then 0 else positivePart value / sum

theorem normalize_eq_map (values : List Float) :
    normalize values = values.map (scaled (positiveSum values)) := by
  unfold normalize scaled
  dsimp only
  split
  · rw [List.map_const']
  · rfl

theorem scaled_zero (values : List Float) : scaled (positiveSum values) 0 = 0 := by
  unfold scaled
  split
  · rfl
  · next above =>
    have none : positivePart 0 = 0 := by decide
    rw [none, zero_div_of_pos (positiveSum_pos above)]

theorem isMagnitude_positivePart (value : Float) : IsMagnitude (positivePart value) := by
  unfold positivePart
  split
  · next positive => exact isMagnitude_of_pos positive
  · rfl

/-- Zeros behind a list make no difference to its sum. -/
theorem positiveSum_append_zeros {values : List Float} (present : values ≠ []) (count : ℕ) :
    positiveSum (values ++ List.replicate count 0) = positiveSum values := by
  have none : positivePart 0 = 0 := by decide
  have magnitudes : ∀ part ∈ values.map positivePart, IsMagnitude part := by
    rw [List.forall_mem_map]
    exact fun value _ ↦ isMagnitude_positivePart value
  have parts := sum_eq_foldl_zero (mt List.map_eq_nil_iff.1 present) magnitudes
  have summed : IsMagnitude (sum (values.map positivePart)) := by
    rw [parts]
    exact isMagnitude_foldl_add rfl magnitudes
  rw [positiveSum, positiveSum, List.map_append, List.map_replicate, none, sum, List.foldl_append]
  exact foldl_add_zeros summed count

theorem isFinite_of_mem_normalize {values : List Float} {entry : Float}
    (finite : infinity ∉ values) (mem : entry ∈ normalize values) : entry.isFinite = true := by
  refine (isShare_of_mem_normalize mem).isFinite ?_
  rw [← isUnbounded_iff, ← exists_isNaN_normalize_iff] at finite
  exact Bool.eq_false_iff.2 fun not ↦ finite ⟨entry, mem, not⟩

/-! ## Overlaps -/

theorem overlap_of_ne_nil {left right : List Float} (present : left ≠ [] ∨ right ≠ []) :
    overlap left right = clamp (1 - 0.5 * sum (distances (normalize left) (normalize right))) := by
  unfold overlap
  rw [if_neg]
  simpa [or_iff_not_imp_left] using present

/-- A list has all of itself in common with itself, with any zeros behind it. -/
theorem overlap_append_zeros {values : List Float} (present : values ≠ [])
    (finite : infinity ∉ values) (count : ℕ) :
    overlap values (values ++ List.replicate count 0) = 1 := by
  have absent : ∀ zero ∈ List.replicate count (0 : Float), scaled (positiveSum values) zero = 0 :=
    fun zero mem ↦ by rw [List.eq_of_mem_replicate mem, scaled_zero]
  rw [overlap_of_ne_nil (.inl present), normalize_eq_map, normalize_eq_map,
    positiveSum_append_zeros present, distances_map_append _ _ absent, sum_of_forall_eq_zero]
  · decide
  · simp [present]
  · rw [List.forall_mem_map]
    intro entry mem
    rcases List.mem_append.1 mem with inside | behind
    · refine abs_sub_self (isFinite_of_mem_normalize finite ?_)
      rw [normalize_eq_map]
      exact List.mem_map_of_mem inside
    · rw [absent entry behind]
      rfl

/-- A list has all of itself in common with itself, unless there is nothing to compare. -/
theorem overlap_self_eq_one_iff (values : List Float) :
    overlap values values = 1 ↔ values ≠ [] ∧ infinity ∉ values := by
  constructor
  · intro one
    refine ⟨?_, fun mem ↦ ?_⟩
    · rintro rfl
      exact absurd one (by decide)
    · rw [← isUnbounded_iff] at mem
      exact ne_one_of_isNaN ((isNaN_overlap_iff values values).2 (.inl mem)) one
  · rintro ⟨present, finite⟩
    simpa using overlap_append_zeros present finite 0

section

variable {α : Type} {items : List α} {left right : α → Float} {keep keep' : α → Bool}
  (absent : ∀ item ∈ items, keep item = false → left item = 0)
  (absent' : ∀ item ∈ items, keep' item = false → right item = 0)

include absent

theorem positiveSum_map_filter (present : items.filter keep ≠ []) :
    positiveSum ((items.filter keep).map left) = positiveSum (items.map left) := by
  unfold positiveSum
  rw [List.map_map, List.map_map]
  refine sum_map_filter (fun item _ ↦ isMagnitude_positivePart _) (fun item mem lost ↦ ?_) present
  rw [Function.comp_apply, absent item mem lost]
  rfl

theorem scaled_of_absent : ∀ item ∈ items, keep item = false →
    (scaled (positiveSum (items.map left)) ∘ left) item = 0 := by
  intro item mem dropped
  rw [Function.comp_apply, absent item mem dropped, scaled_zero]

/-- Zeros that are left out do not change how the other entries are scaled. -/
theorem normalize_map_filter (present : items.filter keep ≠ []) :
    normalize ((items.filter keep).map left) =
      (items.filter keep).map (scaled (positiveSum (items.map left)) ∘ left) := by
  rw [normalize_eq_map, positiveSum_map_filter absent present, List.map_map]

include absent'

/-- The distances between two lists have the same sum without the zeros that are left out, as long
as what is left of one list comes first in what is left of the other. -/
theorem sum_distances_map_filter (nodup : items.Nodup) (present : items.filter keep' ≠ [])
    (leads : items.filter keep <+: items.filter keep') :
    sum (distances ((items.filter keep).map left) ((items.filter keep').map right)) =
      sum (distances (items.map left) (items.map right)) := by
  have kept_of_mem {item : α} (mem : item ∈ items) (dropped : keep' item = false) :
      keep item = false := by
    by_contra kept
    have inside := leads.subset (List.mem_filter.2 ⟨mem, Bool.not_eq_false _ ▸ kept⟩)
    rw [(List.mem_filter.1 inside).2] at dropped
    cases dropped
  obtain ⟨more, kept_eq⟩ := leads
  have only_right : ∀ item ∈ more, left item = 0 := by
    intro item mem
    have inside : item ∈ items.filter keep' := kept_eq ▸ List.mem_append_right _ mem
    refine absent item (List.mem_of_mem_filter inside) ?_
    by_contra kept
    have inside' : item ∈ items.filter keep :=
      List.mem_filter.2 ⟨List.mem_of_mem_filter inside, Bool.not_eq_false _ ▸ kept⟩
    exact List.disjoint_of_nodup_append (kept_eq ▸ nodup.filter keep') inside' mem
  rw [distances_map, ← kept_eq, distances_map_append _ _ only_right, kept_eq]
  refine sum_map_filter (fun item _ ↦ isMagnitude_abs _) (fun item mem dropped ↦ ?_) present
  rw [absent item mem (kept_of_mem mem dropped), absent' item mem dropped]
  rfl

/-- Leaving out zeros does not change an overlap as long as all entries that are left keep to the
same places: those of one list come first among those of the other. -/
theorem overlap_map_filter (nodup : items.Nodup) (present : items.filter keep ≠ [])
    (leads : items.filter keep <+: items.filter keep') :
    overlap ((items.filter keep).map left) ((items.filter keep').map right) =
      overlap (items.map left) (items.map right) := by
  have present' : items.filter keep' ≠ [] := leads.ne_nil present
  have items_ne : items ≠ [] := by
    rintro rfl
    exact present rfl
  have same : sum (distances (normalize ((items.filter keep).map left))
        (normalize ((items.filter keep').map right))) =
      sum (distances (normalize (items.map left)) (normalize (items.map right))) := by
    rw [normalize_map_filter absent present, normalize_map_filter absent' present',
      sum_distances_map_filter (scaled_of_absent absent) (scaled_of_absent absent') nodup present'
        leads,
      normalize_eq_map, normalize_eq_map, List.map_map, List.map_map]
  rw [overlap_of_ne_nil (.inl (mt List.map_eq_nil_iff.1 present)),
    overlap_of_ne_nil (.inl (mt List.map_eq_nil_iff.1 items_ne)), same]

end

end SpanScore.Distribution
