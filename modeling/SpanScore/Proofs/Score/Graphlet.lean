import SpanScore.Proofs.Feature.Overlap
import SpanScore.Proofs.Score.Structural
import SpanScore.Proofs.Score.Symmetry

/-!
# Graphlet scores

A span beside itself scores one unless it has nothing to compare or an infinite entry.  Spans
without histograms are compared by the run metrics that they have, the first with the first, the
second with the second and so on, so they are compared path by path only if the paths of one span
come first among those of the other.
-/

namespace SpanScore.Graphlet

open Double SpanScore.Distribution

/-! ## One span -/

/-- The list of a span that is compared when its own score is taken: its histogram, or its run
metrics for want of one. -/
def features (span : Json.Value) : List Float :=
  if (histogram span).isEmpty then metrics span else histogram span

theorem score_self (span : Json.Value) :
    score span span = overlap (features span) (features span) := by
  unfold score features
  cases (histogram span).isEmpty with
  | false => simp
  | true =>
    cases empty : (metrics span).isEmpty with
    | false => simp
    | true =>
      rw [List.isEmpty_iff] at empty
      rw [empty]
      rfl

theorem score_self_eq_one_iff (span : Json.Value) :
    score span span = 1 ↔ features span ≠ [] ∧ infinity ∉ features span := by
  rw [score_self, overlap_self_eq_one_iff]

theorem score_self_of_eq_nil {span : Json.Value} (missing : features span = []) :
    score span span = 0 := by
  rw [score_self, missing]
  rfl

/-- Nothing but one, zero or no number comes of a span beside itself. -/
theorem score_self_eq_zero_or_one {span : Json.Value} (number : (score span span).isNaN = false) :
    score span span = 0 ∨ score span span = 1 := by
  by_cases missing : features span = []
  · exact .inl (score_self_of_eq_nil missing)
  · refine .inr ((score_self_eq_one_iff span).2 ⟨missing, fun mem ↦ ?_⟩)
    rw [score_self, Bool.eq_false_iff, Ne, isNaN_overlap_iff, isUnbounded_iff] at number
    exact number (.inl mem)

/-! ## Metrics by path -/

def presentPaths (span : Json.Value) : List String :=
  metricPaths.filter fun path ↦ (Path.resolveFeature span path).isSome

/-- All run metrics of a span in the order of their paths, a missing one counting as zero. -/
def alignedMetrics (span : Json.Value) : List Float :=
  metricPaths.map (Heuristic.metric span)

theorem metrics_eq_map (span : Json.Value) :
    metrics span = (presentPaths span).map (Heuristic.metric span) := by
  unfold metrics presentPaths
  induction metricPaths with
  | nil => rfl
  | cons first rest ih =>
    cases found : Path.resolveFeature span first with
    | none => simpa [found] using ih
    | some value => simpa [found, Heuristic.metric] using ih

theorem metric_of_isSome_eq_false {span : Json.Value} {path : String}
    (absent : (Path.resolveFeature span path).isSome = false) : Heuristic.metric span path = 0 := by
  cases found : Path.resolveFeature span path with
  | none => rw [Heuristic.metric, found, Option.getD_none]
  | some value => simp [found] at absent

section

variable {left right : Json.Value} (hl : histogram left = []) (hr : histogram right = [])

include hl hr

/-- Two spans without histograms are compared by the metrics that each of them has. -/
theorem score_of_metrics (present : presentPaths left ≠ []) (present' : presentPaths right ≠ []) :
    score left right = overlap ((presentPaths left).map (Heuristic.metric left))
      ((presentPaths right).map (Heuristic.metric right)) := by
  unfold score
  rw [hl, hr, metrics_eq_map, metrics_eq_map]
  simp [present, present']

theorem score_of_leads (present : presentPaths left ≠ [])
    (leads : presentPaths left <+: presentPaths right) :
    score left right = overlap (alignedMetrics left) (alignedMetrics right) := by
  have nodup : metricPaths.Nodup := by decide
  rw [score_of_metrics hl hr present (leads.ne_nil present)]
  exact overlap_map_filter (fun _ _ ↦ metric_of_isSome_eq_false)
    (fun _ _ ↦ metric_of_isSome_eq_false) nodup present leads

end

/-! ## Spans with given metrics -/

/-- A span that has nothing but the run metrics that it is given. -/
def ofMetrics (value : String → Option Float) : Json.Value :=
  let member (key path : String) : Option (String × Json.Value) :=
    (value path).map fun metric ↦ (key, .number (.double metric))
  .object
    [("execution", .object
      ([member "performance_ns_per_day" "execution.performance_ns_per_day",
        member "simulation_time_ns" "execution.simulation_time_ns"].filterMap id)),
    ("results", .object
      ([member "final_energy_kcal_mol" "results.final_energy_kcal_mol",
        member "final_rmsd_angstrom" "results.final_rmsd_angstrom"].filterMap id))]

theorem resolveFeature_ofMetrics (value : String → Option Float) :
    ∀ path ∈ metricPaths, Path.resolveFeature (ofMetrics value) path = value path := by
  unfold ofMetrics metricPaths
  simp only [List.forall_mem_cons]
  cases value "execution.performance_ns_per_day" <;> cases value "execution.simulation_time_ns" <;>
    cases value "results.final_energy_kcal_mol" <;> cases value "results.final_rmsd_angstrom" <;>
    exact ⟨rfl, rfl, rfl, rfl, by simp⟩

theorem histogram_ofMetrics (value : String → Option Float) : histogram (ofMetrics value) = [] := by
  unfold ofMetrics
  cases value "execution.performance_ns_per_day" <;> cases value "execution.simulation_time_ns" <;>
    cases value "results.final_energy_kcal_mol" <;> cases value "results.final_rmsd_angstrom" <;>
    rfl

/-! ## Metrics out of step -/

/-- One at a path and zero at all others. -/
def mark (top path : String) : Float :=
  if path = top then 1 else 0

/-- A span that has some of the run metrics, which are one at a path and zero at all others. -/
def marked (paths : List String) (top : String) : Json.Value :=
  ofMetrics fun path ↦ if path ∈ paths then some (mark top path) else none

/-- A part of a list without repetitions is all that the list has of it, in the same order. -/
theorem filter_mem_of_sublist {part all : List String} (sub : part.Sublist all)
    (nodup : all.Nodup) : (all.filter fun path ↦ path ∈ part) = part := by
  induction sub with
  | slnil => rfl
  | cons first sub ih =>
    rw [List.nodup_cons] at nodup
    rw [List.filter_cons_of_neg (by simpa using fun mem ↦ nodup.1 (sub.subset mem)), ih nodup.2]
  | cons_cons first sub ih =>
    rw [List.nodup_cons] at nodup
    rw [List.filter_cons_of_pos (by simp), List.cons_inj_right]
    refine Eq.trans (List.filter_congr fun path mem ↦ ?_) (ih nodup.2)
    have other : path ≠ first := fun eq ↦ nodup.1 (eq ▸ mem)
    simp [other]

theorem presentPaths_marked {paths : List String} (sub : paths.Sublist metricPaths)
    (top : String) : presentPaths (marked paths top) = paths := by
  rw [presentPaths]
  refine Eq.trans (List.filter_congr fun path mem ↦ ?_)
    (filter_mem_of_sublist sub (by decide))
  rw [marked, resolveFeature_ofMetrics _ path mem]
  split <;> simp [*]

theorem metric_marked {paths : List String} {top : String} (has : top ∈ paths) :
    ∀ path ∈ metricPaths, Heuristic.metric (marked paths top) path = mark top path := by
  intro path mem
  rw [Heuristic.metric, marked, resolveFeature_ofMetrics _ path mem]
  split
  · rfl
  · next absent =>
    have other : path ≠ top := by
      rintro rfl
      exact absent has
    rw [mark, if_neg other, Option.getD_none]

theorem histogram_marked (paths : List String) (top : String) :
    histogram (marked paths top) = [] :=
  histogram_ofMetrics _

theorem alignedMetrics_marked {paths : List String} {top : String} (has : top ∈ paths) :
    alignedMetrics (marked paths top) = metricPaths.map (mark top) :=
  List.map_congr_left (metric_marked has)

/-- One behind some zeros and before others. -/
def peak (before after : ℕ) : List Float :=
  List.replicate before 0 ++ 1 :: List.replicate after 0

theorem map_mark {before after : List String} {top : String}
    (nodup : (before ++ top :: after).Nodup) :
    (before ++ top :: after).map (mark top) = peak before.length after.length := by
  rw [List.nodup_append, List.nodup_cons] at nodup
  obtain ⟨-, ⟨behind, -⟩, apart⟩ := nodup
  have zeros {paths : List String} (absent : top ∉ paths) :
      paths.map (mark top) = List.replicate paths.length 0 := by
    rw [← List.map_const']
    refine List.map_congr_left fun path mem ↦ ?_
    rw [mark, if_neg]
    rintro rfl
    exact absent mem
  have first : top ∉ before := fun mem ↦ apart top mem top List.mem_cons_self rfl
  rw [List.map_append, List.map_cons, zeros first, zeros behind, mark, if_pos rfl, peak]

/-- Peaks at one place have all in common, however many zeros are behind them. -/
theorem overlap_peak (before after after' : ℕ) :
    overlap (peak before after) (peak before after') = 1 := by
  wlog le : after ≤ after' generalizing after after'
  · rw [overlap_comm]
    exact this after' after (Nat.le_of_not_le le)
  · obtain ⟨count, rfl⟩ := Nat.exists_eq_add_of_le le
    have longer : peak before (after + count) = peak before after ++ List.replicate count 0 := by
      rw [peak, peak, List.replicate_add, List.append_assoc, List.cons_append]
    rw [longer]
    refine overlap_append_zeros (by simp [peak]) ?_ count
    have finite : infinity ≠ 0 ∧ infinity ≠ 1 := by decide
    simp [peak, finite]

/-- Peaks at two paths have nothing in common. -/
theorem overlap_map_mark {first second : String} (mem : first ∈ metricPaths)
    (mem' : second ∈ metricPaths) (apart : first ≠ second) :
    overlap (metricPaths.map (mark first)) (metricPaths.map (mark second)) = 0 := by
  have scaled : ∀ path ∈ metricPaths,
      normalize (metricPaths.map (mark path)) = metricPaths.map (mark path) := by
    decide +kernel
  have summed : ∀ path ∈ metricPaths, ∀ other ∈ metricPaths, path ≠ other →
      sum (metricPaths.map fun place ↦ (mark path place - mark other place).abs) = 2 := by
    decide +kernel
  rw [overlap_of_ne_nil (.inl (by simp [metricPaths])), scaled first mem, scaled second mem',
    distances_map, summed first mem second mem' apart]
  decide +kernel

/-- Two lists of which neither begins with the other part at some place. -/
theorem exists_first_difference {left right : List String} (h : ¬left <+: right)
    (h' : ¬right <+: left) :
    ∃ before first second after after', left = before ++ first :: after ∧
      right = before ++ second :: after' ∧ first ≠ second := by
  induction left generalizing right with
  | nil => exact absurd List.nil_prefix h
  | cons first after ih =>
    cases right with
    | nil => exact absurd List.nil_prefix h'
    | cons second after' =>
      by_cases same : first = second
      · obtain rfl := same
        rw [List.prefix_cons_inj] at h h'
        obtain ⟨before, first', second', rest, rest', rfl, rfl, apart⟩ := ih h h'
        exact ⟨first :: before, first', second', rest, rest', rfl, rfl, apart⟩
      · exact ⟨[], first, second, after, after', rfl, rfl, same⟩

/-- Where the paths of two spans part, a metric of one is compared with another one of the other. -/
theorem exists_score_ne {lefts rights : List String} (hl : lefts.Sublist metricPaths)
    (hr : rights.Sublist metricPaths) (parts : ¬lefts <+: rights) (parts' : ¬rights <+: lefts) :
    ∃ left right, (histogram left = [] ∧ histogram right = []) ∧ presentPaths left = lefts ∧
      presentPaths right = rights ∧ score left right = 1 ∧
      overlap (alignedMetrics left) (alignedMetrics right) = 0 := by
  obtain ⟨before, first, second, after, after', rfl, rfl, apart⟩ :=
    exists_first_difference parts parts'
  have nodup : metricPaths.Nodup := by decide
  have has : first ∈ before ++ first :: after := by simp
  have has' : second ∈ before ++ second :: after' := by simp
  have present := presentPaths_marked hl first
  have present' := presentPaths_marked hr second
  have values : ∀ path ∈ before ++ first :: after,
      Heuristic.metric (marked (before ++ first :: after) first) path = mark first path :=
    fun path mem ↦ metric_marked has path (hl.subset mem)
  have values' : ∀ path ∈ before ++ second :: after',
      Heuristic.metric (marked (before ++ second :: after') second) path = mark second path :=
    fun path mem ↦ metric_marked has' path (hr.subset mem)
  refine ⟨_, _, ⟨histogram_marked _ first, histogram_marked _ second⟩, present, present', ?_, ?_⟩
  · rw [score_of_metrics (histogram_marked _ _) (histogram_marked _ _)
      (present.symm ▸ List.ne_nil_of_mem has) (present'.symm ▸ List.ne_nil_of_mem has'), present,
      present', List.map_congr_left values, List.map_congr_left values',
      map_mark (nodup.sublist hl), map_mark (nodup.sublist hr)]
    exact overlap_peak _ _ _
  · rw [alignedMetrics_marked has, alignedMetrics_marked has']
    exact overlap_map_mark (hl.subset has) (hr.subset has') apart

/-! ## Like with like -/

/-- Spans without histograms are compared like with like, path by path, just where the paths of the
metrics that one of them has are the first of those of the other. -/
theorem compares_like_with_like_iff {lefts rights : List String}
    (hl : lefts.Sublist metricPaths) (hr : rights.Sublist metricPaths) (present : lefts ≠ [])
    (present' : rights ≠ []) :
    (∀ left right, histogram left = [] → histogram right = [] → presentPaths left = lefts →
      presentPaths right = rights →
      score left right = overlap (alignedMetrics left) (alignedMetrics right)) ↔
    lefts <+: rights ∨ rights <+: lefts := by
  constructor
  · intro alike
    by_contra parts
    rw [not_or] at parts
    obtain ⟨left, right, none, lefts_eq, rights_eq, one, zero⟩ :=
      exists_score_ne hl hr parts.1 parts.2
    have equal := alike left right none.1 none.2 lefts_eq rights_eq
    rw [one, zero] at equal
    exact absurd equal (by decide)
  · rintro leads left right none none' rfl rfl
    rcases leads with leads | leads
    · exact score_of_leads none none' present leads
    · rw [score_comm, overlap_comm]
      exact score_of_leads none' none present' leads

/-- Spans with the first two metrics and with the first one alone are compared like with like. -/
theorem compares_like_with_like_of_rmsd :
    let lefts := ["results.final_rmsd_angstrom", "results.final_energy_kcal_mol"]
    let rights := ["results.final_rmsd_angstrom"]
    (lefts.Sublist metricPaths ∧ rights.Sublist metricPaths ∧ lefts ≠ [] ∧ rights ≠ []) ∧
      ∀ left right, histogram left = [] → histogram right = [] → presentPaths left = lefts →
        presentPaths right = rights →
        score left right = overlap (alignedMetrics left) (alignedMetrics right) := by
  intro lefts rights
  have hl : lefts.Sublist metricPaths := by decide
  have hr : rights.Sublist metricPaths := by decide
  have present : lefts ≠ [] ∧ rights ≠ [] := ⟨List.cons_ne_nil _ _, List.cons_ne_nil _ _⟩
  exact ⟨⟨hl, hr, present⟩,
    (compares_like_with_like_iff hl hr present.1 present.2).2 (.inr (by decide))⟩

/-- Not all spans without histograms are compared like with like: a deviation that only one has and
an energy that only the other has count as the same when their numbers are. -/
theorem exists_score_ne_overlap_aligned :
    ¬∀ left right : Json.Value, histogram left = [] → histogram right = [] → metrics left ≠ [] →
      metrics right ≠ [] →
      score left right = overlap (alignedMetrics left) (alignedMetrics right) := by
  intro alike
  let span (key : String) : Json.Value :=
    .object [("results", .object [(key, .number (.integer 1))])]
  let left := span "final_rmsd_angstrom"
  let right := span "final_energy_kcal_mol"
  have none : histogram left = [] ∧ histogram right = [] := ⟨rfl, rfl⟩
  have one : metrics left = [1] ∧ metrics right = [1] := by decide +kernel
  have aligned : alignedMetrics left = metricPaths.map (mark "results.final_rmsd_angstrom") ∧
      alignedMetrics right = metricPaths.map (mark "results.final_energy_kcal_mol") := by
    decide +kernel
  have same : score left right = 1 := by
    unfold score
    have finite : infinity ≠ 1 := by decide
    rw [none.1, none.2, one.1, one.2]
    exact (overlap_self_eq_one_iff [1]).2 ⟨List.cons_ne_nil _ _, by simpa using finite⟩
  have apart : overlap (alignedMetrics left) (alignedMetrics right) = 0 := by
    rw [aligned.1, aligned.2]
    exact overlap_map_mark (by decide) (by decide) (by decide)
  have equal := alike left right none.1 none.2 (one.1 ▸ List.cons_ne_nil _ _)
    (one.2 ▸ List.cons_ne_nil _ _)
  rw [same, apart] at equal
  exact absurd equal (by decide)

end SpanScore.Graphlet
