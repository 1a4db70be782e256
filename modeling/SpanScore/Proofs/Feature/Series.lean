import SpanScore.Proofs.Feature.Path
import SpanScore.Proofs.Score.Symmetry

/-!
# The first path with numbers

Graphlet and Mapper scores look for an array on several paths and take the numbers of the first one
that has any.  Main statement: this path decides alone.  Paths before it are passed over, whatever
they lead to, and nothing that stands behind it or elsewhere in a span changes a score.
-/

namespace SpanScore

open Json

/-- Where a score looks for numbers: the paths on which an array may be, the first one first, and
the members that count of an entry that is an object. -/
structure Series where
  paths : List String
  keys : List String

/-- Histograms have no entries that are objects. -/
def Graphlet.series : Series := ⟨histogramPaths, []⟩

/-- Profiles have the sizes, weights and densities of nodes. -/
def Mapper.series : Series := ⟨profilePaths, nodeKeys⟩

namespace Series

variable {series : Series} {span span' : Value} {before after : List String} {path : String}

/-- The numbers of an entry: what it is or spells, and of an object the members that count, in the
order of their keys. -/
def entry (series : Series) : Value → List Float
  | .object members =>
    series.keys.filterMap fun key ↦ (Value.find? key members).bind Value.feature?
  | value => value.feature?.toList

/-- The numbers on a path, which has none unless there is an array. -/
def numbersAt (series : Series) (span : Value) (path : String) : List Float :=
  ((Path.resolveArray span path).getD []).flatMap series.entry

def firstFilled (lists : List (List Float)) : List Float :=
  (lists.find? fun values ↦ !values.isEmpty).getD []

/-- The numbers on the first path that has any. -/
def numbers (series : Series) (span : Value) : List Float :=
  firstFilled (series.paths.map (series.numbersAt span))

/-- Whether a path is passed over: it leads nowhere, to something that is no array, or to an array
none of whose entries counts. -/
def Skips (series : Series) (span : Value) (path : String) : Prop :=
  ∀ items, Path.resolve span path = some (.array items) → ∀ item ∈ items, series.entry item = []

/-! ## One path -/

theorem numbersAt_of_array {items : List Value}
    (found : Path.resolve span path = some (.array items)) :
    series.numbersAt span path = items.flatMap series.entry := by
  rw [numbersAt, Path.resolveArray_eq_some_iff.2 found, Option.getD_some]

theorem numbersAt_of_skips (skipped : series.Skips span path) :
    series.numbersAt span path = [] := by
  unfold numbersAt
  cases found : Path.resolveArray span path with
  | none => rfl
  | some items =>
    have none_counts := skipped items (Path.resolveArray_eq_some_iff.1 found)
    exact List.flatMap_eq_nil_iff.2 none_counts

theorem numbersAt_congr (same : Path.resolve span' path = Path.resolve span path) :
    series.numbersAt span' path = series.numbersAt span path := by
  rw [numbersAt, numbersAt, Path.resolveArray, Path.resolveArray, same]

/-! ## The first path -/

@[simp] theorem firstFilled_nil_cons (lists : List (List Float)) :
    firstFilled ([] :: lists) = firstFilled lists := rfl

theorem firstFilled_cons_of_ne_nil {values : List Float} (filled : values ≠ [])
    (lists : List (List Float)) : firstFilled (values :: lists) = values := by
  rw [firstFilled, List.find?_cons_of_pos (by simpa using filled), Option.getD_some]

theorem firstFilled_eq_nil_iff {lists : List (List Float)} :
    firstFilled lists = [] ↔ ∀ values ∈ lists, values = [] := by
  induction lists with
  | nil => simp [firstFilled]
  | cons first lists ih =>
    rw [List.forall_mem_cons]
    by_cases empty : first = []
    · rw [empty, firstFilled_nil_cons, ih, and_iff_right rfl]
    · rw [firstFilled_cons_of_ne_nil empty, ← ih]
      simp [empty]

/-- Paths without numbers are passed over. -/
theorem numbers_of_skips (order : series.paths = before ++ path :: after)
    (skipped : ∀ earlier ∈ before, series.Skips span earlier)
    (found : series.numbersAt span path ≠ []) :
    series.numbers span = series.numbersAt span path := by
  rw [numbers, order]
  clear order
  induction before with
  | nil => exact firstFilled_cons_of_ne_nil found _
  | cons first before ih =>
    rw [List.forall_mem_cons] at skipped
    rw [List.cons_append, List.map_cons, numbersAt_of_skips skipped.1, firstFilled_nil_cons]
    exact ih skipped.2

/-- Spans that have the same numbers on each path have the same numbers. -/
theorem numbers_of_numbersAt (same : ∀ path ∈ series.paths,
    series.numbersAt span' path = series.numbersAt span path) :
    series.numbers span' = series.numbers span := by
  rw [numbers, numbers, List.map_congr_left same]

/-- Two spans have the same numbers when they agree on the paths up to one that has some. -/
theorem numbers_congr (order : series.paths = before ++ path :: after)
    (found : series.numbersAt span path ≠ [])
    (same : ∀ earlier ∈ before ++ [path], Path.resolve span' earlier = Path.resolve span earlier) :
    series.numbers span' = series.numbers span := by
  have found' : series.numbersAt span' path ≠ [] := by
    rwa [numbersAt_congr (same path (List.mem_append_right _ List.mem_cons_self))]
  rw [numbers, numbers, order]
  clear order
  induction before with
  | nil =>
    rw [List.nil_append, List.map_cons, List.map_cons, firstFilled_cons_of_ne_nil found,
      firstFilled_cons_of_ne_nil found']
    exact numbersAt_congr (same path List.mem_cons_self)
  | cons first before ih =>
    rw [List.cons_append, List.forall_mem_cons] at same
    rw [List.cons_append, List.map_cons, List.map_cons, numbersAt_congr same.1]
    by_cases empty : series.numbersAt span first = []
    · rw [empty, firstFilled_nil_cons, firstFilled_nil_cons]
      exact ih same.2
    · rw [firstFilled_cons_of_ne_nil empty, firstFilled_cons_of_ne_nil empty]

/-- A path without an array is as good as one with an empty array. -/
theorem firstFilled_filterMap_resolveArray (series : Series) (span : Value) :
    firstFilled (series.paths.filterMap fun path ↦
      (Path.resolveArray span path).map fun items ↦ items.flatMap series.entry) =
        series.numbers span := by
  unfold numbers
  induction series.paths with
  | nil => rfl
  | cons path paths ih =>
    rw [List.map_cons, numbersAt]
    cases found : Path.resolveArray span path with
    | none => rwa [List.filterMap_cons_none (by rw [found, Option.map_none])]
    | some items =>
      rw [List.filterMap_cons_some (by rw [found, Option.map_some]), Option.getD_some]
      by_cases empty : items.flatMap series.entry = []
      · rwa [empty, firstFilled_nil_cons, firstFilled_nil_cons]
      · rw [firstFilled_cons_of_ne_nil empty, firstFilled_cons_of_ne_nil empty]

/-! ## Scores -/

/-- Whether a score takes the numbers of a series from a span, and nothing else where there are
some. -/
structure Serves (series : Series) (features : Value → List Float)
    (score : Value → Value → Float) : Prop where
  features_eq : ∀ span, features span = series.numbers span
  congr : ∀ {span span'}, features span ≠ [] → features span' = features span →
    ∀ other, score span' other = score span other
  comm : ∀ left right, score left right = score right left

theorem entry_graphlet_series : Graphlet.series.entry = fun item ↦ item.feature?.toList := by
  funext item
  cases item <;> rfl

theorem entry_mapper_series : Mapper.series.entry = Mapper.nodeFeatures := by
  funext item
  cases item <;> rfl

theorem serves_graphlet : Graphlet.series.Serves Graphlet.histogram Graphlet.score where
  features_eq span := by
    rw [← firstFilled_filterMap_resolveArray, entry_graphlet_series, Graphlet.histogram]
    simp only [List.filterMap_eq_flatMap_toList]
    rfl
  congr {span span'} present same other := by
    rw [Graphlet.score, Graphlet.score, same]
    simp [present]
  comm := Graphlet.score_comm

theorem serves_mapper : Mapper.series.Serves Mapper.profile Mapper.score where
  features_eq span := by
    rw [← firstFilled_filterMap_resolveArray, entry_mapper_series]
    rfl
  congr {span span'} _ same other := by rw [Mapper.score, Mapper.score, same]
  comm := Mapper.score_comm

/-- A score of two spans takes its numbers from the first path on which a span has any.  The paths
before it are passed over where they lead nowhere, to something that is no array or to an array
without numbers, and another span that agrees on this path and on those before it has the same
scores, on either side of any span. -/
theorem score_eq_of_first_path {features : Value → List Float} {score : Value → Value → Float}
    (reads : (series, features, score) ∈ [(Graphlet.series, Graphlet.histogram, Graphlet.score),
      (Mapper.series, Mapper.profile, Mapper.score)])
    (order : series.paths = before ++ path :: after) {items : List Value}
    (found : Path.resolve span path = some (.array items))
    (counts : ∃ item ∈ items, series.entry item ≠ []) :
    ((∀ earlier ∈ before, series.Skips span earlier) →
      features span = items.flatMap series.entry) ∧
    ∀ span', (∀ earlier ∈ before ++ [path],
        Path.resolve span' earlier = Path.resolve span earlier) →
      ∀ other, score span other = score span' other ∧ score other span = score other span' := by
  have filled : series.numbersAt span path ≠ [] := by
    rw [numbersAt_of_array found, Ne, List.flatMap_eq_nil_iff]
    simpa using counts
  have present : series.numbers span ≠ [] := by
    rw [numbers, Ne, firstFilled_eq_nil_iff, List.forall_mem_map]
    exact fun empty ↦ filled (empty path (by simp [order]))
  have serves : series.Serves features score := by
    simp only [List.mem_cons, List.not_mem_nil, or_false, Prod.mk.injEq] at reads
    obtain ⟨rfl, rfl, rfl⟩ | ⟨rfl, rfl, rfl⟩ := reads
    · exact serves_graphlet
    · exact serves_mapper
  constructor
  · intro skipped
    rw [serves.features_eq, numbers_of_skips order skipped filled, numbersAt_of_array found]
  · intro span' same other
    have features_eq : features span' = features span := by
      rw [serves.features_eq, serves.features_eq, numbers_congr order filled same]
    rw [← serves.features_eq] at present
    have scores := serves.congr present features_eq other
    rw [serves.comm other, serves.comm other]
    exact ⟨scores.symm, scores.symm⟩

/-- An array without numbers is passed over, and what a later path leads to does not matter. -/
theorem score_eq_of_first_path_at_nodes :
    let nodes : List Value :=
      [.null, .object [("density", .string "0.5"), ("size", .number (.integer 2))]]
    let span (signature : Value) : Value :=
      .object [("analysis", .object [("mapper", .object [("nodes", .array [.bool true])]),
        ("mapper_signature", signature)]), ("mapper", .object [("nodes", .array nodes)])]
    let left := span (.array [.number (.integer 7)])
    let right := span .null
    (Mapper.series.paths = ["analysis.mapper.nodes"] ++ "mapper.nodes" ::
        ["analysis.mapper_signature"] ∧
      Path.resolve left "mapper.nodes" = some (.array nodes) ∧
      ∃ node ∈ nodes, Mapper.series.entry node ≠ []) ∧
      Mapper.profile left = [2, 0.5] ∧
      ∀ other, Mapper.score left other = Mapper.score right other ∧
        Mapper.score other left = Mapper.score other right := by
  intro nodes span left right
  have order : Mapper.series.paths = ["analysis.mapper.nodes"] ++ "mapper.nodes" ::
      ["analysis.mapper_signature"] := rfl
  have found : Path.resolve left "mapper.nodes" = some (.array nodes) := rfl
  have values : nodes.flatMap Mapper.series.entry = [2, 0.5] := by decide +kernel
  have counts : ∃ node ∈ nodes, Mapper.series.entry node ≠ [] :=
    ⟨nodes[1], List.getElem_mem _, by decide +kernel⟩
  have skipped : ∀ earlier ∈ ["analysis.mapper.nodes"], Mapper.series.Skips left earlier := by
    rw [List.forall_mem_singleton]
    intro items isArray
    have reached : Path.resolve left "analysis.mapper.nodes" = some (.array [.bool true]) := rfl
    rw [reached, Option.some.injEq, Value.array.injEq] at isArray
    rw [← isArray]
    exact List.forall_mem_singleton.2 rfl
  have same : ∀ earlier ∈ ["analysis.mapper.nodes"] ++ ["mapper.nodes"],
      Path.resolve right earlier = Path.resolve left earlier := by
    simp only [List.cons_append, List.nil_append, List.forall_mem_cons]
    exact ⟨rfl, rfl, List.forall_mem_nil _⟩
  obtain ⟨features, scores⟩ := score_eq_of_first_path (List.mem_cons_of_mem _ List.mem_cons_self)
    order found counts
  exact ⟨⟨order, found, counts⟩, (features skipped).trans values, scores right same⟩

end Series

end SpanScore
