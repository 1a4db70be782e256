import SpanScore.Proofs.Feature.Path
import SpanScore.Proofs.Feature.Series

/-!
# Flat profiles

An array of nodes may be written as a flat array: each entry gives way to the numbers that it
contributes, and what contributes nothing is left out.  Main statement: this changes neither the
profile of a span nor any score, on whichever of the paths of profiles the array is.
-/

namespace SpanScore.Mapper

open Json

variable {span : Value} {path : String} {nodes : List Value}

/-! ## Nodes -/

/-- A finite double as a value; JSON has no number for any other one. -/
def ofFloat? (number : Float) : Option Value :=
  if number.isFinite then some (.number (.double number)) else none

/-- The number that a value is or spells, as a value. -/
def number? : Value → Option Value
  | .number number => some (.number number)
  | .string text => (Numeral.read? text).bind ofFloat?
  | _ => none

/-- The numbers that a node gives way to: its own, or those of its size, its weight and its density
in this order. -/
def flattenNode : Value → List Value
  | .object members =>
    ["size", "weight", "density"].filterMap fun key ↦ (Value.find? key members).bind number?
  | node => (number? node).toList

/-- An array of nodes as a flat array of numbers. -/
def flatten (nodes : List Value) : List Value :=
  nodes.flatMap flattenNode

theorem number?_string {text : String} {x : Float} (read : Numeral.read? text = some x)
    (finite : x.isFinite = true) : number? (.string text) = some (.number (.double x)) := by
  rw [number?, read, Option.bind_some, ofFloat?, if_pos finite]

/-- The number of a value is the same feature as the value. -/
theorem flatMap_entry_number? (found : Option Value)
    (finite : ∀ x ∈ found.bind Value.feature?, x.isFinite = true) :
    (found.bind number?).toList.flatMap series.entry =
      (found.bind Value.feature?).toList := by
  cases found with
  | none => rfl
  | some value =>
    cases value with
    | string text =>
      change (number? (.string text)).toList.flatMap series.entry = (Numeral.read? text).toList
      cases read : Numeral.read? text with
      | none =>
        rw [number?, read]
        rfl
      | some x =>
        rw [number?_string read (finite x read)]
        rfl
    | _ => rfl

/-- A node contributes what the numbers contribute that it gives way to. -/
theorem flatMap_entry_flattenNode {node : Value}
    (finite : ∀ x ∈ series.entry node, x.isFinite = true) :
    (flattenNode node).flatMap series.entry = series.entry node := by
  have single (value : Value) (finite : ∀ x ∈ value.feature?.toList, x.isFinite = true) :
      (number? value).toList.flatMap series.entry = value.feature?.toList :=
    flatMap_entry_number? (some value) fun x mem ↦ finite x (Option.mem_toList.2 mem)
  cases node with
  | object members =>
    rw [Series.entry, List.forall_mem_filterMap] at finite
    rw [Series.entry, flattenNode, List.filterMap_eq_flatMap_toList,
      List.filterMap_eq_flatMap_toList, List.flatMap_assoc]
    apply List.flatMap_congr
    intro key mem
    exact flatMap_entry_number? _ fun x read ↦ finite key mem x read
  | null => exact single .null finite
  | bool truth => exact single (.bool truth) finite
  | number number => exact single (.number number) finite
  | string text => exact single (.string text) finite
  | array items => exact single (.array items) finite

/-- A flat array has the numbers of the nodes, in their order. -/
theorem flatMap_entry_flatten
    (finite : ∀ x ∈ nodes.flatMap series.entry, x.isFinite = true) :
    (flatten nodes).flatMap series.entry = nodes.flatMap series.entry := by
  rw [flatten, List.flatMap_assoc]
  apply List.flatMap_congr
  intro node mem
  exact flatMap_entry_flattenNode fun x found ↦
    finite x (List.mem_flatMap.2 ⟨node, mem, found⟩)

/-! ## Spans -/

/-- No path of profiles leads through the end of another one. -/
theorem not_meet : ∀ path ∈ profilePaths, ∀ other ∈ profilePaths, other ≠ path →
    ¬Path.Meet path other := by
  decide

/-- On whichever path of profiles an array of nodes is, a flat array in its place changes neither
the profile nor a score beside any other span. -/
theorem score_replace_flatten (mem : path ∈ profilePaths)
    (found : Path.resolve span path = some (.array nodes))
    (finite : ∀ x ∈ nodes.flatMap nodeFeatures, x.isFinite = true) :
    let flat := Path.replace path (.array (flatten nodes)) span
    profile flat = profile span ∧
      ∀ other, score flat other = score span other ∧ score other flat = score other span := by
  intro flat
  have same : ∀ other ∈ series.paths,
      series.numbersAt flat other = series.numbersAt span other := by
    intro other mem'
    by_cases here : other = path
    · rw [here, Series.numbersAt_of_array (Path.resolve_replace found),
        Series.numbersAt_of_array found]
      exact flatMap_entry_flatten (by rwa [Series.entry_mapper_series])
    · have apart : ¬Path.Meet path other := not_meet path mem other mem' here
      exact Series.numbersAt_congr (Path.resolve_replace_of_apart apart)
  have profiles : profile flat = profile span := by
    rw [Series.serves_mapper.features_eq, Series.serves_mapper.features_eq,
      Series.numbers_of_numbersAt same]
  refine ⟨profiles, fun other ↦ ?_⟩
  rw [score, score, score, score, profiles]
  exact ⟨rfl, rfl⟩

/-- A profile of a numeric string, of a node with two numbers and of what is no number at all. -/
theorem score_replace_flatten_at_signature :
    let nodes : List Value :=
      [.string "3", .null, .object [("size", .string "0.5"), ("weight", .number (.integer 1))]]
    let span (nodes : List Value) : Value :=
      .object [("analysis", .object [("mapper_signature", .array nodes)])]
    let flat : List Value :=
      [.number (.double 3), .number (.double 0.5), .number (.integer 1)]
    ("analysis.mapper_signature" ∈ profilePaths ∧
      Path.resolve (span nodes) "analysis.mapper_signature" = some (.array nodes) ∧
      ∀ x ∈ nodes.flatMap nodeFeatures, x.isFinite = true) ∧
      Path.replace "analysis.mapper_signature" (.array (flatten nodes)) (span nodes) = span flat ∧
      profile (span flat) = profile (span nodes) ∧
      ∀ other, score (span flat) other = score (span nodes) other ∧
        score other (span flat) = score other (span nodes) := by
  intro nodes span flat
  have mem : "analysis.mapper_signature" ∈ profilePaths := by decide
  have found : Path.resolve (span nodes) "analysis.mapper_signature" = some (.array nodes) := rfl
  have finite : ∀ x ∈ nodes.flatMap nodeFeatures, x.isFinite = true := by decide +kernel
  have flattened : flatten nodes = flat := by
    have three := number?_string (show Numeral.read? "3" = some 3 by decide +kernel) (by decide)
    have half := number?_string (show Numeral.read? "0.5" = some 0.5 by decide +kernel) (by decide)
    change (number? (.string "3")).toList ++ ([] ++ (([number? (.string "0.5"),
      some (.number (.integer 1)), none].filterMap id) ++ [])) = flat
    rw [three, half]
    rfl
  have replaced : Path.replace "analysis.mapper_signature" (.array (flatten nodes)) (span nodes) =
      span flat := by
    rw [flattened]
    rfl
  have unchanged := score_replace_flatten mem found finite
  rw [replaced] at unchanged
  exact ⟨⟨mem, found, finite⟩, replaced, unchanged⟩

end SpanScore.Mapper
