import SpanScore.Proofs.Model.Composite
import SpanScore.Proofs.Score.Graphlet
import SpanScore.Proofs.Score.Heuristic
import SpanScore.Proofs.Score.Mapper
import SpanScore.Proofs.Span.RoundTrip

/-!
# Spans beside themselves

A span is fully similar to itself, to the last bit, wherever it has something to compare and nothing
infinite comes up.
-/

namespace SpanScore.Model

open Double SpanScore.Distribution

/-- A composite score without a scorer is the mean of the scores of the two values. -/
theorem score_composite_none (launch : Launcher) {spanA spanB : Span} {left right : Json.Value}
    (valueA : spanA.toValue = .ok left) (valueB : spanB.toValue = .ok right) :
    ((composite none).score launch spanA spanB).result =
      .ok ((Graphlet.score left right + Mapper.score left right +
        Heuristic.score left right) / 3) := by
  have scored : (stgnnScore launch none spanA spanB).result = .ok (Heuristic.score left right) :=
    structural_eq_ok_iff.2 ⟨left, right, valueA, valueB, rfl⟩
  refine (score_composite_eq_ok_iff launch none).2
    ⟨_, (breakdown_eq_ok_iff launch none).2 ⟨left, right, _, valueA, valueB, scored, rfl⟩, ?_⟩
  rw [Breakdown.composite_mk, Option.getD_some]

/-- A mean of three zeros and ones is one only if all of them are. -/
theorem mean_eq_one_iff {first second third : Float}
    (hf : first.isNaN = false → first = 0 ∨ first = 1)
    (hs : second.isNaN = false → second = 0 ∨ second = 1)
    (ht : third.isNaN = false → third = 0 ∨ third = 1) :
    (first + second + third) / 3 = 1 ↔ first = 1 ∧ second = 1 ∧ third = 1 := by
  constructor
  · intro one
    have sum : (first + second + third).isNaN = false := by
      by_contra lost
      rw [Bool.not_eq_false] at lost
      have mean : ((first + second + third) / 3).isNaN = true :=
        (isNaN_of_operand (.inl lost)).2.2.2
      exact ne_one_of_isNaN mean one
    obtain ⟨sum', third_number⟩ := isNaN_eq_false_of_add sum
    obtain ⟨first_number, second_number⟩ := isNaN_eq_false_of_add sum'
    rcases hf first_number with rfl | rfl <;> rcases hs second_number with rfl | rfl <;>
      rcases ht third_number with rfl | rfl <;> revert one <;> decide
  · rintro ⟨rfl, rfl, rfl⟩
    decide

/-- Beside itself a span scores exactly one where it has something to compare and nothing infinite
is part of it: no infinite entry, sum or metric.  A composite score is one where the three scores
behind it are.  A span without a histogram and metrics, or without a profile, scores zero. -/
theorem self_similarity (value : Json.Value) :
    (Graphlet.score value value = 1 ↔
      Graphlet.features value ≠ [] ∧ infinity ∉ Graphlet.features value) ∧
    (Mapper.score value value = 1 ↔
      Mapper.profile value ≠ [] ∧ positiveSum (Mapper.profile value) ≠ infinity) ∧
    (Heuristic.score value value = 1 ↔
      ∀ path ∈ Heuristic.metricPaths, (Heuristic.metric value path).isFinite = true) ∧
    (∀ launch spanA spanB, spanA.toValue = .ok value → spanB.toValue = .ok value →
      (((composite none).score launch spanA spanB).result = .ok 1 ↔
        Graphlet.score value value = 1 ∧ Mapper.score value value = 1 ∧
          Heuristic.score value value = 1)) ∧
    (Graphlet.features value = [] → Graphlet.score value value = 0) ∧
    (Mapper.profile value = [] → Mapper.score value value = 0) := by
  refine ⟨Graphlet.score_self_eq_one_iff value, Mapper.score_self_eq_one_iff value,
    Heuristic.score_self_eq_one_iff value, fun launch spanA spanB valueA valueB ↦ ?_,
    Graphlet.score_self_of_eq_nil, Mapper.score_self_of_eq_nil⟩
  rw [score_composite_none launch valueA valueB, Except.ok.injEq,
    mean_eq_one_iff Graphlet.score_self_eq_zero_or_one Mapper.score_self_eq_zero_or_one
      fun number ↦ .inr (Heuristic.score_self_of_isNaN_eq_false number)]

/-- A span with a histogram, a profile and a metric scores one beside itself in every way.  One that
has nothing scores zero in two of them. -/
theorem self_similarity_at_rich_span :
    let launch : Launcher := fun _ ↦ .refused "none"
    let numbers (values : List ℕ) : Json.Value :=
      .array (values.map fun value ↦ .number (.integer value))
    let value : Json.Value := .object [
      ("graphlet_histogram", numbers [1, 2, 3]),
      ("mapper", .object [("nodes", numbers [4, 5])]),
      ("results", .object [("final_rmsd_angstrom", .number (.integer 2))])]
    let span := Span.ofValue value
    let bare : Json.Value := .object []
    span.toValue = .ok value ∧ Graphlet.score value value = 1 ∧ Mapper.score value value = 1 ∧
      Heuristic.score value value = 1 ∧
      ((composite none).score launch span span).result = .ok 1 ∧
      Graphlet.score bare bare = 0 ∧ Mapper.score bare bare = 0 := by
  intro launch numbers value span bare
  have plain : value.IsPlainAt 0 := by
    have array (values : List ℕ) : (numbers values).IsOrdered := by
      refine Json.Value.areOrdered_iff.2 ?_
      rw [List.forall_mem_map]
      exact fun _ _ ↦ trivial
    have ordered : value.IsOrdered :=
      ⟨by decide, array [1, 2, 3], ⟨by decide, array [4, 5], trivial⟩,
        ⟨by decide, trivial, trivial⟩, trivial⟩
    exact ⟨ordered, by decide, by decide, by decide⟩
  have valueA : span.toValue = .ok value := Span.toValue_ofValue_of_isPlainAt plain
  obtain ⟨graphlet, mapper, heuristic, composite, -, -⟩ := self_similarity value
  have graphlet_one : Graphlet.score value value = 1 := by
    have features : Graphlet.features value = [1, 2, 3] := rfl
    rw [graphlet, features, List.mem_cons, List.mem_cons, List.mem_singleton]
    decide
  have mapper_one : Mapper.score value value = 1 := by
    have profile : Mapper.profile value = [4, 5] := rfl
    rw [mapper, profile]
    decide +kernel
  have heuristic_one := heuristic.2 (by decide)
  obtain ⟨-, -, -, -, graphlet_zero, mapper_zero⟩ := self_similarity bare
  exact ⟨valueA, graphlet_one, mapper_one, heuristic_one,
    (composite launch span span valueA valueA).2 ⟨graphlet_one, mapper_one, heuristic_one⟩,
    graphlet_zero rfl, mapper_zero rfl⟩

end SpanScore.Model
