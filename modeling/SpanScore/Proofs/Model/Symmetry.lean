import SpanScore.Proofs.Model.Score
import SpanScore.Proofs.Score.Symmetry
import SpanScore.Proofs.Span.RoundTrip

/-!
# Symmetry of models

A model that asks no scorer program gives two spans the same score in either order.  Equality is
that of doubles bit for bit: there is only one that is no number, and zero differs from its
negative.
-/

namespace SpanScore.Model

variable {launch : Launcher} {spanA spanB : Span}

theorem structural_eq_ok_symm {score : Json.Value → Json.Value → Float} {similarity : Float}
    (comm : ∀ left right, score left right = score right left)
    (h : structural score spanA spanB = .ok similarity) :
    structural score spanB spanA = .ok similarity := by
  obtain ⟨left, right, valueA, valueB, rfl⟩ := structural_eq_ok_iff.1 h
  exact structural_eq_ok_iff.2 ⟨right, left, valueB, valueA, comm left right⟩

/-- Each of the three scores behind a composite score is symmetric. -/
theorem breakdown_eq_ok_symm (launch' : Launcher) {scores : Breakdown}
    (h : (breakdown launch none spanA spanB).result = .ok scores) :
    (breakdown launch' none spanB spanA).result = .ok scores := by
  obtain ⟨left, right, similarity, valueA, valueB, scored, rfl⟩ :=
    (breakdown_eq_ok_iff launch none).1 h
  refine (breakdown_eq_ok_iff launch' none).2
    ⟨right, left, similarity, valueB, valueA, structural_eq_ok_symm Heuristic.score_comm scored, ?_⟩
  rw [Graphlet.score_comm, Mapper.score_comm]

theorem score_eq_ok_symm (launch' : Launcher) {model : Model} {similarity : Float}
    (unaided : model.usesInference = false)
    (h : (model.score launch spanA spanB).result = .ok similarity) :
    (model.score launch' spanB spanA).result = .ok similarity := by
  match model, unaided with
  | placeholder, _ => exact h
  | graphlet, _ => exact structural_eq_ok_symm Graphlet.score_comm h
  | mapper, _ => exact structural_eq_ok_symm Mapper.score_comm h
  | stgnn none, _ => exact structural_eq_ok_symm Heuristic.score_comm h
  | composite none, _ =>
    obtain ⟨scores, scored, mean_eq⟩ := (score_composite_eq_ok_iff launch none).1 h
    exact (score_composite_eq_ok_iff launch' none).2
      ⟨scores, breakdown_eq_ok_symm launch' scored, mean_eq⟩

/-- A model without a scorer command asks no scorer program. -/
theorem usesInference_of_ofKind {kind : ModelKind} {model : Model}
    (built : ofKind kind none = .ok model) : model.usesInference = false := by
  cases kind <;> cases built <;> rfl

/-- Without a scorer every model, and every score behind a composite score, is symmetric: two spans
are scored in one order just when they are in the other, and with the same double. -/
theorem score_symmetric (launch launch' : Launcher) {kind : ModelKind} {model : Model}
    (built : ofKind kind none = .ok model) (spanA spanB : Span) :
    (∀ similarity, (model.score launch spanA spanB).result = .ok similarity ↔
      (model.score launch' spanB spanA).result = .ok similarity) ∧
    (∀ scores, (breakdown launch none spanA spanB).result = .ok scores ↔
      (breakdown launch' none spanB spanA).result = .ok scores) := by
  have unaided := usesInference_of_ofKind built
  refine ⟨fun similarity ↦ ⟨?_, ?_⟩, fun scores ↦ ⟨?_, ?_⟩⟩
  · exact score_eq_ok_symm launch' unaided
  · exact score_eq_ok_symm launch unaided
  · exact breakdown_eq_ok_symm launch'
  · exact breakdown_eq_ok_symm launch

/-- A span with one metric and the span that is not there are one half alike, in either order. -/
theorem score_symmetric_at_metric :
    let launch : Launcher := fun _ ↦ .refused "none"
    let value : Json.Value := .object [("analysis", .object [("max_rmsd", .number (.integer 1))])]
    ofKind .heuristic none = .ok (stgnn none) ∧
      ((stgnn none).score launch (Span.ofValue value) .absent).result = .ok 0.5 ∧
      ((stgnn none).score launch .absent (Span.ofValue value)).result = .ok 0.5 := by
  intro launch value
  have plain : value.IsPlainAt 0 :=
    ⟨⟨by decide, ⟨by decide, trivial, trivial⟩, trivial⟩, by decide, by decide, by decide⟩
  have valueA := Span.toValue_ofValue_of_isPlainAt plain
  have valueB : Span.absent.toValue = .ok (.object []) :=
    Span.toValue_of_holds Span.holds_absent rfl
  have scored : ((stgnn none).score launch (Span.ofValue value) .absent).result = .ok 0.5 :=
    structural_eq_ok_iff.2 ⟨_, _, valueA, valueB, by decide +kernel⟩
  have built : ofKind .heuristic none = .ok (stgnn none) := rfl
  have symmetric := (score_symmetric launch launch built (Span.ofValue value) .absent).1 0.5
  exact ⟨built, scored, symmetric.1 scored⟩

end SpanScore.Model
