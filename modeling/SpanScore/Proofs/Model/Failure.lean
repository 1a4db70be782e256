import SpanScore.Model.Basic
import SpanScore.Proofs.Scorer.Failure

/-!
# Failures of models

A model fails on a span that is no JSON value, or because of its scorer; nothing else can go wrong
while two spans are scored.
-/

namespace SpanScore

/-- A span has no value, or a scorer gave no score. -/
def Failure.IsOfScoring (failure : Failure) : Prop :=
  failure.IsMalformed ∨ failure.IsScorer

open Failure (IsOfScoring)

theorem Span.failsAs_toValue (span : Span) : FailsAs IsOfScoring span.toValue := by
  unfold toValue
  split
  · exact FailsAs.ok _
  · exact FailsAs.error_iff.2 (.inl trivial)

namespace Model

variable (launch : Launcher) (inference : Option Scorer) (spanA spanB : Span)

theorem failsAs_structural (score : Json.Value → Json.Value → Float) :
    FailsAs IsOfScoring (structural score spanA spanB) := by
  refine FailsAs.bind spanA.failsAs_toValue fun valueA _ ↦ ?_
  exact FailsAs.bind spanB.failsAs_toValue fun valueB _ ↦ FailsAs.ok _

theorem failsAs_infer (scorer : Scorer) (request : Request) :
    FailsAs IsOfScoring (scorer.infer launch request).result :=
  (scorer.failsAs_infer launch request).mono fun _ ↦ Or.inr

theorem failsAs_stgnnScore :
    FailsAs IsOfScoring (stgnnScore launch inference spanA spanB).result := by
  cases inference with
  | none => exact failsAs_structural spanA spanB Heuristic.score
  | some scorer => exact failsAs_infer launch scorer ⟨spanA, spanB⟩

theorem failsAs_breakdown :
    FailsAs IsOfScoring (breakdown launch inference spanA spanB).result := by
  unfold breakdown
  simp only [Outcome.result_bind, Outcome.result_ofExcept, Outcome.result_pure]
  refine FailsAs.bind spanA.failsAs_toValue fun valueA _ ↦ ?_
  refine FailsAs.bind spanB.failsAs_toValue fun valueB _ ↦ ?_
  exact FailsAs.bind (failsAs_stgnnScore launch inference spanA spanB) fun _ _ ↦ FailsAs.ok _

theorem failsAs_score (model : Model) :
    FailsAs IsOfScoring (model.score launch spanA spanB).result := by
  cases model with
  | placeholder => exact FailsAs.ok placeholderScore
  | graphlet => exact failsAs_structural spanA spanB Graphlet.score
  | mapper => exact failsAs_structural spanA spanB Mapper.score
  | stgnn inference => exact failsAs_stgnnScore launch inference spanA spanB
  | composite inference =>
    simp only [score, Outcome.result_bind]
    refine FailsAs.bind (failsAs_breakdown launch inference spanA spanB) fun scores _ ↦ ?_
    exact FailsAs.ok (scores.composite.getD 0)
  | external scorer => exact failsAs_infer launch scorer ⟨spanA, spanB⟩

end Model

end SpanScore
