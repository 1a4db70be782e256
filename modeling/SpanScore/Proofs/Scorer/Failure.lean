import SpanScore.Scorer.External
import SpanScore.Proofs.Failure

/-!
# Failures of scorers

Whatever a scorer program does instead of giving a score, the failure carries the label of the
scorer.  Only a scorer with a time limit can also be too slow.
-/

namespace SpanScore.Scorer

variable (launch : Launcher) (scorer : Scorer) (request : Request)

/-- A failure is one of a scorer, under its label. -/
def Reports (scorer : Scorer) (failure : Failure) : Prop :=
  ∃ message, failure = .scorer scorer.label message

theorem reports_failure (message : String) : scorer.Reports (scorer.failure message) :=
  ⟨message, rfl⟩

theorem Reports.isScorer {scorer : Scorer} {failure : Failure} (h : scorer.Reports failure) :
    failure.IsScorer := by
  obtain ⟨message, rfl⟩ := h
  trivial

theorem failsAs_scoreOf (program : Ended) : FailsAs scorer.Reports (scorer.scoreOf program) := by
  unfold scoreOf
  split
  · exact FailsAs.error_iff.2 (scorer.reports_failure _)
  · split
    · split
      · exact FailsAs.ok _
      · exact FailsAs.error_iff.2 (scorer.reports_failure _)
    · exact FailsAs.error_iff.2 (scorer.reports_failure _)

/-- What comes of a scorer: a program that cannot be started or is late gives no score. -/
theorem result_infer :
    (scorer.infer launch request).result =
      match launch ⟨scorer.command, scorer.args, request.encode⟩ with
      | .refused reason =>
        .error (scorer.failure s!"failed to spawn '{scorer.command}': {reason}")
      | .ended program =>
        if scorer.isLate program then
          .error (.timeout scorer.label ((scorer.limit.getD 0) / 1000))
        else scorer.scoreOf program := by
  unfold infer
  rw [Outcome.result_bind, Outcome.result_note, Except.bind]
  cases launch ⟨scorer.command, scorer.args, request.encode⟩ with
  | refused reason => rfl
  | ended program =>
    dsimp only
    split
    · rw [Outcome.result_bind, Outcome.result_note, Except.bind]
      split <;> rfl
    · split <;> rfl

theorem failsAs_infer : FailsAs Failure.IsScorer (scorer.infer launch request).result := by
  rw [result_infer]
  split
  · exact FailsAs.error_iff.2 trivial
  · split
    · exact FailsAs.error_iff.2 trivial
    · exact (scorer.failsAs_scoreOf _).mono fun _ ↦ Reports.isScorer

end SpanScore.Scorer
