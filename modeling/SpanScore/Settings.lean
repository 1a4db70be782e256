import SpanScore.Model.Kind
import SpanScore.Scorer.Command

/-!
# Settings

Everything a run of the program depends on besides the request.
-/

namespace SpanScore

/-- How log lines are written. -/
inductive LogFormat where
  | compact
  | json
deriving DecidableEq

/-- The settings of a run. -/
structure Settings where
  model : ModelKind
  scorer : Option ScorerCommand
  verbose : Bool
  logFormat : LogFormat
deriving DecidableEq

end SpanScore
