import SpanScore.Score.Graphlet
import SpanScore.Score.Heuristic
import SpanScore.Score.Mapper
import SpanScore.Scorer.External

/-!
# Models

A model scores two spans.  The placeholder never looks at them, the structural models read their
values, and the others may leave the work to a scorer program.
-/

namespace SpanScore

/-- The score that stands in for a real one. -/
def placeholderScore : Float := 0.42

/-- A model that scores two spans. -/
inductive Model where
  | placeholder
  | graphlet
  | mapper
  /-- Heuristic scores, or those of a program. -/
  | stgnn (inference : Option Scorer)
  /-- The mean of graphlet, Mapper and one more score, which may be a program's. -/
  | composite (inference : Option Scorer)
  | external (scorer : Scorer)

namespace Model

def name : Model → String
  | placeholder => "placeholder"
  | graphlet => "graphlet"
  | mapper => "mapper"
  | stgnn _ => "stgnn"
  | composite _ => "composite"
  | external scorer => scorer.label

/-- The scorer that takes part in a model under the model's own label. -/
def inference (command : ScorerCommand) : Scorer :=
  { Scorer.ofCommand command with label := "stgnn" }

/-- The model of a kind; only an external model cannot do without a scorer. -/
def ofKind (kind : ModelKind) (command : Option ScorerCommand) : Except Failure Model :=
  match kind with
  | .placeholder => .ok placeholder
  | .graphlet => .ok graphlet
  | .mapper => .ok mapper
  | .heuristic => .ok (stgnn none)
  | .stgnn => .ok (stgnn (command.map inference))
  | .composite => .ok (composite (command.map inference))
  | .external =>
    match command with
    | some command => .ok (external (Scorer.ofCommand command))
    | none =>
      .error (.invalidConfiguration "external.command"
        "the external model needs a scorer command")

/-- The model of a kind, which the log names. -/
def build (kind : ModelKind) (command : Option ScorerCommand) : Outcome Model := do
  let model ← Outcome.ofExcept (ofKind kind command)
  Outcome.note (.modelBuilt model.name)
  return model

def usesInference : Model → Bool
  | stgnn inference => inference.isSome
  | composite inference => inference.isSome
  | external _ => true
  | _ => false

/-- The score of two values. -/
def structural (score : Json.Value → Json.Value → Float) (spanA spanB : Span) :
    Except Failure Float := do
  return score (← spanA.toValue) (← spanB.toValue)

def stgnnScore (launch : Launcher) (inference : Option Scorer) (spanA spanB : Span) :
    Outcome Float :=
  match inference with
  | some scorer => scorer.infer launch ⟨spanA, spanB⟩
  | none => Outcome.ofExcept (structural Heuristic.score spanA spanB)

/-- The scores behind a composite score. -/
def breakdown (launch : Launcher) (inference : Option Scorer) (spanA spanB : Span) :
    Outcome Breakdown := do
  let valueA ← Outcome.ofExcept spanA.toValue
  let valueB ← Outcome.ofExcept spanB.toValue
  let stgnn ← stgnnScore launch inference spanA spanB
  return ⟨some (Graphlet.score valueA valueB), some (Mapper.score valueA valueB), some stgnn⟩

/-- The score that a model gives two spans. -/
def score (launch : Launcher) (model : Model) (spanA spanB : Span) : Outcome Float :=
  match model with
  | placeholder => pure placeholderScore
  | graphlet => Outcome.ofExcept (structural Graphlet.score spanA spanB)
  | mapper => Outcome.ofExcept (structural Mapper.score spanA spanB)
  | stgnn inference => stgnnScore launch inference spanA spanB
  | composite inference => do
    let scores ← breakdown launch inference spanA spanB
    Outcome.note (.breakdownComputed scores)
    return scores.composite.getD 0
  | external scorer => scorer.infer launch ⟨spanA, spanB⟩

end Model

end SpanScore
