import SpanScore.Feature.Distribution
import SpanScore.Message.Request
import SpanScore.Message.Response
import SpanScore.Outcome
import SpanScore.Scorer.Launch
import SpanScore.Text.Blank

/-!
# External scorers

A scorer program reads a request and writes a response.  Its score is brought between zero and one;
whatever else it does is a failure that carries the scorer's label.
-/

namespace SpanScore

/-- A scorer that is a program. -/
structure Scorer where
  label : String
  command : String
  args : List String
  /-- How many milliseconds the program may take, if there is a limit. -/
  limit : Option Nat

namespace Scorer

def ofCommand (command : ScorerCommand) : Scorer :=
  { label := "external"
    command := command.command
    args := command.args
    limit := command.timeoutSeconds.map (· * 1000) }

def failure (scorer : Scorer) (message : String) : Failure :=
  .scorer scorer.label message

/-- Whether a program was too slow for a scorer. -/
def isLate (scorer : Scorer) (program : Ended) : Bool :=
  scorer.limit.any (· ≤ program.milliseconds)

/-- How a message shows the way a program ended. -/
def statusText : ExitStatus → String
  | .exited code => s!"Some({code})"
  | .killed => "None"

/-- The score that a program gave in time. -/
def scoreOf (scorer : Scorer) (program : Ended) : Except Failure Float :=
  match program.feed with
  | .failed message => .error (scorer.failure s!"failed to read scorer output: {message}")
  | _ =>
    if program.status = .exited 0 then
      match Response.similarityOf program.output with
      | .ok similarity => .ok (Distribution.clamp similarity)
      | .error failure => .error (scorer.failure s!"invalid response: {failure.message}")
    else
      let status := statusText program.status
      let errors := Blank.trim (Utf8.decodeLossy program.errors)
      .error (scorer.failure s!"process exited with status {status}: {errors}")

/-- The score that a scorer gives a request. -/
def infer (launch : Launcher) (scorer : Scorer) (request : Request) : Outcome Float := do
  let input := request.encode
  Outcome.note (.scorerStarted scorer.label scorer.command scorer.args input.length)
  match launch ⟨scorer.command, scorer.args, input⟩ with
  | .refused reason =>
    Outcome.fail (scorer.failure s!"failed to spawn '{scorer.command}': {reason}")
  | .ended program =>
    if program.feed = .closedEarly then Outcome.note .scorerClosedInput
    if scorer.isLate program then
      Outcome.fail (.timeout scorer.label ((scorer.limit.getD 0) / 1000))
    else Outcome.ofExcept (scorer.scoreOf program)

end Scorer

end SpanScore
