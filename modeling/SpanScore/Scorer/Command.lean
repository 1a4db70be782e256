/-!
# Scorer commands

How a program that scores spans is called.
-/

namespace SpanScore

/-- The command of a scorer program. -/
structure ScorerCommand where
  command : String
  args : List String
  /-- How long the program may take, if there is a limit. -/
  timeoutSeconds : Option Nat
deriving DecidableEq

/-- The variable that names a script for inference. -/
def ScorerCommand.variable : String := "STGNN_INFER_PATH"

/-- The command for a script, which is run by `python3`. -/
def ScorerCommand.ofScript (script : String) : ScorerCommand :=
  ⟨"python3", [script], none⟩

end SpanScore
