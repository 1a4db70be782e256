import SpanScore.Config.Check
import SpanScore.Settings

/-!
# Configuration files

A file says up to three things: which model to use, how to call a scorer program, and how to log.
-/

namespace SpanScore

/-- What a configuration file says about the log. -/
structure Logging where
  verbose : Option Bool
  format : Option String
deriving DecidableEq

/-- What a configuration file says. -/
structure FileConfig where
  model : Option ModelKind
  external : Option ScorerCommand
  logging : Option Logging
deriving DecidableEq

def ScorerCommand.validate (command : ScorerCommand) : Except Failure Unit := do
  Check.notBlank "external.command" command.command
  match command.timeoutSeconds with
  | some timeout => Check.atLeast "external.timeout_seconds" timeout 1
  | none => return ()

namespace FileConfig

def empty : FileConfig := ⟨none, none, none⟩

/-- Whether a file asks for more log lines. -/
def verbose (config : FileConfig) : Bool :=
  ((config.logging.bind Logging.verbose).getD false)

def format (config : FileConfig) : Option String :=
  config.logging.bind Logging.format

def formats : List String := ["compact", "json"]

/-- Checks everything that a file says. -/
def validate (config : FileConfig) : Except Failure Unit := do
  match config.external with
  | some command => command.validate
  | none => pure ()
  match config.format with
  | some format => Check.oneOf "logging.format" format formats
  | none => pure ()
  if config.model = some .external then discard (Check.required "external" config.external)

end FileConfig

end SpanScore
