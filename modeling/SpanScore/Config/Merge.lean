import SpanScore.Config.File
import SpanScore.Model.Basic

/-!
# Layers of settings

What the command line says wins over the configuration file, and the file wins over the defaults.
The scorer of the environment is asked for only where nothing else names one, and only for models
that can do without.
-/

namespace SpanScore

/-- What a command line says. -/
structure Overrides where
  model : Option ModelKind
  scorer : Option ScorerCommand
  timeoutSeconds : Option Nat
  verbose : Bool
  jsonLogs : Bool
deriving DecidableEq

/-- Whether the models of a kind may use the scorer of the environment. -/
def ModelKind.mayInfer : ModelKind → Bool
  | stgnn => true
  | composite => true
  | _ => false

/-- A command with another time limit, if there is one. -/
def ScorerCommand.withTimeout (timeout : Option Nat) (command : ScorerCommand) : ScorerCommand :=
  { command with timeoutSeconds := timeout.or command.timeoutSeconds }

namespace Settings

/-- The settings that a file, a command line and the environment make together. -/
def merge (file : FileConfig) (overrides : Overrides) (environment : Option ScorerCommand) :
    Settings :=
  let model := (overrides.model.or file.model).getD .placeholder
  let named := overrides.scorer.or file.external
  let scorer := if model.mayInfer then named.or environment else named
  { model
    scorer := scorer.map (ScorerCommand.withTimeout overrides.timeoutSeconds)
    verbose := overrides.verbose || file.verbose
    logFormat := if overrides.jsonLogs || file.format == some "json" then .json else .compact }

def validate (settings : Settings) : Except Failure Unit := do
  if settings.model = .external then
    discard (Check.required "external.command" settings.scorer)
  match settings.scorer with
  | some command => command.validate
  | none => return ()

def build (settings : Settings) : Outcome Model :=
  Model.build settings.model settings.scorer

end Settings

end SpanScore
