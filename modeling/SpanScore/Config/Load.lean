import SpanScore.CommandLine.Parse
import SpanScore.Config.Decode
import SpanScore.Host

/-!
# Loading settings

The configuration file that a command line names is read and checked, and then the layers of
settings are put together and checked as a whole.
-/

namespace SpanScore

/-- The scorer that the environment names. -/
def ScorerCommand.ofEnvironment (environment : Environment) : Option ScorerCommand :=
  (environment.value? ScorerCommand.variable).map ScorerCommand.ofScript

/-- The text of a file, or the reason why there is none. -/
def Host.readText (host : Host) (path : String) : Except String String :=
  match host.readFile path with
  | .error reason => .error reason
  | .ok bytes =>
    match Utf8.decode? bytes with
    | some text => .ok text
    | none => .error "stream did not contain valid UTF-8"

def FileConfig.ofFile (host : Host) (path : String) : Except Failure FileConfig :=
  match host.readText path with
  | .ok text => FileConfig.ofText host.environment text
  | .error reason => .error (.configuration s!"cannot read '{path}': {reason}")

/-- The configuration that a command line names, checked. -/
def CommandLine.file (line : CommandLine) (host : Host) : Except Failure FileConfig :=
  match line.config with
  | none => .ok .empty
  | some path => do
    let file ← FileConfig.ofFile host path
    file.validate
    return file

/-- The settings for a command line. -/
def CommandLine.load (line : CommandLine) (host : Host) : Except Failure Settings := do
  let file ← line.file host
  let settings := Settings.merge file line.overrides (ScorerCommand.ofEnvironment host.environment)
  settings.validate
  return settings

end SpanScore
