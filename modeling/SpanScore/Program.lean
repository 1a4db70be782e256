import SpanScore.Config.Load
import SpanScore.Engine
import SpanScore.Log.Filter

/-!
# The program

One run of the program: it reads its command line and settings, answers one request, and ends with
an exit code.  The standard output holds the response or the help text and nothing else.
-/

namespace SpanScore

/-- A line on the standard error. -/
inductive ErrorLine where
  | text (line : String)
  /-- A record that is written as a JSON object. -/
  | object (value : Json.Value)

/-- A run of the program that has ended. -/
structure Run where
  exitCode : Nat
  output : List UInt8
  errors : List ErrorLine

namespace Program

/-- The filter for the log, which the environment can replace. -/
def filter (environment : Environment) (format : LogFormat) (verbose : Bool) : Log.Filter :=
  let usual := match format with
    | .compact => Log.Filter.compact verbose
    | .json => Log.Filter.json
  ((environment.value? "RUST_LOG").bind Log.Filter.ofText?).getD usual

/-- The lines that the log shows of some events. -/
def logLines (environment : Environment) (format : LogFormat) (verbose : Bool)
    (events : List Event) : List ErrorLine :=
  let kept := (events.map Log.Record.ofEvent).filter (filter environment format verbose).keeps
  kept.map fun record ↦
    match format with
    | .compact => .text record.line
    | .json => .object record.value

/-- What happens when a failure ends the program. -/
def farewell (failure : Failure) : List Event :=
  [.failed failure, .suggested failure]

def conclude (environment : Environment) (format : LogFormat) (verbose : Bool)
    (outcome : Outcome Unit) (output : List UInt8) : Run :=
  match outcome.result with
  | .ok () => ⟨0, output, logLines environment format verbose outcome.events⟩
  | .error failure =>
    let events := outcome.events ++ farewell failure
    { exitCode := failure.exitCode
      output := output
      errors := logLines environment format verbose events ++
        [.text s!"❌ {failure.userMessage}"] }

/-- The engine that settings ask for. -/
def prepare (host : Host) (settings : Settings) : Outcome Engine := do
  Outcome.note (.settingsResolved settings)
  let model ← settings.build
  Outcome.note (.scoringStarted model.name)
  return .ofModel host.launch model

/-- Answers one request under settings: what comes of it, and the output behind it. -/
def answer (host : Host) (settings : Settings) (source : Source) (sink : Sink) :
    Outcome Unit × Sink :=
  let prepared := prepare host settings
  match prepared.result with
  | .error failure => (⟨prepared.events, .error failure⟩, sink)
  | .ok engine =>
    let (answered, after) := engine.run source sink
    let written := answered.andThen fun response ↦
      Outcome.note (.similarityWritten response.similarity)
    (⟨prepared.events ++ written.events, written.result⟩, after)

/-- Runs the program on a command line that has been read. -/
def runLine (host : Host) (line : CommandLine) (source : Source) (sink : Sink) : Run :=
  match line.load host with
  | .error failure =>
    conclude host.environment .compact line.verbose (Outcome.fail failure) sink.written
  | .ok settings =>
    let (outcome, after) := answer host settings source sink
    conclude host.environment settings.logFormat settings.verbose outcome after.written

/-- Runs the program. -/
def run (host : Host) (arguments : List String) (source : Source) (sink : Sink) : Run :=
  match CommandLine.parse arguments with
  | .error .help => ⟨UsageError.help.exitCode, Utf8.encode UsageError.help.message, []⟩
  | .error error => ⟨error.exitCode, [], [.text error.message]⟩
  | .ok line => runLine host line source sink

end Program

/-- The source of a text that can be read at once. -/
def Source.ofBytes (bytes : List UInt8) : Source :=
  ⟨[bytes], none⟩

/-- An output without limits. -/
def Sink.unlimited : Sink :=
  ⟨[], [], 65536, by decide, none, none⟩

end SpanScore
