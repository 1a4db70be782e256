import SpanScore.Outcome
import SpanScore.Text.Quoted

/-!
# Log records

What the log says about an event: how grave it is, which part of the program it comes from, a
message, and named values.
-/

namespace SpanScore.Log

/-- How grave a record is, the gravest first. -/
inductive Level where
  | error
  | warn
  | info
  | debug
  | trace
deriving DecidableEq

def Level.name : Level → String
  | error => "ERROR"
  | warn => "WARN"
  | info => "INFO"
  | debug => "DEBUG"
  | trace => "TRACE"

/-- How many levels are at most as grave as this one counted from none. -/
def Level.rank : Level → Nat
  | error => 1
  | warn => 2
  | info => 3
  | debug => 4
  | trace => 5

/-- A named value of a record. -/
inductive Field where
  /-- A text that is shown as it is. -/
  | plain (text : String)
  /-- A text that is shown in quotes. -/
  | quoted (text : String)
  | natural (value : Nat)
  | double (value : Float)

/-- A record of the log. -/
structure Record where
  level : Level
  /-- The part of the program that a record comes from. -/
  source : String
  message : String
  fields : List (String × Field)

/-! ## Values in records -/

def showDouble (value : Float) : String :=
  String.ofList (Decimal.Layout.debug.write value)

def showTexts (texts : List String) : String :=
  let shown := ", ".intercalate (texts.map Quoted.quote)
  s!"[{shown}]"

def showOption (shown : Option String) : String :=
  match shown with
  | some text => s!"Some({text})"
  | none => "None"

def showBreakdown (scores : Breakdown) : String :=
  let graphlet := showOption (scores.graphlet.map showDouble)
  let mapper := showOption (scores.mapperOverlap.map showDouble)
  let stgnn := showOption (scores.stgnn.map showDouble)
  s!"SimilarityScores \x7b graphlet: {graphlet}, mapper_overlap: {mapper}, stgnn: {stgnn} \x7d"

def showCommand (command : ScorerCommand) : String :=
  let name := Quoted.quote command.command
  let args := showTexts command.args
  let timeout := showOption (command.timeoutSeconds.map toString)
  s!"ScorerCommand \x7b command: {name}, args: {args}, timeout_seconds: {timeout} \x7d"

def showFormat : LogFormat → String
  | .compact => "Compact"
  | .json => "Json"

def showSettings (settings : Settings) : String :=
  let model := settings.model.logName
  let scorer := showOption (settings.scorer.map showCommand)
  let format := showFormat settings.logFormat
  s!"Settings \x7b model: {model}, scorer: {scorer}, verbose: {settings.verbose}, " ++
    s!"log_format: {format} \x7d"

/-! ## Records of events -/

def Source.program : String := "stgnn_infer"

def Source.models : String := "span_similarity::scorers"

def Source.composite : String := "span_similarity::scorers::composite"

def Source.external : String := "span_similarity::scorers::external"

def Source.engine : String := "span_similarity::core::engine"

/-- The record of a failure. -/
def failureMessage (failure : Failure) : String :=
  let category := failure.category.name
  let severity := failure.severity.name
  s!"❌ stgnn-infer failed: {failure.message} (Category: {category}, Severity: {severity})"

/-- What the log says about an event. -/
def Record.ofEvent : Event → Record
  | .settingsResolved settings =>
    ⟨.debug, Source.program, s!"Resolved settings: {showSettings settings}", []⟩
  | .modelBuilt model =>
    ⟨.debug, Source.models, "Built similarity model", [("model", .quoted model)]⟩
  | .scoringStarted model =>
    ⟨.info, Source.program, "Scoring span pair", [("model", .quoted model)]⟩
  | .requestRead size => ⟨.debug, Source.engine, "Read request", [("bytes", .natural size)]⟩
  | .scorerStarted label command args size =>
    ⟨.debug, Source.external, "Spawning external scorer",
      [("scorer", .plain label), ("command", .plain command), ("args", .plain (showTexts args)),
        ("bytes", .natural size)]⟩
  | .scorerClosedInput =>
    ⟨.debug, Source.external, "External scorer closed stdin early", []⟩
  | .breakdownComputed scores =>
    ⟨.debug, Source.composite, "Composite breakdown", [("scores", .plain (showBreakdown scores))]⟩
  | .similarityComputed model similarity =>
    ⟨.debug, Source.engine, "Computed similarity",
      [("model", .quoted model), ("similarity", .double similarity)]⟩
  | .similarityWritten similarity =>
    ⟨.info, Source.program, "Similarity written to stdout", [("similarity", .double similarity)]⟩
  | .failed failure => ⟨.error, Source.program, failureMessage failure, []⟩
  | .suggested failure =>
    ⟨.error, Source.program, s!"💡 Recovery suggestion: {failure.suggestion}", []⟩

/-! ## Lines -/

/-- A value in a line of text. -/
def Field.show : Field → String
  | plain text => text
  | quoted text => Quoted.quote text
  | natural value => toString value
  | double value => showDouble value

def Record.line (record : Record) : String :=
  let fields := record.fields.map fun (name, field) ↦ s!" {name}={field.show}"
  s!"{record.level.name} {record.message}" ++ String.join fields

/-- A value in a JSON object. -/
def Field.value : Field → Json.Value
  | plain text => .string text
  | quoted text => .string text
  | natural value => .number (.integer value)
  | double value => .number (.double value)

def Record.value (record : Record) : Json.Value :=
  let named := record.fields.map fun (name, field) ↦ (name, field.value)
  let fields := (("message", Json.Value.string record.message) :: named).foldl
    (fun members (name, value) ↦ members.insert name value) Json.OrderedMembers.empty
  .object [("fields", .object fields.list), ("level", .string record.level.name)]

end SpanScore.Log
