import SpanScore.Model.Kind

/-!
# Flags

The flags of the command line, with their names and what the help text says about them.
-/

namespace SpanScore

/-- A flag of the command line. -/
inductive Flag where
  | model
  | config
  | scorerCommand
  | scorerArg
  | timeoutSeconds
  | verbose
  | jsonLogs
  | help
deriving DecidableEq

namespace Flag

/-- All flags, in the order of the help text. -/
def all : List Flag :=
  [model, config, scorerCommand, scorerArg, timeoutSeconds, verbose, jsonLogs, help]

/-- The name of a flag, which stands behind two dashes. -/
def name : Flag → String
  | model => "model"
  | config => "config"
  | scorerCommand => "scorer-command"
  | scorerArg => "scorer-arg"
  | timeoutSeconds => "timeout-seconds"
  | verbose => "verbose"
  | jsonLogs => "json-logs"
  | help => "help"

/-- The letter of a flag, which stands behind one dash. -/
def letter? : Flag → Option Char
  | model => some 'm'
  | config => some 'c'
  | verbose => some 'v'
  | help => some 'h'
  | _ => none

/-- What the value of a flag is called, if the flag takes one. -/
def valueName? : Flag → Option String
  | model => some "MODEL"
  | config => some "CONFIG"
  | scorerCommand => some "SCORER_COMMAND"
  | scorerArg => some "SCORER_ARGS"
  | timeoutSeconds => some "TIMEOUT_SECONDS"
  | _ => none

def takesValue (flag : Flag) : Bool :=
  flag.valueName?.isSome

def purpose : Flag → String
  | model =>
    let known := ", ".intercalate ModelKind.names
    s!"Similarity model: {known}"
  | config => "Path to a TOML configuration file"
  | scorerCommand => "Program implementing the stdin/stdout scoring protocol"
  | scorerArg => "Argument passed to the scorer program (repeatable)"
  | timeoutSeconds => "Seconds to wait for the scorer program"
  | verbose => "Enable verbose output"
  | jsonLogs => "Emit logs as JSON lines on stderr"
  | help => "Print help"

def display (flag : Flag) : String :=
  match flag.valueName? with
  | some value => s!"--{flag.name} <{value}>"
  | none => s!"--{flag.name}"

def named? (name : String) : Option Flag :=
  all.find? fun flag ↦ flag.name == name

def lettered? (letter : Char) : Option Flag :=
  all.find? fun flag ↦ flag.letter? == some letter

def helpLines (flag : Flag) : String :=
  let letter := match flag.letter? with
    | some letter => s!"-{letter}, "
    | none => "    "
  s!"  {letter}{flag.display}\n          {flag.purpose}\n"

def helpText : String :=
  "Scores the similarity of two spans read as JSON from stdin\n\n" ++
    "Usage: stgnn-infer [OPTIONS]\n\nOptions:\n" ++ String.join (all.map helpLines)

end Flag

end SpanScore
