import SpanScore.CommandLine.Flag
import SpanScore.Config.Merge
import SpanScore.Decimal.Numeral

/-!
# Command lines

Arguments are read from left to right.  A value may stand in the same argument as its flag or be
the next argument; a value of its own is looked at only when the next flag or the end comes, so
that a later argument that nobody knows is reported first.
-/

namespace SpanScore

/-- Why a command line does not run the program. -/
inductive UsageError where
  | invalidValue (flag : Flag) (value reason : String)
  | missingValue (flag : Flag)
  | unknownArgument (argument : String)
  | unexpectedValue (flag : Flag) (value : String)
  | repeated (flag : Flag)
  /-- The help text was asked for. -/
  | help
deriving DecidableEq

namespace UsageError

def message : UsageError → String
  | invalidValue flag value reason =>
    s!"error: invalid value '{value}' for '{flag.display}': {reason}"
  | missingValue flag =>
    s!"error: a value is required for '{flag.display}' but none was supplied"
  | unknownArgument argument => s!"error: unexpected argument '{argument}' found"
  | unexpectedValue flag value =>
    s!"error: unexpected value '{value}' for '{flag.display}' found; no more were expected"
  | repeated flag => s!"error: the argument '{flag.display}' cannot be used multiple times"
  | help => Flag.helpText

def exitCode : UsageError → Nat
  | help => 0
  | _ => 2

end UsageError

/-- What a command line says. -/
structure CommandLine where
  model : Option ModelKind
  config : Option String
  scorerCommand : Option String
  scorerArgs : List String
  timeoutSeconds : Option Nat
  verbose : Bool
  jsonLogs : Bool
deriving DecidableEq

namespace CommandLine

def empty : CommandLine := ⟨none, none, none, [], none, false, false⟩

def overrides (line : CommandLine) : Overrides :=
  { model := line.model
    scorer := line.scorerCommand.map fun command ↦ ⟨command, line.scorerArgs, none⟩
    timeoutSeconds := line.timeoutSeconds
    verbose := line.verbose
    jsonLogs := line.jsonLogs }

/-! ## Values -/

/-- Reads digits on from a number below `2 ^ 64`. -/
def naturalFrom (number : Nat) : List Char → Except String Nat
  | [] => .ok number
  | digit :: rest =>
    if digit.isDigit then
      let longer := number * 10 + Numeral.digitValue digit
      if longer < UInt64.size then naturalFrom longer rest
      else .error "number too large to fit in target type"
    else .error "invalid digit found in string"

/-- The number of 64 bits that a text spells, perhaps behind a plus. -/
def natural (text : String) : Except String Nat :=
  match text.toList with
  | [] => .error "cannot parse integer from empty string"
  | '+' :: digit :: rest => naturalFrom 0 (digit :: rest)
  | digits => naturalFrom 0 digits

/-- A value, or the reason why it is none for its flag. -/
def checked {α : Type} (flag : Flag) (value : String) (result : Except String α) :
    Except UsageError α :=
  match result with
  | .ok read => .ok read
  | .error reason => .error (.invalidValue flag value reason)

/-- Makes sure that a flag has not been given before. -/
def once {α : Type} (flag : Flag) (before : Option α) : Except UsageError Unit :=
  if before.isSome then .error (.repeated flag) else .ok ()

def store (line : CommandLine) (flag : Flag) (value : String) : Except UsageError CommandLine := do
  match flag with
  | .model =>
    once flag line.model
    let kind ← checked flag value ((ModelKind.ofText value).mapError Failure.message)
    return { line with model := some kind }
  | .config =>
    once flag line.config
    if value.isEmpty then throw (.missingValue flag)
    return { line with config := some value }
  | .scorerCommand =>
    once flag line.scorerCommand
    return { line with scorerCommand := some value }
  | .scorerArg => return { line with scorerArgs := line.scorerArgs ++ [value] }
  | .timeoutSeconds =>
    once flag line.timeoutSeconds
    return { line with timeoutSeconds := some (← checked flag value (natural value)) }
  | _ => throw (.unexpectedValue flag value)

/-- A command line with a flag that takes no value. -/
def raise (line : CommandLine) (flag : Flag) : Except UsageError CommandLine :=
  match flag with
  | .verbose =>
    if line.verbose then .error (.repeated flag) else .ok { line with verbose := true }
  | .jsonLogs =>
    if line.jsonLogs then .error (.repeated flag) else .ok { line with jsonLogs := true }
  | .help => .error .help
  | _ => .error (.missingValue flag)

/-! ## Arguments -/

/-- A flag whose value has not been stored. -/
inductive Pending where
  | nothing
  /-- The value is the next argument. -/
  | awaiting (flag : Flag)
  /-- The value was the last argument. -/
  | given (flag : Flag) (value : String)
deriving DecidableEq

/-- A command line that is being read. -/
structure Draft where
  line : CommandLine
  pending : Pending
deriving DecidableEq

namespace Draft

def settle (draft : Draft) : Except UsageError CommandLine :=
  match draft.pending with
  | .nothing => .ok draft.line
  | .awaiting flag => .error (.missingValue flag)
  | .given flag value => draft.line.store flag value

/-- Reads a flag without a value of its own in the same argument. -/
def start (draft : Draft) (flag : Flag) : Except UsageError Draft := do
  let line ← draft.settle
  if flag.takesValue then return ⟨line, .awaiting flag⟩
  else return ⟨← line.raise flag, .nothing⟩

def finish (draft : Draft) (flag : Flag) (value : String) : Except UsageError Draft := do
  return ⟨← (← draft.settle).store flag value, .nothing⟩

/-- Reads an argument behind two dashes. -/
def long (draft : Draft) (text : List Char) : Except UsageError Draft :=
  let name := String.ofList (text.takeWhile (· ≠ '='))
  match Flag.named? name, text.dropWhile (· ≠ '=') with
  | none, _ => .error (.unknownArgument s!"--{name}")
  | some flag, [] => draft.start flag
  | some flag, _ :: value =>
    if flag.takesValue then draft.finish flag (String.ofList value)
    else .error (.unexpectedValue flag (String.ofList value))

/-- Reads letters behind one dash: flags, the last of which may have its value behind it. -/
def short (draft : Draft) : List Char → Except UsageError Draft
  | [] => .ok draft
  | letter :: rest =>
    match Flag.lettered? letter with
    | none => .error (.unknownArgument s!"-{letter}")
    | some flag =>
      if flag.takesValue then
        match rest with
        | [] => draft.start flag
        | '=' :: value => draft.finish flag (String.ofList value)
        | value => draft.finish flag (String.ofList value)
      else do short (← draft.start flag) rest

def argument (draft : Draft) (argument : String) : Except UsageError Draft :=
  match draft.pending, argument.toList with
  | .awaiting .scorerArg, _ => .ok ⟨draft.line, .given .scorerArg argument⟩
  | _, '-' :: '-' :: text => draft.long text
  | _, '-' :: letter :: rest => draft.short (letter :: rest)
  | .awaiting flag, _ => .ok ⟨draft.line, .given flag argument⟩
  | _, _ => .error (.unknownArgument argument)

/-- Whether an argument ends the flags. -/
def isEnd (draft : Draft) (argument : String) : Bool :=
  argument == "--" && draft.pending ≠ .awaiting .scorerArg

/-- Reads arguments; behind the end of the flags nothing may follow. -/
def arguments (draft : Draft) : List String → Except UsageError Draft
  | [] => .ok draft
  | argument :: rest =>
    if draft.isEnd argument then
      match rest with
      | [] => .ok draft
      | extra :: _ => .error (.unknownArgument extra)
    else do arguments (← draft.argument argument) rest

end Draft

/-- The command line that arguments make. -/
def parse (arguments : List String) : Except UsageError CommandLine := do
  (← Draft.arguments ⟨empty, .nothing⟩ arguments).settle

end CommandLine

end SpanScore
