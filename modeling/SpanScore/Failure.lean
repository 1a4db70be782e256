import SpanScore.Json.Fault

/-!
# Failures

Everything that can keep a request from being scored, with what the program says about it.  The
category of a failure fixes its severity, and its severity the exit code.
-/

namespace SpanScore

/-- Why a request was not scored. -/
inductive Failure where
  /-- Reading or writing failed. -/
  | io (message : String)
  /-- A text is not the JSON that was wanted. -/
  | malformed (error : Json.SyntaxError)
  /-- A text is JSON without the meaning that was wanted. -/
  | meaningless (message : String)
  /-- A configuration file cannot be read. -/
  | configuration (message : String)
  /-- A configuration is rejected as a whole. -/
  | invalidConfiguration (field message : String)
  /-- A configured value is rejected. -/
  | invalidValue (field value reason : String)
  /-- A scorer program gave no score. -/
  | scorer (label message : String)
  /-- A scorer program gave no score in time. -/
  | timeout (label : String) (seconds : Nat)
deriving DecidableEq

/-- What a failure is about. -/
inductive Category where
  | input
  | configuration
  | scorer
  | system
deriving DecidableEq

/-- How bad a failure is, in increasing order. -/
inductive Severity where
  | low
  | medium
  | high
  | critical
deriving DecidableEq

namespace Category

def name : Category → String
  | input => "Input"
  | configuration => "Configuration"
  | scorer => "Scorer"
  | system => "System"

/-- How bad the failures of a category are. -/
def severity : Category → Severity
  | input => .high
  | configuration => .high
  | scorer => .medium
  | system => .critical

end Category

namespace Severity

def name : Severity → String
  | low => "Low"
  | medium => "Medium"
  | high => "High"
  | critical => "Critical"

/-- The place of a severity in their order. -/
def rank : Severity → Nat
  | low => 0
  | medium => 1
  | high => 2
  | critical => 3

instance : LE Severity := ⟨fun left right ↦ left.rank ≤ right.rank⟩

instance (left right : Severity) : Decidable (left ≤ right) :=
  inferInstanceAs (Decidable (left.rank ≤ right.rank))

/-- Severities from the least to the worst. -/
def sort (severities : List Severity) : List Severity :=
  severities.mergeSort (· ≤ ·)

def exitCode : Severity → Nat
  | low => 0
  | medium => 2
  | high => 1
  | critical => 3

end Severity

namespace Failure

def message : Failure → String
  | io message => s!"IO error: {message}"
  | malformed error => s!"Malformed input: {error.message}"
  | meaningless message => s!"Malformed input: {message}"
  | configuration message => s!"Configuration error: {message}"
  | invalidConfiguration field message =>
    s!"Configuration validation failed for '{field}': {message}"
  | invalidValue field value reason => s!"Invalid value '{value}' for '{field}': {reason}"
  | scorer label message => s!"Scorer '{label}' failed: {message}"
  | timeout label seconds => s!"Scorer '{label}' timed out after {seconds}s"

/-- The message for a failure that is shown last. -/
def userMessage : Failure → String
  | malformed error => s!"Input is not valid JSON: {error.message}"
  | meaningless message => s!"Input is not a similarity request: {message}"
  | timeout label seconds => s!"The {label} scorer did not answer within {seconds}s"
  | other => other.message

def category : Failure → Category
  | io _ => .system
  | malformed _ => .input
  | meaningless _ => .input
  | configuration _ => .configuration
  | invalidConfiguration _ _ => .configuration
  | invalidValue _ _ _ => .configuration
  | scorer _ _ => .scorer
  | timeout _ _ => .scorer

def severity (failure : Failure) : Severity :=
  failure.category.severity

def suggestion : Failure → String
  | io _ => "Check that stdin and stdout are readable and writable"
  | malformed _ | meaningless _ =>
    "Send a single JSON object such as \x7b\"span_a\": \x7b...\x7d, \"span_b\": " ++
      "\x7b...\x7d\x7d on stdin"
  | configuration _ | invalidConfiguration _ _ | invalidValue _ _ _ =>
    "Check the command-line flags and the TOML configuration file"
  | scorer _ _ =>
    "Verify the external scorer command runs and prints \x7b\"similarity\": <number>\x7d"
  | timeout _ _ =>
    "Raise timeout_seconds or check that the external scorer reads all of stdin"

/-- The exit code of a program that a failure ends. -/
def exitCode (failure : Failure) : Nat :=
  max 1 failure.severity.exitCode

end Failure

end SpanScore
