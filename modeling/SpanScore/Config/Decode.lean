import SpanScore.Config.File
import SpanScore.Config.Substitution
import SpanScore.Toml.Fault
import SpanScore.Toml.Read

/-!
# Reading configuration files

Each of the things that a file says is a table, which may also be written as an array of its values.
Keys that nobody knows are skipped.  Of several faults the one under the least key counts.
-/

namespace SpanScore

namespace Decode

open Toml (Entry Fault Located Node)

/-! ## Nodes with a meaning -/

def string (node : Located Node) : Except Fault String :=
  match node.value with
  | .string text => .ok text
  | _ => .error (.wrongType "a string" node)

def boolean (node : Located Node) : Except Fault Bool :=
  match node.value with
  | .scalar (.boolean value) => .ok value
  | _ => .error (.wrongType "a boolean" node)

/-- A node that is an integer of 64 bits without a sign. -/
def natural (node : Located Node) : Except Fault Nat :=
  match node.value with
  | .scalar (.integer value) =>
    if 0 ≤ value ∧ value < Toml.Scalar.twoTo 64 then .ok value.toNat
    else if -Toml.Scalar.twoTo 63 ≤ value ∧ value < 0 then
      .error (.unwanted node.region (.wrongValue s!"integer `{value}`" "u64"))
    else .error (.wrongType "u64" node)
  | _ => .error (.wrongType "u64" node)

def strings (node : Located Node) : Except Fault (List String) :=
  match node.value with
  | .array _ items => items.mapM string
  | _ => .error (.wrongType "a sequence" node)

/-- A node that names a model, as a text or as the only key of a table that holds nothing. -/
def kind (node : Located Node) : Except Fault ModelKind :=
  let known (region : Toml.Region) (name : String) : Except Fault ModelKind :=
    match ModelKind.named? name with
    | some kind => .ok kind
    | none => .error (.unwanted region (.unknownVariant name ModelKind.names))
  match node.value with
  | .string name => known node.region name
  | .table _ [(key, ⟨_, inner⟩)] => do
    let kind ← known key.region key.value
    match inner with
    | .array _ [] => return kind
    | .table _ [] => return kind
    | _ => .error .malformed
  | _ => .error .malformed

/-- What a table is read from. -/
inductive Parts where
  | entries (entries : List Entry)
  | items (items : List (Located Node))

/-- The parts of a node that is a table or an array; a date is a table without known keys. -/
def parts (expected : String) (node : Located Node) : Except Fault Parts :=
  match node.value with
  | .table _ entries => .ok (.entries entries)
  | .array _ items => .ok (.items items)
  | .scalar .date => .ok (.entries [])
  | _ => .error (.wrongType expected node)

def missing {α : Type} (node : Located Node) (name : String) : Except Fault α :=
  .error (.unwanted node.region (.missingField name))

def tooShort {α : Type} (node : Located Node) (length : Nat) (expected : String) :
    Except Fault α :=
  .error (.unwanted node.region (.wrongLength length expected))

/-! ## Tables -/

def model (node : Located Node) : Except Fault ModelKind := do
  match ← parts "struct ModelConfig" node with
  | .entries entries =>
    match Toml.Table.find? "kind" entries with
    | some found => kind found
    | none => missing node "kind"
  | .items (first :: _) => kind first
  | .items [] => tooShort node 0 "struct ModelConfig with 1 element"

/-- What has been read of the table about the scorer program. -/
structure CommandDraft where
  command : Option String
  args : List String
  timeoutSeconds : Option Nat

def commandEntry (draft : CommandDraft) (entry : Entry) : Except Fault CommandDraft := do
  match entry.1.value with
  | "command" => return { draft with command := ← string entry.2 }
  | "args" => return { draft with args := ← strings entry.2 }
  | "timeout_seconds" => return { draft with timeoutSeconds := ← natural entry.2 }
  | _ => return draft

def external (node : Located Node) : Except Fault ScorerCommand := do
  let short (length : Nat) : Except Fault ScorerCommand :=
    tooShort node length "struct ExternalConfig with 3 elements"
  match ← parts "struct ExternalConfig" node with
  | .entries entries =>
    let draft ← entries.foldlM commandEntry ⟨none, [], none⟩
    match draft.command with
    | some command => return ⟨command, draft.args, draft.timeoutSeconds⟩
    | none => missing node "command"
  | .items [] => short 0
  | .items [command] => do
    discard (string command)
    short 2
  | .items [command, args] => do
    discard (string command)
    discard (strings args)
    short 2
  | .items (command :: args :: timeout :: _) =>
    return ⟨← string command, ← strings args, some (← natural timeout)⟩

def loggingEntry (logging : Logging) (entry : Entry) : Except Fault Logging := do
  match entry.1.value with
  | "verbose" => return { logging with verbose := ← boolean entry.2 }
  | "format" => return { logging with format := ← string entry.2 }
  | _ => return logging

def logging (node : Located Node) : Except Fault Logging := do
  let short (length : Nat) : Except Fault Logging :=
    tooShort node length "struct LoggingConfig with 2 elements"
  match ← parts "struct LoggingConfig" node with
  | .entries entries => entries.foldlM loggingEntry ⟨none, none⟩
  | .items [] => short 0
  | .items [verbose] => do
    discard (boolean verbose)
    short 1
  | .items (verbose :: format :: _) => return ⟨some (← boolean verbose), some (← string format)⟩

def entry (config : FileConfig) (entry : Entry) : Except Fault FileConfig := do
  match entry.1.value with
  | "model" => return { config with model := ← model entry.2 }
  | "external" => return { config with external := ← external entry.2 }
  | "logging" => return { config with logging := ← logging entry.2 }
  | _ => return config

def fromText (text : List Char) : Except Fault FileConfig :=
  match Toml.parse? text with
  | none => .error .malformed
  | some entries => entries.foldlM entry .empty

end Decode

def FileConfig.ofText (environment : Environment) (text : String) : Except Failure FileConfig :=
  let replaced := Substitution.replace environment.value? text.toList
  match Decode.fromText replaced with
  | .ok config => .ok config
  | .error fault => .error (.invalidConfiguration "toml_parsing" (fault.message replaced))

end SpanScore
