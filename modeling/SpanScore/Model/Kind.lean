import SpanScore.Failure
import SpanScore.Json.Variant
import SpanScore.Text.Blank

/-!
# Kinds of models

The models a user can ask for by name.
-/

namespace SpanScore

/-- A kind of model. -/
inductive ModelKind where
  | placeholder
  | graphlet
  | mapper
  | heuristic
  | stgnn
  | composite
  | external
deriving DecidableEq

namespace ModelKind

def name : ModelKind → String
  | placeholder => "placeholder"
  | graphlet => "graphlet"
  | mapper => "mapper"
  | heuristic => "heuristic"
  | stgnn => "stgnn"
  | composite => "composite"
  | external => "external"

/-- The name of a kind as the log spells it. -/
def logName : ModelKind → String
  | placeholder => "Placeholder"
  | graphlet => "Graphlet"
  | mapper => "Mapper"
  | heuristic => "Heuristic"
  | stgnn => "Stgnn"
  | composite => "Composite"
  | external => "External"

def all : List ModelKind :=
  [placeholder, graphlet, mapper, heuristic, stgnn, composite, external]

def names : List String :=
  all.map name

def named? (text : String) : Option ModelKind :=
  all.find? fun kind ↦ kind.name == text

/-- The kind that a user means: case and surrounding white space do not matter. -/
def ofText (text : String) : Except Failure ModelKind :=
  let name := (Blank.trim text).toLower
  match named? name with
  | some kind => .ok kind
  | none =>
    let valid := ", ".intercalate names
    .error (.invalidValue "model.kind" name s!"Unknown model. Valid models: {valid}")

def ofJson (text : String) : Except Failure ModelKind :=
  match Json.readWhole (Json.Variant.read names) (Utf8.encode text) with
  | .ok name => .ok ((named? name).getD .placeholder)
  | .error error => .error (.malformed error)

end ModelKind

end SpanScore
