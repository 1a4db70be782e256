import SpanScore.Decimal.Layout
import SpanScore.Text.Quoted
import SpanScore.Toml.Node

/-!
# Faults in configurations

A configuration that can be read may still not say what is wanted.  A fault names the reason and
the region; its message shows the line and underlines the region in it.
-/

namespace SpanScore.Toml

/-- Why a node is not what is wanted. -/
inductive Reason where
  | wrongType (found expected : String)
  | wrongValue (found expected : String)
  | wrongLength (length : Nat) (expected : String)
  | unknownVariant (name : String) (known : List String)
  | missingField (name : String)
deriving DecidableEq

def Reason.describe : Reason → String
  | wrongType found expected => s!"invalid type: {found}, expected {expected}"
  | wrongValue found expected => s!"invalid value: {found}, expected {expected}"
  | wrongLength length expected => s!"invalid length {length}, expected {expected}"
  | unknownVariant name known =>
    let names := ", ".intercalate (known.map fun variant ↦ s!"`{variant}`")
    s!"unknown variant `{name}`, expected one of {names}"
  | missingField name => s!"missing field `{name}`"

/-- Why a text is not the configuration that is wanted. -/
inductive Fault where
  /-- It is no configuration, or a choice is neither a name nor a table. -/
  | malformed
  /-- A region of it is not what is wanted. -/
  | unwanted (region : Region) (reason : Reason)
deriving DecidableEq

def describeInteger (value : Int) : String :=
  if -Scalar.twoTo 63 ≤ value ∧ value < Scalar.twoTo 64 then s!"integer `{value}`"
  else if value < Scalar.twoTo 127 then s!"integer `{value}` as i128"
  else s!"integer `{value}` as u128"

def Node.describe : Node → String
  | string text => s!"string {Quoted.quote text}"
  | scalar (.boolean value) => s!"boolean `{value}`"
  | scalar (.integer value) => describeInteger value
  | scalar (.double value) =>
    s!"floating point `{String.ofList (Decimal.Layout.plain.write value)}`"
  | scalar .date => "map"
  | array _ _ => "sequence"
  | table _ _ => "map"

/-- The fault of a node of another kind than the expected one. -/
def Fault.wrongType (expected : String) (node : Located Node) : Fault :=
  .unwanted node.region (.wrongType node.value.describe expected)

/-- The characters of a text that its first bytes are, up to an offset. -/
def charsBefore : Nat → List Char → List Char
  | _, [] => []
  | offset, char :: rest =>
    if char.utf8Size ≤ offset then char :: charsBefore (offset - char.utf8Size) rest else []

/-- The message for a region of a text: its line and column, the line, and marks under it. -/
def locate (text : List Char) (region : Region) (reason : Reason) : String :=
  let before := charsBefore region.start text
  let onLine := (before.reverse.takeWhile (· ≠ '\n')).reverse
  let line := onLine ++ (text.drop before.length).takeWhile (· ≠ '\n')
  let number := toString (before.count '\n' + 1)
  let column := onLine.length
  let marks := max 1 (min (region.stop - region.start) (byteLength line - column))
  let gutter := String.ofList (List.replicate number.length ' ')
  let shown := String.ofList line
  let blanks := String.ofList (List.replicate column ' ')
  let underline := String.ofList (List.replicate marks '^')
  s!"TOML parse error at line {number}, column {column + 1}\n" ++
    s!"{gutter} |\n{number} | {shown}\n{gutter} | {blanks}{underline}\n" ++
    s!"{reason.describe}\n"

def Fault.message (text : List Char) : Fault → String
  | malformed => "TOML parsing error"
  | unwanted region reason => s!"TOML parsing error: {locate text region reason}"

end SpanScore.Toml
