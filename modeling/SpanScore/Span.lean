import SpanScore.Failure
import SpanScore.Json.Print
import SpanScore.Json.Read
import SpanScore.Json.Scan

/-!
# Spans

A span is one side of a comparison.  It is kept as the JSON text it came as, and its value is read
only when somebody asks for it, so neither the depth nor the numbers of a span matter before.  An
absent span counts as the empty object.
-/

namespace SpanScore

/-- One side of a comparison. -/
structure Span where
  /-- The text of a span, if there is one. -/
  text? : Option String

namespace Span

def absent : Span := ⟨none⟩

def isAbsent (span : Span) : Bool :=
  span.text?.isNone

def json (span : Span) : String :=
  span.text?.getD "\x7b\x7d"

/-- Spans are the same when their texts are. -/
instance : BEq Span := ⟨fun left right ↦ left.json == right.json⟩

def ofText (text : String) : Except Failure Span :=
  match Json.readWhole Json.Scan.value (Utf8.encode text) with
  | .ok chars => .ok ⟨some (String.ofList chars)⟩
  | .error error => .error (.malformed error)

def ofValue (value : Json.Value) : Span :=
  ⟨some (String.ofList (value.print .compact))⟩

def toValue (span : Span) : Except Failure Json.Value :=
  match Json.Value.ofText span.json with
  | .ok value => .ok value
  | .error error => .error (.malformed error)

end Span

end SpanScore
