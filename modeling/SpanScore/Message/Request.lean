import SpanScore.Json.Members
import SpanScore.Span

/-!
# Requests

A request is a JSON object that names two spans.  Its members are taken one by one, the spans as
the texts they are; a missing span is absent, a span given twice is the later one, and all other
members are skipped.
-/

namespace SpanScore

/-- Two spans to compare. -/
structure Request where
  spanA : Span
  spanB : Span

namespace Request

instance : BEq Request :=
  ⟨fun left right ↦ left.spanA == right.spanA && left.spanB == right.spanB⟩

/-- The text that was read between two points, `after` being what is left of `start`. -/
def textOf (start after : List Char) : String :=
  String.ofList (start.take (start.length - after.length))

/-- Reads members from a start on; `found` holds the earlier ones, last first. -/
def membersFrom (found : List (String × Span)) (start : Json.Members.Start) :
    Except Json.Fault (List (String × Span) × List Char) :=
  match start with
  | .closed rest => .ok (found, rest)
  | .key name text =>
    match _ : Json.Read.colon text with
    | .error fault => .error fault
    | .ok start =>
      match _ : Json.Scan.skip [] (Json.skipSpace start) with
      | .error fault => .error fault
      | .ok after =>
        match _ : Json.Members.next after with
        | .error fault => .error fault
        | .ok next =>
          membersFrom ((name, ⟨some (textOf (Json.skipSpace start) after)⟩) :: found) next
termination_by start.rest.length
decreasing_by
  have colon := Json.Members.length_lt_of_colon ‹_›
  have space := Json.length_skipSpace_le start
  have skipped := Json.Scan.length_lt_of_skip ‹_›
  have next := Json.Members.length_rest_lt_of_next ‹_›
  simp only [Json.Members.Start.rest] at *
  omega

/-- Reads the members of an object, last first. -/
def members : Json.Reader (List (String × Span)) := fun text ↦
  match Json.skipSpace text with
  | [] => Json.stop .valueExpected 1 []
  | '\x7b' :: rest => do membersFrom [] (← Json.Members.first rest)
  | other => .error (Json.wrongType "a map" other)

/-- The request with the spans among some members, last first. -/
def ofMembers (found : List (String × Span)) : Request :=
  { spanA := (found.lookup "span_a").getD .absent
    spanB := (found.lookup "span_b").getD .absent }

/-- The request that some bytes are. -/
def ofBytes (bytes : List UInt8) : Except Failure Request :=
  match Json.readWhole members bytes with
  | .ok found => .ok (ofMembers found)
  | .error error => .error (.malformed error)

def print (request : Request) : List Char :=
  Json.Print.object .spaced
    [Json.Print.member .spaced "span_a" request.spanA.json.toList,
      Json.Print.member .spaced "span_b" request.spanB.json.toList]

def encode (request : Request) : List UInt8 :=
  Utf8.encode (String.ofList request.print)

end Request

end SpanScore
