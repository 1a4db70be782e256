import SpanScore.Failure
import SpanScore.Json.Print
import SpanScore.Json.Record

/-!
# Responses

A response is a JSON object with the member `similarity`.  A program writes exactly this member; of
another program's answer everything but this member is ignored.
-/

namespace SpanScore

/-- How similar two spans are. -/
structure Response where
  similarity : Float

namespace Response

def print (response : Response) : List Char :=
  Json.Print.object .spaced
    [Json.Print.member .spaced "similarity" (Json.Print.double response.similarity)]

def encode (response : Response) : List UInt8 :=
  Utf8.encode (String.ofList response.print)

/-- The similarity in a program's answer. -/
def similarityOf (bytes : List UInt8) : Except Failure Float :=
  match Json.Value.ofBytes bytes with
  | .error error => .error (.malformed error)
  | .ok answer =>
    match (answer.get? "similarity").bind Json.Value.float? with
    | some similarity => .ok similarity
    | none => .error (.meaningless "response missing numeric 'similarity'")

def form : Json.Form Float 1 where
  name := "struct SimilarityResponse"
  count := "1 element"
  fields := #v["similarity"]
  read := Json.Read.float
  absent := none
  length_le_of_read := Json.Read.length_le_of_float

/-- The response that some bytes are, as a record. -/
def ofBytes (bytes : List UInt8) : Except Failure Response :=
  match Json.readWhole form.record bytes with
  | .ok values => .ok ⟨values[0]⟩
  | .error error => .error (.malformed error)

end Response

end SpanScore
