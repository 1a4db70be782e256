import SpanScore.Failure
import SpanScore.Json.Print
import SpanScore.Json.Record

/-!
# Breakdowns

The scores behind a composite score, each of which may be missing, and their mean.
-/

namespace SpanScore

/-- The scores that a composite score is made of. -/
structure Breakdown where
  graphlet : Option Float
  mapperOverlap : Option Float
  stgnn : Option Float

namespace Breakdown

/-- The scores that are there, in their order. -/
def present (scores : Breakdown) : List Float :=
  [scores.graphlet, scores.mapperOverlap, scores.stgnn].filterMap id

/-- The mean of the scores that are there. -/
def composite (scores : Breakdown) : Option Float :=
  if scores.present.isEmpty then none
  else some (scores.present.foldl (· + ·) (-0.0) / scores.present.length.toFloat)

def printScore : Option Float → List Char
  | some score => Json.Print.double score
  | none => ['n', 'u', 'l', 'l']

def print (scores : Breakdown) : List Char :=
  Json.Print.object .spaced
    [Json.Print.member .spaced "graphlet" (printScore scores.graphlet),
      Json.Print.member .spaced "mapper_overlap" (printScore scores.mapperOverlap),
      Json.Print.member .spaced "stgnn" (printScore scores.stgnn)]

def form : Json.Form (Option Float) 3 where
  name := "struct SimilarityScores"
  count := "3 elements"
  fields := #v["graphlet", "mapper_overlap", "stgnn"]
  read := Json.Read.float?
  absent := some none
  length_le_of_read := Json.Read.length_le_of_float?

def ofBytes (bytes : List UInt8) : Except Failure Breakdown :=
  match Json.readWhole form.record bytes with
  | .ok values => .ok ⟨values[0], values[1], values[2]⟩
  | .error error => .error (.malformed error)

end Breakdown

end SpanScore
