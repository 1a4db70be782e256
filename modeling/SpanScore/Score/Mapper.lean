import SpanScore.Feature.Distribution
import SpanScore.Feature.Number

/-!
# Mapper scores

Two spans are compared by the profiles of their Mapper graphs.  The overlap of the profiles is
lowered by how far their sums are apart.
-/

namespace SpanScore.Mapper

/-- Where a profile may be, the first place with numbers deciding. -/
def profilePaths : List String :=
  ["analysis.mapper.nodes", "mapper.nodes", "analysis.mapper_signature"]

/-- The members of a node that count, in their order. -/
def nodeKeys : List String := ["size", "weight", "density"]

def nodeFeatures : Json.Value → List Float
  | .object members =>
    nodeKeys.filterMap fun key ↦ (Json.Value.find? key members).bind Json.Value.feature?
  | node => node.feature?.toList

def profile (span : Json.Value) : List Float :=
  let profiles := profilePaths.filterMap fun path ↦
    (Path.resolveArray span path).map fun nodes ↦ nodes.flatMap nodeFeatures
  (profiles.find? fun values ↦ !values.isEmpty).getD []

/-- How far two sums are apart, from zero to one. -/
def penalty (left right : Float) : Float :=
  if left + right > 0 then Distribution.clamp ((left - right).abs / (left + right)) else 0

def profileScore (left right : List Float) : Float :=
  if left.isEmpty || right.isEmpty then 0
  else
    let penalty := penalty (Distribution.positiveSum left) (Distribution.positiveSum right)
    Distribution.clamp (Distribution.overlap left right * (1 - penalty))

def score (left right : Json.Value) : Float :=
  profileScore (profile left) (profile right)

end SpanScore.Mapper
