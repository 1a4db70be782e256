import SpanScore.Decimal.Numeral
import SpanScore.Feature.Path

/-!
# Numeric features

A number is a feature, and so is a string that spells one; no other value is.
-/

namespace SpanScore

/-- The number that a value is or spells. -/
def Json.Value.feature? : Json.Value → Option Float
  | .number value => some value.toFloat
  | .string text => Numeral.read? text
  | _ => none

def Path.resolveFeature (root : Json.Value) (path : String) : Option Float :=
  (resolve root path).bind Json.Value.feature?

end SpanScore
