/-!
# Distributions

Lists of doubles compared as distributions: negative entries count as zero, the rest is scaled to
sum one, and the overlap is one minus half the distance between the two.  All sums run from left to
right and start at `-0.0`.
-/

namespace SpanScore.Distribution

/-- The sum of a list, from left to right. -/
def sum (values : List Float) : Float :=
  values.foldl (· + ·) (-0.0)

/-- A double without what is negative or no number. -/
def positivePart (value : Float) : Float :=
  if value > 0 then value else 0

def positiveSum (values : List Float) : Float :=
  sum (values.map positivePart)

/-- The distance from one to the next double. -/
def epsilon : Float := Float.ofScientific 2220446049250313 true 31

/-- The positive entries scaled to sum one, or zeros when their sum is next to nothing. -/
def normalize (values : List Float) : List Float :=
  let sum := positiveSum values
  if sum ≤ epsilon then List.replicate values.length 0
  else values.map fun value ↦ positivePart value / sum

/-- The distances between entries at the same place, a missing entry counting as zero. -/
def distances : List Float → List Float → List Float
  | [], [] => []
  | left :: lefts, [] => (left - 0).abs :: distances lefts []
  | [], right :: rights => (0 - right).abs :: distances [] rights
  | left :: lefts, right :: rights => (left - right).abs :: distances lefts rights

/-- A double brought between zero and one; what is no number stays so. -/
def clamp (value : Float) : Float :=
  let raised := if value < 0 then 0 else value
  if raised > 1 then 1 else raised

/-- How much two distributions have in common, from zero to one. -/
def overlap (left right : List Float) : Float :=
  if left.isEmpty && right.isEmpty then 0
  else clamp (1 - 0.5 * sum (distances (normalize left) (normalize right)))

end SpanScore.Distribution
