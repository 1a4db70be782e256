import SpanScore.Decimal.Layout

/-!
# Decimals with fixed places

A double with a given number of digits behind the point: the nearest such decimal, of two equally
near ones the one whose last digit is even.
-/

namespace SpanScore.Decimal

/-- The natural number nearest to a quotient; a half goes to the even neighbour. -/
def roundQuotient (numerator denominator : Nat) : Nat :=
  let floor := numerator / denominator
  let twice := 2 * (numerator % denominator)
  if twice < denominator || (twice = denominator && floor % 2 = 0) then floor else floor + 1

/-- A finite double with `places` digits behind the point. -/
def fixed (places : Nat) (value : Float) : List Char :=
  let number := Binary.ofFloat value
  let two := ratioPower 2 number.exponent
  let digits := Nat.toDigits 10 (roundQuotient (number.mantissa * two.1 * Nat.pow 10 places) two.2)
  let padded := List.replicate (places + 1 - digits.length) '0' ++ digits
  let whole := padded.take (padded.length - places)
  let fraction := if places = 0 then [] else '.' :: padded.drop (padded.length - places)
  (if isSignNegative value then ['-'] else []) ++ whole ++ fraction

end SpanScore.Decimal
