/-!
# Shortest decimal digits

The digits that stand for a finite positive double: as few as possible among the decimals that
round to it, and of those the nearest one.  A decimal rounds to the double when it lies between
the midpoints to its two neighbours; the midpoints themselves belong to it when its mantissa is
even.  All arithmetic is exact, on natural numbers.
-/

namespace SpanScore.Decimal

/-- A positive number `mantissa * 2 ^ exponent`. -/
structure Binary where
  mantissa : Nat
  exponent : Int

/-- The magnitude of a finite double. -/
def Binary.ofFloat (value : Float) : Binary :=
  let bits := value.toBits.toNat
  let fraction := bits % Nat.pow 2 52
  let field := bits / Nat.pow 2 52 % Nat.pow 2 11
  if field = 0 then ⟨fraction, -1074⟩
  else ⟨fraction + Nat.pow 2 52, Int.ofNat field - 1075⟩

/-- A power with an integer exponent, as a numerator and a denominator. -/
def ratioPower (base : Nat) (exponent : Int) : Nat × Nat :=
  let power := Nat.pow base exponent.natAbs
  if exponent < 0 then (1, power) else (power, 1)

/-- The two sides of a comparison between `decimal * 10 ^ scale` and `quarters` times a quarter of
the unit in the last place of a number with the given binary exponent. -/
def crossMultiply (decimal : Nat) (scale : Int) (quarters : Nat) (exponent : Int) : Nat × Nat :=
  let ten := ratioPower 10 scale
  let two := ratioPower 2 (exponent - 2)
  (decimal * ten.1 * two.2, quarters * two.1 * ten.2)

/-- The least number of quarters that rounds to the number: the lower midpoint is nearer where the
unit in the last place halves. -/
def Binary.lowerQuarters (number : Binary) : Nat :=
  if number.mantissa = Nat.pow 2 52 && number.exponent != -1074 then 4 * number.mantissa - 1
  else 4 * number.mantissa - 2

/-- Whether `decimal * 10 ^ scale` rounds to the number. -/
def Binary.roundsFrom (number : Binary) (decimal : Nat) (scale : Int) : Bool :=
  let low := crossMultiply decimal scale number.lowerQuarters number.exponent
  let high := crossMultiply decimal scale (4 * number.mantissa + 2) number.exponent
  if number.mantissa % 2 = 0 then low.2 ≤ low.1 && high.1 ≤ high.2
  else low.2 < low.1 && high.1 < high.2

/-- The greatest `decimal` with `decimal * 10 ^ scale` at most the number. -/
def Binary.floorAt (number : Binary) (scale : Int) : Nat :=
  let sides := crossMultiply 1 scale (4 * number.mantissa) number.exponent
  sides.2 / sides.1

/-- The exponent of the number's first decimal digit. -/
def Binary.leadingExponent (number : Binary) : Int :=
  let estimate := (Int.ofNat number.mantissa.log2 + number.exponent) * 1233 / 4096
  if 0 < number.floorAt (estimate + 1) then estimate + 1
  else if 0 < number.floorAt estimate then estimate
  else estimate - 1

/-- Of the two decimals around the number at a scale, the nearest that rounds to it. -/
def Binary.nearestAt? (number : Binary) (scale : Int) : Option Nat :=
  let below := number.floorAt scale
  let above := below + 1
  match number.roundsFrom below scale, number.roundsFrom above scale with
  | true, false => some below
  | false, true => some above
  | false, false => none
  | true, true =>
    let sides := crossMultiply (below + above) scale (8 * number.mantissa) number.exponent
    if sides.2 < sides.1 then some below
    else if sides.1 < sides.2 then some above
    else if below % 2 = 0 then some below else some above

/-- Decimal digits, the first of which counts tens to the power `exponent`. -/
structure Digits where
  digits : List Char
  exponent : Int

/-- The digits of `decimal * 10 ^ scale`, without zeros at their end. -/
def Digits.ofScaled (decimal : Nat) (scale : Int) : Digits :=
  let digits := Nat.toDigits 10 decimal
  ⟨(digits.reverse.dropWhile (· == '0')).reverse, scale + digits.length - 1⟩

/-- The shortest digits of a positive number; seventeen of them always suffice. -/
def Binary.shortest (number : Binary) : Digits :=
  let leading := number.leadingExponent
  let found := (List.range 17).findSome? fun (more : Nat) ↦
    let scale := leading - more
    (number.nearestAt? scale).map fun decimal ↦ Digits.ofScaled decimal scale
  found.getD (Digits.ofScaled (number.floorAt (leading - 16)) (leading - 16))

end SpanScore.Decimal
