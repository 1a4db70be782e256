import SpanScore.Decimal.Shortest

/-!
# Layouts of decimal numbers

How the shortest digits of a double are written: with the point in its place while the exponent of
the first digit lies in a range, and with an exponent otherwise.  A layout is one record; the ones
in use are `Layout.json`, `Layout.plain` and `Layout.debug`.
-/

namespace SpanScore.Decimal

/-- The decisions that a way of writing doubles makes. -/
structure Layout where
  /-- The least exponent of a first digit that is written without an exponent, if there is one. -/
  lowest : Option Int
  /-- The greatest exponent of a first digit that is written without an exponent. -/
  highest : Option Int
  /-- Whether a positive exponent carries a sign. -/
  signsExponent : Bool
  notANumber : String
  infinity : String

/-- JSON numbers: an exponent below `-5` and above `15`, a sign before every exponent, and `null`
for what is no number. -/
def Layout.json : Layout := ⟨some (-5), some 15, true, "null", "null"⟩

/-- Numbers in messages: never an exponent, always a point. -/
def Layout.plain : Layout := ⟨none, none, false, "NaN.0", "inf.0"⟩

/-- Numbers in logs: an exponent below `-4` and above `15`. -/
def Layout.debug : Layout := ⟨some (-4), some 15, false, "NaN", "inf"⟩

/-- Whether a first digit with this exponent is written without an exponent. -/
def Layout.isPositional (layout : Layout) (exponent : Int) : Bool :=
  layout.lowest.all (· ≤ exponent) && layout.highest.all (exponent ≤ ·)

/-- Digits with the point in its place, and at least one digit on either side of it. -/
def Digits.positional (number : Digits) : List Char :=
  if number.exponent < 0 then
    '0' :: '.' :: (List.replicate (number.exponent.natAbs - 1) '0' ++ number.digits)
  else
    let whole := number.exponent.natAbs + 1
    if number.digits.length ≤ whole then
      number.digits ++ List.replicate (whole - number.digits.length) '0' ++ ['.', '0']
    else number.digits.take whole ++ '.' :: number.digits.drop whole

/-- Digits with the point behind the first one and an exponent. -/
def Digits.scientific (signsExponent : Bool) (number : Digits) : List Char :=
  let fraction := if number.digits.length ≤ 1 then [] else '.' :: number.digits.drop 1
  let sign := if number.exponent < 0 then ['-'] else if signsExponent then ['+'] else []
  number.digits.take 1 ++ fraction ++ 'e' :: (sign ++ Nat.toDigits 10 number.exponent.natAbs)

def isSignNegative (value : Float) : Bool :=
  Nat.pow 2 63 ≤ value.toBits.toNat

def Layout.magnitude (layout : Layout) (value : Float) : List Char :=
  let number := Binary.ofFloat value
  if number.mantissa = 0 then ['0', '.', '0']
  else
    let digits := number.shortest
    if layout.isPositional digits.exponent then digits.positional
    else digits.scientific layout.signsExponent

def Layout.write (layout : Layout) (value : Float) : List Char :=
  if value.isNaN then layout.notANumber.toList
  else
    let sign := if isSignNegative value then ['-'] else []
    if value.isInf then sign ++ layout.infinity.toList else sign ++ layout.magnitude value

end SpanScore.Decimal
