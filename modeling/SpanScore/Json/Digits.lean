import SpanScore.Decimal.Numeral
import SpanScore.Json.Lexeme
import SpanScore.Json.Value

/-!
# Reading JSON numbers

The digits of a number are collected in a word of 64 bits.  The first digit that no longer fits
and all digits behind it are dropped: in the integer part each of them counts as a power of ten,
in the fraction it counts nothing.  The word is then rounded to a double, which is multiplied or
divided once by a power of ten, so that a number is rounded twice on its way.
-/

namespace SpanScore.Json.Digits

/-- Collects digits behind `significand` as long as they fit, and counts those that do not. -/
def collect (significand : Nat) : List Char → Nat × Nat
  | [] => (significand, 0)
  | digit :: digits =>
    let longer := significand * 10 + Numeral.digitValue digit
    if longer < UInt64.size then collect longer digits else (significand, digits.length + 1)

/-- The double nearest to a power of ten. -/
def powerOfTen (exponent : Nat) : Float :=
  Float.ofScientific 1 false exponent

def greatestPower : Nat := 308

/-- A double times a power of ten, if the product is finite.  Powers below the least one in reach
are taken in steps. -/
def scale? (value : Float) (exponent : Int) : Option Float :=
  if 0 ≤ exponent then
    if exponent ≤ greatestPower then
      let product := value * powerOfTen exponent.natAbs
      if product.isInf then none else some product
    else if value == 0 then some value
    else none
  else if -greatestPower ≤ exponent then some (value / powerOfTen exponent.natAbs)
  else if value == 0 then some value
  else scale? (value / powerOfTen greatestPower) (exponent + greatestPower)
termination_by exponent.natAbs
decreasing_by
  simp only [greatestPower] at *
  omega

def scaled (negative : Bool) (significand : Nat) (exponent : Int) (rest : List Char) :
    Except Fault (Number × List Char) :=
  match scale? significand.toUInt64.toFloat exponent with
  | some value => .ok (.double (if negative then -value else value), rest)
  | none => stop .outOfRange 0 rest

/-- The digits of an exponent, unless it leaves the integers of 32 bits. -/
inductive Exponent where
  | within (exponent : Nat) (rest : List Char)
  | beyond (rest : List Char)

def collectExponent (exponent : Nat) : List Char → Exponent
  | [] => .within exponent []
  | digit :: rest =>
    if digit.isDigit then
      let longer := exponent * 10 + Numeral.digitValue digit
      if longer < Nat.pow 2 31 then collectExponent longer rest else .beyond rest
    else .within exponent (digit :: rest)

/-- Whether an exponent is negative, and its text behind the sign. -/
def exponentSign : List Char → Bool × List Char
  | '+' :: rest => (false, rest)
  | '-' :: rest => (true, rest)
  | text => (false, text)

theorem length_exponentSign_le (text : List Char) :
    (exponentSign text).2.length ≤ text.length := by
  unfold exponentSign
  split <;> simp

/-- Reads a number on from behind the letter of its exponent, `start` being the power of ten that
its digits call for. -/
def exponent (negative : Bool) (significand : Nat) (start : Int) (text : List Char) :
    Except Fault (Number × List Char) :=
  let below := (exponentSign text).1
  match (exponentSign text).2 with
  | [] => stop .digitExpected 1 []
  | digit :: rest =>
    if digit.isDigit then
      match collectExponent 0 (digit :: rest) with
      | .within exponent after =>
        let total := if below then start - exponent else start + exponent
        scaled negative significand total after
      | .beyond after =>
        if significand ≠ 0 && !below then stop .outOfRange 0 after
        else .ok (.double (if negative then -0.0 else 0.0), after.dropWhile Char.isDigit)
    else stop .digitExpected 1 (digit :: rest)

/-- Reads a number on from behind its digits. -/
def exponent? (negative : Bool) (significand : Nat) (start : Int) (text : List Char) :
    Except Fault (Number × List Char) :=
  match text with
  | 'e' :: rest => exponent negative significand start rest
  | 'E' :: rest => exponent negative significand start rest
  | _ => scaled negative significand start text

/-- Reads a number on from behind its point, `dropped` digits in front of it being lost. -/
def fraction (negative : Bool) (significand dropped : Nat) (text : List Char) :
    Except Fault (Number × List Char) :=
  let (digits, rest) := Numeral.spanDigits text
  if digits.isEmpty then stop .digitExpected 1 text
  else
    let (longer, lost) := collect significand digits
    exponent? negative longer (Int.ofNat dropped - Int.ofNat (digits.length - lost)) rest

/-- The number that an integer of 64 bits is, a negative zero being a double. -/
def ofInteger (negative : Bool) (magnitude : Nat) : Number :=
  if !negative then .integer magnitude
  else if 0 < magnitude && magnitude ≤ Nat.pow 2 63 then .integer (-magnitude)
  else .double (-magnitude.toUInt64.toFloat)

/-- Reads a number on from behind the digits of its integer part. -/
def behindWhole (negative : Bool) (digits rest : List Char) : Except Fault (Number × List Char) :=
  let (significand, dropped) := collect 0 digits
  match rest with
  | '.' :: after => fraction negative significand dropped after
  | 'e' :: after => exponent negative significand dropped after
  | 'E' :: after => exponent negative significand dropped after
  | _ =>
    if dropped = 0 then .ok (ofInteger negative significand, rest)
    else scaled negative significand dropped rest

def number (negative : Bool) (text : List Char) : Except Fault (Number × List Char) :=
  match text with
  | '0' :: rest =>
    match rest with
    | digit :: _ =>
      if digit.isDigit then stop .invalidNumber 1 rest else behindWhole negative ['0'] rest
    | [] => behindWhole negative ['0'] []
  | digit :: _ =>
    if digit.isDigit then
      let (digits, rest) := Numeral.spanDigits text
      behindWhole negative digits rest
    else stop .digitExpected 1 text
  | [] => stop .digitExpected 1 []

end SpanScore.Json.Digits
