/-!
# Numerals

Texts that name a double: an optional sign, then digits with an optional point and an optional
exponent, or one of the words for infinity and for what is no number, in any case of letters.
`read?` follows what is documented of reading doubles: a text gives the double nearest to its
number, whatever its length.  A reader that cuts exponents short differs from this on texts of many
thousands of digits only.
-/

namespace SpanScore.Numeral

def digitValue (char : Char) : Nat :=
  char.toNat - 48

def ofDigits (digits : List Char) : Nat :=
  digits.foldl (fun number digit ↦ number * 10 + digitValue digit) 0

def spanDigits (text : List Char) : List Char × List Char :=
  (text.takeWhile Char.isDigit, text.dropWhile Char.isDigit)

/-- The double nearest to `digits * 10 ^ exponent`; beyond every double this is infinity.  A number
with a digit in front of `10 ^ 309` is beyond, and one below `10 ^ -324` is nothing. -/
def nearest (digits : Nat) (exponent : Int) : Float :=
  if digits = 0 then 0.0
  else if 309 ≤ exponent then 1.0 / 0.0
  else if digits.log2 / 3 + 1 + exponent < -324 then 0.0
  else Float.ofScientific digits (exponent < 0) exponent.natAbs

/-- The exponent that a text spells: a mark, an optional sign and digits, or nothing at all. -/
def exponent? (text : List Char) : Option Int :=
  match text with
  | [] => some 0
  | mark :: signed =>
    if mark ≠ 'e' ∧ mark ≠ 'E' then none
    else
      let (negative, unsigned) := match signed with
        | '-' :: rest => (true, rest)
        | '+' :: rest => (false, rest)
        | _ => (false, signed)
      match spanDigits unsigned with
      | ([], _) => none
      | (digits, []) =>
        let magnitude : Int := ofDigits digits
        some (if negative then -magnitude else magnitude)
      | _ => none

def digits? (text : List Char) : Option Float :=
  let (whole, afterWhole) := spanDigits text
  let (fraction, rest) := match afterWhole with
    | '.' :: afterPoint => spanDigits afterPoint
    | _ => ([], afterWhole)
  if whole.isEmpty && fraction.isEmpty then none
  else (exponent? rest).map fun exponent ↦
    nearest (ofDigits (whole ++ fraction)) (exponent - fraction.length)

def magnitude? (text : List Char) : Option Float :=
  let lower := text.map Char.toLower
  if lower = "inf".toList ∨ lower = "infinity".toList then some (1.0 / 0.0)
  else if lower = "nan".toList then some (0.0 / 0.0)
  else digits? text

/-- The double that a text names. -/
def read? (text : String) : Option Float :=
  match text.toList with
  | '-' :: rest => (magnitude? rest).map Float.neg
  | '+' :: rest => magnitude? rest
  | chars => magnitude? chars

end SpanScore.Numeral
