import SpanScore.Decimal.Numeral
import SpanScore.Toml.Text

/-!
# Numbers, truth values and dates

What stands for itself in a configuration text: a word without quotes is a truth value, an integer
in one of four bases, a double, or a date or time.
-/

namespace SpanScore.Toml

/-- A value without quotes and without parts. -/
inductive Scalar where
  | boolean (value : Bool)
  | integer (value : Int)
  | double (value : Float)
  | date

namespace Scalar

/-! ## Integers -/

/-- The digits of a text in which single underscores may stand between digits. -/
def digits? (isDigit : Char → Bool) : List Char → Option (List Char)
  | [] => none
  | [digit] => if isDigit digit then some [digit] else none
  | digit :: '_' :: rest =>
    if isDigit digit then (digits? isDigit rest).map (digit :: ·) else none
  | digit :: rest => if isDigit digit then (digits? isDigit rest).map (digit :: ·) else none

def ofDigits (base : Nat) (digits : List Char) : Nat :=
  digits.foldl (fun number digit ↦ number * base + (Reader.hexValue? digit).getD 0) 0

def isDigitIn (base : Nat) (char : Char) : Bool :=
  (Reader.hexValue? char).any (· < base)

def natural? (base : Nat) (text : List Char) : Option Nat :=
  (digits? (isDigitIn base) text).map (ofDigits base)

/-- The digits of a decimal number, which has no leading zeros. -/
def decimal? (text : List Char) : Option (List Char) :=
  match digits? Char.isDigit text with
  | some ('0' :: _ :: _) => none
  | digits => digits

def twoTo (exponent : Nat) : Int :=
  Int.ofNat (Nat.pow 2 exponent)

/-- Whether an integer fits into 128 bits. -/
def isWide (value : Int) : Bool :=
  -twoTo 127 ≤ value && value < twoTo 128

def ofInt? (value : Int) : Option Scalar :=
  if isWide value then some (integer value) else none

/-! ## Doubles -/

/-- The value of an exponent, from behind its letter on. -/
def exponent? (text : List Char) : Option Int :=
  let magnitude? (digits : List Char) : Option Int :=
    (natural? 10 digits).map Int.ofNat
  match text with
  | '-' :: digits => (magnitude? digits).map (- ·)
  | '+' :: digits => magnitude? digits
  | digits => magnitude? digits

/-- Whether a letter starts an exponent. -/
def isExponentLetter (char : Char) : Bool :=
  char == 'e' || char == 'E'

/-- The double that a text without a sign spells. -/
def double? (text : List Char) : Option Float := do
  let mantissa := text.takeWhile fun char ↦ !isExponentLetter char
  let exponent ← match text.dropWhile fun char ↦ !isExponentLetter char with
    | [] => some 0
    | _ :: exponent => exponent? exponent
  let whole ← decimal? (mantissa.takeWhile (· ≠ '.'))
  let fraction ← match mantissa.dropWhile (· ≠ '.') with
    | [] => if mantissa.length = text.length then none else some []
    | _ :: fraction => digits? Char.isDigit fraction
  let value := Numeral.nearest (ofDigits 10 (whole ++ fraction)) (exponent - fraction.length)
  if value.isInf then none else some value

/-! ## Dates and times -/

/-- The number of `count` digits at the start of a text. -/
def fixed? (count : Nat) (text : List Char) : Option (Nat × List Char) :=
  let digits := text.take count
  if digits.length = count && digits.all Char.isDigit then
    some (ofDigits 10 digits, text.drop count)
  else none

/-- The text behind a character at its start. -/
def behind? (char : Char) : List Char → Option (List Char)
  | [] => none
  | other :: rest => if other = char then some rest else none

/-- How many days a month has. -/
def daysIn (year month : Nat) : Nat :=
  if month = 2 then
    if year % 4 = 0 && (year % 100 ≠ 0 || year % 400 = 0) then 29 else 28
  else if [4, 6, 9, 11].contains month then 30
  else 31

/-- The text behind a date. -/
def date? (text : List Char) : Option (List Char) := do
  let (year, rest) ← fixed? 4 text
  let (month, rest) ← fixed? 2 (← behind? '-' rest)
  let (day, rest) ← fixed? 2 (← behind? '-' rest)
  guard (1 ≤ month && month ≤ 12 && 1 ≤ day && day ≤ daysIn year month)
  return rest

/-- The text behind the fraction of a second. -/
def secondFraction? : List Char → Option (List Char)
  | '.' :: digit :: rest => if digit.isDigit then some (rest.dropWhile Char.isDigit) else none
  | ['.'] => none
  | text => some text

/-- The text behind a time, whose seconds may be left out. -/
def time? (text : List Char) : Option (List Char) := do
  let (hour, rest) ← fixed? 2 text
  let (minute, rest) ← fixed? 2 (← behind? ':' rest)
  guard (hour ≤ 23 && minute ≤ 59)
  match rest with
  | ':' :: rest => do
    let (second, rest) ← fixed? 2 rest
    guard (second ≤ 60)
    secondFraction? rest
  | _ => return rest

/-- Whether a text is the offset of a time, or nothing. -/
def isOffset (text : List Char) : Bool :=
  match text with
  | [] => true
  | ['Z'] => true
  | ['z'] => true
  | sign :: rest =>
    let offset := do
      let (hour, rest) ← fixed? 2 rest
      let (minute, rest) ← fixed? 2 (← behind? ':' rest)
      guard (hour ≤ 23 && minute ≤ 59)
      return rest
    (sign == '+' || sign == '-') && offset == some []

/-- Whether a text is a date, a time, or a date with a time and perhaps its offset. -/
def isDate (text : List Char) : Bool :=
  match date? text with
  | some [] => true
  | some (mark :: rest) => (mark == 'T' || mark == 't') && (time? rest).any isOffset
  | none => time? text == some []

/-! ## All of them -/

/-- The double that a word stands for. -/
def word? (text : List Char) : Option Float :=
  if text = ['i', 'n', 'f'] then some (1.0 / 0.0)
  else if text = ['n', 'a', 'n'] then some (0.0 / 0.0)
  else none

/-- The number that a text without a sign spells in decimal digits. -/
def magnitude? (negative : Bool) (text : List Char) : Option Scalar :=
  let signed (value : Float) : Scalar := double (if negative then -value else value)
  match decimal? text with
  | some digits =>
    let value : Int := ofDigits 10 digits
    ofInt? (if negative then -value else value)
  | none => ((word? text).or (double? text)).map signed

/-- The value that a text without quotes stands for. -/
def ofChars? (text : List Char) : Option Scalar :=
  if isDate text then some date
  else match text with
    | ['t', 'r', 'u', 'e'] => some (boolean true)
    | ['f', 'a', 'l', 's', 'e'] => some (boolean false)
    | '0' :: 'x' :: digits => (natural? 16 digits).bind fun value ↦ ofInt? value
    | '0' :: 'o' :: digits => (natural? 8 digits).bind fun value ↦ ofInt? value
    | '0' :: 'b' :: digits => (natural? 2 digits).bind fun value ↦ ofInt? value
    | '-' :: rest => magnitude? true rest
    | '+' :: rest => magnitude? false rest
    | _ => magnitude? false text

end Scalar

namespace Reader

/-- Whether a character may stand in a value without quotes. -/
def isScalarChar (char : Char) : Bool :=
  char.isAlphanum || ['+', '-', '_', '.', ':'].contains char

/-- Takes the time behind a date, when a blank and a digit follow. -/
def timeBehind (date : List Char) : Reader (List Char) := do
  match ← rest with
  | ' ' :: digit :: _ =>
    if Scalar.date? date == some [] && digit.isDigit then
      discard next
      return date ++ 'T' :: (← takeWhile isScalarChar)
    else return date
  | _ => return date

/-- Takes a value without quotes and without parts. -/
def scalarValue : Reader Scalar := do
  match Scalar.ofChars? (← timeBehind (← takeWhile isScalarChar)) with
  | some value => return value
  | none => fail

end Reader

end SpanScore.Toml
