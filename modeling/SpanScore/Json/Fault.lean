import SpanScore.Decimal.Layout
import SpanScore.Text.Quoted
import SpanScore.Text.Utf8

/-!
# Faults in JSON texts

A reader that meets a fault says what it expected, how many characters it had not read yet, and
how many bytes behind that point the fault is reported.  `Fault.locate` turns this into a line and
a column; columns count bytes.  What a fault says depends on whether the text ended there.  Where a
string holds a text of its own, an error of this text is reported as it stands.
-/

namespace SpanScore.Json

/-- What stands where another kind of value is expected. -/
inductive Found where
  | null
  | bool (value : Bool)
  | integer (value : Int)
  | double (value : Float)
  | string (text : String)
  | sequence
  | map
deriving DecidableEq

def Found.describe : Found → String
  | null => "null"
  | bool value => s!"boolean `{value}`"
  | integer value => s!"integer `{value}`"
  | double value => s!"floating point `{String.ofList (Decimal.Layout.json.write value)}`"
  | string text => s!"string {Quoted.quote text}"
  | sequence => "sequence"
  | map => "map"

/-- Why a text is not the JSON that a reader wants. -/
inductive Cause where
  /-- No value starts here. -/
  | valueExpected
  /-- Neither a value nor the end of an array follows its bracket. -/
  | firstItemExpected
  /-- One of the words `null`, `true` and `false` is misspelled. -/
  | wordExpected
  /-- A number lacks a digit. -/
  | digitExpected
  /-- A number is misspelled. -/
  | invalidNumber
  /-- A number is beyond every double. -/
  | outOfRange
  /-- A string has no end, or holds bytes that are no text. -/
  | stringUnclosed
  /-- A control character stands in a string. -/
  | controlCharacter
  /-- No escape has this letter. -/
  | escapeExpected
  /-- Four digits in base sixteen are missing from an escape. -/
  | hexDigitsExpected
  /-- An escape is a trailing surrogate without a leading one, or the other way round. -/
  | loneSurrogate
  /-- No escape follows a leading surrogate. -/
  | pairExpected
  /-- An item ends with neither a comma nor the array's end. -/
  | itemEndExpected
  /-- A member ends with neither a comma nor the object's end. -/
  | memberEndExpected
  /-- No colon follows a key. -/
  | colonExpected
  /-- No key follows an object's brace. -/
  | keyExpected
  /-- No key follows a comma. -/
  | nextKeyExpected
  /-- A comma stands before the end of an array or object. -/
  | trailingComma
  /-- Something follows the value. -/
  | trailingCharacters
  /-- An array of fixed length goes on. -/
  | sequenceEndExpected
  /-- An object that may have one member goes on. -/
  | objectEndExpected
  /-- A variant's object goes on. -/
  | variantEndExpected
  /-- Arrays and objects are nested too deeply. -/
  | tooDeep
  | wrongType (found : Found) (expected : String)
  | wrongLength (length : Nat) (expected : String)
  | missingField (name : String)
  | repeatedField (name : String)
  | unknownVariant (name : String) (known : List String)
deriving DecidableEq

/-- What a message says of a cause, `ended` telling whether the text ended there. -/
def Cause.describe (ended : Bool) : Cause → String
  | valueExpected => if ended then "EOF while parsing a value" else "expected value"
  | firstItemExpected => if ended then "EOF while parsing a list" else "expected value"
  | wordExpected => if ended then "EOF while parsing a value" else "expected ident"
  | digitExpected => if ended then "EOF while parsing a value" else "invalid number"
  | invalidNumber => "invalid number"
  | outOfRange => "number out of range"
  | stringUnclosed =>
    if ended then "EOF while parsing a string" else "invalid unicode code point"
  | controlCharacter =>
    "control character (\\u0000-\\u001F) found while parsing a string"
  | escapeExpected => if ended then "EOF while parsing a string" else "invalid escape"
  | hexDigitsExpected => if ended then "EOF while parsing a string" else "invalid escape"
  | loneSurrogate => "lone leading surrogate in hex escape"
  | pairExpected =>
    if ended then "EOF while parsing a string" else "unexpected end of hex escape"
  | itemEndExpected => if ended then "EOF while parsing a list" else "expected `,` or `]`"
  | memberEndExpected =>
    if ended then "EOF while parsing an object" else "expected `,` or `\x7d`"
  | colonExpected => if ended then "EOF while parsing an object" else "expected `:`"
  | keyExpected => if ended then "EOF while parsing an object" else "key must be a string"
  | nextKeyExpected => if ended then "EOF while parsing a value" else "key must be a string"
  | trailingComma => "trailing comma"
  | trailingCharacters => "trailing characters"
  | sequenceEndExpected => if ended then "EOF while parsing a list" else "trailing characters"
  | objectEndExpected => if ended then "EOF while parsing an object" else "trailing characters"
  | variantEndExpected => if ended then "EOF while parsing an object" else "expected value"
  | tooDeep => "recursion limit exceeded"
  | wrongType found expected => s!"invalid type: {found.describe}, expected {expected}"
  | wrongLength length expected => s!"invalid length {length}, expected {expected}"
  | missingField name => s!"missing field `{name}`"
  | repeatedField name => s!"duplicate field `{name}`"
  | unknownVariant name known =>
    let names := ", ".intercalate (known.map fun variant ↦ s!"`{variant}`")
    s!"unknown variant `{name}`, expected one of {names}"

/-- A fault with its place in the text. -/
structure SyntaxError where
  cause : Cause
  /-- Whether the text ended there. -/
  ended : Bool
  line : Nat
  column : Nat
deriving DecidableEq

/-- Why a reader stops. -/
inductive Fault where
  /-- A cause in the text at hand, how many characters had not been read there, and how many bytes
  behind that point the fault is reported. -/
  | here (cause : Cause) (left past : Nat)
  /-- An error of a text that a string of the text at hand holds. -/
  | inner (error : SyntaxError)
deriving DecidableEq

def SyntaxError.message (error : SyntaxError) : String :=
  s!"{error.cause.describe error.ended} at line {error.line} column {error.column}"

/-- The bytes of the last line among some bytes. -/
def lastLine (bytes : List UInt8) : List UInt8 :=
  (bytes.reverse.takeWhile (· != 10)).reverse

/-- The place of a fault in a text, `chars` being the characters its bytes start with.  A fault
reported behind the end of the text is reported at its end, and an error of an inner text keeps the
place that it has there. -/
def Fault.locate (bytes : List UInt8) (chars : List Char) : Fault → SyntaxError
  | here cause left past =>
    let start := Utf8.size (chars.take (chars.length - left))
    let before := bytes.take (start + past)
    { cause
      ended := bytes.length < start + max 1 past
      line := 1 + before.count 10
      column := (lastLine before).length }
  | inner error => error

/-- A reader takes what it wants from the start of a text and returns it with the rest. -/
abbrev Reader (α : Type) := List Char → Except Fault (α × List Char)

/-- Stops at a fault reported `past` bytes behind the start of `rest`. -/
def stop {α : Type} (cause : Cause) (past : Nat) (rest : List Char) : Except Fault α :=
  .error (.here cause rest.length past)

end SpanScore.Json
