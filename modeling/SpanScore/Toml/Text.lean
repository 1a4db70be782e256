import SpanScore.Toml.Cursor

/-!
# Strings in configuration texts

A string stands between double quotes, with escapes, or between single quotes, without; three
quotes on either side allow it to span lines.
-/

namespace SpanScore.Toml.Reader

def hexValue? (char : Char) : Option Nat :=
  if char.isDigit then some (char.toNat - 48)
  else if 'a' ≤ char && char ≤ 'f' then some (char.toNat - 87)
  else if 'A' ≤ char && char ≤ 'F' then some (char.toNat - 55)
  else none

/-- Takes a number of digits in base sixteen. -/
def hexDigits (number : Nat) : Nat → Reader Nat
  | 0 => pure number
  | count + 1 => do
    match hexValue? (← next) with
    | some digit => hexDigits (number * 16 + digit) count
    | none => fail

def scalar (count : Nat) : Reader Char := do
  let number ← hexDigits 0 count
  if number.isValidChar then return Char.ofNat number else fail

/-- Takes an escape from behind its backslash on. -/
def escape : Reader Char := do
  match ← next with
  | 'b' => return '\x08'
  | 'e' => return '\x1b'
  | 'f' => return '\x0c'
  | 'n' => return '\n'
  | 'r' => return '\r'
  | 't' => return '\t'
  | '"' => return '"'
  | '\\' => return '\\'
  | 'x' => scalar 2
  | 'u' => scalar 4
  | 'U' => scalar 8
  | _ => fail

/-- Takes a string of one line from behind its opening quote on; `read` holds its earlier
characters, last first. -/
def basicFrom (read : List Char) : Nat → Reader String
  | 0 => fail
  | fuel + 1 => do
    match ← next with
    | '"' => return String.ofList read.reverse
    | '\\' => do basicFrom ((← escape) :: read) fuel
    | char => if isPlain char then basicFrom (char :: read) fuel else fail

/-- Takes a string of one line without escapes from behind its opening quote on. -/
def literal : Reader String := do
  let chars ← takeWhile fun char ↦ isPlain char && char ≠ '\''
  exactly '\''
  return String.ofList chars

/-- Takes white space and line ends. -/
def blankLines : Nat → Reader Unit
  | 0 => blanks
  | fuel + 1 => do
    blanks
    if ← takeNewline then blankLines fuel

/-- Takes an escape in a string of several lines: a backslash at the end of a line joins what stands
around the white space behind it. -/
def foldedEscape : Reader (Option Char) := do
  let text ← rest
  match text.dropWhile isBlank with
  | '\n' :: _ | '\r' :: '\n' :: _ => do
    blankLines text.length
    return none
  | _ => return some (← escape)

/-- Takes quotes: fewer than three stand for themselves, and three of at most five end the string.
Returns the quotes that belong to the string, and whether it ends. -/
def closing (quote : Char) : Reader (List Char × Bool) := do
  let count := ((← rest).takeWhile (· == quote)).length
  if count < 3 then
    discard (takeIf (List.replicate count quote))
    return (List.replicate count quote, false)
  else
    let inner := min (count - 3) 2
    discard (takeIf (List.replicate (inner + 3) quote))
    return (List.replicate inner quote, true)

/-- Takes a string of several lines from behind its opening quotes on; `read` holds its earlier
characters, last first. -/
def multilineFrom (quote : Char) (read : List Char) : Nat → Reader String
  | 0 => fail
  | fuel + 1 => do
    if (← peek) = some quote then
      let (quotes, ends) ← closing quote
      if ends then return String.ofList (quotes ++ read).reverse
      else multilineFrom quote (quotes ++ read) fuel
    else
      match ← next with
      | '\\' =>
        if quote = '"' then
          match ← foldedEscape with
          | some char => multilineFrom quote (char :: read) fuel
          | none => multilineFrom quote read fuel
        else multilineFrom quote ('\\' :: read) fuel
      | '\n' => multilineFrom quote ('\n' :: read) fuel
      | '\r' => do
        exactly '\n'
        multilineFrom quote ('\n' :: '\r' :: read) fuel
      | char => if isPlain char then multilineFrom quote (char :: read) fuel else fail

def multiline (quote : Char) : Reader String := do
  discard takeNewline
  multilineFrom quote [] ((← rest).length + 1)

/-- Takes a string of one line that may be a key. -/
def line : Reader String := do
  match ← next with
  | '"' => do basicFrom [] ((← rest).length + 1)
  | '\'' => literal
  | _ => fail

def string : Reader String := do
  if ← takeIf ['"', '"', '"'] then multiline '"'
  else if ← takeIf ['\'', '\'', '\''] then multiline '\''
  else line

end SpanScore.Toml.Reader
