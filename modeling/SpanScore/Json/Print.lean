import SpanScore.Decimal.Layout
import SpanScore.Json.Value

/-!
# Printing JSON

A layout says what stands between items and behind keys; everything else of a printed value is the
same in every layout.  Strings keep every character but quotes, backslashes and controls.
-/

namespace SpanScore.Json

/-- What separates the parts of arrays and objects. -/
structure Spacing where
  comma : List Char
  colon : List Char

/-- No blanks at all. -/
def Spacing.compact : Spacing := ⟨[','], [':']⟩

/-- A blank behind every comma and every colon. -/
def Spacing.spaced : Spacing := ⟨[',', ' '], [':', ' ']⟩

namespace Print

/-- How one character of a string is spelled. -/
def spell (char : Char) : List Char :=
  if char = '"' then ['\\', '"']
  else if char = '\\' then ['\\', '\\']
  else if char = '\n' then ['\\', 'n']
  else if char = '\r' then ['\\', 'r']
  else if char = '\t' then ['\\', 't']
  else if char = '\x08' then ['\\', 'b']
  else if char = '\x0c' then ['\\', 'f']
  else if char < ' ' then
    ['\\', 'u', '0', '0', Nat.digitChar (char.toNat / 16), Nat.digitChar (char.toNat % 16)]
  else [char]

/-- A string between its quotes. -/
def string (text : String) : List Char :=
  '"' :: (text.toList.flatMap spell ++ ['"'])

/-- A double, which is `null` when it is no finite number. -/
def double (value : Float) : List Char :=
  if value.isFinite then Decimal.Layout.json.write value else ['n', 'u', 'l', 'l']

def number : Number → List Char
  | .integer value => (toString value).toList
  | .double value => double value

def separated (spacing : Spacing) : List (List Char) → List Char
  | [] => []
  | [item] => item
  | item :: items => item ++ spacing.comma ++ separated spacing items

def member (spacing : Spacing) (key : String) (printed : List Char) : List Char :=
  string key ++ spacing.colon ++ printed

def array (spacing : Spacing) (items : List (List Char)) : List Char :=
  '[' :: (separated spacing items ++ [']'])

def object (spacing : Spacing) (members : List (List Char)) : List Char :=
  '\x7b' :: (separated spacing members ++ ['\x7d'])

end Print

mutual

/-- The text of a value. -/
def Value.print (spacing : Spacing) : Value → List Char
  | .null => ['n', 'u', 'l', 'l']
  | .bool true => ['t', 'r', 'u', 'e']
  | .bool false => ['f', 'a', 'l', 's', 'e']
  | .number value => Print.number value
  | .string text => Print.string text
  | .array items => Print.array spacing (printItems spacing items)
  | .object members => Print.object spacing (printMembers spacing members)

def Value.printItems (spacing : Spacing) : List Value → List (List Char)
  | [] => []
  | item :: items => item.print spacing :: printItems spacing items

def Value.printMembers (spacing : Spacing) : List (String × Value) → List (List Char)
  | [] => []
  | (key, value) :: members =>
    Print.member spacing key (value.print spacing) :: printMembers spacing members

end

end SpanScore.Json
