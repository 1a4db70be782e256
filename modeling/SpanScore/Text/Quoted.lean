import SpanScore.Text.Unprintable

/-!
# Quoted texts

A text quoted for a reader: between double quotes, with escapes for the quote, the backslash, the
usual controls and every character that has no visible form of its own.
-/

namespace SpanScore.Quoted

/-- The digits of a number in base sixteen, without leading zeros. -/
def hexDigits (number : Nat) : List Char :=
  Nat.toDigits 16 number

/-- How one character of a quoted text is spelled. -/
def spell (char : Char) : List Char :=
  if char = '"' then ['\\', '"']
  else if char = '\\' then ['\\', '\\']
  else if char = '\n' then ['\\', 'n']
  else if char = '\r' then ['\\', 'r']
  else if char = '\t' then ['\\', 't']
  else if char.toNat = 0 then ['\\', '0']
  else if Unprintable.isUnprintable char then
    '\\' :: 'u' :: '\x7b' :: (hexDigits char.toNat ++ ['\x7d'])
  else [char]

/-- The text between double quotes. -/
def quote (text : String) : String :=
  String.ofList ('"' :: (text.toList.flatMap spell ++ ['"']))

end SpanScore.Quoted
