/-!
# Cursors

A cursor is a place in a configuration text.  A reader moves it on over what it takes and says
nothing about why it does not take a text; white space, line ends and comments are taken here.
-/

namespace SpanScore.Toml

/-- A part of a text, by the offsets of its first byte and of the first byte behind it. -/
structure Region where
  start : Nat
  stop : Nat
deriving DecidableEq

/-- Something with the part of the text it comes from. -/
structure Located (α : Type) where
  region : Region
  value : α

/-- A place in a text. -/
structure Cursor where
  /-- What has not been read. -/
  rest : List Char
  /-- How many bytes have been read. -/
  offset : Nat

def byteLength (chars : List Char) : Nat :=
  chars.foldr (fun char length ↦ char.utf8Size + length) 0

/-- The cursor behind `chars`, `rest` being what follows them. -/
def Cursor.past (cursor : Cursor) (chars rest : List Char) : Cursor :=
  ⟨rest, cursor.offset + byteLength chars⟩

/-- A reader takes something and moves the cursor behind it. -/
abbrev Reader (α : Type) := StateT Cursor Option α

namespace Reader

def fail {α : Type} : Reader α := fun _ ↦ none

def rest : Reader (List Char) := fun cursor ↦ some (cursor.rest, cursor)

/-- The next character, if there is one; nothing is taken. -/
def peek : Reader (Option Char) := fun cursor ↦ some (cursor.rest.head?, cursor)

def next : Reader Char := fun cursor ↦
  match cursor.rest with
  | [] => none
  | char :: rest => some (char, cursor.past [char] rest)

def exactly (char : Char) : Reader Unit := do
  if (← next) ≠ char then fail

/-- Takes characters as long as they are of some kind. -/
def takeWhile (kind : Char → Bool) : Reader (List Char) := fun cursor ↦
  let taken := cursor.rest.takeWhile kind
  some (taken, cursor.past taken (cursor.rest.dropWhile kind))

/-- Takes a given text if it stands next, and says whether it did. -/
def takeIf (text : List Char) : Reader Bool := fun cursor ↦
  if text.isPrefixOf cursor.rest then some (true, cursor.past text (cursor.rest.drop text.length))
  else some (false, cursor)

def located {α : Type} (read : Reader α) : Reader (Located α) := fun cursor ↦
  match read cursor with
  | none => none
  | some (value, after) => some (⟨⟨cursor.offset, after.offset⟩, value⟩, after)

/-- Whether a character is white space within a line. -/
def isBlank (char : Char) : Bool :=
  char == ' ' || char == '\t'

def blanks : Reader Unit := do
  discard (takeWhile isBlank)

/-- Whether a character may stand in comments and in strings. -/
def isPlain (char : Char) : Bool :=
  char == '\t' || (' ' ≤ char && char ≠ '\x7f')

/-- Takes the end of a line, if it stands next, and says whether it did. -/
def takeNewline : Reader Bool := do
  if ← takeIf ['\n'] then return true
  else takeIf ['\r', '\n']

/-- Takes white space within a line and a comment behind it. -/
def blanksAndComment : Reader Unit := do
  blanks
  if ← takeIf ['#'] then discard (takeWhile isPlain)

/-- Takes white space and a comment up to the end of the line or of the text. -/
def lineEnd : Reader Unit := do
  blanksAndComment
  if !(← takeNewline) then
    if (← peek).isSome then fail

/-- Takes white space, comments and line ends, at most `fuel` lines of them. -/
def linesWith : Nat → Reader Unit
  | 0 => blanksAndComment
  | fuel + 1 => do
    blanksAndComment
    if ← takeNewline then linesWith fuel

def lines : Reader Unit := do
  linesWith (← rest).length

end Reader

end SpanScore.Toml
