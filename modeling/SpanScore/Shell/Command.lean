/-!
# Shell commands

The commands of a small shell: words with quotes and expansions, redirections, lists, pipes and
conditions.
-/

namespace SpanScore.Shell

/-- A part of a word; what is quoted is never split. -/
inductive Part where
  | text (chars : List Char)
  | variable (name : String) (quoted : Bool)
  /-- The output of a script. -/
  | output (script : List Char) (quoted : Bool)
deriving DecidableEq

/-- A word, which may hold quoted parts. -/
structure Word where
  parts : List Part
  /-- Whether a part of the word stands in quotes. -/
  quoted : Bool
deriving DecidableEq

/-- Where a descriptor leads to. -/
inductive Target where
  | file (name : Word)
  | descriptor (number : Nat)
deriving DecidableEq

/-- A redirection of a descriptor. -/
structure Redirection where
  descriptor : Nat
  target : Target
deriving DecidableEq

/-- A command. -/
inductive Command where
  | nothing
  | simple (assignments : List (String × Word)) (words : List Word)
      (redirections : List Redirection)
  | sequence (first second : Command)
  /-- The second command runs if the first one succeeds. -/
  | both (first second : Command)
  /-- The second command runs if the first one fails. -/
  | either (first second : Command)
  | pipe (left right : Command)
  | negate (command : Command)
  | branch (test yes no : Command)
  | group (command : Command) (redirections : List Redirection)
  /-- A command that leaves the variables as they are and cannot end the script. -/
  | subshell (command : Command) (redirections : List Redirection)

/-- The smallest parts of a script. -/
inductive Token where
  | word (word : Word)
  | separator
  | and
  | or
  | pipe
  | bang
  | opening
  | closing
  /-- A redirection whose target is the next word. -/
  | redirect (descriptor : Nat) (toDescriptor : Bool)
deriving DecidableEq

/-! ## Tokens -/

/-- Whether a character may stand in the name of a variable. -/
def isNameChar (char : Char) : Bool :=
  char.isAlphanum || char == '_'

/-- The text up to the end of a quoted part, and the text behind it. -/
def splitQuoted (quote : Char) : List Char → Option (List Char × List Char)
  | [] => none
  | char :: rest =>
    if char = quote then some ([], rest)
    else (splitQuoted quote rest).map fun (inner, after) ↦ (char :: inner, after)

/-- The script up to the parenthesis that closes it, and the text behind it. -/
def splitScript (depth : Nat) (inSingle inDouble : Bool) :
    List Char → Option (List Char × List Char)
  | [] => none
  | '\\' :: char :: rest =>
    if inSingle then
      (splitScript depth inSingle inDouble (char :: rest)).map fun (inner, after) ↦
        ('\\' :: inner, after)
    else
      (splitScript depth inSingle inDouble rest).map fun (inner, after) ↦
        ('\\' :: char :: inner, after)
  | char :: rest =>
    let single := if char = '\'' && !inDouble then !inSingle else inSingle
    let double := if char = '"' && !inSingle then !inDouble else inDouble
    let plain := !inSingle && !inDouble
    if char = ')' && plain && depth = 0 then some ([], rest)
    else
      let deeper :=
        if char = '(' && plain then depth + 1 else if char = ')' && plain then depth - 1 else depth
      (splitScript deeper single double rest).map fun (inner, after) ↦ (char :: inner, after)

/-- The expansion behind a `$`, and the text behind it. -/
def expansion (quoted : Bool) (text : List Char) : Option (Part × List Char) :=
  match text with
  | '(' :: rest =>
    (splitScript 0 false false rest).map fun (script, after) ↦ (.output script quoted, after)
  | '\x7b' :: rest =>
    (splitQuoted '\x7d' rest).map fun (name, after) ↦
      (.variable (String.ofList name) quoted, after)
  | char :: rest =>
    if ['$', '?', '#', '@', '*', '!'].contains char || char.isDigit then
      some (.variable (String.singleton char) quoted, rest)
    else if isNameChar char then
      some (.variable (String.ofList (text.takeWhile isNameChar)) quoted,
        text.dropWhile isNameChar)
    else some (.text ['$'], text)
  | [] => some (.text ['$'], [])

/-- The parts of a text between double quotes, and the text behind them. -/
def doubleQuoted (parts : List Part) (text : List Char) :
    Nat → Option (List Part × List Char)
  | 0 => none
  | fuel + 1 =>
    match text with
    | [] => none
    | '"' :: rest => some (parts, rest)
    | '\\' :: char :: rest =>
      let escaped := if ['$', '"', '\\', '\x60'].contains char then [char]
        else if char = '\n' then [] else ['\\', char]
      doubleQuoted (parts ++ [.text escaped]) rest fuel
    | '$' :: rest => do
      let (part, after) ← expansion true rest
      doubleQuoted (parts ++ [part]) after fuel
    | char :: rest => doubleQuoted (parts ++ [.text [char]]) rest fuel

def endsWord (char : Char) : Bool :=
  [' ', '\t', '\n', ';', '|', '&', '<', '>', '(', ')'].contains char

/-- Reads a word on, and returns it with the text behind it. -/
def readWord (read : Word) (text : List Char) : Nat → Option (Word × List Char)
  | 0 => none
  | fuel + 1 =>
    match text with
    | [] => some (read, [])
    | '\'' :: rest => do
      let (inner, after) ← splitQuoted '\'' rest
      readWord ⟨read.parts ++ [.text inner], true⟩ after fuel
    | '"' :: rest => do
      let (parts, after) ← doubleQuoted [] rest (rest.length + 1)
      readWord ⟨read.parts ++ parts, true⟩ after fuel
    | '\\' :: '\n' :: rest => readWord read rest fuel
    | '\\' :: char :: rest => readWord ⟨read.parts ++ [.text [char]], true⟩ rest fuel
    | '$' :: rest => do
      let (part, after) ← expansion false rest
      readWord ⟨read.parts ++ [part], read.quoted⟩ after fuel
    | char :: rest =>
      if endsWord char then some (read, text)
      else readWord ⟨read.parts ++ [.text [char]], read.quoted⟩ rest fuel

/-- Reads a redirection of a descriptor from behind its sign on. -/
def readRedirect (descriptor : Nat) : List Char → Token × List Char
  | '&' :: rest => (.redirect descriptor true, rest)
  | '>' :: rest => (.redirect descriptor false, rest)
  | rest => (.redirect descriptor false, rest)

/-- Reads the next token, and returns it with the text behind it. -/
def readToken (text : List Char) : Option (Token × List Char) :=
  match text with
  | '\n' :: rest => some (.separator, rest)
  | ';' :: rest => some (.separator, rest)
  | '&' :: '&' :: rest => some (.and, rest)
  | '|' :: '|' :: rest => some (.or, rest)
  | '|' :: rest => some (.pipe, rest)
  | '(' :: rest => some (.opening, rest)
  | ')' :: rest => some (.closing, rest)
  | '>' :: rest => some (readRedirect 1 rest)
  | '<' :: rest => some (readRedirect 0 rest)
  | '1' :: '>' :: rest => some (readRedirect 1 rest)
  | '2' :: '>' :: rest => some (readRedirect 2 rest)
  | '!' :: ' ' :: rest => some (.bang, rest)
  | _ => (readWord ⟨[], false⟩ text (text.length + 1)).map fun (word, rest) ↦ (.word word, rest)

/-- Whether a character is white space between words. -/
def isGap (char : Char) : Bool :=
  char == ' ' || char == '\t'

def readTokens (text : List Char) : Nat → Option (List Token)
  | 0 => none
  | fuel + 1 =>
    match text.dropWhile isGap with
    | [] => some []
    | '#' :: rest => readTokens (rest.dropWhile (· ≠ '\n')) fuel
    | start => do
      let (token, rest) ← readToken start
      return token :: (← readTokens rest fuel)

end SpanScore.Shell
