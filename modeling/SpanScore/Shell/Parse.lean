import SpanScore.Shell.Command

/-!
# Reading shell scripts

A script is a list of commands; lists also stand within conditions, braces and parentheses.
-/

namespace SpanScore.Shell

/-- The characters of a part that is not expanded. -/
def Part.text? : Part → Option (List Char)
  | text chars => some chars
  | _ => none

/-- The text of a word, if no part of it is quoted or expanded. -/
def Word.plain? (word : Word) : Option String :=
  if word.quoted then none
  else (word.parts.mapM Part.text?).map fun chars ↦ String.ofList chars.flatten

def Token.isOneOf (words : List String) : Token → Bool
  | .word found => found.plain?.any words.contains
  | _ => false

/-- The assignment that a word is, its name standing in front of the first `=`. -/
def Word.assignment? (word : Word) : Option (String × Word) :=
  let isName (part : Part) : Bool := part.text?.any (·.all isNameChar)
  let name := word.parts.takeWhile isName
  match word.parts.dropWhile isName with
  | .text ['='] :: value =>
    let chars := (name.filterMap Part.text?).flatten
    if chars.isEmpty || (chars.take 1).all Char.isDigit then none
    else some (String.ofList chars, ⟨value, word.quoted⟩)
  | _ => none

/-- The number that a plain word spells. -/
def Word.number? (word : Word) : Option Nat :=
  word.plain?.bind String.toNat?

/-- Reads redirections, and returns them with the tokens behind them. -/
def readRedirections (before : List Redirection) : List Token → List Redirection × List Token
  | .redirect descriptor toDescriptor :: .word target :: rest =>
    let target : Target := match toDescriptor, target.number? with
      | true, some number => .descriptor number
      | _, _ => .file target
    readRedirections (before ++ [⟨descriptor, target⟩]) rest
  | rest => (before, rest)

/-- Reads a simple command, and returns it with the tokens behind it. -/
def readSimple (assignments : List (String × Word)) (words : List Word)
    (before : List Redirection) (tokens : List Token) : Nat → Option (Command × List Token)
  | 0 => none
  | fuel + 1 =>
    match tokens with
    | .word word :: rest =>
      match (if words.isEmpty then word.assignment? else none) with
      | some assignment => readSimple (assignments ++ [assignment]) words before rest fuel
      | none => readSimple assignments (words ++ [word]) before rest fuel
    | .redirect descriptor toDescriptor :: .word target :: rest =>
      let found := readRedirections [] (.redirect descriptor toDescriptor :: .word target :: rest)
      readSimple assignments words (before ++ found.1) found.2 fuel
    | rest =>
      if assignments.isEmpty && words.isEmpty && before.isEmpty then none
      else some (.simple assignments words before, rest)

def expect (name : String) : List Token → Option (List Token)
  | token :: rest => if token.isOneOf [name] then some rest else none
  | [] => none

/-- The tokens behind the separators at their start. -/
def skipSeparators (tokens : List Token) : List Token :=
  tokens.dropWhile (· = .separator)

/-- The words at which a list of commands ends. -/
def listEnds : List String := ["then", "else", "elif", "fi", "\x7d"]

mutual

/-- Reads commands up to the end of a list. -/
def readList (before : Command) (tokens : List Token) : Nat → Option (Command × List Token)
  | 0 => none
  | fuel + 1 =>
    match skipSeparators tokens with
    | [] => some (before, [])
    | .closing :: rest => some (before, .closing :: rest)
    | token :: rest =>
      if token.isOneOf listEnds then some (before, token :: rest)
      else do
        let (command, after) ← readPipeline (token :: rest) fuel
        let (command, after) ← readChain command after fuel
        match after with
        | .separator :: _ => readList (.sequence before command) after fuel
        | _ => some (.sequence before command, after)

/-- Reads what `&&` and `||` join to a command. -/
def readChain (before : Command) (tokens : List Token) : Nat → Option (Command × List Token)
  | 0 => none
  | fuel + 1 =>
    match tokens with
    | .and :: rest => do
      let (command, after) ← readPipeline (skipSeparators rest) fuel
      readChain (.both before command) after fuel
    | .or :: rest => do
      let (command, after) ← readPipeline (skipSeparators rest) fuel
      readChain (.either before command) after fuel
    | rest => some (before, rest)

def readPipeline (tokens : List Token) : Nat → Option (Command × List Token)
  | 0 => none
  | fuel + 1 => do
    match tokens with
    | .bang :: rest => do
      let (command, after) ← readPipeline rest fuel
      return (.negate command, after)
    | _ => do
      let (command, after) ← readCommand tokens fuel
      match after with
      | .pipe :: rest => do
        let (right, after) ← readPipeline (skipSeparators rest) fuel
        return (.pipe command right, after)
      | _ => return (command, after)

def readCommand (tokens : List Token) : Nat → Option (Command × List Token)
  | 0 => none
  | fuel + 1 =>
    match tokens with
    | .opening :: rest => do
      let (inner, after) ← readList .nothing rest fuel
      match after with
      | .closing :: after =>
        let (found, after) := readRedirections [] after
        return (.subshell inner found, after)
      | _ => none
    | token :: rest =>
      if token.isOneOf ["if"] then do
        let (test, after) ← readCondition rest fuel
        let (found, after) := readRedirections [] after
        return (.group test found, after)
      else if token.isOneOf ["\x7b"] then do
        let (inner, after) ← readList .nothing rest fuel
        let (found, after) := readRedirections [] (← expect "\x7d" after)
        return (.group inner found, after)
      else readSimple [] [] [] tokens (tokens.length + 1)
    | [] => none

/-- Reads a condition from behind its first word on. -/
def readCondition (tokens : List Token) : Nat → Option (Command × List Token)
  | 0 => none
  | fuel + 1 => do
    let (test, after) ← readList .nothing tokens fuel
    let (yes, after) ← readList .nothing (← expect "then" after) fuel
    match after with
    | token :: rest =>
      if token.isOneOf ["elif"] then do
        let (no, after) ← readCondition rest fuel
        return (.branch test yes no, after)
      else if token.isOneOf ["else"] then do
        let (no, after) ← readList .nothing rest fuel
        return (.branch test yes no, ← expect "fi" after)
      else return (.branch test yes .nothing, ← expect "fi" after)
    | [] => none

end

def parse? (script : List Char) : Option Command := do
  let tokens ← readTokens script (script.length + 1)
  match ← readList .nothing tokens (4 * tokens.length + 4) with
  | (command, []) => return command
  | _ => none

end SpanScore.Shell
