import SpanScore.Decimal.Fixed
import SpanScore.Decimal.Numeral
import SpanScore.Shell.Pattern
import SpanScore.Text.Utf8

/-!
# Tools

The programs that shell scripts call: each takes arguments and an input, and leaves an output, a
status and what it has not read of the input.
-/

namespace SpanScore.Shell

/-- What a tool leaves behind. -/
structure Result where
  output : List UInt8
  errors : List UInt8
  status : Nat
  /-- What has not been read. -/
  input : List UInt8
  milliseconds : Nat

def Result.silent (status : Nat) (input : List UInt8) : Result :=
  ⟨[], [], status, input, 0⟩

def Result.printed (output input : List UInt8) : Result :=
  ⟨output, [], 0, input, 0⟩

def bytes (text : String) : List UInt8 :=
  Utf8.encode text

def text (bytes : List UInt8) : String :=
  Utf8.decodeLossy bytes

def number? (spelled : List UInt8) : Option Int :=
  (text spelled).toInt?

/-! ## Escapes and formats -/

def isOctal (byte : UInt8) : Bool :=
  48 ≤ byte && byte ≤ 55

def ofOctal (digits : List UInt8) : UInt8 :=
  digits.foldl (fun number digit ↦ number * 8 + (digit - 48)) 0

/-- The byte of an escape, and what follows it; the text starts behind the backslash. -/
def escaped (text : List UInt8) : List UInt8 × List UInt8 :=
  match text with
  | [] => ([92], [])
  | byte :: rest =>
    if isOctal byte then
      let digits := (text.take 3).takeWhile isOctal
      ([ofOctal digits], text.drop digits.length)
    else
      let simple := [(97, 7), (98, 8), (102, 12), (110, 10), (114, 13), (116, 9), (118, 11),
        (92, 92), (34, 34), (39, 39)]
      match simple.lookup byte with
      | some meant => ([meant], rest)
      | none => ([92, byte], rest)

def unescape (text : List UInt8) : Nat → List UInt8
  | 0 => []
  | fuel + 1 =>
    match text with
    | [] => []
    | 92 :: rest =>
      let (meant, after) := escaped rest
      meant ++ unescape after fuel
    | byte :: rest => byte :: unescape rest fuel

/-- A field of a format: its flags, width and precision, and the letter that ends it. -/
structure Field where
  padded : Bool
  leftward : Bool
  width : Nat
  precision : Option Nat
  letter : UInt8

/-- Digits in base ten at the start of a text, and what follows them. -/
def digits (text : List UInt8) : Nat × List UInt8 :=
  let isDigit (byte : UInt8) : Bool := 48 ≤ byte && byte ≤ 57
  ((text.takeWhile isDigit).foldl (fun number digit ↦ number * 10 + (digit - 48).toNat) 0,
    text.dropWhile isDigit)

/-- The field behind a percent sign, and what follows it. -/
def field? (text : List UInt8) : Option (Field × List UInt8) :=
  let isFlag (byte : UInt8) : Bool := byte == 45 || byte == 48
  let flags := text.takeWhile isFlag
  let (width, rest) := digits (text.dropWhile isFlag)
  let (precision, rest) := match rest with
    | 46 :: rest => let (places, rest) := digits rest; (some places, rest)
    | _ => (none, rest)
  match rest with
  | letter :: after =>
    some (⟨flags.contains 48, flags.contains 45, width, precision, letter⟩, after)
  | [] => none

/-- A text brought to the width of a field. -/
def Field.pad (field : Field) (content : List UInt8) : List UInt8 :=
  let missing := field.width - content.length
  if field.leftward then content ++ List.replicate missing 32
  else if field.padded then List.replicate missing 48 ++ content
  else List.replicate missing 32 ++ content

def Field.write (field : Field) (argument : List UInt8) : List UInt8 :=
  let value := (number? argument).getD 0
  let content :=
    if field.letter = 99 then argument.take 1
    else if field.letter = 98 then unescape argument (argument.length + 1)
    else if field.letter = 100 || field.letter = 105 || field.letter = 117 then
      bytes (toString value)
    else if field.letter = 102 then
      let value := (Numeral.read? (text argument)).getD 0
      bytes (String.ofList (Decimal.fixed (field.precision.getD 6) value))
    else if field.letter = 120 then bytes (String.ofList (Nat.toDigits 16 value.natAbs))
    else if field.letter = 111 then bytes (String.ofList (Nat.toDigits 8 value.natAbs))
    else match field.precision with
      | some most => argument.take most
      | none => argument
  field.pad content

/-- Writes arguments in a format once, and returns those that are left. -/
def formatOnce (format : List UInt8) (arguments : List (List UInt8)) :
    Nat → List UInt8 × List (List UInt8)
  | 0 => ([], arguments)
  | fuel + 1 =>
    match format with
    | [] => ([], arguments)
    | 92 :: rest =>
      let (meant, after) := escaped rest
      let (written, left) := formatOnce after arguments fuel
      (meant ++ written, left)
    | 37 :: 37 :: rest =>
      let (written, left) := formatOnce rest arguments fuel
      (37 :: written, left)
    | 37 :: rest =>
      match field? rest with
      | none => ([37], arguments)
      | some (field, after) =>
        let (written, left) := formatOnce after (arguments.drop 1) fuel
        (field.write (arguments.headD []) ++ written, left)
    | byte :: rest =>
      let (written, left) := formatOnce rest arguments fuel
      (byte :: written, left)

/-- Writes arguments in a format, which is used again while arguments are left. -/
def formatAll (format : List UInt8) (arguments : List (List UInt8)) : Nat → List UInt8
  | 0 => []
  | fuel + 1 =>
    let (written, left) := formatOnce format arguments (format.length + 1)
    if left.isEmpty || left.length = arguments.length then written
    else written ++ formatAll format left fuel

/-! ## Lines -/

/-- The lines of a text, the last one perhaps without its end. -/
def lines (input : List UInt8) : List (List UInt8) :=
  let all := (input.splitBy fun before _ ↦ before ≠ 10).map fun line ↦ line.filter (· ≠ 10)
  all

/-- Lines with an end behind each. -/
def unlines (lines : List (List UInt8)) : List UInt8 :=
  lines.flatMap (· ++ [10])

/-! ## The tools -/

def isWord (words : List String) (argument : List UInt8) : Bool :=
  words.contains (text argument)

/-- The letters of arguments that start with a dash, and the other arguments. -/
def options (arguments : List (List UInt8)) : List Char × List (List UInt8) :=
  let isOption (argument : List UInt8) : Bool := argument.head? = some 45 && argument.length > 1
  (((arguments.takeWhile isOption).map fun option ↦ (text option).toList.drop 1).flatten,
    arguments.dropWhile isOption)

/-- Copies its input, or files of which it knows only the empty one. -/
def cat (arguments : List (List UInt8)) (input : List UInt8) : Result :=
  let files := (options arguments).2
  let unknown := files.filter fun file ↦ !isWord ["-", "/dev/null"] file
  let complaint (file : List UInt8) : List UInt8 :=
    bytes s!"cat: {text file}: No such file or directory\n"
  { output := if files.isEmpty || files.any (isWord ["-"]) then input else []
    errors := unknown.flatMap complaint
    status := if unknown.isEmpty then 0 else 1
    input := if files.isEmpty || files.any (isWord ["-"]) then [] else input
    milliseconds := 0 }

def echo (arguments : List (List UInt8)) (input : List UInt8) : Result :=
  let bare := arguments.head?.any (isWord ["-n"])
  let words := if bare then arguments.drop 1 else arguments
  let line := (words.intersperse [32]).flatten
  .printed (unescape line (line.length + 1) ++ if bare then [] else [10]) input

/-- Prints its arguments in a format. -/
def printf (arguments : List (List UInt8)) (input : List UInt8) : Result :=
  match arguments with
  | [] => ⟨[], bytes "printf: usage: printf format [arg ...]\n", 2, input, 0⟩
  | format :: rest => .printed (formatAll format rest (rest.length + 1)) input

/-- Counts bytes, lines or words. -/
def wc (arguments : List (List UInt8)) (input : List UInt8) : Result :=
  let letters := (options arguments).1
  let words := ((input.splitBy fun left right ↦ (left ≤ 32) == (right ≤ 32)).filter
    fun run ↦ run.any (32 < ·)).length
  let counts := (if letters.contains 'l' then [input.count 10] else []) ++
    (if letters.contains 'w' then [words] else []) ++
    (if letters.contains 'c' then [input.length] else [])
  .printed (bytes (" ".intercalate (counts.map toString)) ++ [10]) []

/-- Searches lines for a pattern. -/
def grep (arguments : List (List UInt8)) (input : List UInt8) : Result :=
  let (letters, operands) := options arguments
  match operands with
  | [] => .silent 2 input
  | spelled :: _ =>
    let pattern := if letters.contains 'F' then some (Pattern.literal spelled)
      else Pattern.ofBytes? spelled
    match pattern with
    | none => .silent 2 []
    | some pattern =>
      let found := (lines input).filter fun line ↦
        pattern.isIn line != letters.contains 'v'
      let output := if letters.contains 'q' then []
        else if letters.contains 'c' then bytes s!"{found.length}\n"
        else unlines found
      ⟨output, [], if found.isEmpty then 1 else 0, [], 0⟩

/-- The start of the input: a number of bytes or of lines. -/
def head (arguments : List (List UInt8)) (input : List UInt8) : Result :=
  let count (spelled : List UInt8) : Nat := ((number? spelled).getD 10).toNat
  match arguments with
  | option :: spelled :: rest =>
    if isWord ["-c"] option then
      if rest.any (isWord ["/dev/zero"]) then .printed (List.replicate (count spelled) 0) input
      else .printed (input.take (count spelled)) []
    else .printed (unlines ((lines input).take (count spelled))) []
  | [option] =>
    if (options [option]).1.head? = some 'c' then .printed (input.take (count (option.drop 2))) []
    else .printed (unlines ((lines input).take (count (option.drop 1)))) []
  | [] => .printed (unlines ((lines input).take 10)) []

/-- The bytes of a set, ranges being written out. -/
def byteSet (spelled : List UInt8) : Nat → List UInt8
  | 0 => []
  | fuel + 1 =>
    match spelled with
    | low :: 45 :: high :: rest =>
      ((List.range (high.toNat + 1)).drop low.toNat).map Nat.toUInt8 ++ byteSet rest fuel
    | byte :: rest => byte :: byteSet rest fuel
    | [] => []

/-- Replaces or deletes bytes. -/
def tr (arguments : List (List UInt8)) (input : List UInt8) : Result :=
  let set (spelled : List UInt8) : List UInt8 :=
    let meant := unescape spelled (spelled.length + 1)
    byteSet meant (meant.length + 1)
  match options arguments with
  | (['d'], spelled :: _) => .printed (input.filter fun byte ↦ !(set spelled).contains byte) []
  | (_, before :: after :: _) =>
    let replacements := set after
    let last := replacements.getLast?.getD 0
    let table := (set before).zipIdx.map fun (byte, index) ↦ (byte, replacements.getD index last)
    .printed (input.map fun byte ↦ (table.lookup byte).getD byte) []
  | _ => .silent 1 input

def sleep (arguments : List (List UInt8)) (input : List UInt8) : Result :=
  let spelled := (text (arguments.headD [])).toList
  let whole := (String.ofList (spelled.takeWhile Char.isDigit)).toNat?.getD 0
  let places := ((spelled.dropWhile Char.isDigit).drop 1).takeWhile Char.isDigit
  let thousandths := (String.ofList ((places ++ ['0', '0', '0']).take 3)).toNat?.getD 0
  ⟨[], [], 0, input, whole * 1000 + thousandths⟩

def test (arguments : List (List UInt8)) : Bool :=
  let numbers (left right : List UInt8) (compare : Int → Int → Bool) : Bool :=
    match number? left, number? right with
    | some left, some right => compare left right
    | _, _ => false
  match arguments with
  | [] => false
  | [operand] => !operand.isEmpty
  | [operator, operand] =>
    if isWord ["-n"] operator then !operand.isEmpty
    else if isWord ["-z", "!"] operator then operand.isEmpty
    else false
  | [left, operator, right] =>
    match text operator with
    | "=" => left == right
    | "==" => left == right
    | "!=" => left != right
    | "-eq" => numbers left right (· == ·)
    | "-ne" => numbers left right (· != ·)
    | "-lt" => numbers left right (· < ·)
    | "-le" => numbers left right (· ≤ ·)
    | "-gt" => numbers left right (· > ·)
    | "-ge" => numbers left right (· ≥ ·)
    | _ => false
  | _ => false

/-- Runs a tool by its name, if there is one. -/
def tool? (name : String) (arguments : List (List UInt8)) (input : List UInt8) :
    Option Result :=
  match name with
  | "cat" => some (cat arguments input)
  | "echo" => some (echo arguments input)
  | "printf" => some (printf arguments input)
  | "wc" => some (wc arguments input)
  | "grep" => some (grep arguments input)
  | "head" => some (head arguments input)
  | "tr" => some (tr arguments input)
  | "sleep" => some (sleep arguments input)
  | "true" => some (.silent 0 input)
  | ":" => some (.silent 0 input)
  | "false" => some (.silent 1 input)
  | "test" => some (.silent (if test arguments then 0 else 1) input)
  | "[" => some (.silent (if test arguments.dropLast then 0 else 1) input)
  | _ => none

end SpanScore.Shell
