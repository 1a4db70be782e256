import SpanScore.Text.Utf8

/-!
# The grammar of JSON texts

A syntax tree keeps every token of a JSON text together with the white space between the tokens, so
a tree has exactly one text, and the texts of trees are the texts that the grammar derives.  The
side conditions of the grammar are part of the trees: digits are digits, an integer part has no
zero in front that could be left out, and a plain character of a string is one that may stand there
unescaped.  What a token means is not a matter of the grammar, except that `Literal.decode?` says
which string a literal spells.
-/

namespace SpanScore.Json.Grammar

/-! ## White space and numbers -/

/-- White space between two tokens. -/
structure Gap where
  text : List Char
  blank : ∀ char ∈ text, char = ' ' ∨ char = '\t' ∨ char = '\n' ∨ char = '\r'

theorem Gap.blank_nil : ∀ char ∈ ([] : List Char),
    char = ' ' ∨ char = '\t' ∨ char = '\n' ∨ char = '\r' := by
  simp

def Gap.none : Gap := ⟨[], blank_nil⟩

@[simp] theorem Gap.text_none : none.text = [] := rfl

theorem Gap.blank_space : ∀ char ∈ [' '],
    char = ' ' ∨ char = '\t' ∨ char = '\n' ∨ char = '\r' := by
  simp

def Gap.space : Gap := ⟨[' '], blank_space⟩

@[simp] theorem Gap.text_space : space.text = [' '] := rfl

def Gap.append (left right : Gap) : Gap :=
  ⟨left.text ++ right.text, fun char mem ↦
    (List.mem_append.1 mem).elim (left.blank char) (right.blank char)⟩

@[simp] theorem Gap.text_append (left right : Gap) :
    (left.append right).text = left.text ++ right.text := rfl

/-- Decimal digits, at least one. -/
structure DigitRun where
  text : List Char
  nonempty : text ≠ []
  decimal : ∀ char ∈ text, char.isDigit

def DigitRun.single (digit : Char) (decimal : digit.isDigit) : DigitRun :=
  ⟨[digit], by simp, List.forall_mem_singleton.2 decimal⟩

/-- Whether digits have no zero in front that could be left out. -/
def DigitRun.IsCanonical (digits : DigitRun) : Prop :=
  digits.text.head? = some '0' → digits.text = ['0']

theorem DigitRun.isCanonical_single (digit : Char) (decimal : digit.isDigit) :
    (single digit decimal).IsCanonical := by
  simp [IsCanonical, single]

theorem DigitRun.isCanonical_of_ne {digits : DigitRun} {digit : Char}
    (head : digits.text.head? = some digit) (nonzero : digit ≠ '0') : digits.IsCanonical := by
  intro zero
  rw [head, Option.some.injEq] at zero
  exact absurd zero nonzero

/-- The sign of an exponent. -/
inductive Sign where
  | plus
  | minus

def Sign.text : Option Sign → List Char
  | none => []
  | some plus => ['+']
  | some minus => ['-']

/-- The power of ten behind a number. -/
structure Exponent where
  capital : Bool
  sign : Option Sign
  digits : DigitRun

def Exponent.text : Option Exponent → List Char
  | none => []
  | some exponent =>
    (if exponent.capital then 'E' else 'e') :: (Sign.text exponent.sign ++ exponent.digits.text)

/-- How the digits behind the point are written. -/
def DigitRun.fractionText : Option DigitRun → List Char
  | none => []
  | some digits => '.' :: digits.text

/-- A number token. -/
structure NumberToken where
  negative : Bool
  whole : DigitRun
  canonical : whole.IsCanonical
  fraction : Option DigitRun
  exponent : Option Exponent

def NumberToken.unsigned (number : NumberToken) : List Char :=
  number.whole.text ++ (DigitRun.fractionText number.fraction ++ Exponent.text number.exponent)

def NumberToken.text (number : NumberToken) : List Char :=
  if number.negative then '-' :: number.unsigned else number.unsigned

/-! ## Strings -/

/-- A digit in base sixteen. -/
structure HexDigit where
  value : Fin 16
  capital : Bool
deriving DecidableEq

def HexDigit.char (digit : HexDigit) : Char :=
  if digit.capital then (Nat.digitChar digit.value).toUpper else Nat.digitChar digit.value

/-- A code unit of sixteen bits. -/
structure CodeUnit where
  a : HexDigit
  b : HexDigit
  c : HexDigit
  d : HexDigit
deriving DecidableEq

namespace CodeUnit

def text (unit : CodeUnit) : List Char :=
  [unit.a.char, unit.b.char, unit.c.char, unit.d.char]

def value (unit : CodeUnit) : Nat :=
  ((unit.a.value * 16 + unit.b.value) * 16 + unit.c.value) * 16 + unit.d.value

/-- Whether a code unit is the first half of a surrogate pair. -/
def IsLeading (unit : CodeUnit) : Prop :=
  0xD800 ≤ unit.value ∧ unit.value < 0xDC00

/-- Whether a code unit is the second half of a surrogate pair. -/
def IsTrailing (unit : CodeUnit) : Prop :=
  0xDC00 ≤ unit.value ∧ unit.value < 0xE000

instance (unit : CodeUnit) : Decidable unit.IsLeading :=
  inferInstanceAs (Decidable (_ ∧ _))

instance (unit : CodeUnit) : Decidable unit.IsTrailing :=
  inferInstanceAs (Decidable (_ ∧ _))

/-- The character that a surrogate pair stands for. -/
def pair (leading trailing : CodeUnit) : Char :=
  Char.ofNat (0x10000 + (leading.value - 0xD800) * 0x400 + (trailing.value - 0xDC00))

end CodeUnit

/-- An escape with a letter of its own. -/
inductive Escape where
  | quote
  | backslash
  | slash
  | backspace
  | formFeed
  | newline
  | carriageReturn
  | tab

namespace Escape

def letter : Escape → Char
  | quote => '"'
  | backslash => '\\'
  | slash => '/'
  | backspace => 'b'
  | formFeed => 'f'
  | newline => 'n'
  | carriageReturn => 'r'
  | tab => 't'

/-- The character that an escape stands for. -/
def char : Escape → Char
  | quote => '"'
  | backslash => '\\'
  | slash => '/'
  | backspace => '\x08'
  | formFeed => '\x0c'
  | newline => '\n'
  | carriageReturn => '\r'
  | tab => '\t'

end Escape

/-- A part of a string token. -/
inductive Piece where
  | plain (char : Char) (allowed : ' ' ≤ char ∧ char ≠ '"' ∧ char ≠ '\\')
  | short (escape : Escape)
  | unicode (unit : CodeUnit)

namespace Piece

def text : Piece → List Char
  | plain char _ => [char]
  | short escape => ['\\', escape.letter]
  | unicode unit => '\\' :: 'u' :: unit.text

def texts (pieces : List Piece) : List Char :=
  pieces.flatMap text

/-- The characters that parts of a string spell, unless a half of a surrogate pair stands alone. -/
def decode? : List Piece → Option (List Char)
  | [] => some []
  | plain char _ :: rest => (decode? rest).map (char :: ·)
  | short escape :: rest => (decode? rest).map (escape.char :: ·)
  | unicode unit :: rest =>
    if unit.IsLeading then
      match rest with
      | unicode next :: rest =>
        if next.IsTrailing then (decode? rest).map (unit.pair next :: ·) else none
      | _ => none
    else if unit.IsTrailing then none
    else (decode? rest).map (Char.ofNat unit.value :: ·)

end Piece

/-- A string token. -/
structure Literal where
  pieces : List Piece

namespace Literal

/-- How a string token is written behind its opening quote. -/
def body (literal : Literal) : List Char :=
  Piece.texts literal.pieces ++ ['"']

/-- The string that a token spells, unless a half of a surrogate pair stands alone. -/
def decode? (literal : Literal) : Option String :=
  (Piece.decode? literal.pieces).map String.ofList

end Literal

/-! ## Values -/

/-- A key with its colon, and the white space before each of them. -/
structure Key where
  before : Gap
  literal : Literal
  after : Gap

def Key.text (key : Key) : List Char :=
  key.before.text ++ '"' :: (key.literal.body ++ (key.after.text ++ [':']))

mutual

/-- A value, token by token. -/
inductive Tree where
  | null
  | bool (value : Bool)
  | number (number : NumberToken)
  | string (literal : Literal)
  | emptyArray (gap : Gap)
  | array (items : Items)
  | emptyObject (gap : Gap)
  | object (members : Members)

/-- The items of an array, at least one. -/
inductive Items where
  | one (before : Gap) (item : Tree) (after : Gap)
  | more (before : Gap) (item : Tree) (after : Gap) (rest : Items)

/-- The members of an object, at least one. -/
inductive Members where
  | one (key : Key) (before : Gap) (value : Tree) (after : Gap)
  | more (key : Key) (before : Gap) (value : Tree) (after : Gap) (rest : Members)

end

mutual

def Tree.text : Tree → List Char
  | .null => ['n', 'u', 'l', 'l']
  | .bool true => ['t', 'r', 'u', 'e']
  | .bool false => ['f', 'a', 'l', 's', 'e']
  | .number number => number.text
  | .string literal => '"' :: literal.body
  | .emptyArray gap => '[' :: (gap.text ++ [']'])
  | .array items => '[' :: (items.text ++ [']'])
  | .emptyObject gap => '\x7b' :: (gap.text ++ ['\x7d'])
  | .object members => '\x7b' :: (members.text ++ ['\x7d'])

def Items.text : Items → List Char
  | .one before item after => before.text ++ (item.text ++ after.text)
  | .more before item after rest =>
    before.text ++ (item.text ++ (after.text ++ ',' :: rest.text))

def Members.text : Members → List Char
  | .one key before value after => key.text ++ (before.text ++ (value.text ++ after.text))
  | .more key before value after rest =>
    key.text ++ (before.text ++ (value.text ++ (after.text ++ ',' :: rest.text)))

end

/-- The keys and values of the members, in their order. -/
def Members.entries : Members → List (Literal × Tree)
  | .one key _ value _ => [(key.literal, value)]
  | .more key _ value _ rest => (key.literal, value) :: rest.entries

/-- The keys and values of an object, in their order. -/
def Tree.entries? : Tree → Option (List (Literal × Tree))
  | .emptyObject _ => some []
  | .object members => some members.entries
  | _ => none

/-- A JSON text: one value with white space around it. -/
structure Document where
  before : Gap
  tree : Tree
  after : Gap

namespace Document

def text (document : Document) : List Char :=
  document.before.text ++ (document.tree.text ++ document.after.text)

def bytes (document : Document) : List UInt8 :=
  Utf8.encode (String.ofList document.text)

/-- The document that is a value without white space around it. -/
def bare (tree : Tree) : Document :=
  ⟨Gap.none, tree, Gap.none⟩

@[simp] theorem text_bare (tree : Tree) : (bare tree).text = tree.text := by
  simp [bare, text]

@[simp] theorem bytes_bare (tree : Tree) :
    (bare tree).bytes = Utf8.encode (String.ofList tree.text) := by
  rw [bytes, text_bare]

end Document

end SpanScore.Json.Grammar
