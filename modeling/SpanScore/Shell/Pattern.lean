/-!
# Basic patterns

Patterns that a line is searched for: characters, any character, sets in brackets, repetition by a
star, and anchors at the two ends.
-/

namespace SpanScore.Shell

/-- What one character of a line is matched with. -/
inductive Matcher where
  | char (byte : UInt8)
  | any
  | set (negated : Bool) (ranges : List (UInt8 × UInt8))
deriving DecidableEq

def Matcher.admits (byte : UInt8) : Matcher → Bool
  | char expected => byte == expected
  | any => true
  | set negated ranges =>
    negated != ranges.any fun range ↦ range.1 ≤ byte && byte ≤ range.2

/-- A matcher, which may be repeated. -/
structure Piece where
  matcher : Matcher
  starred : Bool
deriving DecidableEq

/-- A pattern. -/
structure Pattern where
  fromStart : Bool
  pieces : List Piece
  toEnd : Bool
deriving DecidableEq

namespace Pattern

/-- The ranges of a set from behind its bracket on, and what follows the set. -/
def readRanges (before : List (UInt8 × UInt8)) (text : List UInt8) :
    Nat → Option (List (UInt8 × UInt8) × List UInt8)
  | 0 => none
  | fuel + 1 =>
    match text with
    | [] => none
    | 93 :: rest =>
      if before.isEmpty then readRanges [(93, 93)] rest fuel else some (before, rest)
    | low :: 45 :: high :: rest =>
      if high = 93 then readRanges (before ++ [(low, low)]) (45 :: high :: rest) fuel
      else readRanges (before ++ [(low, high)]) rest fuel
    | byte :: rest => readRanges (before ++ [(byte, byte)]) rest fuel

/-- Reads pieces, a star behind a piece repeating it. -/
def readPieces (text : List UInt8) : Nat → Option (List Piece)
  | 0 => none
  | fuel + 1 => do
    let starred (matcher : Matcher) (rest : List UInt8) : Option (List Piece) :=
      match rest with
      | 42 :: after => (readPieces after fuel).map (⟨matcher, true⟩ :: ·)
      | _ => (readPieces rest fuel).map (⟨matcher, false⟩ :: ·)
    match text with
    | [] => return []
    | 92 :: byte :: rest => starred (.char byte) rest
    | 46 :: rest => starred .any rest
    | 91 :: 94 :: rest =>
      let (found, after) ← readRanges [] rest (rest.length + 1)
      starred (.set true found) after
    | 91 :: rest =>
      let (found, after) ← readRanges [] rest (rest.length + 1)
      starred (.set false found) after
    | byte :: rest => starred (.char byte) rest

/-- The pattern that a text spells. -/
def ofBytes? (text : List UInt8) : Option Pattern := do
  let fromStart := text.head? = some 94
  let unanchored := if fromStart then text.drop 1 else text
  let toEnd := unanchored.getLast? = some 36 && unanchored.dropLast.getLast? ≠ some 92
  let inner := if toEnd then unanchored.dropLast else unanchored
  return ⟨fromStart, ← readPieces inner (inner.length + 1), toEnd⟩

/-- The pattern of a text that stands for itself. -/
def literal (text : List UInt8) : Pattern :=
  ⟨false, text.map fun byte ↦ ⟨.char byte, false⟩, false⟩

/-- What may be left of a line behind pieces at its start. -/
def rests : List Piece → List UInt8 → List (List UInt8)
  | [], line => [line]
  | piece :: pieces, line =>
    if piece.starred then
      let run := (line.takeWhile fun byte ↦ piece.matcher.admits byte).length
      (List.range (run + 1)).flatMap fun count ↦ rests pieces (line.drop count)
    else match line with
      | [] => []
      | byte :: rest => if piece.matcher.admits byte then rests pieces rest else []

/-- Whether a line has a part that a pattern matches. -/
def isIn (pattern : Pattern) (line : List UInt8) : Bool :=
  let matchesAt (start : List UInt8) : Bool :=
    (rests pattern.pieces start).any fun rest ↦ !pattern.toEnd || rest.isEmpty
  if pattern.fromStart then matchesAt line
  else (List.range (line.length + 1)).any fun count ↦ matchesAt (line.drop count)

end Pattern

end SpanScore.Shell
