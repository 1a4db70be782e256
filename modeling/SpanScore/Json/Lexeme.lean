import SpanScore.Json.Fault

/-!
# White space, words and hexadecimal digits

The parts of a JSON text that every reader takes in the same way, and the reading of a whole text:
one value with white space around it.
-/

namespace SpanScore.Json

/-- The white space of JSON. -/
def isSpace (char : Char) : Bool :=
  char == ' ' || char == '\n' || char == '\t' || char == '\r'

def skipSpace (text : List Char) : List Char :=
  text.dropWhile isSpace

theorem length_skipSpace_le (text : List Char) : (skipSpace text).length ≤ text.length :=
  (List.dropWhile_suffix isSpace).length_le

def skipWord : List Char → List Char → Except Fault (List Char)
  | [], text => .ok text
  | _ :: _, [] => stop .wordExpected 1 []
  | letter :: letters, char :: text =>
    if char = letter then skipWord letters text else stop .wordExpected 1 (char :: text)

theorem length_le_of_skipWord {word text rest : List Char} (h : skipWord word text = .ok rest) :
    rest.length ≤ text.length := by
  induction word generalizing text with
  | nil =>
    simp only [skipWord, Except.ok.injEq] at h
    simp [h]
  | cons letter letters ih =>
    cases text with
    | nil => simp [skipWord, stop] at h
    | cons char text =>
      simp only [skipWord] at h
      split at h
      · exact Nat.le_trans (ih h) (by simp)
      · simp [stop] at h

def hexValue? (char : Char) : Option Nat :=
  if '0' ≤ char ∧ char ≤ '9' then some (char.toNat - 48)
  else if 'a' ≤ char ∧ char ≤ 'f' then some (char.toNat - 87)
  else if 'A' ≤ char ∧ char ≤ 'F' then some (char.toNat - 55)
  else none

/-- The number that four digits in base sixteen spell at the start of a text. -/
def hex4? : List Char → Option (Nat × List Char)
  | a :: b :: c :: d :: rest => do
    let a ← hexValue? a
    let b ← hexValue? b
    let c ← hexValue? c
    let d ← hexValue? d
    return (((a * 16 + b) * 16 + c) * 16 + d, rest)
  | _ => none

theorem length_of_hex4? {text rest : List Char} {number : Nat}
    (h : hex4? text = some (number, rest)) : text.length = rest.length + 4 := by
  unfold hex4? at h
  split at h
  · simp only [bind, Option.bind_eq_some_iff, pure, Option.some.injEq, Prod.mk.injEq] at h
    obtain ⟨_, _, _, _, _, _, _, _, _, rfl⟩ := h
    rfl
  · simp at h

/-- What a reading of some bytes comes to when they hold one thing and white space around it. -/
def conclude {α : Type} (bytes : List UInt8) (decoded : Utf8.Decoded)
    (result : Except Fault (α × List Char)) : Except SyntaxError α :=
  match result with
  | .error fault => .error (fault.locate bytes decoded.chars)
  | .ok (value, rest) =>
    let after := skipSpace rest
    if after.isEmpty && decoded.stop == bytes.length then .ok value
    else .error (Fault.locate bytes decoded.chars (.here .trailingCharacters after.length 1))

/-- Reads bytes that hold one thing and white space around it. -/
def readWhole {α : Type} (read : Reader α) (bytes : List UInt8) : Except SyntaxError α :=
  let decoded := Utf8.decodeStart bytes
  conclude bytes decoded (read decoded.chars)

end SpanScore.Json
