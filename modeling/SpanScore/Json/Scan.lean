import SpanScore.Json.Lexeme

/-!
# Finding the end of a JSON value

The scanner walks over one value and returns the text behind it.  It checks the grammar and
nothing else: it neither decodes strings nor computes numbers, and any depth of nesting is fine,
because the open brackets are a list and not calls within calls.
-/

namespace SpanScore.Json.Scan

/-! ## Numbers -/

/-- The text behind an exponent, from behind its letter on. -/
def skipExponent (text : List Char) : Except Fault (List Char) :=
  let unsigned := match text with
    | '+' :: rest => rest
    | '-' :: rest => rest
    | _ => text
  match unsigned with
  | digit :: rest =>
    if digit.isDigit then .ok (rest.dropWhile Char.isDigit) else stop .invalidNumber 1 unsigned
  | [] => stop .invalidNumber 1 []

/-- The text behind the exponent of a number, if it has one. -/
def skipExponent? : List Char → Except Fault (List Char)
  | 'e' :: rest => skipExponent rest
  | 'E' :: rest => skipExponent rest
  | text => .ok text

/-- The text behind the fraction and the exponent of a number, if it has them. -/
def skipFraction : List Char → Except Fault (List Char)
  | '.' :: digit :: rest =>
    if digit.isDigit then skipExponent? (rest.dropWhile Char.isDigit)
    else stop .invalidNumber 1 (digit :: rest)
  | '.' :: [] => stop .invalidNumber 1 []
  | text => skipExponent? text

/-- The text behind a number without a sign. -/
def skipNumber : List Char → Except Fault (List Char)
  | '0' :: digit :: rest =>
    if digit.isDigit then stop .invalidNumber 1 (digit :: rest) else skipFraction (digit :: rest)
  | digit :: rest =>
    if digit.isDigit then skipFraction (rest.dropWhile Char.isDigit)
    else stop .invalidNumber 1 (digit :: rest)
  | [] => stop .invalidNumber 1 []

/-! ## Strings -/

/-- The letters of escapes other than the hexadecimal one. -/
def isEscapeLetter (char : Char) : Bool :=
  ['"', '\\', '/', 'b', 'f', 'n', 'r', 't'].contains char

/-- The text behind an escape, from behind its backslash on. -/
def skipEscape : List Char → Except Fault (List Char)
  | [] => stop .escapeExpected 1 []
  | 'u' :: rest =>
    match hex4? rest with
    | some (_, after) => .ok after
    | none => stop .hexDigitsExpected 4 rest
  | letter :: rest =>
    if isEscapeLetter letter then .ok rest else stop .escapeExpected 1 (letter :: rest)

theorem length_le_of_skipEscape {text rest : List Char} (h : skipEscape text = .ok rest) :
    rest.length ≤ text.length := by
  unfold skipEscape at h
  split at h
  · simp [stop] at h
  · split at h
    · have length := length_of_hex4? ‹_›
      simp only [Except.ok.injEq] at h
      subst h
      simp only [List.length_cons]
      omega
    · simp [stop] at h
  · split at h
    · simp only [Except.ok.injEq] at h
      simp [h]
    · simp [stop] at h

def skipString (text : List Char) : Except Fault (List Char) :=
  match text with
  | [] => stop .stringUnclosed 1 []
  | '"' :: rest => .ok rest
  | '\\' :: rest =>
    match _ : skipEscape rest with
    | .ok after => skipString after
    | .error fault => .error fault
  | char :: rest =>
    if char < ' ' then stop .controlCharacter 0 (char :: rest) else skipString rest
termination_by text.length
decreasing_by
  · have length := length_le_of_skipEscape ‹_›
    simp only [List.length_cons]
    omega
  · simp

/-! ## Values -/

/-- An open bracket. -/
inductive Bracket where
  | square
  | curly
deriving DecidableEq

/-- What stands at the start of a value. -/
inductive Head where
  /-- A value without items, and the text behind it. -/
  | whole (rest : List Char)
  /-- A bracket, and the text of the value that stands first in it. -/
  | opened (bracket : Bracket) (rest : List Char)

def skipKey (text : List Char) : Except Fault (List Char) :=
  match skipSpace text with
  | '"' :: rest => do
    let after ← skipString rest
    match skipSpace after with
    | ':' :: value => .ok value
    | other => stop .colonExpected 1 other
  | other => stop .keyExpected 1 other

/-- Walks over a value that has no items, or over the bracket that opens it. -/
def head (text : List Char) : Except Fault Head :=
  match skipSpace text with
  | [] => stop .valueExpected 1 []
  | 'n' :: rest => Head.whole <$> skipWord ['u', 'l', 'l'] rest
  | 't' :: rest => Head.whole <$> skipWord ['r', 'u', 'e'] rest
  | 'f' :: rest => Head.whole <$> skipWord ['a', 'l', 's', 'e'] rest
  | '"' :: rest => Head.whole <$> skipString rest
  | '-' :: rest => Head.whole <$> skipNumber rest
  | '[' :: rest =>
    match skipSpace rest with
    | [] => stop .firstItemExpected 1 []
    | ']' :: after => .ok (.whole after)
    | item => .ok (.opened .square item)
  | '\x7b' :: rest =>
    match skipSpace rest with
    | '\x7d' :: after => .ok (.whole after)
    | member => Head.opened .curly <$> skipKey member
  | char :: rest =>
    if char.isDigit then Head.whole <$> skipNumber (char :: rest)
    else stop .valueExpected 1 (char :: rest)

/-- What follows a value. -/
inductive Step where
  /-- Every bracket is closed. -/
  | finished (rest : List Char)
  /-- Another value follows within the brackets. -/
  | next (brackets : List Bracket) (rest : List Char)

/-- Closes brackets behind a value until another value follows. -/
def resume : List Bracket → List Char → Except Fault Step
  | [], text => .ok (.finished text)
  | .square :: outer, text =>
    match skipSpace text with
    | ',' :: rest => .ok (.next (.square :: outer) rest)
    | ']' :: rest => resume outer rest
    | rest => stop .itemEndExpected 1 rest
  | .curly :: outer, text =>
    match skipSpace text with
    | ',' :: rest => Step.next (.curly :: outer) <$> skipKey rest
    | '\x7d' :: rest => resume outer rest
    | rest => stop .memberEndExpected 1 rest

/-! ## Every part moves on -/

theorem length_dropWhile_le (digits : Char → Bool) (text : List Char) :
    (text.dropWhile digits).length ≤ text.length :=
  (List.dropWhile_suffix digits).length_le

theorem length_le_of_skipExponent {text rest : List Char} (h : skipExponent text = .ok rest) :
    rest.length ≤ text.length := by
  unfold skipExponent at h
  dsimp only at h
  split at h
  · next digit digits heq =>
    split at h
    · simp only [Except.ok.injEq] at h
      subst h
      have drop := length_dropWhile_le Char.isDigit digits
      split at heq <;> subst heq <;> simp only [List.length_cons] <;> omega
    · simp [stop] at h
  · simp [stop] at h

theorem length_le_of_skipExponent? {text rest : List Char} (h : skipExponent? text = .ok rest) :
    rest.length ≤ text.length := by
  unfold skipExponent? at h
  split at h
  · have length := length_le_of_skipExponent h
    simp only [List.length_cons]
    omega
  · have length := length_le_of_skipExponent h
    simp only [List.length_cons]
    omega
  · simp only [Except.ok.injEq] at h
    simp [h]

theorem length_le_of_skipFraction {text rest : List Char} (h : skipFraction text = .ok rest) :
    rest.length ≤ text.length := by
  unfold skipFraction at h
  split at h
  · split at h
    · next digit digits _ =>
      have length := length_le_of_skipExponent? h
      have drop := length_dropWhile_le Char.isDigit digits
      simp only [List.length_cons]
      omega
    · simp [stop] at h
  · simp [stop] at h
  · exact length_le_of_skipExponent? h

theorem length_lt_of_skipNumber {text rest : List Char} (h : skipNumber text = .ok rest) :
    rest.length < text.length := by
  unfold skipNumber at h
  split at h
  · split at h
    · simp [stop] at h
    · have length := length_le_of_skipFraction h
      simp only [List.length_cons] at length ⊢
      omega
  · split at h
    · next digit digits _ _ =>
      have length := length_le_of_skipFraction h
      have drop := length_dropWhile_le Char.isDigit digits
      simp only [List.length_cons]
      omega
    · simp [stop] at h
  · simp [stop] at h

theorem length_lt_of_skipString {text rest : List Char} (h : skipString text = .ok rest) :
    rest.length < text.length := by
  fun_induction skipString text with
  | case1 => simp [stop] at h
  | case2 after =>
    simp only [Except.ok.injEq] at h
    simp [h]
  | case3 text after skipped ih =>
    have length := length_le_of_skipEscape skipped
    have shorter := ih h
    simp only [List.length_cons]
    omega
  | case4 => simp at h
  | case5 => simp [stop] at h
  | case6 char after _ _ _ ih =>
    have shorter := ih h
    simp only [List.length_cons]
    omega

theorem length_lt_of_skipKey {text rest : List Char} (h : skipKey text = .ok rest) :
    rest.length < text.length := by
  unfold skipKey at h
  have space := length_skipSpace_le text
  split at h
  · next key heq =>
    simp only [bind, Except.bind] at h
    split at h
    · simp at h
    · next after string =>
      have length := length_lt_of_skipString string
      have behind := length_skipSpace_le after
      split at h
      · next value colon =>
        simp only [Except.ok.injEq] at h
        subst h
        simp only [heq, colon, List.length_cons] at space behind
        omega
      · simp [stop] at h
  · simp [stop] at h

def Head.rest : Head → List Char
  | whole rest => rest
  | opened _ rest => rest

theorem length_rest_lt_of_map {result : Except Fault (List Char)} {make : List Char → Head}
    {found : Head} {bound : Nat} (make_rest : ∀ rest, (make rest).rest = rest)
    (h : make <$> result = .ok found) (shorter : ∀ rest, result = .ok rest → rest.length < bound) :
    found.rest.length < bound := by
  cases result with
  | error fault => simp [Functor.map, Except.map] at h
  | ok rest =>
    simp only [Functor.map, Except.map, Except.ok.injEq] at h
    rw [← h, make_rest]
    exact shorter rest rfl

theorem length_rest_lt_of_head {text : List Char} {found : Head} (h : head text = .ok found) :
    found.rest.length < text.length := by
  have space := length_skipSpace_le text
  unfold head at h
  split at h
  · simp [stop] at h
  iterate 3
    · next rest heq =>
      simp only [heq, List.length_cons] at space
      refine length_rest_lt_of_map (fun _ ↦ rfl) h fun after word ↦ ?_
      have length := length_le_of_skipWord word
      omega
  · next rest heq =>
    simp only [heq, List.length_cons] at space
    refine length_rest_lt_of_map (fun _ ↦ rfl) h fun after string ↦ ?_
    have length := length_lt_of_skipString string
    omega
  · next rest heq =>
    simp only [heq, List.length_cons] at space
    refine length_rest_lt_of_map (fun _ ↦ rfl) h fun after number ↦ ?_
    have length := length_lt_of_skipNumber number
    omega
  · next rest heq =>
    simp only [heq, List.length_cons] at space
    have behind := length_skipSpace_le rest
    split at h
    · simp [stop] at h
    · next after close =>
      simp only [Except.ok.injEq] at h
      subst h
      simp only [close, List.length_cons] at behind
      simp only [Head.rest]
      omega
    · simp only [Except.ok.injEq] at h
      subst h
      simp only [Head.rest]
      omega
  · next rest heq =>
    simp only [heq, List.length_cons] at space
    have behind := length_skipSpace_le rest
    split at h
    · next after close =>
      simp only [Except.ok.injEq] at h
      subst h
      simp only [close, List.length_cons] at behind
      simp only [Head.rest]
      omega
    · refine length_rest_lt_of_map (fun _ ↦ rfl) h fun after key ↦ ?_
      have length := length_lt_of_skipKey key
      omega
  · next char rest _ _ _ _ _ _ _ heq =>
    split at h
    · refine length_rest_lt_of_map (fun _ ↦ rfl) h fun after number ↦ ?_
      have length := length_lt_of_skipNumber number
      simp only [heq] at space
      omega
    · simp [stop] at h

theorem length_lt_of_resume {brackets stack : List Bracket} {text rest : List Char}
    (h : resume brackets text = .ok (.next stack rest)) : rest.length < text.length := by
  have space := length_skipSpace_le text
  fun_induction resume brackets text with
  | case1 => simp at h
  | case2 outer text after heq =>
    simp only [Except.ok.injEq, Step.next.injEq] at h
    simp only [heq, List.length_cons, h.2] at space
    omega
  | case3 outer text after heq ih =>
    have shorter := ih h (length_skipSpace_le after)
    simp only [heq, List.length_cons] at space
    omega
  | case4 => simp [stop] at h
  | case5 outer text after heq =>
    simp only [heq, List.length_cons] at space
    cases key : skipKey after with
    | error fault => simp [key, Functor.map, Except.map] at h
    | ok value =>
      simp only [key, Functor.map, Except.map, Except.ok.injEq, Step.next.injEq] at h
      have length := length_lt_of_skipKey key
      rw [← h.2]
      omega
  | case6 outer text after heq ih =>
    have shorter := ih h (length_skipSpace_le after)
    simp only [heq, List.length_cons] at space
    omega
  | case7 => simp [stop] at h

theorem length_le_of_resume {brackets : List Bracket} {text rest : List Char}
    (h : resume brackets text = .ok (.finished rest)) : rest.length ≤ text.length := by
  have space := length_skipSpace_le text
  fun_induction resume brackets text with
  | case1 =>
    simp only [Except.ok.injEq, Step.finished.injEq] at h
    simp [h]
  | case2 => simp at h
  | case3 outer text after heq ih =>
    have shorter := ih h (length_skipSpace_le after)
    simp only [heq, List.length_cons] at space
    omega
  | case4 => simp [stop] at h
  | case5 outer text after heq =>
    cases key : skipKey after <;> simp [key, Functor.map, Except.map] at h
  | case6 outer text after heq ih =>
    have shorter := ih h (length_skipSpace_le after)
    simp only [heq, List.length_cons] at space
    omega
  | case7 => simp [stop] at h

/-- Walks over the value at the start of a text and over what is left of the brackets around it,
the innermost first, and returns the text behind. -/
def skip (brackets : List Bracket) (text : List Char) : Except Fault (List Char) :=
  match _ : head text with
  | .error fault => .error fault
  | .ok (.opened bracket inner) => skip (bracket :: brackets) inner
  | .ok (.whole after) =>
    match _ : resume brackets after with
    | .error fault => .error fault
    | .ok (.finished rest) => .ok rest
    | .ok (.next stack rest) => skip stack rest
termination_by text.length
decreasing_by
  · exact length_rest_lt_of_head ‹_›
  · have shorter := length_lt_of_resume ‹resume brackets after = _›
    have moved := length_rest_lt_of_head ‹head text = .ok (.whole after)›
    exact Nat.lt_trans shorter moved

theorem length_lt_of_skip {brackets : List Bracket} {text rest : List Char}
    (h : skip brackets text = .ok rest) : rest.length < text.length := by
  fun_induction skip brackets text with
  | case1 => simp at h
  | case2 _ _ _ _ opened ih =>
    exact Nat.lt_trans (ih h) (length_rest_lt_of_head opened)
  | case3 => simp at h
  | case4 brackets text after whole rest' finished =>
    have moved := length_rest_lt_of_head whole
    have closed := length_le_of_resume finished
    simp only [Except.ok.injEq] at h
    rw [← h]
    exact Nat.lt_of_le_of_lt closed moved
  | case5 brackets text after whole stack rest' another ih =>
    exact Nat.lt_trans (ih h)
      (Nat.lt_trans (length_lt_of_resume another) (length_rest_lt_of_head whole))

/-- The text of the value at the start of a text, without the white space before it, and the text
behind it. -/
def value : Reader (List Char) := fun text ↦ do
  let start := skipSpace text
  let rest ← skip [] start
  return (start.take (start.length - rest.length), rest)

end SpanScore.Json.Scan
