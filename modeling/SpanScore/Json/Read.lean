import SpanScore.Json.Digits

/-!
# Reading JSON values

The reader builds the value that the scanner only walks over.  It is stricter in four ways: it
refuses nesting beyond `depthLimit`, numbers beyond every double, escapes that are half of a
surrogate pair, and wrappers without a value.  A wrapper is an object whose first key is
`wrapperKey`.  It stands for the value of another text, which is the string in its only member.
-/

namespace SpanScore.Json.Read

/-! ## Strings -/

def isLeading (unit : Nat) : Bool :=
  0xD800 ≤ unit && unit ≤ 0xDBFF

def isTrailing (unit : Nat) : Bool :=
  0xDC00 ≤ unit && unit ≤ 0xDFFF

/-- The character of a surrogate pair. -/
def pairChar (leading trailing : Nat) : Char :=
  Char.ofNat (0x10000 + (leading - 0xD800) * 0x400 + (trailing - 0xDC00))

/-- Reads the second half of a surrogate pair. -/
def trailing (leading : Nat) : Reader Char
  | '\\' :: 'u' :: rest =>
    match hex4? rest with
    | none => stop .hexDigitsExpected 4 rest
    | some (unit, after) =>
      if isTrailing unit then .ok (pairChar leading unit, after) else stop .loneSurrogate 0 after
  | '\\' :: rest => stop .pairExpected 1 rest
  | text => stop .pairExpected 1 text

/-- Reads an escape in base sixteen from behind its letter on. -/
def unicode : Reader Char := fun text ↦
  match hex4? text with
  | none => stop .hexDigitsExpected 4 text
  | some (unit, after) =>
    if isTrailing unit then stop .loneSurrogate 0 after
    else if isLeading unit then trailing unit after
    else .ok (Char.ofNat unit, after)

/-- The character that the letter of an escape stands for. -/
def escaped? : Char → Option Char
  | '"' => some '"'
  | '\\' => some '\\'
  | '/' => some '/'
  | 'b' => some '\x08'
  | 'f' => some '\x0c'
  | 'n' => some '\n'
  | 'r' => some '\r'
  | 't' => some '\t'
  | _ => none

def escape : Reader Char
  | [] => stop .escapeExpected 1 []
  | 'u' :: rest => unicode rest
  | letter :: rest =>
    match escaped? letter with
    | some char => .ok (char, rest)
    | none => stop .escapeExpected 1 (letter :: rest)

theorem length_le_of_trailing {leading : Nat} {text rest : List Char} {char : Char}
    (h : trailing leading text = .ok (char, rest)) : rest.length ≤ text.length := by
  unfold trailing at h
  split at h
  · split at h
    · simp [stop] at h
    · have length := length_of_hex4? ‹_›
      split at h
      · simp only [Except.ok.injEq, Prod.mk.injEq] at h
        simp only [List.length_cons, ← h.2]
        omega
      · simp [stop] at h
  · simp [stop] at h
  · simp [stop] at h

theorem length_le_of_escape {text rest : List Char} {char : Char}
    (h : escape text = .ok (char, rest)) : rest.length ≤ text.length := by
  unfold escape at h
  split at h
  · simp [stop] at h
  · unfold unicode at h
    split at h
    · simp [stop] at h
    · have length := length_of_hex4? ‹_›
      simp only [List.length_cons]
      split at h
      · simp [stop] at h
      · split at h
        · have shorter := length_le_of_trailing h
          omega
        · simp only [Except.ok.injEq, Prod.mk.injEq] at h
          rw [← h.2]
          omega
  · split at h
    · simp only [Except.ok.injEq, Prod.mk.injEq] at h
      simp [h.2]
    · simp [stop] at h

/-- Reads a string from behind its opening quote on; `read` holds its earlier characters, last
first. -/
def stringFrom (read : List Char) (text : List Char) : Except Fault (String × List Char) :=
  match text with
  | [] => stop .stringUnclosed 1 []
  | '"' :: rest => .ok (String.ofList read.reverse, rest)
  | '\\' :: rest =>
    match _ : escape rest with
    | .ok (char, after) => stringFrom (char :: read) after
    | .error fault => .error fault
  | char :: rest =>
    if char < ' ' then stop .controlCharacter 1 (char :: rest) else stringFrom (char :: read) rest
termination_by text.length
decreasing_by
  · have length := length_le_of_escape ‹_›
    simp only [List.length_cons]
    omega
  · simp

def string : Reader String :=
  stringFrom []

end SpanScore.Json.Read

namespace SpanScore.Json

/-- The fault of a value of another kind than the expected one. -/
def wrongType (expected : String) (text : List Char) : Fault :=
  let behind (found : Found) (rest : List Char) : Fault :=
    .here (.wrongType found expected) rest.length 0
  let word (found : Found) (skipped : Except Fault (List Char)) : Fault :=
    match skipped with
    | .ok rest => behind found rest
    | .error fault => fault
  let number (read : Except Fault (Number × List Char)) : Fault :=
    match read with
    | .ok (.integer value, rest) => behind (.integer value) rest
    | .ok (.double value, rest) => behind (.double value) rest
    | .error fault => fault
  match text with
  | 'n' :: rest => word .null (skipWord ['u', 'l', 'l'] rest)
  | 't' :: rest => word (.bool true) (skipWord ['r', 'u', 'e'] rest)
  | 'f' :: rest => word (.bool false) (skipWord ['a', 'l', 's', 'e'] rest)
  | '-' :: rest => number (Digits.number true rest)
  | '"' :: rest =>
    match Read.string rest with
    | .ok (value, after) => behind (.string value) after
    | .error fault => fault
  | '[' :: _ => behind .sequence text
  | '\x7b' :: _ => behind .map text
  | char :: _ =>
    if char.isDigit then number (Digits.number false text)
    else .here .valueExpected text.length 1
  | [] => .here .valueExpected 0 1

end SpanScore.Json

namespace SpanScore.Json.Read

/-! ## Values -/

/-- How many levels of arrays and objects a value may have. -/
def depthLimit : Nat := 127

/-- An array or object whose end has not been met. -/
inductive Frame where
  /-- An array with its earlier items, last first. -/
  | items (before : List Value)
  /-- An object with its earlier members and the key of the value at hand. -/
  | members (before : OrderedMembers) (key : String)

/-- What stands at the start of a value. -/
inductive Head where
  /-- A value without items, and the text behind it. -/
  | whole (value : Value) (rest : List Char)
  /-- An array or object, and the text of the value that stands first in it. -/
  | opened (frame : Frame) (rest : List Char)
  /-- A wrapper with the text in its string, and what stands behind the string. -/
  | wrapper (inner : String) (rest : List Char)

def colon (text : List Char) : Except Fault (List Char) :=
  match skipSpace text with
  | ':' :: rest => .ok rest
  | other => stop .colonExpected 1 other

/-- Reads a key and its colon from behind the key's quote on. -/
def key : Reader String := fun text ↦ do
  let (name, after) ← string text
  let rest ← colon after
  return (name, rest)

/-- The key by which an object is a wrapper. -/
def wrapperKey : String := "$serde_json::private::RawValue"

/-- Reads the text in a wrapper from behind the colon on. -/
def wrapped : Reader String := fun text ↦
  match skipSpace text with
  | [] => stop .valueExpected 1 []
  | '"' :: rest => string rest
  | other => .error (wrongType "raw value" other)

/-- The text behind the end of a wrapper. -/
def wrapperEnd (text : List Char) : Except Fault (List Char) :=
  match skipSpace text with
  | '\x7d' :: rest => .ok rest
  | ',' :: rest => stop .trailingComma 1 (',' :: rest)
  | other => stop .objectEndExpected 1 other

/-- Reads what stands behind the first key of an object. -/
def enter (key : String) (text : List Char) : Except Fault Head :=
  if key = wrapperKey then (wrapped text).map fun (inner, after) ↦ .wrapper inner after
  else .ok (.opened (.members .empty key) text)

/-- Reads a value that is a word. -/
def word (value : Value) (letters : List Char) (text : List Char) : Except Fault Head :=
  (skipWord letters text).map (Head.whole value)

def number (negative : Bool) (text : List Char) : Except Fault Head :=
  (Digits.number negative text).map fun (number, rest) ↦ .whole (.number number) rest

/-- Reads a value that has no items, or the bracket that opens it.  `depth` counts the arrays and
objects around it. -/
def head (depth : Nat) (text : List Char) : Except Fault Head :=
  match skipSpace text with
  | [] => stop .valueExpected 1 []
  | 'n' :: rest => word .null ['u', 'l', 'l'] rest
  | 't' :: rest => word (.bool true) ['r', 'u', 'e'] rest
  | 'f' :: rest => word (.bool false) ['a', 'l', 's', 'e'] rest
  | '"' :: rest => (string rest).map fun (text, after) ↦ .whole (.string text) after
  | '-' :: rest => number true rest
  | '[' :: rest =>
    if depthLimit ≤ depth then stop .tooDeep 1 ('[' :: rest)
    else match skipSpace rest with
      | [] => stop .firstItemExpected 1 []
      | ']' :: after => .ok (.whole (.array []) after)
      | item => .ok (.opened (.items []) item)
  | '\x7b' :: rest =>
    if depthLimit ≤ depth then stop .tooDeep 1 ('\x7b' :: rest)
    else match skipSpace rest with
      | '\x7d' :: after => .ok (.whole (.object []) after)
      | '"' :: name => (key name).bind fun (key, after) ↦ enter key after
      | other => stop .keyExpected 1 other
  | char :: rest =>
    if char.isDigit then number false (char :: rest) else stop .valueExpected 1 (char :: rest)

/-- What follows a value. -/
inductive Step where
  /-- The value is complete. -/
  | finished (value : Value) (rest : List Char)
  /-- Another value follows within arrays and objects. -/
  | next (frames : List Frame) (rest : List Char)

/-- Puts a value into the arrays and objects around it until another value follows. -/
def resume (value : Value) : List Frame → List Char → Except Fault Step
  | [], text => .ok (.finished value text)
  | .items before :: outer, text =>
    match skipSpace text with
    | ',' :: rest =>
      match skipSpace rest with
      | ']' :: after => stop .trailingComma 1 (']' :: after)
      | item => .ok (.next (.items (value :: before) :: outer) item)
    | ']' :: rest => resume (.array (value :: before).reverse) outer rest
    | rest => stop .itemEndExpected 1 rest
  | .members before key :: outer, text =>
    let members := before.insert key value
    match skipSpace text with
    | ',' :: rest =>
      match skipSpace rest with
      | '"' :: name =>
        (Read.key name).map fun (key, after) ↦ .next (.members members key :: outer) after
      | '\x7d' :: after => stop .trailingComma 1 ('\x7d' :: after)
      | other => stop .nextKeyExpected 1 other
    | '\x7d' :: rest => resume (.object members.list) outer rest
    | rest => stop .memberEndExpected 1 rest

/-! ## Every part moves on -/

theorem length_lt_of_stringFrom {read text rest : List Char} {value : String}
    (h : stringFrom read text = .ok (value, rest)) : rest.length < text.length := by
  fun_induction stringFrom read text with
  | case1 => simp [stop] at h
  | case2 read after =>
    simp only [Except.ok.injEq, Prod.mk.injEq] at h
    simp [h.2]
  | case3 read text char after escaped ih =>
    have length := length_le_of_escape escaped
    have shorter := ih h
    simp only [List.length_cons]
    omega
  | case4 => simp at h
  | case5 => simp [stop] at h
  | case6 read char after _ _ _ ih =>
    have shorter := ih h
    simp only [List.length_cons]
    omega

theorem length_toList_lt_of_stringFrom {read text rest : List Char} {value : String}
    (h : stringFrom read text = .ok (value, rest)) :
    value.toList.length < read.length + text.length := by
  fun_induction stringFrom read text with
  | case1 => simp [stop] at h
  | case2 read after =>
    simp only [Except.ok.injEq, Prod.mk.injEq] at h
    simp [← h.1]
  | case3 read text char after escaped ih =>
    have length := length_le_of_escape escaped
    have shorter := ih h
    simp only [List.length_cons] at shorter ⊢
    omega
  | case4 => simp at h
  | case5 => simp [stop] at h
  | case6 read char after _ _ _ ih =>
    have shorter := ih h
    simp only [List.length_cons] at shorter ⊢
    omega

theorem length_lt_of_key {text rest : List Char} {name : String}
    (h : key text = .ok (name, rest)) : rest.length < text.length := by
  simp only [key, bind, Except.bind] at h
  split at h
  · simp at h
  · next read string =>
    have length := length_lt_of_stringFrom (show _ = Except.ok (read.1, read.2) from string)
    have space := length_skipSpace_le read.2
    simp only [colon] at h
    split at h
    · simp at h
    · next after colon =>
      split at colon
      · next heq =>
        simp only [Except.ok.injEq] at colon
        simp only [pure, Except.pure, Except.ok.injEq, Prod.mk.injEq] at h
        simp only [heq, List.length_cons] at space
        rw [← h.2, ← colon]
        omega
      · simp [stop] at colon

theorem length_le_of_collectExponent {start total : Nat} {text rest : List Char}
    (h : Digits.collectExponent start text = .within total rest) :
    rest.length ≤ text.length := by
  fun_induction Digits.collectExponent start text with
  | case1 =>
    simp only [Digits.Exponent.within.injEq] at h
    simp [← h.2]
  | case2 _ _ _ _ _ _ ih =>
    have shorter := ih h
    simp only [List.length_cons]
    omega
  | case3 => simp at h
  | case4 =>
    simp only [Digits.Exponent.within.injEq] at h
    simp [← h.2]

theorem length_le_of_collectExponent_beyond {start : Nat} {text rest : List Char}
    (h : Digits.collectExponent start text = .beyond rest) : rest.length ≤ text.length := by
  fun_induction Digits.collectExponent start text with
  | case1 => simp at h
  | case2 _ _ _ _ _ _ ih =>
    have shorter := ih h
    simp only [List.length_cons]
    omega
  | case3 =>
    simp only [Digits.Exponent.beyond.injEq] at h
    simp [← h]
  | case4 => simp at h

theorem rest_of_scaled {negative : Bool} {significand : Nat} {exponent : Int}
    {text rest : List Char} {number : Number}
    (h : Digits.scaled negative significand exponent text = .ok (number, rest)) : rest = text := by
  unfold Digits.scaled at h
  split at h
  · simp only [Except.ok.injEq, Prod.mk.injEq] at h
    exact h.2.symm
  · simp [stop] at h

theorem length_le_of_exponent {negative : Bool} {significand : Nat} {start : Int}
    {text rest : List Char} {number : Number}
    (h : Digits.exponent negative significand start text = .ok (number, rest)) :
    rest.length ≤ text.length := by
  have shorter := Digits.length_exponentSign_le text
  unfold Digits.exponent at h
  generalize (Digits.exponentSign text).2 = unsigned at h shorter
  dsimp only at h
  split at h
  · simp [stop] at h
  · split at h
    · split at h
      · have collected := length_le_of_collectExponent ‹_›
        rw [rest_of_scaled h]
        omega
      · have collected := length_le_of_collectExponent_beyond ‹_›
        split at h
        · simp [stop] at h
        · simp only [Except.ok.injEq, Prod.mk.injEq] at h
          rw [← h.2]
          exact Nat.le_trans (List.dropWhile_suffix _).length_le
            (Nat.le_trans collected shorter)
    · simp [stop] at h

theorem length_le_of_exponent? {negative : Bool} {significand : Nat} {start : Int}
    {text rest : List Char} {number : Number}
    (h : Digits.exponent? negative significand start text = .ok (number, rest)) :
    rest.length ≤ text.length := by
  unfold Digits.exponent? at h
  split at h
  · have length := length_le_of_exponent h
    simp only [List.length_cons]
    omega
  · have length := length_le_of_exponent h
    simp only [List.length_cons]
    omega
  · exact Nat.le_of_eq (congrArg List.length (rest_of_scaled h))

theorem length_le_of_fraction {negative : Bool} {significand dropped : Nat}
    {text rest : List Char} {number : Number}
    (h : Digits.fraction negative significand dropped text = .ok (number, rest)) :
    rest.length ≤ text.length := by
  unfold Digits.fraction Numeral.spanDigits at h
  dsimp only at h
  split at h
  · simp [stop] at h
  · exact Nat.le_trans (length_le_of_exponent? h) (List.dropWhile_suffix _).length_le

theorem length_le_of_behindWhole {negative : Bool} {digits text rest : List Char}
    {number : Number} (h : Digits.behindWhole negative digits text = .ok (number, rest)) :
    rest.length ≤ text.length := by
  simp only [Digits.behindWhole] at h
  split at h
  · have length := length_le_of_fraction h
    simp only [List.length_cons]
    omega
  · have length := length_le_of_exponent h
    simp only [List.length_cons]
    omega
  · have length := length_le_of_exponent h
    simp only [List.length_cons]
    omega
  · split at h
    · simp only [Except.ok.injEq, Prod.mk.injEq] at h
      exact Nat.le_of_eq (congrArg List.length h.2.symm)
    · exact Nat.le_of_eq (congrArg List.length (rest_of_scaled h))

theorem length_lt_of_number {negative : Bool} {text rest : List Char} {number : Number}
    (h : Digits.number negative text = .ok (number, rest)) : rest.length < text.length := by
  unfold Digits.number at h
  split at h
  · split at h
    · split at h
      · simp [stop] at h
      · have length := length_le_of_behindWhole h
        simp only [List.length_cons] at length ⊢
        omega
    · have length := length_le_of_behindWhole h
      simp only [List.length_cons, List.length_nil] at length ⊢
      omega
  · next digit digits _ =>
    split at h
    · next isDigit =>
      have length := length_le_of_behindWhole h
      have dropped : ((digit :: digits).dropWhile Char.isDigit).length ≤ digits.length := by
        rw [List.dropWhile_cons_of_pos isDigit]
        exact (List.dropWhile_suffix _).length_le
      simp only [List.length_cons]
      omega
    · simp [stop] at h
  · simp [stop] at h

/-- Whether all that a head leaves to be read is shorter than some length. -/
def Head.Within (bound : Nat) : Head → Prop
  | whole _ rest => rest.length < bound
  | opened _ rest => rest.length < bound
  | wrapper inner rest => inner.toList.length < bound ∧ rest.length < bound

theorem Head.Within.mono {found : Head} {bound bound' : Nat} (h : found.Within bound)
    (le : bound ≤ bound') : found.Within bound' := by
  cases found with
  | whole value rest => exact Nat.lt_of_lt_of_le h le
  | opened frame rest => exact Nat.lt_of_lt_of_le h le
  | wrapper inner rest => exact ⟨Nat.lt_of_lt_of_le h.1 le, Nat.lt_of_lt_of_le h.2 le⟩

theorem within_of_map {α : Type} {result : Except Fault α} {make : α → Head} {found : Head}
    {bound : Nat} (h : result.map make = .ok found)
    (shorter : ∀ read, result = .ok read → (make read).Within bound) : found.Within bound := by
  cases result with
  | error fault => simp [Except.map] at h
  | ok read =>
    simp only [Except.map, Except.ok.injEq] at h
    rw [← h]
    exact shorter read rfl

theorem within_of_enter {key : String} {text : List Char} {found : Head}
    (h : enter key text = .ok found) : found.Within (text.length + 1) := by
  unfold enter at h
  split at h
  · refine within_of_map h fun read wrapped ↦ ?_
    have space := length_skipSpace_le text
    unfold Read.wrapped at wrapped
    split at wrapped
    · simp [stop] at wrapped
    · next rest quote =>
      have string := show stringFrom [] rest = .ok (read.1, read.2) from wrapped
      have inner := length_toList_lt_of_stringFrom string
      have behind := length_lt_of_stringFrom string
      simp only [quote, List.length_cons, List.length_nil] at space inner
      exact ⟨by omega, by omega⟩
    · simp at wrapped
  · simp only [Except.ok.injEq] at h
    rw [← h]
    exact Nat.lt_succ_self _

theorem within_of_head {depth : Nat} {text : List Char} {found : Head}
    (h : head depth text = .ok found) : found.Within text.length := by
  have space := length_skipSpace_le text
  unfold head at h
  split at h
  · simp [stop] at h
  iterate 3
    · next rest heq =>
      simp only [heq, List.length_cons] at space
      refine within_of_map h fun after skipped ↦ ?_
      have length := length_le_of_skipWord skipped
      exact Nat.lt_of_le_of_lt length space
  · next rest heq =>
    simp only [heq, List.length_cons] at space
    refine within_of_map h fun read string ↦ ?_
    have length := length_lt_of_stringFrom (show _ = Except.ok (read.1, read.2) from string)
    simp only [Head.Within]
    omega
  · next rest heq =>
    simp only [heq, List.length_cons] at space
    refine within_of_map h fun read number ↦ ?_
    have length := length_lt_of_number (show _ = Except.ok (read.1, read.2) from number)
    simp only [Head.Within]
    omega
  · next rest heq =>
    simp only [heq, List.length_cons] at space
    have behind := length_skipSpace_le rest
    split at h
    · simp [stop] at h
    · split at h
      · simp [stop] at h
      · next after close =>
        simp only [Except.ok.injEq] at h
        simp only [close, List.length_cons] at behind
        rw [← h]
        simp only [Head.Within]
        omega
      · simp only [Except.ok.injEq] at h
        rw [← h]
        simp only [Head.Within]
        omega
  · next rest heq =>
    simp only [heq, List.length_cons] at space
    have behind := length_skipSpace_le rest
    split at h
    · simp [stop] at h
    · split at h
      · next after close =>
        simp only [Except.ok.injEq] at h
        simp only [close, List.length_cons] at behind
        rw [← h]
        simp only [Head.Within]
        omega
      · next name quote =>
        simp only [quote, List.length_cons] at behind
        cases read : key name with
        | error fault => simp [read, Except.bind] at h
        | ok found =>
          simp only [read, Except.bind] at h
          have length := length_lt_of_key (show _ = Except.ok (found.1, found.2) from read)
          exact (within_of_enter h).mono (by omega)
      · simp [stop] at h
  · next char rest _ _ _ _ _ _ _ heq =>
    split at h
    · refine within_of_map h fun read number ↦ ?_
      have length := length_lt_of_number (show _ = Except.ok (read.1, read.2) from number)
      simp only [heq] at space
      simp only [Head.Within]
      omega
    · simp [stop] at h

theorem length_lt_of_wrapperEnd {text rest : List Char} (h : wrapperEnd text = .ok rest) :
    rest.length < text.length := by
  have space := length_skipSpace_le text
  unfold wrapperEnd at h
  split at h
  · next close =>
    simp only [Except.ok.injEq] at h
    simp only [close, List.length_cons] at space
    rw [← h]
    exact space
  · simp [stop] at h
  · simp [stop] at h

theorem length_lt_of_resume {value : Value} {frames stack : List Frame} {text rest : List Char}
    (h : resume value frames text = .ok (.next stack rest)) : rest.length < text.length := by
  have space := length_skipSpace_le text
  fun_induction resume value frames text with
  | case1 => simp at h
  | case2 => simp [stop] at h
  | case3 value before outer text after comma _ =>
    have behind := length_skipSpace_le after
    simp only [Except.ok.injEq, Step.next.injEq] at h
    simp only [comma, List.length_cons] at space
    rw [← h.2]
    omega
  | case4 value before outer text after close ih =>
    have shorter := ih h (length_skipSpace_le after)
    simp only [close, List.length_cons] at space
    omega
  | case5 => simp [stop] at h
  | case6 value before key outer text members after comma name quote =>
    have behind := length_skipSpace_le after
    simp only [comma, List.length_cons] at space
    simp only [quote, List.length_cons] at behind
    cases read : Read.key name with
    | error fault => simp [read, Except.map] at h
    | ok found =>
      simp only [read, Except.map, Except.ok.injEq, Step.next.injEq] at h
      have length := length_lt_of_key (show _ = Except.ok (found.1, found.2) from read)
      rw [← h.2]
      omega
  | case7 => simp [stop] at h
  | case8 => simp [stop] at h
  | case9 value before key outer text members after close ih =>
    have shorter := ih h (length_skipSpace_le after)
    simp only [close, List.length_cons] at space
    omega
  | case10 => simp [stop] at h

mutual

/-- Reads the value at the start of a text and what is left of the arrays and objects around it,
the innermost first. -/
def build (frames : List Frame) (text : List Char) : Except Fault (Value × List Char) :=
  match _ : head frames.length text with
  | .error fault => .error fault
  | .ok (.whole value after) => proceed value frames after
  | .ok (.opened frame inner) => build (frame :: frames) inner
  | .ok (.wrapper inner after) =>
    let bytes := Utf8.encode inner
    match conclude bytes ⟨inner.toList, bytes.length⟩ (build [] inner.toList) with
    | .error error => .error (.inner error)
    | .ok value =>
      match _ : wrapperEnd after with
      | .error fault => .error fault
      | .ok rest => proceed value frames rest
termination_by text.length
decreasing_by
  · exact within_of_head ‹_›
  · exact within_of_head ‹_›
  · have shorter : (Head.wrapper inner after).Within text.length := within_of_head ‹_›
    exact shorter.1
  · have shorter : (Head.wrapper inner after).Within text.length := within_of_head ‹_›
    exact Nat.lt_trans (length_lt_of_wrapperEnd ‹_›) shorter.2

/-- Reads what is left of the arrays and objects around a value, from behind the value on. -/
def proceed (value : Value) (frames : List Frame) (text : List Char) :
    Except Fault (Value × List Char) :=
  match _ : resume value frames text with
  | .error fault => .error fault
  | .ok (.finished complete rest) => .ok (complete, rest)
  | .ok (.next stack rest) => build stack rest
termination_by text.length
decreasing_by exact length_lt_of_resume ‹_›

end

/-- Reads the value at the start of a text. -/
def value : Reader Value :=
  build []

end SpanScore.Json.Read

namespace SpanScore.Json.Value

/-- The value that some bytes are the text of. -/
def ofBytes (bytes : List UInt8) : Except SyntaxError Value :=
  readWhole Read.value bytes

def ofText (text : String) : Except SyntaxError Value :=
  ofBytes (Utf8.encode text)

end SpanScore.Json.Value
