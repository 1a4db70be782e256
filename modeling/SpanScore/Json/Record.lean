import SpanScore.Json.Members
import SpanScore.Json.Scan

/-!
# Records of numbers

A record is written as an object with one member for each field, in any order and among others, or
as an array with the fields in their order.  A field holds a double; in some records it may also be
`null` or missing.
-/

namespace SpanScore.Json

def Read.float : Reader Float := fun text ↦
  let toFloat (read : Number × List Char) : Float × List Char := (read.1.toFloat, read.2)
  match skipSpace text with
  | [] => stop .valueExpected 1 []
  | '-' :: rest => (Digits.number true rest).map toFloat
  | char :: rest =>
    if char.isDigit then (Digits.number false (char :: rest)).map toFloat
    else .error (wrongType "f64" (char :: rest))

/-- Reads a number as a double, or nothing from `null`. -/
def Read.float? : Reader (Option Float) := fun text ↦
  match skipSpace text with
  | 'n' :: rest => (skipWord ['u', 'l', 'l'] rest).map fun after ↦ (none, after)
  | start => (Read.float start).map fun (value, after) ↦ (some value, after)

theorem Read.length_le_of_float {text rest : List Char} {value : Float}
    (h : Read.float text = .ok (value, rest)) : rest.length ≤ text.length := by
  have space := length_skipSpace_le text
  unfold Read.float at h
  dsimp only at h
  split at h
  · simp [stop] at h
  · next after heq =>
    cases read : Digits.number true after with
    | error fault => simp [read, Except.map] at h
    | ok found =>
      simp only [read, Except.map, Except.ok.injEq, Prod.mk.injEq] at h
      have length := Read.length_lt_of_number (show _ = Except.ok (found.1, found.2) from read)
      simp only [heq, List.length_cons] at space
      rw [← h.2]
      omega
  · next char after _ heq =>
    split at h
    · cases read : Digits.number false (char :: after) with
      | error fault => simp [read, Except.map] at h
      | ok found =>
        simp only [read, Except.map, Except.ok.injEq, Prod.mk.injEq] at h
        have length := Read.length_lt_of_number (show _ = Except.ok (found.1, found.2) from read)
        simp only [heq] at space
        rw [← h.2]
        omega
    · simp at h

theorem Read.length_le_of_float? {text rest : List Char} {value : Option Float}
    (h : Read.float? text = .ok (value, rest)) : rest.length ≤ text.length := by
  have space := length_skipSpace_le text
  unfold Read.float? at h
  split at h
  · next after heq =>
    cases read : skipWord ['u', 'l', 'l'] after with
    | error fault => simp [read, Except.map] at h
    | ok found =>
      simp only [read, Except.map, Except.ok.injEq, Prod.mk.injEq] at h
      have length := length_le_of_skipWord read
      simp only [heq, List.length_cons] at space
      rw [← h.2]
      omega
  · cases read : Read.float (skipSpace text) with
    | error fault => simp [read, Except.map] at h
    | ok found =>
      simp only [read, Except.map, Except.ok.injEq, Prod.mk.injEq] at h
      have length := Read.length_le_of_float (show _ = Except.ok (found.1, found.2) from read)
      rw [← h.2]
      omega

/-- What a record looks like, `α` being what a field holds. -/
structure Form (α : Type) (size : Nat) where
  /-- What a message calls the record. -/
  name : String
  /-- What a message says of the number of its fields. -/
  count : String
  fields : Vector String size
  read : Reader α
  /-- What a missing field holds, if it may be missing. -/
  absent : Option α
  length_le_of_read : ∀ {text rest : List Char} {value : α},
    read text = .ok (value, rest) → rest.length ≤ text.length

namespace Form

variable {α : Type} {size : Nat}

/-! ## Arrays -/

/-- Reads the item of one field. -/
def item (form : Form α size) (index : Nat) : StateT (List Char) (Except Fault) α := fun text ↦
  match skipSpace text with
  | [] => stop .itemEndExpected 1 []
  | ']' :: rest => stop (.wrongLength index s!"{form.name} with {form.count}") 0 rest
  | start =>
    if index = 0 then form.read start
    else match start with
      | ',' :: rest =>
        match skipSpace rest with
        | ']' :: after => stop .trailingComma 1 (']' :: after)
        | next => form.read next
      | other => stop .itemEndExpected 1 other

/-- The text behind the end of an array that has all its items. -/
def itemsEnd (text : List Char) : Except Fault (List Char) :=
  match skipSpace text with
  | ']' :: rest => .ok rest
  | ',' :: rest =>
    match skipSpace rest with
    | ']' :: after => stop .trailingComma 1 (']' :: after)
    | other => stop .trailingCharacters 1 other
  | other => stop .sequenceEndExpected 1 other

/-- Reads a record that is an array from behind its bracket on. -/
def items (form : Form α size) : Reader (Vector α size) := fun text ↦ do
  let (values, rest) ← (form.fields.mapFinIdxM fun index _ _ ↦ form.item index).run text
  return (values, ← itemsEnd rest)

/-! ## Objects -/

/-- The text behind the end of an object, if it ends at the start of a text. -/
def membersEnd (text : List Char) : List Char :=
  match skipSpace text with
  | '\x7d' :: rest => rest
  | other => other

/-- Reads members from a start on; `found` holds the fields of earlier ones. -/
def membersFrom (form : Form α size) (found : List (String × α)) (start : Members.Start) :
    Except Fault (List (String × α) × List Char) :=
  match start with
  | .closed rest => .ok (found, rest)
  | .key name text =>
    if form.fields.contains name then
      if found.any fun field ↦ field.1 == name then stop (.repeatedField name) 0 (membersEnd text)
      else match _ : Read.colon text with
        | .error fault => .error fault
        | .ok start =>
          match _ : form.read start with
          | .error fault => .error fault
          | .ok (value, after) =>
            match _ : Members.next after with
            | .error fault => .error fault
            | .ok next => membersFrom form ((name, value) :: found) next
    else match _ : Read.colon text with
      | .error fault => .error fault
      | .ok start =>
        match _ : Scan.skip [] start with
        | .error fault => .error fault
        | .ok after =>
          match _ : Members.next after with
          | .error fault => .error fault
          | .ok next => membersFrom form found next
termination_by start.rest.length
decreasing_by
  · have colon := Members.length_lt_of_colon ‹_›
    have read := form.length_le_of_read ‹_›
    have next := Members.length_rest_lt_of_next ‹_›
    simp only [Members.Start.rest] at *
    omega
  · have colon := Members.length_lt_of_colon ‹_›
    have skipped := Scan.length_lt_of_skip ‹_›
    have next := Members.length_rest_lt_of_next ‹_›
    simp only [Members.Start.rest] at *
    omega

def members (form : Form α size) : Reader (Vector α size) := fun text ↦ do
  let (found, rest) ← form.membersFrom [] (← Members.first text)
  let values ← form.fields.mapM fun name ↦
    match found.lookup name with
    | some value => .ok value
    | none => match form.absent with
      | some value => .ok value
      | none => stop (.missingField name) 0 rest
  return (values, rest)

def record (form : Form α size) : Reader (Vector α size) := fun text ↦
  match skipSpace text with
  | [] => stop .valueExpected 1 []
  | '[' :: rest => form.items rest
  | '\x7b' :: rest => form.members rest
  | other => .error (wrongType form.name other)

end Form

end SpanScore.Json
