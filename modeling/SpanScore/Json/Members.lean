import SpanScore.Json.Read

/-!
# Objects read member by member

A reader that wants an object with members of its own kind takes one key at a time and reads what
stands behind it by itself.
-/

namespace SpanScore.Json

namespace Members

/-- What stands where a member of an object may start. -/
inductive Start where
  /-- A key, and the text behind its closing quote. -/
  | key (name : String) (rest : List Char)
  /-- The end of the object, and the text behind it. -/
  | closed (rest : List Char)

def Start.rest : Start → List Char
  | key _ rest => rest
  | closed rest => rest

def first (text : List Char) : Except Fault Start :=
  match skipSpace text with
  | '"' :: name => (Read.string name).map fun (name, rest) ↦ .key name rest
  | '\x7d' :: rest => .ok (.closed rest)
  | other => stop .keyExpected 1 other

def next (text : List Char) : Except Fault Start :=
  match skipSpace text with
  | ',' :: rest =>
    match skipSpace rest with
    | '"' :: name => (Read.string name).map fun (name, rest) ↦ .key name rest
    | '\x7d' :: after => stop .trailingComma 1 ('\x7d' :: after)
    | other => stop .nextKeyExpected 1 other
  | '\x7d' :: rest => .ok (.closed rest)
  | rest => stop .memberEndExpected 1 rest

theorem length_rest_lt_of_string {text : List Char} {start : Start}
    (h : (Read.string text).map (fun (name, rest) ↦ Start.key name rest) = .ok start) :
    start.rest.length < text.length := by
  cases read : Read.string text with
  | error fault => simp [read, Except.map] at h
  | ok found =>
    simp only [read, Except.map, Except.ok.injEq] at h
    rw [← h]
    exact Read.length_lt_of_stringFrom (show _ = Except.ok (found.1, found.2) from read)

theorem length_rest_lt_of_next {text : List Char} {start : Start}
    (h : next text = .ok start) : start.rest.length < text.length := by
  have space := length_skipSpace_le text
  unfold next at h
  split at h
  · next rest heq =>
    have behind := length_skipSpace_le rest
    simp only [heq, List.length_cons] at space
    split at h
    · next quote =>
      have length := length_rest_lt_of_string h
      simp only [quote, List.length_cons] at behind
      omega
    · simp [stop] at h
    · simp [stop] at h
  · next heq =>
    simp only [Except.ok.injEq] at h
    simp only [heq, List.length_cons] at space
    rw [← h]
    exact space
  · simp [stop] at h

theorem length_lt_of_colon {text rest : List Char} (h : Read.colon text = .ok rest) :
    rest.length < text.length := by
  have space := length_skipSpace_le text
  unfold Read.colon at h
  split at h
  · next heq =>
    simp only [Except.ok.injEq] at h
    simp only [heq, List.length_cons] at space
    rw [← h]
    exact space
  · simp [stop] at h

end Members

end SpanScore.Json
