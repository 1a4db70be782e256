import SpanScore.Json.Members
import SpanScore.Proofs.Json.Scan
import SpanScore.Proofs.Json.Spelling

/-!
# Keys, colons and braces

The reader of members takes a key where the grammar has one that spells a string, and takes the
brace where the grammar closes the object.
-/

namespace SpanScore.Json

open Grammar

/-! ## Colons -/

/-- The colon behind a key is found. -/
theorem Read.colon_text (gap : Gap) (rest : List Char) :
    Read.colon (gap.text ++ ':' :: rest) = .ok rest := by
  rw [Read.colon, skipSpace_gap_append, skipSpace_cons rfl]
  rfl

theorem Read.exists_gap_of_colon {text rest : List Char} (h : Read.colon text = .ok rest) :
    ∃ gap : Gap, text = gap.text ++ ':' :: rest := by
  obtain ⟨gap, text_eq⟩ := exists_gap text
  unfold Read.colon at h
  split at h
  · next colon =>
    rw [Except.ok.injEq] at h
    exact ⟨gap, by rw [text_eq, colon, h]⟩
  · simp [stop] at h

namespace Members

/-! ## Starts of members -/

theorem start_of_quote {name : List Char} {literal : Literal} {value : String} {rest : List Char}
    (h : literal.decode? = some value) (name_eq : name = literal.body ++ rest) :
    (Read.string name).map (fun (name, rest) ↦ Start.key name rest) = .ok (.key value rest) := by
  rw [name_eq, Read.string_body rest h]
  rfl

theorem exists_literal_of_quote {name : List Char} {start : Start}
    (h : (Read.string name).map (fun (name, rest) ↦ Start.key name rest) = .ok start) :
    ∃ (literal : Literal) (value : String) (rest : List Char), name = literal.body ++ rest ∧
      literal.decode? = some value ∧ start = .key value rest := by
  cases read : Read.string name with
  | error fault => simp [read, Except.map] at h
  | ok found =>
    simp only [read, Except.map, Except.ok.injEq] at h
    obtain ⟨literal, name_eq, decoded⟩ := Read.exists_literal read
    exact ⟨literal, found.1, found.2, name_eq, decoded, h.symm⟩

/-- What the grammar has behind the brace of an object. -/
def Opens (text : List Char) : Start → Prop
  | .key name rest => ∃ (before : Gap) (literal : Literal),
      text = before.text ++ '"' :: (literal.body ++ rest) ∧ literal.decode? = some name
  | .closed rest => ∃ gap : Gap, text = gap.text ++ '\x7d' :: rest

/-- What the grammar has behind a member. -/
def Continues (text : List Char) : Start → Prop
  | .key name rest => ∃ (gap : Gap) (member : List Char),
      text = gap.text ++ ',' :: member ∧ Opens member (.key name rest)
  | .closed rest => ∃ gap : Gap, text = gap.text ++ '\x7d' :: rest

/-- The brace that closes an object without members is found. -/
theorem first_closed (gap : Gap) (rest : List Char) :
    first (gap.text ++ '\x7d' :: rest) = .ok (.closed rest) := by
  rw [first, skipSpace_gap_append, skipSpace_cons rfl]
  rfl

/-- Behind the brace of an object exactly what the grammar has there is found. -/
theorem first_eq_ok_iff {text : List Char} {start : Start} :
    first text = .ok start ↔ Opens text start := by
  constructor
  · intro h
    obtain ⟨before, text_eq⟩ := exists_gap text
    unfold first at h
    split at h
    · next quote =>
      obtain ⟨literal, name, rest, rfl, decoded, rfl⟩ := exists_literal_of_quote h
      exact ⟨before, literal, by rw [text_eq, quote], decoded⟩
    · next brace =>
      rw [Except.ok.injEq] at h
      rw [← h]
      exact ⟨before, by rw [text_eq, brace]⟩
    · simp [stop] at h
  · intro h
    cases start with
    | key name rest =>
      obtain ⟨before, literal, rfl, decoded⟩ := h
      rw [first, skipSpace_gap_append, skipSpace_cons rfl]
      exact start_of_quote decoded rfl
    | closed rest =>
      obtain ⟨gap, rfl⟩ := h
      exact first_closed gap rest

/-- Behind a comma a key is taken as behind the brace of the object. -/
theorem next_comma (gap before : Gap) (name : List Char) :
    next (gap.text ++ ',' :: (before.text ++ '"' :: name)) =
      first (before.text ++ '"' :: name) := by
  simp only [next, first, skipSpace_gap_append, skipSpace_cons (show isSpace ',' = false from rfl),
    skipSpace_cons (show isSpace '"' = false from rfl)]

/-- The brace behind the last member is found. -/
theorem next_closed (gap : Gap) (rest : List Char) :
    next (gap.text ++ '\x7d' :: rest) = .ok (.closed rest) := by
  rw [next, skipSpace_gap_append, skipSpace_cons rfl]
  rfl

/-- A key that spells no string is refused. -/
theorem exists_error_of_key (before : Gap) {literal : Literal} (rest : List Char)
    (h : literal.decode? = none) :
    ∃ fault, first (before.text ++ '"' :: (literal.body ++ rest)) = .error fault := by
  obtain ⟨fault, refused⟩ := Read.exists_error_of_body rest h
  refine ⟨fault, ?_⟩
  simp only [first, skipSpace_gap_append, skipSpace_cons (show isSpace '"' = false from rfl),
    refused, Except.map]

/-- Behind a member exactly what the grammar has there is found. -/
theorem next_eq_ok_iff {text : List Char} {start : Start} :
    next text = .ok start ↔ Continues text start := by
  constructor
  · intro h
    obtain ⟨gap, text_eq⟩ := exists_gap text
    unfold next at h
    split at h
    · next after comma =>
      obtain ⟨before, after_eq⟩ := exists_gap after
      split at h
      · next quote =>
        obtain ⟨literal, name, rest, rfl, decoded, rfl⟩ := exists_literal_of_quote h
        exact ⟨gap, after, by rw [text_eq, comma], before, literal, by rw [after_eq, quote],
          decoded⟩
      · simp [stop] at h
      · simp [stop] at h
    · next brace =>
      rw [Except.ok.injEq] at h
      rw [← h]
      exact ⟨gap, by rw [text_eq, brace]⟩
    · simp [stop] at h
  · intro h
    cases start with
    | key name rest =>
      obtain ⟨gap, member, rfl, before, literal, rfl, decoded⟩ := h
      rw [next_comma, first_eq_ok_iff]
      exact ⟨before, literal, rfl, decoded⟩
    | closed rest =>
      obtain ⟨gap, rfl⟩ := h
      exact next_closed gap rest

end Members

end SpanScore.Json
