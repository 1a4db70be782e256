import SpanScore.Proofs.Toml.Escapes

/-!
# What strings are read from

The characters between the quotes of a string stand for themselves, or are part of an escape, or
are white space that a backslash at the end of a line takes away.  Main statement: a string of one
line is read from exactly the texts that are written so, whatever follows them.
-/

namespace SpanScore.Toml

/-! ## Bodies of strings -/

/-- Whether a character stands for itself in a string between `quote`s, which may have several
lines or not.  In a string of several lines up to two quotes may stand next to each other; `next` is
what stands behind the character in the string. -/
inductive Stands (quote : Char) (lines : Bool) : Char → List Char → Prop
  | plain {char : Char} {next : List Char} (isPlain : Reader.isPlain char = true)
    (other : char ≠ quote) (unescaped : quote = '"' → char ≠ '\\') : Stands quote lines char next
  | newline {next : List Char} (several : lines = true) : Stands quote lines '\n' next
  | carriageReturn {next : List Char} (several : lines = true) :
    Stands quote lines '\r' ('\n' :: next)
  | quotes {next : List Char} (several : lines = true)
    (few : (next.takeWhile (· == quote)).length ≤ 1) : Stands quote lines quote next

/-- Whether a text between quotes has some contents. -/
inductive Reads (quote : Char) (lines : Bool) : List Char → List Char → Prop
  | nil : Reads quote lines [] []
  | char {char : Char} {body content : List Char} (stands : Stands quote lines char body)
    (more : Reads quote lines body content) : Reads quote lines (char :: body) (char :: content)
  | escape {escaped body content : List Char} {char : Char} (basic : quote = '"')
    (escapes : Escapes escaped char) (more : Reads quote lines body content) :
    Reads quote lines ('\\' :: (escaped ++ body)) (char :: content)
  | fold {white body content : List Char} (basic : quote = '"') (several : lines = true)
    (folds : Folds white) (stops : ¬Starts IsWhite body)
    (more : Reads quote lines body content) :
    Reads quote lines ('\\' :: (white ++ body)) content

/-- The quotes on either side of a string. -/
def delimiter (quote : Char) (lines : Bool) : List Char :=
  List.replicate (if lines then 3 else 1) quote

/-- Whether what stands between the quotes of a string has some contents.  A line end right behind
the opening quotes of a string of several lines is none of them. -/
inductive Spells (quote : Char) (lines : Bool) : List Char → List Char → Prop
  | plain {body content : List Char} (reads : Reads quote lines body content)
    (unbroken : lines = true → ¬Starts (fun char ↦ char = '\n' ∨ char = '\r') body) :
    Spells quote lines body content
  | trimmed {newline body content : List Char} (several : lines = true)
    (isNewline : IsNewline newline) (reads : Reads quote lines body content) :
    Spells quote lines (newline ++ body) content

/-- A string as it is written, with its contents. -/
structure StringToken where
  quote : Char
  lines : Bool
  body : List Char
  content : List Char
  isQuote : IsQuote quote
  spells : Spells quote lines body content

def StringToken.text (token : StringToken) : List Char :=
  delimiter token.quote token.lines ++ token.body ++ delimiter token.quote token.lines

namespace Reader

/-! ## Strings of one line -/

theorem basicFrom_cons {char : Char} (isPlain : Reader.isPlain char = true) (other : char ≠ '"')
    (unescaped : char ≠ '\\') (read rest : List Char) (fuel offset : Nat) :
    basicFrom read (fuel + 1) ⟨char :: rest, offset⟩ =
      basicFrom (char :: read) fuel ⟨rest, offset + byteLength [char]⟩ := by
  rw [basicFrom, bind_run (show next ⟨char :: rest, offset⟩ = some (char, _) from rfl)]
  split
  · exact absurd rfl other
  · exact absurd rfl unescaped
  · rw [if_pos isPlain]
    rfl

theorem basicFrom_escape (read rest : List Char) (fuel offset : Nat) :
    basicFrom read (fuel + 1) ⟨'\\' :: rest, offset⟩ =
      (escape >>= fun char ↦ basicFrom (char :: read) fuel)
        ⟨rest, offset + byteLength ['\\']⟩ := rfl

theorem basicFrom_quote (read rest : List Char) (fuel offset : Nat) :
    basicFrom read (fuel + 1) ⟨'"' :: rest, offset⟩ =
      some (String.ofList read.reverse, ⟨rest, offset + byteLength ['"']⟩) := rfl

theorem basicFrom_complete {body content : List Char} (reads : Reads '"' false body content)
    (rest : List Char) {read : List Char} {fuel : Nat} (enough : body.length < fuel)
    (offset : Nat) :
    basicFrom read fuel ⟨body ++ '"' :: rest, offset⟩ =
      some (String.ofList (read.reverse ++ content),
        ⟨rest, offset + byteLength (body ++ ['"'])⟩) := by
  obtain ⟨fuel, rfl⟩ : ∃ less, fuel = less + 1 := ⟨fuel - 1, by omega⟩
  induction reads generalizing read fuel offset with
  | nil => rw [List.nil_append, basicFrom_quote, List.append_nil, List.nil_append]
  | @char char body content stands more ih =>
    cases stands with
    | plain isPlain other unescaped =>
      rw [List.length_cons] at enough
      obtain ⟨fuel, rfl⟩ : ∃ less, fuel = less + 1 := ⟨fuel - 1, by omega⟩
      rw [List.cons_append, basicFrom_cons isPlain other (unescaped rfl), ih _ fuel (by omega)]
      simp [byteLength_append, byteLength_cons, Nat.add_assoc]
    | newline several => cases several
    | carriageReturn several => cases several
    | quotes several => cases several
  | @escape escaped body content char _ escapes more ih =>
    rw [List.length_cons, List.length_append] at enough
    obtain ⟨fuel, rfl⟩ : ∃ less, fuel = less + 1 := ⟨fuel - 1, by omega⟩
    rw [List.cons_append, List.append_assoc, basicFrom_escape,
      bind_run (escapes.reads _ _), ih _ fuel (by omega)]
    simp [byteLength_append, byteLength_cons, Nat.add_assoc]
  | fold _ several => cases several

theorem basicFrom_sound {read : List Char} {fuel : Nat} {cursor after : Cursor} {text : String}
    (ran : basicFrom read fuel cursor = some (text, after)) :
    ∃ body content, Passes cursor after (body ++ ['"']) ∧ Reads '"' false body content ∧
      text = String.ofList (read.reverse ++ content) := by
  induction fuel generalizing read cursor with
  | zero => cases ran
  | succ fuel ih =>
    obtain ⟨char, middle, firstRan, ran⟩ := bind_eq_some_iff.1 ran
    have first := next_eq_some_iff.1 firstRan
    split at ran
    · obtain ⟨rfl, rfl⟩ := pure_eq_some_iff.1 ran
      exact ⟨[], [], first, .nil, by rw [List.append_nil]⟩
    · obtain ⟨char, middle', escapeRan, ran⟩ := bind_eq_some_iff.1 ran
      obtain ⟨escaped, passes, escapes⟩ := escape_sound escapeRan
      obtain ⟨body, content, passes', reads, rfl⟩ := ih ran
      refine ⟨'\\' :: (escaped ++ body), char :: content, ?_, .escape rfl escapes reads, by simp⟩
      simpa using (first.trans passes).trans passes'
    · next other unescaped =>
      split at ran
      · next isPlain =>
        obtain ⟨body, content, passes, reads, rfl⟩ := ih ran
        refine ⟨char :: body, char :: content, first.trans passes, ?_, by simp⟩
        exact .char (.plain isPlain other fun _ ↦ unescaped) reads
      · cases ran

/-- Without escapes, the contents are what is written, and no character is a line end or a quote. -/
theorem reads_literal_iff {body content : List Char} :
    Reads '\'' false body content ↔
      body = content ∧ ∀ char ∈ body, (isPlain char && decide (char ≠ '\'')) = true := by
  constructor
  · intro reads
    induction reads with
    | nil => simp
    | char stands _ ih =>
      cases stands with
      | plain isPlain other => simpa [isPlain, other] using ih
      | newline several => cases several
      | carriageReturn several => cases several
      | quotes several => cases several
    | escape basic => cases basic
    | fold basic => cases basic
  · rintro ⟨rfl, inside⟩
    induction body with
    | nil => exact .nil
    | cons char body ih =>
      obtain ⟨first, inside⟩ := List.forall_mem_cons.1 inside
      rw [Bool.and_eq_true, decide_eq_true_iff] at first
      exact .char (.plain first.1 first.2 nofun) (ih inside)

theorem literal_complete {body content : List Char} (reads : Reads '\'' false body content)
    (rest : List Char) (offset : Nat) :
    literal ⟨body ++ '\'' :: rest, offset⟩ =
      some (String.ofList content, ⟨rest, offset + byteLength (body ++ ['\''])⟩) := by
  obtain ⟨rfl, inside⟩ := reads_literal_iff.1 reads
  rw [literal, bind_run (takeWhile_append inside (by simp) offset), byteLength_append,
    ← Nat.add_assoc]
  rfl

theorem literal_sound {cursor after : Cursor} {text : String}
    (ran : literal cursor = some (text, after)) :
    ∃ body content, Passes cursor after (body ++ ['\'']) ∧ Reads '\'' false body content ∧
      text = String.ofList content := by
  obtain ⟨body, middle, takenRan, ran⟩ := bind_eq_some_iff.1 ran
  obtain ⟨_, behind, quoteRan, ran⟩ := bind_eq_some_iff.1 ran
  obtain ⟨rfl, rfl⟩ := pure_eq_some_iff.1 ran
  obtain ⟨passes, inside, -⟩ := takeWhile_sound takenRan
  exact ⟨body, body, passes.trans (passes_of_exactly quoteRan),
    reads_literal_iff.2 ⟨rfl, inside⟩, rfl⟩

theorem line_complete {quote : Char} (isQuote : IsQuote quote) {body content : List Char}
    (reads : Reads quote false body content) (rest : List Char) (offset : Nat) :
    line ⟨quote :: (body ++ quote :: rest), offset⟩ =
      some (String.ofList content, ⟨rest, offset + byteLength (quote :: (body ++ [quote]))⟩) := by
  rw [byteLength_cons, ← Nat.add_assoc]
  obtain rfl | rfl := isQuote
  · have enough : body.length < (body ++ '"' :: rest).length + 1 := by
      rw [List.length_append]
      omega
    exact basicFrom_complete reads rest enough _
  · exact literal_complete reads rest _

theorem line_sound {cursor after : Cursor} {text : String}
    (ran : line cursor = some (text, after)) :
    ∃ quote body content, IsQuote quote ∧ Passes cursor after (quote :: (body ++ [quote])) ∧
      Reads quote false body content ∧ text = String.ofList content := by
  obtain ⟨char, middle, firstRan, ran⟩ := bind_eq_some_iff.1 ran
  have first := next_eq_some_iff.1 firstRan
  split at ran
  · obtain ⟨body, content, passes, reads, rfl⟩ :=
      basicFrom_sound (show basicFrom [] _ middle = _ from ran)
    exact ⟨'"', body, content, .inl rfl, first.trans passes, reads, rfl⟩
  · obtain ⟨body, content, passes, reads, rfl⟩ := literal_sound ran
    exact ⟨'\'', body, content, .inr rfl, first.trans passes, reads, rfl⟩
  · cases ran

/-- A string of one line is read alike whatever follows it. -/
theorem follows_line : Follows line line Eq := by
  intro cursor text after ran
  obtain ⟨quote, body, content, isQuote, passes, reads, rfl⟩ := line_sound ran
  refine ⟨_, passes, fun rest offset _ ↦ ⟨_, ?_, rfl⟩⟩
  simpa using line_complete isQuote reads rest offset

/-! ## Runs of quotes -/

theorem exists_replicate (quote : Char) (text : List Char) :
    ∃ rest, text = List.replicate (text.takeWhile (· == quote)).length quote ++ rest ∧
      ¬Starts (· = quote) rest := by
  refine ⟨text.dropWhile (· == quote), ?_, ?_⟩
  · have same : text.takeWhile (· == quote) =
        List.replicate (text.takeWhile (· == quote)).length quote :=
      List.eq_replicate_of_mem fun char mem ↦ by simpa using List.mem_takeWhile_imp mem
    rw [← same, List.takeWhile_append_dropWhile]
  · rintro ⟨char, more, written, rfl⟩
    have stops := head?_dropWhile (congrArg List.head? written)
    simp at stops

theorem length_takeWhile_replicate {quote : Char} {count : Nat} {rest : List Char}
    (stops : ¬Starts (· = quote) rest) :
    ((List.replicate count quote ++ rest).takeWhile (· == quote)).length = count := by
  have none : rest.takeWhile (· == quote) = [] := by
    cases rest with
    | nil => rfl
    | cons char rest => simpa using stops
  rw [List.takeWhile_append_of_pos (by simp), none, List.append_nil, List.length_replicate]

end Reader

end SpanScore.Toml
