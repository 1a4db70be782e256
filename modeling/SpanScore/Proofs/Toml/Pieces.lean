import SpanScore.Proofs.Config.Substitution
import SpanScore.Proofs.Toml.Strings

/-!
# Strings with holes

A hole in a text is a place where a variable is named and its value can be put.  Main statement: a
string stays a string when the holes in it are filled, and its contents are filled alike, provided
that the characters of each value stand for themselves in their place.
-/

namespace SpanScore.Toml

open Substitution (written)

/-- What a text is made of: characters, and holes with a name and a value. -/
inductive Piece where
  | char (char : Char)
  | hole (name value : List Char)

/-- How a piece is written, holes by their names. -/
def Piece.unfilled : Piece → List Char
  | .char symbol => [symbol]
  | .hole name _ => written name

/-- How a piece is written, holes by their values. -/
def Piece.filled : Piece → List Char
  | .char symbol => [symbol]
  | .hole _ value => value

/-- The text of pieces, holes being written by their names. -/
def unfilled (pieces : List Piece) : List Char :=
  pieces.flatMap Piece.unfilled

/-- The text of pieces, holes being written by their values. -/
def filled (pieces : List Piece) : List Char :=
  pieces.flatMap Piece.filled

@[simp] theorem unfilled_nil : unfilled [] = [] := rfl

@[simp] theorem filled_nil : filled [] = [] := rfl

@[simp] theorem unfilled_char (char : Char) (pieces : List Piece) :
    unfilled (.char char :: pieces) = char :: unfilled pieces := rfl

@[simp] theorem filled_char (char : Char) (pieces : List Piece) :
    filled (.char char :: pieces) = char :: filled pieces := rfl

@[simp] theorem unfilled_hole (name value : List Char) (pieces : List Piece) :
    unfilled (.hole name value :: pieces) = written name ++ unfilled pieces := rfl

@[simp] theorem filled_hole (name value : List Char) (pieces : List Piece) :
    filled (.hole name value :: pieces) = value ++ filled pieces := rfl

@[simp] theorem unfilled_append (pieces pieces' : List Piece) :
    unfilled (pieces ++ pieces') = unfilled pieces ++ unfilled pieces' :=
  List.flatMap_append

@[simp] theorem filled_append (pieces pieces' : List Piece) :
    filled (pieces ++ pieces') = filled pieces ++ filled pieces' :=
  List.flatMap_append

@[simp] theorem unfilled_map_char (chars : List Char) :
    unfilled (chars.map Piece.char) = chars := by
  induction chars with
  | nil => rfl
  | cons char chars ih => rw [List.map_cons, unfilled_char, ih]

@[simp] theorem filled_map_char (chars : List Char) :
    filled (chars.map Piece.char) = chars := by
  induction chars with
  | nil => rfl
  | cons char chars ih => rw [List.map_cons, filled_char, ih]

/-! ## Contents with holes -/

/-- Whether no escape is cut at the end of what stands in a string. -/
inductive Whole (quote : Char) : List Char → Prop
  | nil : Whole quote []
  | char {text : List Char} {char : Char} (whole : Whole quote text)
    (unescaped : quote = '"' → char ≠ '\\') : Whole quote (text ++ [char])
  | escape {text escaped : List Char} {char : Char} (whole : Whole quote text)
    (escapes : Escapes escaped char) : Whole quote (text ++ '\\' :: escaped)
  | fold {text white : List Char} (whole : Whole quote text) (folds : Folds white) :
    Whole quote (text ++ '\\' :: white)

/-- Whether a value stands for itself where it is put in a string, between what is `left` and what
is `right` of it there.  Each of its characters stands for itself, and so does what is around it:
the quotes on its left are still too few to end the string, the white space behind a line end that
a backslash takes away still ends there, and so does a line end behind the opening quotes. -/
structure Suits (quote : Char) (lines : Bool) (left value right : List Char) : Prop where
  stands : ∀ front char behind, value = front ++ char :: behind →
    Stands quote lines char (behind ++ right)
  quotes : lines = true → ∀ text count, Whole quote text →
    left = text ++ List.replicate count quote → 0 < count →
    count + ((value ++ right).takeWhile (· == quote)).length ≤ 2
  folds : lines = true → quote = '"' → ∀ text white, Whole quote text → Folds white →
    left = text ++ '\\' :: white → ¬Starts IsWhite (value ++ right)
  opening : lines = true → left = [] →
    ¬Starts (fun char ↦ char = '\n' ∨ char = '\r') (value ++ right)

/-- Whether what stands in a string has some contents, the holes in it being holes in these.  A
name may be written with escapes. -/
inductive Decoded (quote : Char) (lines : Bool) : List Piece → List Piece → Prop
  | nil : Decoded quote lines [] []
  | char {char : Char} {body contents : List Piece} (unescaped : quote = '"' → char ≠ '\\')
    (more : Decoded quote lines body contents) :
    Decoded quote lines (.char char :: body) (.char char :: contents)
  | escape {escaped : List Char} {char : Char} {body contents : List Piece} (basic : quote = '"')
    (escapes : Escapes escaped char) (more : Decoded quote lines body contents) :
    Decoded quote lines (.char '\\' :: (escaped.map .char ++ body)) (.char char :: contents)
  | fold {white : List Char} {body contents : List Piece} (basic : quote = '"')
    (folds : Folds white) (stops : ¬Starts IsWhite (unfilled body))
    (more : Decoded quote lines body contents) :
    Decoded quote lines (.char '\\' :: (white.map .char ++ body)) contents
  | hole {name decoded value : List Char} {body contents : List Piece}
    (named : Reads quote lines (written name) (written decoded))
    (more : Decoded quote lines body contents) :
    Decoded quote lines (.hole name value :: body) (.hole decoded value :: contents)

/-- Whether what stands between the quotes of a string has some contents. -/
inductive Contents (quote : Char) (lines : Bool) : List Piece → List Piece → Prop
  | plain {body contents : List Piece} (decoded : Decoded quote lines body contents)
    (unbroken : lines = true → ¬Starts (fun char ↦ char = '\n' ∨ char = '\r') (unfilled body)) :
    Contents quote lines body contents
  | trimmed {newline : List Char} {body contents : List Piece} (several : lines = true)
    (isNewline : IsNewline newline) (decoded : Decoded quote lines body contents) :
    Contents quote lines (newline.map .char ++ body) contents

/-! ## Holes and characters -/

/-- Characters in front of a text that cannot begin a hole are characters of its pieces. -/
theorem exists_chars {pieces : List Piece} {front more : List Char}
    (text_eq : unfilled pieces = front ++ more) (noHole : '$' ∉ front) :
    ∃ rest, pieces = front.map .char ++ rest ∧ unfilled rest = more := by
  induction front generalizing pieces with
  | nil => exact ⟨pieces, rfl, text_eq⟩
  | cons char front ih =>
    rw [List.mem_cons, not_or] at noHole
    match pieces with
    | [] => cases text_eq
    | .hole name value :: pieces => exact absurd (List.cons.inj text_eq).1 noHole.1
    | .char char' :: pieces =>
      obtain ⟨rfl, behind_eq⟩ := List.cons.inj text_eq
      obtain ⟨rest, rfl, rest_eq⟩ := ih behind_eq noHole.2
      exact ⟨rest, rfl, rest_eq⟩

/-- Contents without a dollar are without holes. -/
theorem filled_eq_unfilled {pieces : List Piece} (plain : '$' ∉ unfilled pieces) :
    filled pieces = unfilled pieces := by
  induction pieces with
  | nil => rfl
  | cons piece pieces ih =>
    cases piece with
    | char char => rw [filled_char, unfilled_char, ih fun mem ↦ plain (List.mem_cons_of_mem _ mem)]
    | hole name value => exact absurd List.mem_cons_self plain

theorem Stands.unescaped {quote char : Char} {lines : Bool} {next : List Char}
    (stands : Stands quote lines char next) (basic : quote = '"') : char ≠ '\\' := by
  cases stands with
  | plain _ _ unescaped => exact unescaped basic
  | newline => decide
  | carriageReturn => decide
  | quotes => rw [basic]; decide

theorem IsQuote.notMem_replicate {quote char : Char} (isQuote : IsQuote quote)
    (other : ¬IsQuote char) (count : Nat) : char ∉ List.replicate count quote :=
  fun mem ↦ other (List.eq_of_mem_replicate mem ▸ isQuote)

theorem IsQuote.stands_plain {quote char : Char} (isQuote : IsQuote quote) (lines : Bool)
    (next : List Char) (isPlain : Reader.isPlain char = true) (other : ¬IsQuote char)
    (unescaped : char ≠ '\\') : Stands quote lines char next :=
  .plain isPlain (fun eq ↦ other (eq ▸ isQuote)) fun _ ↦ unescaped

/-! ## Cutting strings -/

theorem BlankLines.isWhite {white : List Char} (lines : BlankLines white) :
    ∀ char ∈ white, IsWhite char := by
  induction lines with
  | last isBlank => exact fun char mem ↦ .inl (isBlank char mem)
  | line isBlank isNewline _ ih =>
    intro char mem
    rw [List.mem_append, List.mem_append] at mem
    obtain (mem | mem) | mem := mem
    · exact .inl (isBlank char mem)
    · obtain rfl | rfl := isNewline <;> simp at mem
      · exact .inr (.inl mem)
      · exact .inr mem.symm
    · exact ih char mem

theorem Folds.isWhite {white : List Char} (folds : Folds white) : ∀ char ∈ white, IsWhite char := by
  obtain ⟨blank, newline, more, isBlank, isNewline, lines, rfl⟩ := folds
  exact (BlankLines.line isBlank isNewline lines).isWhite

/-- What a text takes up to a character that it does not hold leaves that character alone. -/
theorem exists_front {char : Char} {front more taken body : List Char}
    (text_eq : front ++ char :: more = taken ++ body) (other : char ∉ taken) :
    ∃ front', front = taken ++ front' ∧ body = front' ++ char :: more := by
  obtain ⟨between, taken_eq, more_eq⟩ | ⟨between, front_eq, body_eq⟩ :=
    List.append_eq_append_iff.1 text_eq
  · cases between with
    | nil => exact ⟨[], by simpa using taken_eq.symm, more_eq.symm⟩
    | cons first between =>
      obtain ⟨rfl, -⟩ := List.cons.inj more_eq
      exact absurd (by simp [taken_eq]) other
  · exact ⟨between, front_eq, body_eq⟩

/-- Whether a character stands for itself is decided by what stands in front of a brace. -/
theorem Stands.cut {quote char : Char} {lines : Bool} {next front more : List Char}
    (isQuote : IsQuote quote) (stands : Stands quote lines char next)
    (next_eq : front ++ '\x7d' :: more = next) : Stands quote lines char (front ++ ['\x7d']) := by
  cases stands with
  | plain isPlain other unescaped => exact .plain isPlain other unescaped
  | newline several => exact .newline several
  | carriageReturn several =>
    cases front with
    | nil => cases next_eq
    | cons first front =>
      obtain ⟨rfl, -⟩ := List.cons.inj next_eq
      exact .carriageReturn several
  | quotes several few =>
    have brace : ('\x7d' == quote) = false := by obtain rfl | rfl := isQuote <;> rfl
    refine .quotes several ?_
    rw [← next_eq, List.takeWhile_append, List.takeWhile_cons_of_neg (by simp [brace])] at few
    rwa [List.takeWhile_append, List.takeWhile_cons_of_neg (by simp [brace])]

/-- A brace that closes cuts what stands in a string into two parts. -/
theorem Reads.split {quote : Char} {lines : Bool} {front more content : List Char}
    (isQuote : IsQuote quote) (reads : Reads quote lines (front ++ '\x7d' :: more) content) :
    ∃ head tail, content = head ++ '\x7d' :: tail ∧
      Reads quote lines (front ++ ['\x7d']) (head ++ ['\x7d']) ∧ Reads quote lines more tail := by
  have brace (next : List Char) : Stands quote lines '\x7d' next :=
    isQuote.stands_plain lines next (by decide) (by decide) (by decide)
  generalize text_eq : front ++ '\x7d' :: more = text at reads
  induction reads generalizing front with
  | nil => exact absurd text_eq (by simp)
  | @char char body content stands reads ih =>
    cases front with
    | nil =>
      obtain ⟨rfl, rfl⟩ := List.cons.inj text_eq
      exact ⟨[], content, rfl, .char (brace []) .nil, reads⟩
    | cons first front =>
      obtain ⟨rfl, body_eq⟩ := List.cons.inj text_eq
      obtain ⟨head, tail, rfl, front_reads, more_reads⟩ := ih body_eq
      exact ⟨first :: head, tail, rfl, .char (stands.cut isQuote body_eq) front_reads, more_reads⟩
  | @escape escaped body content char basic escapes reads ih =>
    have other : '\x7d' ∉ '\\' :: escaped := by
      rw [List.mem_cons, not_or]
      exact ⟨by decide, fun mem ↦ (escapes.noReference _ mem).2 rfl⟩
    obtain ⟨front, rfl, body_eq⟩ := exists_front text_eq other
    obtain ⟨head, tail, rfl, front_reads, more_reads⟩ := ih body_eq.symm
    refine ⟨char :: head, tail, rfl, ?_, more_reads⟩
    rw [List.cons_append, List.cons_append, List.append_assoc]
    exact .escape basic escapes front_reads
  | @fold white body content basic several folds stops reads ih =>
    have other : '\x7d' ∉ '\\' :: white := by
      rw [List.mem_cons, not_or]
      refine ⟨by decide, fun mem ↦ ?_⟩
      have isWhite := folds.isWhite _ mem
      revert isWhite
      simp [IsWhite, Reader.isBlank]
    obtain ⟨front, rfl, body_eq⟩ := exists_front text_eq other
    obtain ⟨head, tail, rfl, front_reads, more_reads⟩ := ih body_eq.symm
    refine ⟨head, tail, rfl, ?_, more_reads⟩
    rw [List.cons_append, List.cons_append, List.append_assoc]
    refine .fold basic several folds ?_ front_reads
    cases front with
    | nil => simp [IsWhite, Reader.isBlank]
    | cons first front => simpa [body_eq] using stops

/-- What names a hole in a string has contents of its own. -/
theorem Reads.split_written {quote : Char} {lines : Bool} {name more content : List Char}
    (isQuote : IsQuote quote) (reads : Reads quote lines (written name ++ more) content) :
    ∃ decoded tail, content = written decoded ++ tail ∧
      Reads quote lines (written name) (written decoded) ∧ Reads quote lines more tail := by
  have dollar (next : List Char) : Stands quote lines '$' next :=
    isQuote.stands_plain lines next (by decide) (by decide) (by decide)
  have brace (next : List Char) : Stands quote lines '\x7b' next :=
    isQuote.stands_plain lines next (by decide) (by decide) (by decide)
  rw [written, List.cons_append, List.cons_append, List.append_assoc] at reads
  cases reads with
  | char _ reads =>
    cases reads with
    | char _ reads =>
      obtain ⟨decoded, tail, rfl, named, reads⟩ := reads.split isQuote
      exact ⟨decoded, tail, by simp [written], .char (dollar _) (.char (brace _) named), reads⟩

/-! ## Filling holes -/

section Fill

variable {quote : Char} {lines : Bool}

/-- What holds behind the text `before` of a string: the value of every hole suits its place. -/
def Fits (quote : Char) (lines : Bool) (before : List Char) (pieces : List Piece) : Prop :=
  ∀ left name value right, pieces = left ++ .hole name value :: right →
    Suits quote lines (before ++ filled left) value (filled right)

theorem Fits.behind {before : List Char} (pieces : List Piece) {pieces' : List Piece}
    (fits : Fits quote lines before (pieces ++ pieces')) :
    Fits quote lines (before ++ filled pieces) pieces' := by
  rintro left name value right rfl
  have suits := fits (pieces ++ left) name value right (List.append_assoc _ _ _).symm
  rwa [filled_append, ← List.append_assoc] at suits

theorem Whole.value {before value right : List Char} (whole : Whole quote before)
    (stands : ∀ front char behind, value = front ++ char :: behind →
      Stands quote lines char (behind ++ right)) : Whole quote (before ++ value) := by
  induction value generalizing before with
  | nil => rwa [List.append_nil]
  | cons char value ih =>
    rw [← List.singleton_append, ← List.append_assoc]
    exact ih (whole.char (stands [] char value rfl).unescaped) fun front char' behind value_eq ↦
      stands (char :: front) char' behind (congrArg (char :: ·) value_eq)

theorem Reads.value {value right content : List Char} (reads : Reads quote lines right content)
    (stands : ∀ front char behind, value = front ++ char :: behind →
      Stands quote lines char (behind ++ right)) :
    Reads quote lines (value ++ right) (value ++ content) := by
  induction value with
  | nil => exact reads
  | cons char value ih =>
    exact .char (stands [] char value rfl) (ih fun front char' behind value_eq ↦
      stands (char :: front) char' behind (congrArg (char :: ·) value_eq))

/-- White space that ends in front of pieces still ends there when they are filled. -/
theorem not_starts_filled {kind : Char → Prop} {pieces : List Piece}
    (stops : ¬Starts kind (unfilled pieces))
    (hole : ∀ name value right, pieces = .hole name value :: right →
      ¬Starts kind (value ++ filled right)) : ¬Starts kind (filled pieces) := by
  match pieces with
  | [] => exact not_starts_nil kind
  | .char char :: pieces => simpa using stops
  | .hole name value :: right => exact hole name value right rfl

/-- A character of a string stands for itself when the holes behind it are filled. -/
theorem Stands.fill {before : List Char} {char : Char} {pieces : List Piece}
    (stands : Stands quote lines char (unfilled pieces)) (isQuote : IsQuote quote)
    (whole : Whole quote before) (fits : Fits quote lines before (.char char :: pieces)) :
    Stands quote lines char (filled pieces) := by
  generalize text_eq : unfilled pieces = text at stands
  cases stands with
  | plain isPlain other unescaped => exact .plain isPlain other unescaped
  | newline several => exact .newline several
  | @carriageReturn next several =>
    obtain ⟨rest, rfl, -⟩ := exists_chars (show _ = ['\n'] ++ next from text_eq) (by decide)
    exact .carriageReturn several
  | quotes several few =>
    refine .quotes several ?_
    obtain ⟨behind, behind_eq, stops⟩ := Reader.exists_replicate quote text
    generalize (text.takeWhile (· == quote)).length = count at few behind_eq
    rw [behind_eq] at text_eq
    obtain ⟨rest, rfl, rfl⟩ := exists_chars text_eq (isQuote.notMem_replicate (by decide) count)
    rw [filled_append, filled_map_char]
    by_cases hole : ∃ name value right, rest = .hole name value :: right
    · obtain ⟨name, value, right, rfl⟩ := hole
      have suits :=
        fits (.char quote :: (List.replicate count quote).map .char) name value right rfl
      rw [filled_char, filled_map_char, ← List.replicate_succ] at suits
      have few := suits.quotes several before (count + 1) whole rfl (Nat.succ_pos count)
      rw [filled_hole, List.takeWhile_append_of_pos (by simp), List.length_append,
        List.length_replicate]
      omega
    · have behindStops := not_starts_filled stops fun name value right eq ↦
        absurd ⟨name, value, right, eq⟩ hole
      rwa [Reader.length_takeWhile_replicate behindStops]

/-- A string stays a string when the holes in it are filled with values that suit their places. -/
theorem Reads.fill (isQuote : IsQuote quote) {before content : List Char} {pieces : List Piece}
    (reads : Reads quote lines (unfilled pieces) content) (whole : Whole quote before)
    (fits : Fits quote lines before pieces) :
    ∃ contents, Decoded quote lines pieces contents ∧ unfilled contents = content ∧
      Reads quote lines (filled pieces) (filled contents) := by
  match pieces with
  | [] =>
    cases reads
    exact ⟨[], .nil, rfl, .nil⟩
  | .hole name value :: rest =>
    obtain ⟨decoded, tail, rfl, named, reads⟩ := reads.split_written isQuote
    have stands := (fits [] name value rest rfl).stands
    have fitsBehind : Fits quote lines (before ++ value) rest := by
      have fits := fits.behind [.hole name value]
      rwa [filled_hole, filled_nil, List.append_nil] at fits
    obtain ⟨contents, decodes, rfl, readsBehind⟩ :=
      reads.fill isQuote (whole.value stands) fitsBehind
    exact ⟨.hole decoded value :: contents, .hole named decodes, rfl, readsBehind.value stands⟩
  | .char first :: rest =>
    generalize text_eq : unfilled (.char first :: rest) = text at reads
    cases reads with
    | nil => cases text_eq
    | char stands reads =>
      obtain ⟨rfl, rfl⟩ := List.cons.inj text_eq
      have unescaped := stands.unescaped
      obtain ⟨contents, decodes, rfl, readsBehind⟩ := reads.fill isQuote (whole.char unescaped)
        (fits.behind [.char first])
      exact ⟨.char first :: contents, .char unescaped decodes, rfl,
        .char (stands.fill isQuote whole fits) readsBehind⟩
    | @escape escaped body content value basic escapes reads =>
      obtain ⟨rfl, rest_eq⟩ := List.cons.inj text_eq
      obtain ⟨rest, rfl, rfl⟩ :=
        exists_chars rest_eq fun mem ↦ (escapes.noReference _ mem).1 rfl
      obtain ⟨contents, decodes, rfl, readsBehind⟩ := reads.fill isQuote (whole.escape escapes)
        (by simpa using fits.behind (.char '\\' :: escaped.map .char))
      refine ⟨.char value :: contents, .escape basic escapes decodes, rfl, ?_⟩
      rw [filled_char, filled_append, filled_map_char]
      exact .escape basic escapes readsBehind
    | @fold white body content basic several folds stops reads =>
      obtain ⟨rfl, rest_eq⟩ := List.cons.inj text_eq
      have noHole : '$' ∉ white := by
        intro mem
        exact absurd (folds.isWhite _ mem) (by simp [IsWhite, Reader.isBlank])
      obtain ⟨rest, rfl, rfl⟩ := exists_chars rest_eq noHole
      obtain ⟨contents, decodes, rfl, readsBehind⟩ := reads.fill isQuote (whole.fold folds)
        (by simpa using fits.behind (.char '\\' :: white.map .char))
      refine ⟨contents, .fold basic folds stops decodes, rfl, ?_⟩
      rw [filled_char, filled_append, filled_map_char]
      refine .fold basic several folds (not_starts_filled stops ?_) readsBehind
      rintro name value right rfl
      have suits := fits (.char '\\' :: white.map .char) name value right rfl
      rw [filled_char, filled_map_char] at suits
      exact suits.folds several basic before white whole folds rfl
termination_by pieces.length

theorem Spells.fill (isQuote : IsQuote quote) {content : List Char} {pieces : List Piece}
    (spells : Spells quote lines (unfilled pieces) content) (fits : Fits quote lines [] pieces) :
    ∃ contents, Contents quote lines pieces contents ∧ unfilled contents = content ∧
      Spells quote lines (filled pieces) (filled contents) := by
  generalize text_eq : unfilled pieces = text at spells
  cases spells with
  | plain reads unbroken =>
    subst text_eq
    obtain ⟨contents, decoded, rfl, readsFilled⟩ := reads.fill isQuote .nil fits
    refine ⟨contents, .plain decoded unbroken, rfl, .plain readsFilled fun several ↦ ?_⟩
    refine not_starts_filled (unbroken several) ?_
    rintro name value right rfl
    exact (fits [] name value right rfl).opening several rfl
  | @trimmed newline body content several isNewline reads =>
    have noHole : '$' ∉ newline := by obtain rfl | rfl := isNewline <;> decide
    obtain ⟨rest, rfl, rfl⟩ := exists_chars text_eq noHole
    have whole : Whole quote newline := by
      obtain rfl | rfl := isNewline
      · exact .char .nil fun _ ↦ by decide
      · exact .char (.char .nil fun _ ↦ by decide) fun _ ↦ by decide
    obtain ⟨contents, decoded, rfl, readsFilled⟩ := reads.fill isQuote whole
      (by simpa using fits.behind (newline.map .char))
    refine ⟨contents, .trimmed several isNewline decoded, rfl, ?_⟩
    rw [filled_append, filled_map_char]
    exact .trimmed several isNewline readsFilled

end Fill

end SpanScore.Toml
