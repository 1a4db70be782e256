import SpanScore.Proofs.Toml.Reader
import SpanScore.Toml.Text

/-!
# Escapes and line ends

A backslash stands in front of an escape, or of white space that it takes away with the line ends in
it.  Main statement: what is taken behind a backslash is one of these, as far as it goes.
-/

namespace SpanScore.Toml

/-! ## Texts behind a backslash -/

/-- Whether a text begins with a character of some kind. -/
def Starts (kind : Char → Prop) (text : List Char) : Prop :=
  ∃ char rest, text = char :: rest ∧ kind char

@[simp] theorem not_starts_nil (kind : Char → Prop) : ¬Starts kind [] :=
  fun ⟨_, _, empty, _⟩ ↦ List.cons_ne_nil _ _ empty.symm

@[simp] theorem starts_cons {kind : Char → Prop} {char : Char} {rest : List Char} :
    Starts kind (char :: rest) ↔ kind char :=
  ⟨fun ⟨_, _, written, isKind⟩ ↦ (List.cons.inj written).1 ▸ isKind, fun h ↦ ⟨char, rest, rfl, h⟩⟩

theorem Starts.mono {kind kind' : Char → Prop} {text : List Char} (starts : Starts kind text)
    (h : ∀ char, kind char → kind' char) : Starts kind' text :=
  let ⟨char, rest, written, isKind⟩ := starts
  ⟨char, rest, written, h char isKind⟩

/-- Whether a text is read as an escape of a character, from behind its backslash on. -/
structure Escapes (escaped : List Char) (char : Char) : Prop where
  noReference : ∀ part ∈ escaped, part ≠ '$' ∧ part ≠ '\x7d'
  reads (rest : List Char) (offset : Nat) : Reader.escape ⟨escaped ++ rest, offset⟩ =
    some (char, ⟨rest, offset + byteLength escaped⟩)

def IsNewline (text : List Char) : Prop :=
  text = ['\n'] ∨ text = ['\r', '\n']

theorem IsNewline.starts {newline : List Char} (isNewline : IsNewline newline) (rest : List Char) :
    Starts (fun char ↦ char = '\n' ∨ char = '\r') (newline ++ rest) := by
  obtain rfl | rfl := isNewline
  · exact starts_cons.2 (.inl rfl)
  · exact starts_cons.2 (.inr rfl)

theorem IsNewline.not_starts_blank {newline : List Char} (isNewline : IsNewline newline)
    (rest : List Char) : ¬Starts (Reader.isBlank · = true) (newline ++ rest) := by
  obtain rfl | rfl := isNewline <;> simp [Reader.isBlank]

/-- Whether a text is white space with line ends. -/
inductive BlankLines : List Char → Prop
  | last {blank : List Char} (isBlank : ∀ char ∈ blank, Reader.isBlank char = true) :
    BlankLines blank
  | line {blank newline more : List Char} (isBlank : ∀ char ∈ blank, Reader.isBlank char = true)
    (isNewline : IsNewline newline) (lines : BlankLines more) :
    BlankLines (blank ++ newline ++ more)

/-- Whether a text is white space with at least one line end. -/
def Folds (white : List Char) : Prop :=
  ∃ blank newline more, (∀ char ∈ blank, Reader.isBlank char = true) ∧ IsNewline newline ∧
    BlankLines more ∧ white = blank ++ newline ++ more

/-- Whether a character is white space or belongs to a line end. -/
def IsWhite (char : Char) : Prop :=
  Reader.isBlank char = true ∨ char = '\n' ∨ char = '\r'

namespace Reader

/-! ## Escapes -/

theorem hexValue?_noReference {char : Char} {value : Nat} (h : hexValue? char = some value) :
    char ≠ '$' ∧ char ≠ '\x7d' := by
  constructor <;> (rintro rfl; cases h)

theorem next_eq_some_iff {cursor after : Cursor} {char : Char} :
    next cursor = some (char, after) ↔ Passes cursor after [char] := by
  obtain ⟨rest, offset⟩ := cursor
  obtain ⟨rest', offset'⟩ := after
  constructor
  · intro ran
    cases rest with
    | nil => cases ran
    | cons first rest => cases ran; exact ⟨rfl, rfl⟩
  · rintro ⟨rest_eq, offset_eq⟩
    obtain rfl : rest = char :: rest' := rest_eq
    obtain rfl : offset' = offset + byteLength [char] := offset_eq
    rfl

/-- What digits are read from, they are read from again. -/
theorem passes_of_exactly {char : Char} {cursor after : Cursor} {value : Unit}
    (ran : exactly char cursor = some (value, after)) : Passes cursor after [char] := by
  obtain ⟨taken, middle, takenRan, ran⟩ := bind_eq_some_iff.1 ran
  split at ran
  · cases ran
  · next same =>
    obtain ⟨-, rfl⟩ := pure_eq_some_iff.1 ran
    rw [← not_ne_iff.1 same]
    exact next_eq_some_iff.1 takenRan

theorem hexDigits_sound {number count value : Nat} {cursor after : Cursor}
    (ran : hexDigits number count cursor = some (value, after)) :
    ∃ digits, Passes cursor after digits ∧ (∀ part ∈ digits, part ≠ '$' ∧ part ≠ '\x7d') ∧
      ∀ rest offset, hexDigits number count ⟨digits ++ rest, offset⟩ =
        some (value, ⟨rest, offset + byteLength digits⟩) := by
  induction count generalizing number cursor with
  | zero =>
    obtain ⟨rfl, rfl⟩ := pure_eq_some_iff.1 ran
    exact ⟨[], .refl cursor, by simp, fun rest offset ↦ rfl⟩
  | succ count ih =>
    obtain ⟨char, middle, firstRan, ran⟩ := bind_eq_some_iff.1 ran
    have first := next_eq_some_iff.1 firstRan
    cases digit_eq : hexValue? char with
    | none => simp only [digit_eq] at ran; cases ran
    | some digit =>
      simp only [digit_eq] at ran
      obtain ⟨digits, passes, noReference, again⟩ := ih ran
      refine ⟨char :: digits, first.trans passes,
        List.forall_mem_cons.2 ⟨hexValue?_noReference digit_eq, noReference⟩, fun rest offset ↦ ?_⟩
      refine bind_eq_some_iff.2 ⟨char, ⟨digits ++ rest, offset + char.utf8Size⟩, rfl, ?_⟩
      simp only [digit_eq]
      rw [again, byteLength_cons, Nat.add_assoc]

theorem scalar_sound {count : Nat} {cursor after : Cursor} {char : Char}
    (ran : scalar count cursor = some (char, after)) :
    ∃ digits, Passes cursor after digits ∧ (∀ part ∈ digits, part ≠ '$' ∧ part ≠ '\x7d') ∧
      ∀ rest offset, scalar count ⟨digits ++ rest, offset⟩ =
        some (char, ⟨rest, offset + byteLength digits⟩) := by
  obtain ⟨number, middle, digitsRan, ran⟩ := bind_eq_some_iff.1 ran
  obtain ⟨digits, passes, noReference, again⟩ := hexDigits_sound digitsRan
  by_cases valid : number.isValidChar
  · rw [if_pos valid] at ran
    obtain ⟨rfl, rfl⟩ := pure_eq_some_iff.1 ran
    refine ⟨digits, passes, noReference, fun rest offset ↦ ?_⟩
    refine bind_eq_some_iff.2 ⟨number, _, again rest offset, ?_⟩
    rw [if_pos valid]
    rfl
  · rw [if_neg valid] at ran
    cases ran

theorem escape_sound {cursor after : Cursor} {char : Char}
    (ran : escape cursor = some (char, after)) :
    ∃ escaped, Passes cursor after escaped ∧ Escapes escaped char := by
  obtain ⟨letter, middle, letterRan, ran⟩ := bind_eq_some_iff.1 ran
  have first := next_eq_some_iff.1 letterRan
  have plain {letter value : Char} (first : Passes cursor middle [letter])
      (noReference : letter ≠ '$' ∧ letter ≠ '\x7d')
      (reads : ∀ rest offset, escape ⟨letter :: rest, offset⟩ =
        some (value, ⟨rest, offset + byteLength [letter]⟩))
      (ran : (pure value : Reader Char) middle = some (char, after)) :
      ∃ escaped, Passes cursor after escaped ∧ Escapes escaped char := by
    obtain ⟨rfl, rfl⟩ := pure_eq_some_iff.1 ran
    exact ⟨[letter], first, by simpa using noReference, reads⟩
  have coded {letter : Char} {count : Nat} (first : Passes cursor middle [letter])
      (noReference : letter ≠ '$' ∧ letter ≠ '\x7d')
      (reads : ∀ rest offset, escape ⟨letter :: rest, offset⟩ =
        scalar count ⟨rest, offset + byteLength [letter]⟩)
      (ran : scalar count middle = some (char, after)) :
      ∃ escaped, Passes cursor after escaped ∧ Escapes escaped char := by
    obtain ⟨digits, passes, noReference', again⟩ := scalar_sound ran
    refine ⟨letter :: digits, first.trans passes,
      List.forall_mem_cons.2 ⟨noReference, noReference'⟩, fun rest offset ↦ ?_⟩
    rw [List.cons_append, reads, again, Nat.add_assoc, ← byteLength_append]
    rfl
  split at ran
  iterate 8 exact plain first (by decide) (fun _ _ ↦ rfl) ran
  iterate 3 exact coded first (by decide) (fun _ _ ↦ rfl) ran
  cases ran

/-! ## White space with line ends -/

/-- A reader goes on with what the first one of it takes. -/
theorem bind_run {α β : Type} {read : Reader α} {next : α → Reader β} {cursor after : Cursor}
    {value : α} (ran : read cursor = some (value, after)) :
    (read >>= next) cursor = next value after := by
  change (read cursor).bind _ = _
  rw [ran]
  rfl

theorem head?_of_not_starts {kind : Char → Bool} {rest : List Char}
    (stops : ¬Starts (kind · = true) rest) (char : Char) (head : rest.head? = some char) :
    kind char = false := by
  obtain ⟨more, rfl⟩ := List.head?_eq_some_iff.1 head
  simpa using stops

theorem blanks_append {blank rest : List Char} (inside : ∀ char ∈ blank, isBlank char = true)
    (stops : ¬Starts (isBlank · = true) rest) (offset : Nat) :
    blanks ⟨blank ++ rest, offset⟩ = some ((), ⟨rest, offset + byteLength blank⟩) := by
  rw [blanks, discard_eq, bind_run (takeWhile_append inside (head?_of_not_starts stops) offset)]
  rfl

theorem takeNewline_append {newline : List Char} (isNewline : IsNewline newline)
    (rest : List Char) (offset : Nat) :
    takeNewline ⟨newline ++ rest, offset⟩ =
      some (true, ⟨rest, offset + byteLength newline⟩) := by
  obtain rfl | rfl := isNewline <;> rfl

theorem takeNewline_of_not_starts {rest : List Char}
    (other : ¬Starts (fun char ↦ char = '\n' ∨ char = '\r') rest) (offset : Nat) :
    takeNewline ⟨rest, offset⟩ = some (false, ⟨rest, offset⟩) := by
  have none (front : List Char) (char : Char) (h : char = '\n' ∨ char = '\r') :
      ¬char :: front <+: rest := by
    rintro ⟨more, rfl⟩
    exact other (starts_cons.2 h)
  rw [takeNewline, bind_run (takeIf_other (none [] '\n' (.inl rfl)))]
  exact takeIf_other (none ['\n'] '\r' (.inr rfl))

theorem blankLines_complete {white rest : List Char} (lines : BlankLines white)
    (stops : ¬Starts IsWhite rest) {fuel : Nat} (enough : white.length ≤ fuel) (offset : Nat) :
    blankLines fuel ⟨white ++ rest, offset⟩ = some ((), ⟨rest, offset + byteLength white⟩) := by
  induction lines generalizing fuel offset with
  | last inside =>
    have ran := blanks_append inside (fun h ↦ stops (h.mono fun _ ↦ .inl)) offset
    cases fuel with
    | zero => exact ran
    | succ fuel =>
      rw [blankLines, bind_run ran, bind_run (takeNewline_of_not_starts
        (fun h ↦ stops (h.mono fun _ ↦ .inr)) _)]
      rfl
  | @line blank newline more inside isNewline _ ih =>
    simp only [List.length_append] at enough
    have filled : 0 < newline.length := by obtain rfl | rfl := isNewline <;> simp
    obtain ⟨fuel, rfl⟩ : ∃ less, fuel = less + 1 := ⟨fuel - 1, by omega⟩
    rw [blankLines, List.append_assoc, List.append_assoc,
      bind_run (blanks_append inside (isNewline.not_starts_blank _) _),
      bind_run (takeNewline_append isNewline _ _)]
    simp only [↓reduceIte]
    rw [ih (by omega)]
    simp only [byteLength_append, Nat.add_assoc]

theorem blanks_sound {cursor after : Cursor} {value : Unit}
    (ran : blanks cursor = some (value, after)) :
    ∃ blank, Passes cursor after blank ∧ (∀ char ∈ blank, isBlank char = true) ∧
      ¬Starts (isBlank · = true) after.rest := by
  rw [blanks, discard_eq] at ran
  obtain ⟨blank, middle, takenRan, ran⟩ := bind_eq_some_iff.1 ran
  obtain ⟨-, rfl⟩ := pure_eq_some_iff.1 ran
  obtain ⟨passes, inside, stops⟩ := takeWhile_sound takenRan
  refine ⟨blank, passes, inside, ?_⟩
  rintro ⟨char, rest, written, isKind⟩
  rw [stops char (congrArg List.head? written)] at isKind
  cases isKind

/-- What is taken of a text is white space, and no more of it follows. -/
theorem blankLines_sound {fuel : Nat} {cursor after : Cursor} {value : Unit}
    (ran : blankLines fuel cursor = some (value, after)) (enough : cursor.rest.length ≤ fuel) :
    ∃ white, Passes cursor after white ∧ BlankLines white ∧ ¬Starts (isBlank · = true) after.rest ∧
      ∀ newline, IsNewline newline → ¬newline <+: after.rest := by
  induction fuel generalizing cursor with
  | zero =>
    obtain ⟨blank, passes, inside, stops⟩ := blanks_sound ran
    refine ⟨blank, passes, .last inside, stops, fun newline isNewline starts ↦ ?_⟩
    have length := passes.length_eq
    have empty : after.rest = [] := List.eq_nil_of_length_eq_zero (by omega)
    rw [empty, List.prefix_nil] at starts
    obtain rfl | rfl := isNewline <;> cases starts
  | succ fuel ih =>
    obtain ⟨_, middle, blanksRan, ran⟩ := bind_eq_some_iff.1 ran
    obtain ⟨blank, passes, inside, stops⟩ := blanks_sound blanksRan
    obtain ⟨found, behind, newlineRan, ran⟩ := bind_eq_some_iff.1 ran
    cases found with
    | false =>
      obtain ⟨found, -⟩ | ⟨-, rfl, other, other'⟩ := takeNewline_cases newlineRan
      · cases found
      · obtain ⟨-, rfl⟩ := pure_eq_some_iff.1 ran
        refine ⟨blank, passes, .last inside, stops, ?_⟩
        rintro newline (rfl | rfl)
        · exact other
        · exact other'
    | true =>
      obtain ⟨newline, isNewline, passes'⟩ :
          ∃ newline, IsNewline newline ∧ Passes middle behind newline := by
        obtain ⟨-, taken | taken⟩ | ⟨found, -⟩ := takeNewline_cases newlineRan
        · exact ⟨_, .inl rfl, taken⟩
        · exact ⟨_, .inr rfl, taken⟩
        · cases found
      have shorter := length_lt_of_takeNewline newlineRan
      have length := passes.length_eq
      obtain ⟨white, passes'', lines, maximal⟩ := ih ran (by omega)
      exact ⟨blank ++ newline ++ white, (passes.trans passes').trans passes'',
        .line inside isNewline lines, maximal⟩

theorem dropWhile_append_of_not_starts {kind : Char → Bool} {front rest : List Char}
    (inside : ∀ char ∈ front, kind char = true) (stops : ¬Starts (kind · = true) rest) :
    (front ++ rest).dropWhile kind = rest := by
  rw [List.dropWhile_append_of_pos inside]
  cases rest with
  | nil => rfl
  | cons char rest => simpa using stops

/-- An escape does not begin with white space. -/
theorem exists_cons_of_escapes {escaped : List Char} {char : Char}
    (escapes : Escapes escaped char) : ∃ first more, escaped = first :: more ∧ ¬IsWhite first := by
  have reads := escapes.reads [] 0
  cases escaped with
  | nil => cases reads
  | cons first more =>
    refine ⟨first, more, rfl, ?_⟩
    rintro (blank | rfl | rfl)
    · rw [isBlank, Bool.or_eq_true, beq_iff_eq, beq_iff_eq] at blank
      obtain rfl | rfl := blank <;> cases reads
    · cases reads
    · cases reads

theorem foldedEscape_of_newline {cursor : Cursor} {newline more : List Char}
    (isNewline : IsNewline newline)
    (stands : cursor.rest.dropWhile isBlank = newline ++ more) :
    foldedEscape cursor =
      (blankLines cursor.rest.length >>= fun _ ↦ pure none : Reader (Option Char)) cursor := by
  rw [foldedEscape, bind_run (show Reader.rest _ = _ from rfl), stands]
  obtain rfl | rfl := isNewline <;> rfl

theorem foldedEscape_of_other {cursor : Cursor}
    (other : ∀ newline, IsNewline newline → ¬newline <+: cursor.rest.dropWhile isBlank) :
    foldedEscape cursor = (escape >>= fun char ↦ pure (some char)) cursor := by
  rw [foldedEscape, bind_run (show Reader.rest _ = _ from rfl)]
  generalize cursor.rest.dropWhile isBlank = behind at other
  split
  · next more => exact absurd ⟨more, rfl⟩ (other ['\n'] (.inl rfl))
  · next more => exact absurd ⟨more, rfl⟩ (other ['\r', '\n'] (.inr rfl))
  · rfl

theorem foldedEscape_of_escapes {escaped : List Char} {char : Char}
    (escapes : Escapes escaped char) (rest : List Char) (offset : Nat) :
    foldedEscape ⟨escaped ++ rest, offset⟩ =
      some (some char, ⟨rest, offset + byteLength escaped⟩) := by
  rw [foldedEscape_of_other, bind_run (escapes.reads rest offset)]
  · rfl
  · obtain ⟨first, more, rfl, other⟩ := exists_cons_of_escapes escapes
    intro newline isNewline starts
    rw [List.cons_append, List.dropWhile_cons_of_neg fun blank ↦ other (.inl blank)] at starts
    obtain ⟨behind, written⟩ := starts
    have white := isNewline.starts behind
    rw [written, starts_cons] at white
    exact other (.inr white)

theorem foldedEscape_of_folds {white rest : List Char} (folds : Folds white)
    (stops : ¬Starts IsWhite rest) (offset : Nat) :
    foldedEscape ⟨white ++ rest, offset⟩ =
      some (none, ⟨rest, offset + byteLength white⟩) := by
  obtain ⟨blank, newline, more, inside, isNewline, lines, rfl⟩ := folds
  have stands : (blank ++ newline ++ more ++ rest).dropWhile isBlank =
      newline ++ (more ++ rest) := by
    rw [List.append_assoc, List.append_assoc]
    exact dropWhile_append_of_not_starts inside (isNewline.not_starts_blank _)
  have enough : (blank ++ newline ++ more).length ≤ (blank ++ newline ++ more ++ rest).length := by
    simp
  rw [foldedEscape_of_newline isNewline stands,
    bind_run (blankLines_complete (.line inside isNewline lines) stops enough offset)]
  rfl

/-- Behind a backslash stands an escape, or all the white space around a line end. -/
theorem foldedEscape_sound {cursor after : Cursor} {found : Option Char}
    (ran : foldedEscape cursor = some (found, after)) :
    (∃ char escaped, found = some char ∧ Passes cursor after escaped ∧ Escapes escaped char) ∨
    (∃ white, found = none ∧ Passes cursor after white ∧ Folds white ∧
      ¬Starts (isBlank · = true) after.rest ∧
      ∀ newline, IsNewline newline → ¬newline <+: after.rest) := by
  by_cases folded : ∃ newline, IsNewline newline ∧ newline <+: cursor.rest.dropWhile isBlank
  · obtain ⟨newline, isNewline, more, stands⟩ := folded
    rw [foldedEscape_of_newline isNewline stands.symm] at ran
    obtain ⟨_, middle, linesRan, ran⟩ := bind_eq_some_iff.1 ran
    obtain ⟨rfl, rfl⟩ := pure_eq_some_iff.1 ran
    obtain ⟨white, passes, lines, stops, maximal⟩ := blankLines_sound linesRan le_rfl
    refine .inr ⟨white, rfl, passes, ?_, stops, maximal⟩
    cases lines with
    | last inside =>
      rw [passes.rest_eq, dropWhile_append_of_not_starts inside stops] at stands
      exact absurd ⟨more, stands⟩ (maximal newline isNewline)
    | line inside isNewline lines => exact ⟨_, _, _, inside, isNewline, lines, rfl⟩
  · rw [foldedEscape_of_other fun newline isNewline starts ↦
      folded ⟨newline, isNewline, starts⟩] at ran
    obtain ⟨char, middle, escapeRan, ran⟩ := bind_eq_some_iff.1 ran
    obtain ⟨rfl, rfl⟩ := pure_eq_some_iff.1 ran
    obtain ⟨escaped, passes, escapes⟩ := escape_sound escapeRan
    exact .inl ⟨char, escaped, rfl, passes, escapes⟩

end Reader

end SpanScore.Toml
