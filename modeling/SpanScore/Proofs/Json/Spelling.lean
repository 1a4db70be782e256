import SpanScore.Json.Read
import SpanScore.Proofs.Json.Tokens

/-!
# What a string token spells

The reader of strings is stricter than the scanner: it wants every token to spell a string.  It
reads exactly the tokens that do, and what it returns is the string that they spell.
-/

namespace SpanScore.Json

open Grammar

/-! ## Parts of a string token -/

namespace Grammar.Piece

/-- A run of parts spells one character in front of whatever follows. -/
def Spells (pieces : List Piece) (char : Char) : Prop :=
  ∀ rest, decode? (pieces ++ rest) = (decode? rest).map (char :: ·)

theorem spells_plain (char : Char) (allowed : ' ' ≤ char ∧ char ≠ '"' ∧ char ≠ '\\') :
    Spells [plain char allowed] char :=
  fun _ ↦ by rw [List.singleton_append, decode?]

theorem spells_short (escape : Escape) : Spells [short escape] escape.char :=
  fun _ ↦ by rw [List.singleton_append, decode?]

theorem spells_unicode {unit : CodeUnit} (leading : ¬unit.IsLeading) (trailing : ¬unit.IsTrailing) :
    Spells [unicode unit] (Char.ofNat unit.value) := by
  intro rest
  rw [List.singleton_append, decode?.eq_def (unicode unit :: rest)]
  dsimp only
  rw [if_neg leading, if_neg trailing]

theorem spells_pair {leading trailing : CodeUnit} (first : leading.IsLeading)
    (second : trailing.IsTrailing) :
    Spells [unicode leading, unicode trailing] (leading.pair trailing) := by
  intro rest
  simp only [List.cons_append, List.nil_append, decode?, if_pos first, if_pos second]

@[simp] theorem texts_nil : texts [] = [] := rfl

@[simp] theorem texts_cons (piece : Piece) (rest : List Piece) :
    texts (piece :: rest) = piece.text ++ texts rest := rfl

theorem texts_plain (char : Char) (allowed : ' ' ≤ char ∧ char ≠ '"' ∧ char ≠ '\\')
    (pieces : List Piece) (rest : List Char) :
    texts (plain char allowed :: pieces) ++ rest = char :: (texts pieces ++ rest) := rfl

theorem texts_short (escape : Escape) (pieces : List Piece) (rest : List Char) :
    texts (short escape :: pieces) ++ rest =
      '\\' :: escape.letter :: (texts pieces ++ rest) := rfl

theorem texts_unicode (unit : CodeUnit) (pieces : List Piece) (rest : List Char) :
    texts (unicode unit :: pieces) ++ rest =
      '\\' :: 'u' :: (unit.text ++ (texts pieces ++ rest)) := by
  simp [text]

@[simp] theorem texts_append (left right : List Piece) :
    texts (left ++ right) = texts left ++ texts right :=
  List.flatMap_append

end Grammar.Piece

theorem Grammar.CodeUnit.IsLeading.not_isTrailing {unit : CodeUnit} (h : unit.IsLeading) :
    ¬unit.IsTrailing := by
  simp only [IsLeading, IsTrailing] at h ⊢
  omega

/-! ## Escapes -/

namespace Read

theorem isLeading_eq_true_iff (unit : CodeUnit) :
    isLeading unit.value = true ↔ unit.IsLeading := by
  simp only [isLeading, CodeUnit.IsLeading, Bool.and_eq_true, decide_eq_true_eq]
  omega

theorem isTrailing_eq_true_iff (unit : CodeUnit) :
    isTrailing unit.value = true ↔ unit.IsTrailing := by
  simp only [isTrailing, CodeUnit.IsTrailing, Bool.and_eq_true, decide_eq_true_eq]
  omega

theorem escaped?_letter (escape : Escape) : escaped? escape.letter = some escape.char := by
  cases escape <;> rfl

theorem exists_escape {letter char : Char} (h : escaped? letter = some char) :
    ∃ escape : Escape, escape.letter = letter ∧ escape.char = char := by
  unfold escaped? at h
  split at h <;> simp only [Option.some.injEq, reduceCtorEq] at h <;> subst h
  exacts [⟨.quote, rfl, rfl⟩, ⟨.backslash, rfl, rfl⟩, ⟨.slash, rfl, rfl⟩, ⟨.backspace, rfl, rfl⟩,
    ⟨.formFeed, rfl, rfl⟩, ⟨.newline, rfl, rfl⟩, ⟨.carriageReturn, rfl, rfl⟩, ⟨.tab, rfl, rfl⟩]

/-- An escape with a letter of its own is read as its character. -/
theorem escape_letter (short : Escape) (rest : List Char) :
    escape (short.letter :: rest) = .ok (short.char, rest) := by
  unfold escape
  split
  · next heq => simp at heq
  · next heq => exact absurd (List.cons.inj heq).1 (Scan.letter_ne_u short)
  · next heq =>
    rw [← (List.cons.inj heq).1, ← (List.cons.inj heq).2, escaped?_letter]

/-- A code unit outside the surrogates is read as the character with its number. -/
theorem escape_unit {unit : CodeUnit} (leading : ¬unit.IsLeading) (trailing : ¬unit.IsTrailing)
    (rest : List Char) :
    escape ('u' :: (unit.text ++ rest)) = .ok (Char.ofNat unit.value, rest) := by
  rw [escape, unicode, hex4?_text]
  dsimp only
  rw [if_neg (mt (isTrailing_eq_true_iff unit).1 trailing),
    if_neg (mt (isLeading_eq_true_iff unit).1 leading)]

/-- A surrogate pair is read as the character that it stands for. -/
theorem escape_pair {first second : CodeUnit} (leading : first.IsLeading)
    (trailing : second.IsTrailing) (rest : List Char) :
    escape ('u' :: (first.text ++ '\\' :: 'u' :: (second.text ++ rest))) =
      .ok (first.pair second, rest) := by
  rw [escape, unicode, hex4?_text]
  dsimp only
  rw [if_neg (mt (isTrailing_eq_true_iff first).1 leading.not_isTrailing),
    if_pos ((isLeading_eq_true_iff first).2 leading), Read.trailing, hex4?_text]
  dsimp only
  rw [if_pos ((isTrailing_eq_true_iff second).2 trailing)]
  rfl

/-- The second half of a surrogate pair is a code unit of its own. -/
theorem exists_trailing {leading : CodeUnit} {text rest : List Char} {char : Char}
    (h : trailing leading.value text = .ok (char, rest)) :
    ∃ unit : CodeUnit, unit.IsTrailing ∧ text = '\\' :: 'u' :: (unit.text ++ rest) ∧
      char = leading.pair unit := by
  unfold trailing at h
  split at h
  · split at h
    · simp [stop] at h
    · next found =>
      obtain ⟨unit, rfl, rfl⟩ := exists_codeUnit found
      split at h
      · next isTrailing =>
        rw [Except.ok.injEq, Prod.mk.injEq] at h
        obtain ⟨rfl, rfl⟩ := h
        exact ⟨unit, (isTrailing_eq_true_iff unit).1 isTrailing, rfl, rfl⟩
      · simp [stop] at h
  · simp [stop] at h
  · simp [stop] at h

/-- Whatever is read as an escape is a run of parts that spells the character read. -/
theorem exists_spells_of_escape {text rest : List Char} {char : Char}
    (h : escape text = .ok (char, rest)) :
    ∃ pieces, '\\' :: text = Piece.texts pieces ++ rest ∧ Piece.Spells pieces char := by
  unfold escape at h
  split at h
  · simp [stop] at h
  · unfold unicode at h
    split at h
    · simp [stop] at h
    · next found =>
      obtain ⟨unit, rfl, rfl⟩ := exists_codeUnit found
      split at h
      · simp [stop] at h
      · next notTrailing =>
        have trailing := mt (isTrailing_eq_true_iff unit).2 notTrailing
        split at h
        · next isLeading =>
          have leading := (isLeading_eq_true_iff unit).1 isLeading
          obtain ⟨second, isTrailing, text_eq, char_eq⟩ := exists_trailing h
          refine ⟨[.unicode unit, .unicode second], by simp [Piece.text, text_eq], ?_⟩
          rw [char_eq]
          exact Piece.spells_pair leading isTrailing
        · next notLeading =>
          have leading := mt (isLeading_eq_true_iff unit).2 notLeading
          rw [Except.ok.injEq, Prod.mk.injEq] at h
          obtain ⟨rfl, rfl⟩ := h
          exact ⟨[.unicode unit], by simp [Piece.text], Piece.spells_unicode leading trailing⟩
  · split at h
    · next found =>
      rw [Except.ok.injEq, Prod.mk.injEq] at h
      obtain ⟨rfl, rfl⟩ := h
      obtain ⟨short, rfl, rfl⟩ := exists_escape found
      exact ⟨[.short short], by simp [Piece.text], Piece.spells_short short⟩
    · simp [stop] at h

/-- A trailing surrogate by itself is refused. -/
theorem toOption_escape_trailing {unit : CodeUnit} (h : unit.IsTrailing) (rest : List Char) :
    (escape ('u' :: (unit.text ++ rest))).toOption = none := by
  rw [escape, unicode, hex4?_text]
  dsimp only
  rw [if_pos ((isTrailing_eq_true_iff unit).2 h)]
  rfl

/-- Behind a leading surrogate its second half is read. -/
theorem toOption_escape_leading {unit : CodeUnit} (h : unit.IsLeading) (rest : List Char) :
    (escape ('u' :: (unit.text ++ rest))).toOption = (trailing unit.value rest).toOption := by
  rw [escape, unicode, hex4?_text]
  dsimp only
  rw [if_neg (mt (isTrailing_eq_true_iff unit).1 h.not_isTrailing),
    if_pos ((isLeading_eq_true_iff unit).2 h)]

/-- A second half that is no trailing surrogate is refused. -/
theorem toOption_trailing_unit (leading : Nat) {unit : CodeUnit} (h : ¬unit.IsTrailing)
    (rest : List Char) :
    (trailing leading ('\\' :: 'u' :: (unit.text ++ rest))).toOption = none := by
  rw [trailing, hex4?_text]
  dsimp only
  rw [if_neg (mt (isTrailing_eq_true_iff unit).1 h)]
  rfl

/-- A second half that is no code unit is refused. -/
theorem toOption_trailing_texts (leading : Nat) {pieces : List Piece}
    (h : ∀ unit rest, pieces ≠ .unicode unit :: rest) (rest : List Char) :
    (trailing leading (Piece.texts pieces ++ '"' :: rest)).toOption = none := by
  unfold trailing
  split
  · next heq =>
    cases pieces with
    | nil => simp at heq
    | cons piece pieces =>
      cases piece with
      | plain char allowed => exact absurd (List.cons.inj heq).1 allowed.2.2
      | short escape =>
        rw [Piece.texts_short] at heq
        exact absurd (List.cons.inj (List.cons.inj heq).2).1 (Scan.letter_ne_u escape)
      | unicode unit => exact absurd rfl (h unit pieces)
  · rfl
  · rfl

/-! ## Whole strings -/

theorem stringFrom_plain (read : List Char) {char : Char}
    (allowed : ' ' ≤ char ∧ char ≠ '"' ∧ char ≠ '\\') (rest : List Char) :
    stringFrom read (char :: rest) = stringFrom (char :: read) rest := by
  rw [stringFrom, if_neg (Char.not_lt.2 allowed.1)]
  · exact allowed.2.1
  · exact allowed.2.2

theorem stringFrom_backslash (read : List Char) {text after : List Char} {char : Char}
    (h : escape text = .ok (char, after)) :
    stringFrom read ('\\' :: text) = stringFrom (char :: read) after := by
  rw [stringFrom]
  split <;> simp_all

/-- A refused escape makes the whole string refused. -/
theorem toOption_stringFrom_backslash (read : List Char) {text : List Char}
    (h : (escape text).toOption = none) : (stringFrom read ('\\' :: text)).toOption = none := by
  obtain ⟨fault, refused⟩ := exists_error_of_toOption h
  rw [stringFrom]
  split <;> simp_all [Except.toOption]

/-- A string is read as the characters that its parts spell, and refused where they spell none. -/
theorem toOption_stringFrom_texts (read rest : List Char) (pieces : List Piece) :
    (stringFrom read (Piece.texts pieces ++ '"' :: rest)).toOption =
      (Piece.decode? pieces).map fun chars ↦ (String.ofList (read.reverse ++ chars), rest) := by
  fun_induction Piece.decode? pieces generalizing read with
  | case1 => simp [stringFrom, Except.toOption]
  | case2 char allowed pieces ih =>
    rw [Piece.texts_plain, stringFrom_plain read allowed, ih, Option.map_map]
    simp [Function.comp_def]
  | case3 short pieces ih =>
    rw [Piece.texts_short, stringFrom_backslash read (escape_letter short _), ih, Option.map_map]
    simp [Function.comp_def]
  | case4 unit leading next pieces trailing ih =>
    rw [Piece.texts_unicode, Piece.texts_unicode,
      stringFrom_backslash read (escape_pair leading trailing _), ih, Option.map_map]
    simp [Function.comp_def]
  | case5 unit leading next pieces trailing =>
    rw [Piece.texts_unicode, Piece.texts_unicode, Option.map_none]
    apply toOption_stringFrom_backslash
    rw [toOption_escape_leading leading]
    exact toOption_trailing_unit unit.value trailing _
  | case6 unit pieces leading other =>
    rw [Piece.texts_unicode, Option.map_none]
    apply toOption_stringFrom_backslash
    rw [toOption_escape_leading leading]
    exact toOption_trailing_texts unit.value other rest
  | case7 unit pieces leading trailing =>
    rw [Piece.texts_unicode, Option.map_none]
    apply toOption_stringFrom_backslash
    exact toOption_escape_trailing trailing _
  | case8 unit pieces leading trailing ih =>
    rw [Piece.texts_unicode, stringFrom_backslash read (escape_unit leading trailing _), ih,
      Option.map_map]
    simp [Function.comp_def]

/-- A token is read as the string that it spells, and refused where it spells none. -/
theorem toOption_string_body (literal : Literal) (rest : List Char) :
    (string (literal.body ++ rest)).toOption = literal.decode?.map fun name ↦ (name, rest) := by
  rw [Literal.body, List.append_assoc, List.singleton_append, string, toOption_stringFrom_texts,
    Literal.decode?, Option.map_map]
  rfl

/-- A token that spells a string is read as that string. -/
theorem string_body {literal : Literal} {name : String} (rest : List Char)
    (h : literal.decode? = some name) : string (literal.body ++ rest) = .ok (name, rest) := by
  have read := toOption_string_body literal rest
  rw [h, Option.map_some] at read
  exact eq_ok_of_toOption read

/-- A token that spells no string is refused. -/
theorem exists_error_of_body {literal : Literal} (rest : List Char) (h : literal.decode? = none) :
    ∃ fault, string (literal.body ++ rest) = .error fault := by
  have read := toOption_string_body literal rest
  rw [h, Option.map_none] at read
  exact exists_error_of_toOption read

/-! ## Whatever is read is a token -/

theorem exists_pieces {read text rest : List Char} {name : String}
    (h : stringFrom read text = .ok (name, rest)) :
    ∃ pieces chars, text = Piece.texts pieces ++ '"' :: rest ∧
      Piece.decode? pieces = some chars ∧ name = String.ofList (read.reverse ++ chars) := by
  fun_induction stringFrom read text with
  | case1 => simp [stop] at h
  | case2 read after =>
    rw [Except.ok.injEq, Prod.mk.injEq] at h
    exact ⟨[], [], by simp [h.2], rfl, by simp [← h.1]⟩
  | case3 read text char after escaped ih =>
    obtain ⟨pieces, chars, rfl, decoded, rfl⟩ := ih h
    obtain ⟨front, text_eq, spells⟩ := exists_spells_of_escape escaped
    exact ⟨front ++ pieces, char :: chars, by simp [text_eq], by simp [spells pieces, decoded],
      by simp⟩
  | case4 => simp at h
  | case5 => simp [stop] at h
  | case6 read char after notQuote notBackslash printable ih =>
    obtain ⟨pieces, chars, rfl, decoded, rfl⟩ := ih h
    have spells := Piece.spells_plain char ⟨Char.not_lt.1 printable, notQuote, notBackslash⟩
    exact ⟨[.plain char _] ++ pieces, char :: chars, by simp [Piece.text],
      by rw [spells pieces, decoded, Option.map_some], by simp⟩

/-- Whatever is read as a string is a token that spells it. -/
theorem exists_literal {text rest : List Char} {name : String}
    (h : string text = .ok (name, rest)) :
    ∃ literal : Literal, text = literal.body ++ rest ∧ literal.decode? = some name := by
  obtain ⟨pieces, chars, text_eq, decoded, rfl⟩ := exists_pieces h
  exact ⟨⟨pieces⟩, by simp [text_eq, Literal.body], by simp [Literal.decode?, decoded]⟩

end Read

end SpanScore.Json
