import Mathlib.Data.List.DropRight
import SpanScore.Json.Scan
import SpanScore.Proofs.Failure
import SpanScore.Proofs.Json.Grammar
import SpanScore.Proofs.Text.Utf8

/-!
# Scanning tokens

White space, numbers and strings: the scanner passes over every token of the grammar, as long as
nothing behind a number could belong to it, and whatever it passes over is a token.
-/

namespace SpanScore.Json

open Grammar

/-! ## White space -/

/-- White space is passed over before anything else. -/
@[simp] theorem skipSpace_gap_append (gap : Gap) (rest : List Char) :
    skipSpace (gap.text ++ rest) = skipSpace rest := by
  refine List.dropWhile_append_of_pos fun char mem ↦ ?_
  rcases gap.blank char mem with rfl | rfl | rfl | rfl <;> rfl

@[simp] theorem skipSpace_gap (gap : Gap) : skipSpace gap.text = [] := by
  have h := skipSpace_gap_append gap []
  rwa [List.append_nil] at h

theorem skipSpace_cons {char : Char} (h : isSpace char = false) (rest : List Char) :
    skipSpace (char :: rest) = char :: rest :=
  List.dropWhile_cons_of_neg (by simp [h])

/-- What is passed over is white space. -/
theorem exists_gap (text : List Char) : ∃ gap : Gap, text = gap.text ++ skipSpace text := by
  refine ⟨⟨text.takeWhile isSpace, fun char mem ↦ ?_⟩, List.takeWhile_append_dropWhile.symm⟩
  have blank := List.mem_takeWhile_imp mem
  simp only [isSpace, Bool.or_eq_true, beq_iff_eq] at blank
  rcases blank with ((rfl | rfl) | rfl) | rfl <;> decide

theorem skipSpace_skipSpace (text : List Char) : skipSpace (skipSpace text) = skipSpace text :=
  List.dropWhile_idempotent isSpace text

theorem skipSpace_eq_nil_iff {text : List Char} :
    skipSpace text = [] ↔ ∃ gap : Gap, text = gap.text := by
  constructor
  · intro h
    obtain ⟨gap, text_eq⟩ := exists_gap text
    exact ⟨gap, by rw [text_eq, h, List.append_nil]⟩
  · rintro ⟨gap, rfl⟩
    exact skipSpace_gap gap

/-- A reading comes to something when all bytes are text and nothing but white space is left. -/
theorem conclude_eq_ok_iff {α : Type} {bytes : List UInt8} {decoded : Utf8.Decoded}
    {result : Except Fault (α × List Char)} {value : α} :
    conclude bytes decoded result = .ok value ↔
      decoded.stop = bytes.length ∧ ∃ gap : Gap, result = .ok (value, gap.text) := by
  unfold conclude
  constructor
  · intro h
    split at h
    · simp at h
    · dsimp only at h
      split at h
      · next ended =>
        rw [Except.ok.injEq] at h
        simp only [Bool.and_eq_true, List.isEmpty_iff, beq_iff_eq] at ended
        obtain ⟨gap, rfl⟩ := skipSpace_eq_nil_iff.1 ended.1
        exact ⟨ended.2, gap, by rw [h]⟩
      · simp at h
  · rintro ⟨stopped, gap, rfl⟩
    simp [stopped]

/-- A whole text is read where its reader leaves nothing but white space. -/
theorem readWhole_eq_ok_iff {α : Type} {read : Reader α} {bytes : List UInt8} {value : α} :
    readWhole read bytes = .ok value ↔
      ∃ (text : List Char) (gap : Gap),
        bytes = Utf8.encode (String.ofList text) ∧ read text = .ok (value, gap.text) := by
  rw [readWhole, conclude_eq_ok_iff]
  constructor
  · rintro ⟨stopped, gap, read_eq⟩
    exact ⟨_, gap, (Utf8.encode_of_stop stopped).symm, read_eq⟩
  · rintro ⟨text, gap, rfl, read_eq⟩
    rw [Utf8.decodeStart_encode, String.toList_ofList]
    exact ⟨rfl, gap, read_eq⟩

theorem exists_error_of_readWhole {α : Type} {read : Reader α} {text : List Char} {fault : Fault}
    (h : read text = .error fault) :
    ∃ error, readWhole read (Utf8.encode (String.ofList text)) = .error error := by
  simp only [readWhole, Utf8.decodeStart_encode, String.toList_ofList, h]
  exact ⟨_, rfl⟩

/-! ## Digits in base sixteen -/

/-- A digit in base sixteen is read as its value. -/
theorem hexValue?_char (digit : HexDigit) : hexValue? digit.char = some digit.value := by
  obtain ⟨value, capital⟩ := digit
  revert value capital
  decide

theorem toNat_char (digit : HexDigit) :
    digit.char.toNat =
      if digit.value.val < 10 then digit.value.val + 48
      else if digit.capital then digit.value.val + 55 else digit.value.val + 87 := by
  obtain ⟨value, capital⟩ := digit
  revert value capital
  decide

theorem exists_hexDigit {char : Char} {value : Nat} (h : hexValue? char = some value) :
    ∃ digit : HexDigit, digit.char = char ∧ digit.value = value := by
  simp only [hexValue?, Char.le_def, UInt32.le_iff_toNat_le] at h
  change (if 48 ≤ char.toNat ∧ char.toNat ≤ 57 then _ else
    if 97 ≤ char.toNat ∧ char.toNat ≤ 102 then _ else
    if 65 ≤ char.toNat ∧ char.toNat ≤ 70 then _ else _) = _ at h
  split at h
  · next decimal =>
    rw [Option.some.injEq] at h
    refine ⟨⟨⟨value, by omega⟩, false⟩, Char.toNat_inj.1 ?_, rfl⟩
    rw [toNat_char, if_pos (by dsimp only; omega)]
    dsimp only
    omega
  split at h
  · next small =>
    rw [Option.some.injEq] at h
    refine ⟨⟨⟨value, by omega⟩, false⟩, Char.toNat_inj.1 ?_, rfl⟩
    rw [toNat_char, if_neg (by dsimp only; omega), if_neg Bool.false_ne_true]
    dsimp only
    omega
  split at h
  · next capital =>
    rw [Option.some.injEq] at h
    refine ⟨⟨⟨value, by omega⟩, true⟩, Char.toNat_inj.1 ?_, rfl⟩
    rw [toNat_char, if_neg (by dsimp only; omega), if_pos rfl]
    dsimp only
    omega
  · simp at h

/-- Four digits in base sixteen are read as the code unit that they spell. -/
theorem hex4?_text (unit : CodeUnit) (rest : List Char) :
    hex4? (unit.text ++ rest) = some (unit.value, rest) := by
  simp [CodeUnit.text, hex4?, hexValue?_char, CodeUnit.value]

theorem exists_codeUnit {text rest : List Char} {value : Nat}
    (h : hex4? text = some (value, rest)) :
    ∃ unit : CodeUnit, unit.value = value ∧ text = unit.text ++ rest := by
  unfold hex4? at h
  split at h
  · simp only [bind, Option.bind_eq_some_iff, pure, Option.some.injEq, Prod.mk.injEq] at h
    obtain ⟨_, ha, _, hb, _, hc, _, hd, rfl, rfl⟩ := h
    obtain ⟨a, rfl, rfl⟩ := exists_hexDigit ha
    obtain ⟨b, rfl, rfl⟩ := exists_hexDigit hb
    obtain ⟨c, rfl, rfl⟩ := exists_hexDigit hc
    obtain ⟨d, rfl, rfl⟩ := exists_hexDigit hd
    exact ⟨⟨a, b, c, d⟩, rfl, rfl⟩
  · simp at h

namespace Scan

/-! ## Numbers -/

/-- Whether nothing at the start of a text could belong to a number in front of it. -/
def EndsNumber (rest : List Char) : Prop :=
  ∀ char ∈ rest.head?, char.isDigit = false ∧ char ≠ '.' ∧ char ≠ 'e' ∧ char ≠ 'E'

theorem endsNumber_nil : EndsNumber [] := by
  intro char mem
  simp at mem

theorem endsNumber_cons {char : Char} {rest : List Char}
    (h : char.isDigit = false ∧ char ≠ '.' ∧ char ≠ 'e' ∧ char ≠ 'E') :
    EndsNumber (char :: rest) := by
  intro other mem
  rw [List.head?_cons, Option.mem_some_iff] at mem
  exact mem ▸ h

/-- White space ends a number. -/
theorem EndsNumber.gap_append {rest : List Char} (h : EndsNumber rest) (gap : Gap) :
    EndsNumber (gap.text ++ rest) := by
  cases text : gap.text with
  | nil => exact h
  | cons char chars =>
    apply endsNumber_cons
    rcases gap.blank char (by simp [text]) with rfl | rfl | rfl | rfl <;> decide

/-- Whether a text does not go on with a digit. -/
def EndsDigits (rest : List Char) : Prop :=
  ∀ char ∈ rest.head?, char.isDigit = false

theorem EndsNumber.endsDigits {rest : List Char} (h : EndsNumber rest) : EndsDigits rest :=
  fun char mem ↦ (h char mem).1

theorem dropWhile_of_endsDigits {rest : List Char} (h : EndsDigits rest) :
    rest.dropWhile Char.isDigit = rest := by
  cases rest with
  | nil => rfl
  | cons char chars => exact List.dropWhile_cons_of_neg (by simp [h char rfl])

/-- A run of digits is passed over to its end. -/
theorem dropWhile_digits (digits : DigitRun) {rest : List Char} (h : EndsDigits rest) :
    (digits.text ++ rest).dropWhile Char.isDigit = rest := by
  rw [List.dropWhile_append_of_pos digits.decimal, dropWhile_of_endsDigits h]

/-- A digit is no character of any other kind. -/
theorem ne_of_isDigit {digit char : Char} (h : digit.isDigit) (other : char.isDigit = false) :
    digit ≠ char := by
  rintro rfl
  exact absurd h (by simp [other])

theorem exists_cons_digits (digits : DigitRun) :
    ∃ digit others, digits.text = digit :: others ∧ digit.isDigit := by
  obtain ⟨digit, others, text⟩ := List.exists_cons_of_ne_nil digits.nonempty
  exact ⟨digit, others, text, digits.decimal digit (by simp [text])⟩

/-- A digit and those that follow it are a run of digits. -/
theorem exists_digits {digit : Char} (h : digit.isDigit) (rest : List Char) :
    ∃ digits : DigitRun,
      digit :: rest = digits.text ++ rest.dropWhile Char.isDigit ∧
        digits.text.head? = some digit := by
  refine ⟨⟨digit :: rest.takeWhile Char.isDigit, by simp, ?_⟩, ?_, rfl⟩
  · intro char mem
    rcases List.mem_cons.1 mem with rfl | mem
    · exact h
    · exact List.mem_takeWhile_imp mem
  · rw [List.cons_append, List.takeWhile_append_dropWhile]

theorem skipExponent_text (exponent : Exponent) {rest : List Char} (h : EndsDigits rest) :
    skipExponent (Sign.text exponent.sign ++ (exponent.digits.text ++ rest)) = .ok rest := by
  obtain ⟨digit, others, text, isDigit⟩ := exists_cons_digits exponent.digits
  have dropped := dropWhile_digits exponent.digits h
  rw [text, List.cons_append, List.dropWhile_cons_of_pos isDigit] at dropped
  rw [text]
  unfold skipExponent
  cases exponent.sign with
  | none =>
    have plus : digit ≠ '+' := ne_of_isDigit isDigit rfl
    have minus : digit ≠ '-' := ne_of_isDigit isDigit rfl
    simp [Sign.text, plus, minus, isDigit, dropped]
  | some sign => cases sign <;> simp [Sign.text, isDigit, dropped]

/-- The exponent of a number is passed over. -/
theorem skipExponent?_text (exponent : Option Exponent) {rest : List Char} (h : EndsNumber rest) :
    skipExponent? (Exponent.text exponent ++ rest) = .ok rest := by
  cases exponent with
  | none =>
    rw [Exponent.text, List.nil_append]
    unfold skipExponent?
    split
    · exact absurd rfl (h 'e' rfl).2.2.1
    · exact absurd rfl (h 'E' rfl).2.2.2
    · rfl
  | some exponent =>
    have skipped := skipExponent_text exponent h.endsDigits
    rw [← List.append_assoc] at skipped
    simp only [Exponent.text, List.cons_append]
    cases exponent.capital <;> exact skipped

theorem endsDigits_exponent (exponent : Option Exponent) {rest : List Char}
    (h : EndsNumber rest) : EndsDigits (Exponent.text exponent ++ rest) := by
  cases exponent with
  | none => exact h.endsDigits
  | some exponent =>
    intro char mem
    rw [Exponent.text, List.cons_append, List.head?_cons, Option.mem_some_iff] at mem
    rw [← mem]
    cases exponent.capital <;> rfl

theorem endsDigits_fraction (fraction : Option DigitRun) {rest : List Char}
    (h : EndsDigits rest) : EndsDigits (DigitRun.fractionText fraction ++ rest) := by
  cases fraction with
  | none => exact h
  | some digits =>
    intro char mem
    rw [DigitRun.fractionText, List.cons_append, List.head?_cons, Option.mem_some_iff] at mem
    rw [← mem]
    rfl

/-- Without a point there is no fraction. -/
theorem skipFraction_of_head_ne {text : List Char} (h : ∀ char ∈ text.head?, char ≠ '.') :
    skipFraction text = skipExponent? text := by
  unfold skipFraction
  split
  · exact absurd rfl (h '.' rfl)
  · exact absurd rfl (h '.' rfl)
  · rfl

theorem head_exponent_ne (exponent : Option Exponent) {rest : List Char} (h : EndsNumber rest) :
    ∀ char ∈ (Exponent.text exponent ++ rest).head?, char ≠ '.' := by
  intro char mem
  cases exponent with
  | none => exact (h char mem).2.1
  | some exponent =>
    rw [Exponent.text, List.cons_append, List.head?_cons, Option.mem_some_iff] at mem
    rw [← mem]
    cases exponent.capital <;> decide

/-- The fraction and the exponent of a number are passed over. -/
theorem skipFraction_text (fraction : Option DigitRun) (exponent : Option Exponent)
    {rest : List Char} (h : EndsNumber rest) :
    skipFraction (DigitRun.fractionText fraction ++ (Exponent.text exponent ++ rest)) =
      .ok rest := by
  cases fraction with
  | none =>
    rw [DigitRun.fractionText, List.nil_append,
      skipFraction_of_head_ne (head_exponent_ne exponent h), skipExponent?_text exponent h]
  | some digits =>
    obtain ⟨digit, others, text, isDigit⟩ := exists_cons_digits digits
    have dropped := dropWhile_digits digits (endsDigits_exponent exponent h)
    rw [text, List.cons_append, List.dropWhile_cons_of_pos isDigit] at dropped
    rw [DigitRun.fractionText, text]
    simp only [List.cons_append, skipFraction, isDigit, if_true, dropped]
    exact skipExponent?_text exponent h

/-- A number is passed over. -/
theorem skipNumber_unsigned (number : NumberToken) {rest : List Char} (h : EndsNumber rest) :
    skipNumber (number.unsigned ++ rest) = .ok rest := by
  obtain ⟨digit, others, text, isDigit⟩ := exists_cons_digits number.whole
  have ends := endsDigits_fraction number.fraction (endsDigits_exponent number.exponent h)
  have skipped := skipFraction_text number.fraction number.exponent h
  have dropped := dropWhile_digits number.whole ends
  rw [text, List.cons_append, List.dropWhile_cons_of_pos isDigit] at dropped
  rw [NumberToken.unsigned, List.append_assoc, List.append_assoc, text, List.cons_append]
  unfold skipNumber
  split
  · next next after heq =>
    rw [List.cons.injEq] at heq
    have alone : others = [] := by
      have zero := number.canonical (by rw [text, heq.1]; rfl)
      rw [text, List.cons.injEq] at zero
      exact zero.2
    rw [alone, List.nil_append] at heq
    rw [ends next (by rw [heq.2]; rfl), ← heq.2, skipped]
    rfl
  · next heq =>
    rw [List.cons.injEq] at heq
    rw [← heq.1, ← heq.2, dropped, isDigit, if_pos rfl, skipped]
  · next heq => simp at heq

theorem exists_exponent_of_skipExponent (capital : Bool) {text rest : List Char}
    (h : skipExponent text = .ok rest) :
    ∃ exponent : Exponent,
      (if capital then 'E' else 'e') :: text = Exponent.text (some exponent) ++ rest := by
  unfold skipExponent at h
  dsimp only at h
  split at h
  · next digit after unsigned =>
    split at h
    · next isDigit =>
      rw [Except.ok.injEq] at h
      obtain ⟨digits, text_eq, -⟩ := exists_digits isDigit after
      rw [h] at text_eq
      split at unsigned <;> subst unsigned
      · exact ⟨⟨capital, some .plus, digits⟩, by simp [Exponent.text, Sign.text, text_eq]⟩
      · exact ⟨⟨capital, some .minus, digits⟩, by simp [Exponent.text, Sign.text, text_eq]⟩
      · exact ⟨⟨capital, none, digits⟩, by simp [Exponent.text, Sign.text, text_eq]⟩
    · simp [stop] at h
  · simp [stop] at h

theorem exists_exponent {text rest : List Char} (h : skipExponent? text = .ok rest) :
    ∃ exponent, text = Exponent.text exponent ++ rest := by
  unfold skipExponent? at h
  split at h
  · obtain ⟨exponent, text_eq⟩ := exists_exponent_of_skipExponent false h
    exact ⟨some exponent, text_eq⟩
  · obtain ⟨exponent, text_eq⟩ := exists_exponent_of_skipExponent true h
    exact ⟨some exponent, text_eq⟩
  · rw [Except.ok.injEq] at h
    exact ⟨none, h⟩

theorem exists_fraction {text rest : List Char} (h : skipFraction text = .ok rest) :
    ∃ fraction exponent,
      text = DigitRun.fractionText fraction ++ (Exponent.text exponent ++ rest) := by
  unfold skipFraction at h
  split at h
  · next digit after =>
    split at h
    · next isDigit =>
      obtain ⟨digits, text_eq, -⟩ := exists_digits isDigit after
      obtain ⟨exponent, after_eq⟩ := exists_exponent h
      refine ⟨some digits, exponent, ?_⟩
      rw [DigitRun.fractionText, List.cons_append, text_eq, after_eq]
    · simp [stop] at h
  · simp [stop] at h
  · obtain ⟨exponent, text_eq⟩ := exists_exponent h
    exact ⟨none, exponent, text_eq⟩

/-- Whatever is passed over as a number without a sign is one. -/
theorem exists_number (negative : Bool) {text rest : List Char} (h : skipNumber text = .ok rest) :
    ∃ number : NumberToken, number.negative = negative ∧ text = number.unsigned ++ rest := by
  unfold skipNumber at h
  split at h
  · next digit after =>
    split at h
    · simp [stop] at h
    · obtain ⟨fraction, exponent, after_eq⟩ := exists_fraction h
      refine ⟨⟨negative, .single '0' rfl, DigitRun.isCanonical_single '0' rfl, fraction, exponent⟩,
        rfl, ?_⟩
      simp [NumberToken.unsigned, DigitRun.single, after_eq]
  · next digit after notZero =>
    split at h
    · next isDigit =>
      obtain ⟨digits, text_eq, head_eq⟩ := exists_digits isDigit after
      obtain ⟨fraction, exponent, after_eq⟩ := exists_fraction h
      have canonical : digits.IsCanonical := by
        rw [DigitRun.IsCanonical, head_eq, Option.some.injEq]
        rintro rfl
        cases after with
        | nil =>
          have length := congrArg List.length text_eq
          obtain ⟨other, others, digits_eq⟩ := List.exists_cons_of_ne_nil digits.nonempty
          simp_all
        | cons next after => exact absurd rfl (notZero next after rfl)
      refine ⟨⟨negative, digits, canonical, fraction, exponent⟩, rfl, ?_⟩
      rw [text_eq, after_eq, NumberToken.unsigned, List.append_assoc, List.append_assoc]
    · simp [stop] at h
  · simp [stop] at h

/-! ## Strings -/

theorem isEscapeLetter_letter (escape : Escape) : isEscapeLetter escape.letter := by
  cases escape <;> decide

theorem exists_escape {char : Char} (h : isEscapeLetter char) :
    ∃ escape : Escape, escape.letter = char := by
  simp only [isEscapeLetter, List.contains_cons, List.contains_nil, Bool.or_eq_true, beq_iff_eq,
    Bool.false_eq_true, or_false] at h
  rcases h with rfl | rfl | rfl | rfl | rfl | rfl | rfl | rfl
  exacts [⟨.quote, rfl⟩, ⟨.backslash, rfl⟩, ⟨.slash, rfl⟩, ⟨.backspace, rfl⟩, ⟨.formFeed, rfl⟩,
    ⟨.newline, rfl⟩, ⟨.carriageReturn, rfl⟩, ⟨.tab, rfl⟩]

/-- The letter of an escape never opens a code unit. -/
theorem letter_ne_u (escape : Escape) : escape.letter ≠ 'u' := by
  cases escape <;> decide

theorem skipEscape_letter (escape : Escape) (rest : List Char) :
    skipEscape (escape.letter :: rest) = .ok rest := by
  unfold skipEscape
  split
  · next heq => simp at heq
  · next heq => exact absurd (List.cons.inj heq).1 (letter_ne_u escape)
  · next heq =>
    rw [← (List.cons.inj heq).1, ← (List.cons.inj heq).2, isEscapeLetter_letter, if_pos rfl]

theorem skipEscape_unit (unit : CodeUnit) (rest : List Char) :
    skipEscape ('u' :: (unit.text ++ rest)) = .ok rest := by
  simp [skipEscape, hex4?_text]

theorem skipString_backslash {text after : List Char} (h : skipEscape text = .ok after) :
    skipString ('\\' :: text) = skipString after := by
  rw [skipString]
  split <;> simp_all

/-- A part of a string is passed over. -/
theorem skipString_piece (piece : Piece) (rest : List Char) :
    skipString (piece.text ++ rest) = skipString rest := by
  cases piece with
  | plain char allowed =>
    rw [Piece.text, List.singleton_append, skipString, if_neg (Char.not_lt.2 allowed.1)]
    · exact allowed.2.1
    · exact allowed.2.2
  | short escape => exact skipString_backslash (skipEscape_letter escape rest)
  | unicode unit => exact skipString_backslash (skipEscape_unit unit rest)

/-- A string is passed over. -/
theorem skipString_body (literal : Literal) (rest : List Char) :
    skipString (literal.body ++ rest) = .ok rest := by
  obtain ⟨pieces⟩ := literal
  induction pieces with
  | nil => simp [Literal.body, Piece.texts, skipString]
  | cons piece pieces ih =>
    simp only [Literal.body, Piece.texts, List.flatMap_cons, List.append_assoc] at ih ⊢
    rw [skipString_piece, ih]

theorem exists_piece_of_skipEscape {text rest : List Char} (h : skipEscape text = .ok rest) :
    ∃ piece : Piece, '\\' :: text = piece.text ++ rest := by
  unfold skipEscape at h
  split at h
  · simp [stop] at h
  · split at h
    · next found =>
      rw [Except.ok.injEq] at h
      obtain ⟨unit, -, text_eq⟩ := exists_codeUnit found
      exact ⟨.unicode unit, by rw [text_eq, h]; rfl⟩
    · simp [stop] at h
  · split at h
    · next isLetter =>
      rw [Except.ok.injEq] at h
      obtain ⟨escape, rfl⟩ := exists_escape isLetter
      exact ⟨.short escape, by rw [h]; rfl⟩
    · simp [stop] at h

/-- Whatever is passed over as a string is one. -/
theorem exists_literal {text rest : List Char} (h : skipString text = .ok rest) :
    ∃ literal : Literal, text = literal.body ++ rest := by
  fun_induction skipString text with
  | case1 => simp [stop] at h
  | case2 after =>
    rw [Except.ok.injEq] at h
    exact ⟨⟨[]⟩, by rw [h]; rfl⟩
  | case3 text after skipped ih =>
    obtain ⟨⟨pieces⟩, after_eq⟩ := ih h
    obtain ⟨piece, text_eq⟩ := exists_piece_of_skipEscape skipped
    refine ⟨⟨piece :: pieces⟩, ?_⟩
    rw [text_eq, after_eq]
    simp [Literal.body, Piece.texts]
  | case4 => simp at h
  | case5 => simp [stop] at h
  | case6 char after notQuote notBackslash printable ih =>
    obtain ⟨⟨pieces⟩, after_eq⟩ := ih h
    refine ⟨⟨.plain char ⟨Char.not_lt.1 printable, notQuote, notBackslash⟩ :: pieces⟩, ?_⟩
    rw [after_eq]
    simp [Literal.body, Piece.texts, Piece.text]

end Scan

end SpanScore.Json
