import SpanScore.Proofs.Decimal.Numeral
import SpanScore.Proofs.Json.Scan
import SpanScore.Proofs.Json.Significand

/-!
# Number tokens as numerals

The text of a number token is a numeral as well.  As such it names the double nearest to the number
that the token spells, however many digits it has.
-/

namespace SpanScore.Json.Grammar

open Double

theorem toLower_of_isDigit {char : Char} (decimal : char.isDigit) : char.toLower = char := by
  simp only [Char.isDigit, Bool.and_eq_true, decide_eq_true_eq] at decimal
  unfold Char.toLower
  rw [dif_neg]
  rintro ⟨upper, -⟩
  exact absurd (UInt32.le_trans upper decimal.2) (by decide)

/-- The exponent of a number is that of the numeral. -/
theorem Exponent.exponent?_text (exponent : Option Exponent) :
    Numeral.exponent? (Exponent.text exponent) = some ((exponent.map Exponent.value).getD 0) := by
  cases exponent with
  | none => rfl
  | some exponent =>
    obtain ⟨digit, others, text, isDigit⟩ := Scan.exists_cons_digits exponent.digits
    have plus : digit ≠ '+' := Scan.ne_of_isDigit isDigit rfl
    have minus : digit ≠ '-' := Scan.ne_of_isDigit isDigit rfl
    have whole := Digits.spanDigits_append exponent.digits Scan.endsNumber_nil.endsDigits
    rw [List.append_nil, text] at whole
    have mark : ¬((if exponent.capital then 'E' else 'e') ≠ 'e' ∧
        (if exponent.capital then 'E' else 'e') ≠ 'E') := by
      cases exponent.capital <;> decide
    unfold Exponent.text Numeral.exponent?
    dsimp only
    rw [if_neg mark, Option.map_some, Option.getD_some, Exponent.value, Exponent.isBelow,
      Exponent.magnitude, text]
    cases exponent.sign with
    | none => simp [Sign.text, plus, minus, whole]
    | some sign => cases sign <;> simp [Sign.text, whole]

theorem Exponent.text_ne_point (exponent : Option Exponent) (rest : List Char) :
    Exponent.text exponent ≠ '.' :: rest := by
  cases exponent with
  | none => exact List.cons_ne_nil _ _ ∘ Eq.symm
  | some exponent =>
    intro same
    have mark := (List.cons.inj same).1
    cases capital : exponent.capital <;> simp [capital] at mark

namespace NumberToken

/-- The digits of a number are those of the numeral. -/
theorem digits?_unsigned (token : NumberToken) :
    Numeral.digits? token.unsigned = some (Numeral.nearest token.mantissa token.power) := by
  have ends : Scan.EndsDigits (Exponent.text token.exponent) := by
    simpa using Scan.endsDigits_exponent token.exponent Scan.endsNumber_nil
  have whole := Digits.spanDigits_append token.whole (Scan.endsDigits_fraction token.fraction ends)
  have more : token.whole.text.isEmpty = false := by simpa using token.whole.nonempty
  have exponent_eq := Exponent.exponent?_text token.exponent
  unfold Numeral.digits? mantissa power fractionDigits unsigned
  rw [whole]
  cases token.fraction with
  | none =>
    rw [DigitRun.fractionText, List.nil_append]
    dsimp only
    split
    · next same => exact absurd same (Exponent.text_ne_point _ _)
    · simp [more, exponent_eq, ofDigits_eq]
  | some digits =>
    have behind := Digits.spanDigits_append digits ends
    simp [DigitRun.fractionText, behind, more, exponent_eq, ofDigits_eq]

/-- A number without its sign is no word. -/
theorem magnitude?_unsigned (token : NumberToken) :
    Numeral.magnitude? token.unsigned = some (Numeral.nearest token.mantissa token.power) := by
  obtain ⟨digit, others, text, isDigit⟩ := Scan.exists_cons_unsigned token
  have head : token.unsigned.map Char.toLower = digit :: others.map Char.toLower := by
    rw [text, List.map_cons, toLower_of_isDigit isDigit]
  have word {letters : List Char} (letter : letters.head?.any Char.isDigit = false) :
      token.unsigned.map Char.toLower ≠ letters := by
    rintro rfl
    rw [head, List.head?_cons, Option.any_some, isDigit] at letter
    cases letter
  unfold Numeral.magnitude?
  dsimp only
  rw [if_neg (not_or.2 ⟨word (by decide), word (by decide)⟩), if_neg (word (by decide)),
    digits?_unsigned]

def sign (token : NumberToken) : Float.Model.UnpackedFloat.Sign :=
  if token.negative then .negative else .positive

/-- The text of a number names the double nearest to what it spells. -/
theorem exists_read?_text (token : NumberToken) :
    ∃ place, RoundsTo (token.mantissa * 10 ^ token.power) place ∧
      Numeral.read? (String.ofList token.text) = some (signed token.sign place) := by
  obtain ⟨place, rounds, nearest_eq⟩ := Numeral.exists_place_nearest token.mantissa token.power
  refine ⟨place, rounds, ?_⟩
  have magnitude := magnitude?_unsigned token
  rw [nearest_eq] at magnitude
  rw [Numeral.read?, String.toList_ofList, NumberToken.text, sign]
  cases negative : token.negative with
  | true =>
    rw [if_pos rfl, if_pos rfl]
    change (Numeral.magnitude? token.unsigned).map Float.neg = _
    rw [magnitude, Option.map_some]
    exact congrArg some (neg_signed .positive place)
  | false =>
    obtain ⟨digit, others, text, isDigit⟩ := Scan.exists_cons_unsigned token
    have plus : digit ≠ '+' := Scan.ne_of_isDigit isDigit rfl
    have minus : digit ≠ '-' := Scan.ne_of_isDigit isDigit rfl
    rw [text] at magnitude ⊢
    simp [plus, minus, magnitude]

end NumberToken

end SpanScore.Json.Grammar
