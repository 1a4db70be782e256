import SpanScore.Decimal.Layout
import SpanScore.Proofs.Decimal.Shortest
import SpanScore.Proofs.Double.View
import SpanScore.Proofs.Json.Significand

/-!
# Layouts and number tokens

Every layout writes the magnitude of a double as a number token without its sign, with a point, an
exponent or both.  The token spells the shortest digits, with zeros behind them where the point
stands further to the right.
-/

namespace SpanScore.Decimal

open Json.Grammar

def zeroRun : DigitRun := .single '0' rfl

/-- The digits of a natural number. -/
def naturalRun (number : Nat) : DigitRun :=
  ⟨Nat.toDigits 10 number, Nat.toDigits_ne_nil, fun _ mem ↦
    Nat.isDigit_of_mem_toDigits (by decide) (by decide) mem⟩

@[simp] theorem text_naturalRun (number : Nat) :
    (naturalRun number).text = Nat.toDigits 10 number := rfl

theorem isCanonical_naturalRun (number : Nat) : (naturalRun number).IsCanonical := by
  rcases Nat.eq_zero_or_pos number with rfl | pos
  · exact fun _ ↦ rfl
  · obtain ⟨digit, others, digits, nonzero⟩ := exists_cons_toDigits pos
    exact DigitRun.isCanonical_of_ne (by rw [text_naturalRun, digits, List.head?_cons]) nonzero

namespace Digits

variable {number : Digits}

theorem isDigit_of_mem_replicate {count : Nat} {char : Char} (h : char ∈ List.replicate count '0') :
    char.isDigit := by
  rw [List.eq_of_mem_replicate h]
  rfl

/-- Digits as one natural number. -/
def significand (number : Digits) : Nat :=
  Nat.ofDigitChars 10 number.digits 0

/-- A number token spells digits: it has a point or an exponent, and its number is that of the
digits, with zeros behind them only where it ends in one place behind the point. -/
structure IsSpelledBy (number : Digits) (token : NumberToken) : Prop where
  pointed : token.fraction.isSome ∨ token.exponent.isSome
  magnitude : ∀ exponent ∈ token.exponent, exponent.magnitude = number.exponent.natAbs
  digits : ∃ zeros : Nat, token.mantissa = number.significand * 10 ^ zeros ∧
    token.power = number.exponent + 1 - number.digits.length - zeros ∧
      (zeros = 0 ∨ token.power = -1 ∧ token.exponent = none)

/-! ## The point in its place -/

section

variable (proper : number.IsProper) (negative : Bool)

include proper

/-- Below one there are zeros between the point and the digits. -/
theorem exists_positional_of_lt (below : number.exponent < 0) :
    ∃ token : NumberToken, token.negative = negative ∧ token.unsigned = number.positional ∧
      number.IsSpelledBy token := by
  obtain ⟨digit, others, digits, nonzero⟩ := proper.starts
  rw [positional, if_pos below]
  let fraction : DigitRun :=
    ⟨List.replicate (number.exponent.natAbs - 1) '0' ++ number.digits, by simp [digits], by
      intro char mem
      rcases List.mem_append.1 mem with zero | digit
      · exact isDigit_of_mem_replicate zero
      · exact proper.decimal char digit⟩
  refine ⟨⟨negative, zeroRun, DigitRun.isCanonical_single '0' rfl, some fraction, none⟩, rfl, ?_,
    .inl rfl, by simp, 0, ?_, ?_, .inl rfl⟩
  · simp [NumberToken.unsigned, DigitRun.fractionText, Exponent.text, zeroRun, fraction,
      DigitRun.single]
  · simp [NumberToken.mantissa, NumberToken.fractionDigits, zeroRun, fraction, DigitRun.single,
      significand, Nat.ofDigitChars_cons, Nat.ofDigitChars_append]
  · simp only [NumberToken.power, NumberToken.fractionDigits, fraction, Option.map_some,
      Option.map_none, Option.getD_some, Option.getD_none, List.length_append,
      List.length_replicate]
    omega

/-- Few digits have zeros behind them up to the point, and one more behind the point. -/
theorem exists_positional_of_le (above : ¬number.exponent < 0)
    (few : number.digits.length ≤ number.exponent.natAbs + 1) :
    ∃ token : NumberToken, token.negative = negative ∧ token.unsigned = number.positional ∧
      number.IsSpelledBy token := by
  obtain ⟨digit, others, digits, nonzero⟩ := proper.starts
  rw [positional, if_neg above]
  dsimp only
  rw [if_pos few]
  let whole : DigitRun :=
    ⟨number.digits ++ List.replicate (number.exponent.natAbs + 1 - number.digits.length) '0',
      by simp [digits], by
        intro char mem
        rcases List.mem_append.1 mem with digit | zero
        · exact proper.decimal char digit
        · exact isDigit_of_mem_replicate zero⟩
  have canonical : whole.IsCanonical :=
    DigitRun.isCanonical_of_ne (by simp [whole, digits]) nonzero
  refine ⟨⟨negative, whole, canonical, some zeroRun, none⟩, rfl, ?_, .inl rfl, by simp,
    number.exponent.natAbs + 1 - number.digits.length + 1, ?_, ?_, .inr ⟨rfl, rfl⟩⟩
  · simp [NumberToken.unsigned, DigitRun.fractionText, Exponent.text, zeroRun, whole,
      DigitRun.single]
  · simp [NumberToken.mantissa, NumberToken.fractionDigits, zeroRun, whole, DigitRun.single,
      significand, Nat.ofDigitChars_cons, Nat.ofDigitChars_append, Nat.pow_succ]
    ac_rfl
  · simp [NumberToken.power, NumberToken.fractionDigits, zeroRun, DigitRun.single]
    omega

/-- More digits have the point between them. -/
theorem exists_positional_of_longer (above : ¬number.exponent < 0)
    (longer : ¬number.digits.length ≤ number.exponent.natAbs + 1) :
    ∃ token : NumberToken, token.negative = negative ∧ token.unsigned = number.positional ∧
      number.IsSpelledBy token := by
  obtain ⟨digit, others, digits, nonzero⟩ := proper.starts
  rw [positional, if_neg above]
  dsimp only
  rw [if_neg longer]
  have behind : number.digits.drop (number.exponent.natAbs + 1) ≠ [] := by
    rw [ne_eq, List.drop_eq_nil_iff]
    exact longer
  let whole : DigitRun := ⟨number.digits.take (number.exponent.natAbs + 1), by simp [digits],
    fun char mem ↦ proper.decimal char (List.mem_of_mem_take mem)⟩
  let fraction : DigitRun :=
    ⟨_, behind, fun char mem ↦ proper.decimal char (List.mem_of_mem_drop mem)⟩
  have canonical : whole.IsCanonical :=
    DigitRun.isCanonical_of_ne (by simp [whole, digits]) nonzero
  refine ⟨⟨negative, whole, canonical, some fraction, none⟩, rfl, ?_, .inl rfl, by simp, 0, ?_, ?_,
    .inl rfl⟩
  · simp [NumberToken.unsigned, DigitRun.fractionText, Exponent.text, whole, fraction]
  · simp [NumberToken.mantissa, NumberToken.fractionDigits, whole, fraction, significand,
      List.take_append_drop]
  · simp [NumberToken.power, NumberToken.fractionDigits, fraction]
    omega

/-- With the point in its place there are digits on either side of it. -/
theorem exists_positional :
    ∃ token : NumberToken, token.negative = negative ∧ token.unsigned = number.positional ∧
      number.IsSpelledBy token := by
  by_cases below : number.exponent < 0
  · exact exists_positional_of_lt proper negative below
  by_cases few : number.digits.length ≤ number.exponent.natAbs + 1
  · exact exists_positional_of_le proper negative below few
  · exact exists_positional_of_longer proper negative below few

end

/-! ## The point behind the first digit -/

/-- The exponent that is written behind digits. -/
def writtenExponent (number : Digits) (signsExponent : Bool) : Exponent :=
  ⟨false, if number.exponent < 0 then some .minus else if signsExponent then some .plus else none,
    naturalRun number.exponent.natAbs⟩

theorem text_writtenExponent (number : Digits) (signsExponent : Bool) :
    Exponent.text (some (number.writtenExponent signsExponent)) =
      'e' :: ((if number.exponent < 0 then ['-'] else if signsExponent then ['+'] else []) ++
        Nat.toDigits 10 number.exponent.natAbs) := by
  unfold writtenExponent
  split
  · rfl
  · split <;> rfl

theorem magnitude_writtenExponent (number : Digits) (signsExponent : Bool) :
    (number.writtenExponent signsExponent).magnitude = number.exponent.natAbs := by
  rw [Exponent.magnitude, Json.ofDigits_eq]
  exact Nat.ofDigitChars_ten_toDigits

theorem value_writtenExponent (number : Digits) (signsExponent : Bool) :
    (number.writtenExponent signsExponent).value = number.exponent := by
  rw [Exponent.value, magnitude_writtenExponent]
  by_cases below : number.exponent < 0
  · have isBelow : (number.writtenExponent signsExponent).isBelow = true := by
      simp [Exponent.isBelow, writtenExponent, below]
    rw [if_pos isBelow]
    omega
  · have isAbove : (number.writtenExponent signsExponent).isBelow = false := by
      cases signsExponent <;> simp [Exponent.isBelow, writtenExponent, below]
    rw [isAbove, if_neg Bool.false_ne_true]
    omega

/-- With an exponent there is one digit in front of the point. -/
theorem exists_scientific (proper : number.IsProper) (signsExponent negative : Bool) :
    ∃ token : NumberToken, token.negative = negative ∧
      token.unsigned = number.scientific signsExponent ∧ token.exponent ≠ none ∧
        number.IsSpelledBy token := by
  obtain ⟨digit, others, digits, nonzero⟩ := proper.starts
  have decimal := proper.decimal
  rw [digits] at decimal
  let fraction : Option DigitRun :=
    if h : others = [] then none
    else some ⟨others, h, fun char mem ↦ decimal char (List.mem_cons_of_mem _ mem)⟩
  have fractionDigits : (fraction.map DigitRun.text).getD [] = others := by
    unfold fraction
    split <;> simp_all
  refine ⟨⟨negative, .single digit (decimal digit List.mem_cons_self),
    DigitRun.isCanonical_single digit _, fraction, some (number.writtenExponent signsExponent)⟩,
    rfl, ?_, by simp, .inr rfl, ?_, 0, ?_, ?_, .inl rfl⟩
  · unfold scientific
    rw [digits, NumberToken.unsigned, text_writtenExponent]
    by_cases alone : others = []
    · simp [alone, fraction, DigitRun.fractionText, DigitRun.single]
    · have more : ¬others.length + 1 ≤ 1 := by
        have nonempty := List.length_pos_of_ne_nil alone
        omega
      simp [alone, more, fraction, DigitRun.fractionText, DigitRun.single]
  · simpa using number.magnitude_writtenExponent signsExponent
  · rw [NumberToken.mantissa, NumberToken.fractionDigits, fractionDigits, significand, digits]
    simp [DigitRun.single]
  · rw [NumberToken.power, NumberToken.fractionDigits, fractionDigits, Option.map_some,
      Option.getD_some, value_writtenExponent, digits, List.length_cons]
    omega

end Digits

/-! ## Doubles -/

/-- A double that is not zero is written as a token that spells its shortest digits, without an
exponent only where the layout has the point in its place. -/
theorem Layout.exists_token (layout : Layout) {value : Float}
    (nonzero : (Binary.ofFloat value).mantissa ≠ 0) (negative : Bool) :
    ∃ token : NumberToken, token.negative = negative ∧
      token.unsigned = layout.magnitude value ∧
      (Binary.ofFloat value).shortest.IsSpelledBy token ∧
      (token.exponent = none → layout.isPositional (Binary.ofFloat value).shortest.exponent) := by
  have proper := Binary.isProper_shortest (Binary.inRange_ofFloat nonzero)
  unfold magnitude
  dsimp only
  rw [if_neg nonzero]
  split
  · next positional =>
    obtain ⟨token, sign, text, spells⟩ := Digits.exists_positional proper negative
    exact ⟨token, sign, text, spells, fun _ ↦ positional⟩
  · obtain ⟨token, sign, text, raised, spells⟩ :=
      Digits.exists_scientific proper layout.signsExponent negative
    exact ⟨token, sign, text, spells, fun absent ↦ absurd absent raised⟩

/-- A magnitude is a number without its sign. -/
theorem Layout.exists_magnitude (layout : Layout) (value : Float) (negative : Bool) :
    ∃ number : NumberToken,
      number.negative = negative ∧ layout.magnitude value = number.unsigned := by
  by_cases zero : (Binary.ofFloat value).mantissa = 0
  · refine ⟨⟨negative, zeroRun, DigitRun.isCanonical_single '0' rfl, some zeroRun, none⟩, rfl, ?_⟩
    rw [magnitude, if_pos zero]
    rfl
  · obtain ⟨token, sign, text, -, -⟩ := layout.exists_token zero negative
    exact ⟨token, sign, text.symm⟩

/-- A finite double is written as a number. -/
theorem Layout.exists_number (layout : Layout) {value : Float} (h : value.isFinite) :
    ∃ number : NumberToken, layout.write value = number.text := by
  obtain ⟨number, negative, magnitude⟩ :=
    layout.exists_magnitude value (isSignNegative value)
  obtain ⟨isNumber, bounded⟩ := (Double.isFinite_iff value).1 h
  refine ⟨number, ?_⟩
  rw [write, isNumber, bounded, if_neg (by simp), magnitude, NumberToken.text, negative]
  cases isSignNegative value <;> rfl

end SpanScore.Decimal
