import Mathlib.Algebra.Group.Nat.Defs
import SpanScore.Proofs.Json.Numbers

/-!
# Numbers whose digits fit a word

As long as the digits of a number fit a word of 64 bits none of them is dropped, and the number is
its digits, read as one natural number, scaled by one power of ten.
-/

namespace SpanScore.Json

open Grammar

/-- Collecting digits on from a number gives no smaller one. -/
theorem le_ofDigitChars (digits : List Char) (start : ℕ) :
    start ≤ Nat.ofDigitChars 10 digits start := by
  rw [Nat.ofDigitChars_eq_ofDigitChars_zero]
  exact (Nat.le_mul_of_pos_left start (Nat.pow_pos (by decide))).trans (Nat.le_add_right _ _)

/-- Digits that fit a word are all collected. -/
theorem Digits.collect_of_lt {digits : List Char} {start : ℕ}
    (fits : Nat.ofDigitChars 10 digits start < UInt64.size) :
    collect start digits = (Nat.ofDigitChars 10 digits start, 0) := by
  induction digits generalizing start with
  | nil => rfl
  | cons digit digits ih =>
    rw [Nat.ofDigitChars_cons, Nat.mul_comm] at fits ⊢
    rw [collect]
    exact (if_pos (lt_of_le_of_lt (le_ofDigitChars digits _) fits)).trans (ih fits)

theorem ofDigits_eq (digits : List Char) :
    Numeral.ofDigits digits = Nat.ofDigitChars 10 digits 0 := by
  simp only [Numeral.ofDigits, Nat.ofDigitChars, Numeral.digitValue, Nat.mul_comm 10]
  rfl

namespace Grammar

def Exponent.value (exponent : Exponent) : ℤ :=
  if exponent.isBelow then -exponent.magnitude else exponent.magnitude

namespace NumberToken

def fractionDigits (number : NumberToken) : List Char :=
  (number.fraction.map DigitRun.text).getD []

/-- All digits of a number in front of its exponent, as one natural number. -/
def mantissa (number : NumberToken) : ℕ :=
  Nat.ofDigitChars 10 (number.whole.text ++ number.fractionDigits) 0

/-- The power of ten that the last digit of a number counts. -/
def power (number : NumberToken) : ℤ :=
  (number.exponent.map Exponent.value).getD 0 - number.fractionDigits.length

theorem significand_of_lt {number : NumberToken} (fits : number.mantissa < UInt64.size) :
    number.significand = (number.mantissa, -(number.fractionDigits.length : ℤ)) := by
  have split : number.mantissa = Nat.ofDigitChars 10 number.fractionDigits
      (Nat.ofDigitChars 10 number.whole.text 0) := Nat.ofDigitChars_append 0
  rw [split] at fits ⊢
  have whole := Digits.collect_of_lt (lt_of_le_of_lt (le_ofDigitChars _ _) fits)
  unfold significand
  rw [whole]
  unfold fractionDigits at fits ⊢
  cases fraction : number.fraction with
  | none => rfl
  | some digits =>
    rw [fraction] at fits
    have longer := Digits.collect_of_lt fits
    dsimp only [Option.map_some, Option.getD_some] at longer ⊢
    rw [longer]
    simp

theorem raised?_of_lt {exponent : Exponent} {negative : Bool} {significand : Nat} {power : Int}
    (small : exponent.magnitude < 2 ^ 31) :
    raised? negative significand power exponent =
      double? negative significand
        (if exponent.isBelow then power - exponent.magnitude else power + exponent.magnitude) :=
  if_pos small

/-- A number with a point or an exponent is scaled once when its digits fit a word. -/
theorem value?_of_lt {number : NumberToken} (fits : number.mantissa < UInt64.size)
    (short : ∀ exponent ∈ number.exponent, exponent.magnitude < 2 ^ 31)
    (pointed : number.fraction.isSome ∨ number.exponent.isSome) :
    number.value? = double? number.negative number.mantissa number.power := by
  unfold value? power
  rw [significand_of_lt fits]
  dsimp only
  cases exponent : number.exponent with
  | none =>
    have fraction := pointed.resolve_right (by rw [exponent]; exact Bool.false_ne_true)
    dsimp only
    rw [if_neg (by simp [Option.isSome_iff_ne_none.1 fraction])]
    simp
  | some exponent' =>
    have small := short exponent' exponent
    dsimp only
    rw [raised?_of_lt small, Option.map_some, Option.getD_some, Exponent.value]
    split <;> congr 1 <;> omega

end NumberToken

end Grammar

end SpanScore.Json
