import SpanScore.Proofs.Double.Near
import SpanScore.Proofs.Json.Doubles
import SpanScore.Proofs.Json.Significand

/-!
# Digits that do not fit a word

Digits that do not fit the word are dropped, in front of the point and behind it on their own.  What
is kept is long by then, so the number that is scaled is the one that is spelled but for one step of
rounding.
-/

namespace SpanScore.Json

open Double

namespace Digits

/-! ## Leading digits -/

/-- Whether a number starts with some digits, the last of which counts a power of ten. -/
def Leads (front : ℕ) (power : ℤ) (number : ℚ) : Prop :=
  front * 10 ^ power ≤ number ∧ number < (front + 1) * 10 ^ power

/-- Numbers that start with the same digits are near each other when these are many. -/
theorem Leads.near {front : ℕ} {power : ℤ} {x y : ℚ} (hx : Leads front power x)
    (hy : Leads front power y) (many : 2 ^ 53 ≤ front) : Near 1 x y := by
  obtain ⟨lowX, highX⟩ := hx
  obtain ⟨lowY, highY⟩ := hy
  have manyQ : (9007199254740992 : ℚ) ≤ front := by exact_mod_cast many
  have unit : (0 : ℚ) < 10 ^ power := by positivity
  have room : shrink * ((front + 1) * 10 ^ power) ≤ front * 10 ^ power := by
    rw [← mul_assoc]
    refine mul_le_mul_of_nonneg_right ?_ unit.le
    norm_num [shrink]
    linarith
  have shrunk {z : ℚ} (high : z < (front + 1) * 10 ^ power) :
      shrink ^ 1 * z ≤ front * 10 ^ power := by
    rw [pow_one]
    exact (mul_le_mul_of_nonneg_left high.le shrink_pos.le).trans room
  exact ⟨(shrunk highX).trans lowY, (shrunk highY).trans lowX⟩

theorem digit_le_nine {char : Char} (decimal : char.isDigit) : char.toNat - '0'.toNat ≤ 9 := by
  simp only [Char.isDigit, Bool.and_eq_true, decide_eq_true_eq] at decimal
  have high : char.toNat ≤ 57 := decimal.2
  have zero : '0'.toNat = 48 := rfl
  omega

theorem ofDigitChars_mem {digits : List Char} (decimal : ∀ char ∈ digits, char.isDigit)
    (start : ℕ) : start * 10 ^ digits.length ≤ Nat.ofDigitChars 10 digits start ∧
      Nat.ofDigitChars 10 digits start < (start + 1) * 10 ^ digits.length := by
  induction digits generalizing start with
  | nil => simp [Nat.ofDigitChars]
  | cons digit digits ih =>
    obtain ⟨head, tail⟩ := List.forall_mem_cons.1 decimal
    have few := digit_le_nine head
    obtain ⟨low, high⟩ := ih tail (10 * start + (digit.toNat - '0'.toNat))
    rw [Nat.ofDigitChars_cons, List.length_cons, Nat.pow_succ']
    constructor
    · calc start * (10 * 10 ^ digits.length) = 10 * start * 10 ^ digits.length := by ring
        _ ≤ _ := (Nat.mul_le_mul_right _ (by omega)).trans low
    · calc _ < _ := high
        _ ≤ (10 * (start + 1)) * 10 ^ digits.length := Nat.mul_le_mul_right _ (by omega)
        _ = (start + 1) * (10 * 10 ^ digits.length) := by ring

/-- Digits behind a number do not change what it starts with. -/
theorem leads_ofDigitChars {digits : List Char} (decimal : ∀ char ∈ digits, char.isDigit)
    (start : ℕ) {power last : ℤ} (power_eq : power = digits.length + last) :
    Leads start power (Nat.ofDigitChars 10 digits start * 10 ^ last) := by
  obtain ⟨low, high⟩ := ofDigitChars_mem decimal start
  have unit : (0 : ℚ) < 10 ^ last := by positivity
  rw [Leads, power_eq, zpow_add₀ (by norm_num), zpow_natCast, ← mul_assoc, ← mul_assoc]
  exact ⟨mul_le_mul_of_nonneg_right (by exact_mod_cast low) unit.le,
    mul_lt_mul_of_pos_right (by exact_mod_cast high) unit⟩

/-! ## Collecting -/

/-- Digits are collected from the front, all of them or many. -/
theorem exists_collect {digits : List Char} (decimal : ∀ char ∈ digits, char.isDigit)
    (start : ℕ) : ∃ front back, digits = front ++ back ∧
      collect start digits = (Nat.ofDigitChars 10 front start, back.length) ∧
        (back = [] ∨ 2 ^ 53 ≤ Nat.ofDigitChars 10 front start) := by
  induction digits generalizing start with
  | nil => exact ⟨[], [], rfl, rfl, .inl rfl⟩
  | cons digit digits ih =>
    obtain ⟨head, tail⟩ := List.forall_mem_cons.1 decimal
    have value_eq : start * 10 + Numeral.digitValue digit =
        10 * start + (digit.toNat - '0'.toNat) := by
      rw [Nat.mul_comm]
      rfl
    rw [collect]
    split
    · obtain ⟨front, back, digits_eq, collected, many⟩ :=
        ih tail (start * 10 + Numeral.digitValue digit)
      refine ⟨digit :: front, back, by rw [digits_eq, List.cons_append], ?_⟩
      rw [Nat.ofDigitChars_cons, ← value_eq]
      exact ⟨collected, many⟩
    · next full =>
      have few := digit_le_nine head
      have size : UInt64.size = 2 ^ 64 := rfl
      refine ⟨[], digit :: digits, rfl, rfl, .inr ?_⟩
      rw [value_eq, size] at full
      change 2 ^ 53 ≤ start
      omega

end Digits

namespace Grammar.NumberToken

open Digits

/-- Whether digits of a number are dropped. -/
def cutSteps (token : NumberToken) : ℕ :=
  if token.mantissa < 2 ^ 64 then 0 else 1

theorem decimal_fractionDigits (token : NumberToken) :
    ∀ char ∈ token.fractionDigits, char.isDigit := by
  unfold fractionDigits
  cases token.fraction with
  | none => simp
  | some digits => exact digits.decimal

/-- The digits behind the point are collected behind those in front of it. -/
theorem significand_eq (token : NumberToken) {whole dropped longer lost : ℕ}
    (collected : collect 0 token.whole.text = (whole, dropped))
    (collected' : collect whole token.fractionDigits = (longer, lost)) :
    token.significand =
      (longer, (dropped : ℤ) - ((token.fractionDigits.length - lost : ℕ) : ℤ)) := by
  unfold significand fractionDigits at *
  rw [collected]
  cases fraction : token.fraction with
  | none =>
    rw [fraction] at collected'
    obtain ⟨rfl, rfl⟩ := Prod.mk.inj collected'
    simp
  | some digits =>
    rw [fraction] at collected'
    dsimp only [Option.map_some, Option.getD_some] at collected' ⊢
    rw [collected']
    rfl

/-- Some digits behind those kept of the integer part are dropped, and some behind those kept of the
fraction. -/
theorem exists_parts (token : NumberToken) :
    ∃ whole kept, ∃ back front back' : List Char,
      (∀ char ∈ back ++ (front ++ back'), char.isDigit) ∧
      token.fractionDigits.length = front.length + back'.length ∧
      token.mantissa = Nat.ofDigitChars 10 (back ++ (front ++ back')) whole ∧
      kept = Nat.ofDigitChars 10 front whole ∧
      token.significand = (kept, (back.length : ℤ) - (front.length : ℤ)) ∧
      (back = [] ∨ 2 ^ 53 ≤ whole) ∧ (back' = [] ∨ 2 ^ 53 ≤ kept) := by
  obtain ⟨front, back, whole_eq, collected, many⟩ := exists_collect token.whole.decimal 0
  obtain ⟨front', back', fraction_eq, collected', many'⟩ :=
    exists_collect token.decimal_fractionDigits (Nat.ofDigitChars 10 front 0)
  have decimal := token.whole.decimal
  rw [whole_eq, List.forall_mem_append] at decimal
  refine ⟨_, _, back, front', back', ?_, ?_, ?_, rfl, ?_, many, many'⟩
  · rw [← fraction_eq]
    exact List.forall_mem_append.2 ⟨decimal.2, token.decimal_fractionDigits⟩
  · rw [fraction_eq, List.length_append]
  · rw [mantissa, whole_eq, fraction_eq, List.append_assoc, Nat.ofDigitChars_append]
  · rw [significand_eq token collected collected', fraction_eq, List.length_append,
      Nat.add_sub_cancel]

/-- The number that is scaled is near the one that is spelled. -/
theorem near_scaled (token : NumberToken) :
    Near token.cutSteps (token.mantissa * 10 ^ (-(token.fractionDigits.length : ℤ)))
      (token.significand.1 * 10 ^ token.significand.2) := by
  by_cases fits : token.mantissa < 2 ^ 64
  · rw [cutSteps, if_pos fits, significand_of_lt fits]
    exact .refl _
  obtain ⟨whole, kept, back, front, back', decimal, length_eq, mantissa_eq, kept_eq,
    significand_eq, many, many'⟩ := token.exists_parts
  have word := token.significand_lt
  obtain ⟨-, behind⟩ := List.forall_mem_append.1 decimal
  obtain ⟨decimalFront, decimalBack⟩ := List.forall_mem_append.1 behind
  rw [significand_eq] at word ⊢
  rw [cutSteps, if_neg fits, length_eq]
  rcases many with rfl | many
  · rw [List.nil_append, Nat.ofDigitChars_append, ← kept_eq] at mantissa_eq
    rcases many' with rfl | many'
    · -- All digits would have been collected into a word.
      rw [mantissa_eq] at fits
      exact absurd word fits
    · have spelled := leads_ofDigitChars decimalBack kept
        (show -(front.length : ℤ) = back'.length + -((front.length + back'.length : ℕ) : ℤ)
          by omega)
      have scaled := leads_ofDigitChars (fun _ ↦ by simp) kept
        (show -(front.length : ℤ) = ([] : List Char).length + -(front.length : ℤ) by simp)
      rw [mantissa_eq]
      simpa using spelled.near scaled many'
  · have spelled := leads_ofDigitChars decimal whole
      (show (back.length : ℤ) = (back ++ (front ++ back')).length +
        -((front.length + back'.length : ℕ) : ℤ) by simp only [List.length_append]; omega)
    have scaled := leads_ofDigitChars decimalFront whole
      (show (back.length : ℤ) = front.length + (back.length - front.length : ℤ) by omega)
    rw [mantissa_eq, kept_eq]
    exact spelled.near scaled many

end Grammar.NumberToken

end SpanScore.Json
