import SpanScore.Proofs.Double.Powers
import SpanScore.Proofs.Json.Numbers

/-!
# The doubles of numbers

A significand is scaled by one rounded product or one rounded quotient, or by two quotients where
the power of ten is below all doubles.  What is read of a number is therefore always finite.
-/

namespace SpanScore.Json

open Double Float.Model.UnpackedFloat

namespace Digits

/-! ## Scaling -/

/-- A power of ten in reach multiplies a double, unless the product is infinite. -/
theorem exists_scale?_mul {a : ℕ} (finite : a < infinityPlace) {power : ℕ}
    (within : power ≤ greatestPower) :
    ∃ ten place, RoundsTo (10 ^ power) ten ∧ RoundsTo (value a * value ten) place ∧
      scale? (signed .positive a) power =
        if place < infinityPlace then some (signed .positive place) else none := by
  obtain ⟨ten, rounds, -, tenFinite, ten_eq⟩ := exists_powerOfTen within
  obtain ⟨place, rounds', eq⟩ := exists_mul_signed .positive .positive finite tenFinite
  refine ⟨ten, place, rounds, rounds', ?_⟩
  have product : signed .positive a * powerOfTen ((power : ℤ).natAbs) =
      signed .positive place := by
    rw [Int.natAbs_natCast, ten_eq, eq]
    rfl
  rw [scale?, if_pos (Int.natCast_nonneg power), if_pos (by exact_mod_cast within)]
  dsimp only
  rw [product]
  by_cases small : place < infinityPlace
  · rw [if_pos small, if_neg (by rw [isInf_signed]; omega)]
  · rw [if_neg small, if_pos ((isInf_signed _ _).2 (by omega))]

/-- The quotient of a double by a power of ten in reach is no greater than the double. -/
theorem exists_div_powerOfTen {a : ℕ} (finite : a < infinityPlace) {power : ℕ}
    (within : power ≤ greatestPower) :
    ∃ ten place, RoundsTo (10 ^ power) ten ∧ RoundsTo (value a / value ten) place ∧ place ≤ a ∧
      signed .positive a / powerOfTen power = signed .positive place := by
  obtain ⟨ten, rounds, least, tenFinite, ten_eq⟩ := exists_powerOfTen within
  have positive : 0 < onePlace := by decide
  obtain ⟨place, rounds', eq⟩ :=
    exists_div_signed .positive .positive finite tenFinite (by omega)
  refine ⟨ten, place, rounds, rounds', rounds'.le_of_le_value ?_, by rw [ten_eq, eq]; rfl⟩
  exact div_le_self (value_nonneg a) (rounds.one_le_value (one_le_ten_pow power))

/-- A negative power of ten in reach divides a double. -/
theorem scale?_neg {a : ℕ} {power : ℕ} (positive : 0 < power) (within : power ≤ greatestPower) :
    scale? (signed .positive a) (-power) = some (signed .positive a / powerOfTen power) := by
  rw [scale?, if_neg (by omega), if_pos (by omega), Int.natAbs_neg, Int.natAbs_natCast]

/-- A power of ten below all doubles divides twice or more. -/
theorem scale?_step {a : ℕ} (finite : a < infinityPlace) (nonzero : 0 < a) {power : ℕ}
    (beyond : greatestPower < power) :
    scale? (signed .positive a) (-power) =
      scale? (signed .positive a / powerOfTen greatestPower) (greatestPower - power) := by
  have ne_zero : (signed .positive a == 0) = false := by
    rw [zero_eq, Bool.eq_false_iff, Ne, beq_iff _ _ finite.le (by decide), rank, rank]
    omega
  rw [scale?, if_neg (by omega), if_neg (by omega), ne_zero]
  rw [if_neg Bool.false_ne_true]
  congr 1
  omega

/-- Whatever is scaled stays finite. -/
theorem exists_place_of_scale? {x scaled : Float} {power : ℤ} (h : scale? x power = some scaled)
    {a : ℕ} (finite : a < infinityPlace) (x_eq : x = signed .positive a) :
    ∃ place < infinityPlace, scaled = signed .positive place := by
  induction x, power using scale?.induct generalizing a with
  | case1 x power nonneg within product infinite =>
    rw [scale?, if_pos nonneg, if_pos within] at h
    simp [product, infinite] at h
  | case2 x power nonneg within product bounded =>
    obtain ⟨magnitude, rfl⟩ := Int.eq_ofNat_of_zero_le nonneg
    obtain ⟨ten, place, -, -, eq⟩ :=
      exists_scale?_mul finite (Int.ofNat_le.1 within)
    rw [← x_eq] at eq
    rw [eq] at h
    split at h
    · next small => exact ⟨place, small, (Option.some.inj h).symm⟩
    · cases h
  | case3 x power nonneg beyond zero =>
    rw [scale?, if_pos nonneg, if_neg beyond, if_pos zero] at h
    exact ⟨a, finite, (Option.some.inj h).symm.trans x_eq⟩
  | case4 x power nonneg beyond nonzero =>
    rw [scale?, if_pos nonneg, if_neg beyond, if_neg nonzero] at h
    cases h
  | case5 x power negative within =>
    obtain ⟨magnitude, rfl⟩ := Int.exists_eq_neg_ofNat (Int.not_le.1 negative).le
    have within' : magnitude ≤ greatestPower := by omega
    obtain ⟨-, place, -, -, le, eq⟩ := exists_div_powerOfTen finite within'
    rw [x_eq, scale?_neg (by omega) (by omega), eq] at h
    exact ⟨place, lt_of_le_of_lt le finite, (Option.some.inj h).symm⟩
  | case6 x power negative beyond zero =>
    rw [scale?, if_neg negative, if_neg beyond, if_pos zero] at h
    exact ⟨a, finite, (Option.some.inj h).symm.trans x_eq⟩
  | case7 x power negative beyond nonzero ih =>
    rw [scale?, if_neg negative, if_neg beyond, if_neg nonzero] at h
    obtain ⟨-, place, -, -, le, eq⟩ := exists_div_powerOfTen finite (le_refl greatestPower)
    exact ih h (lt_of_le_of_lt le finite) (by rw [x_eq, eq])

end Digits

/-! ## Numbers -/

/-- Digits are collected in a word of 64 bits. -/
theorem Digits.collect_lt {start : ℕ} (word : start < 2 ^ 64) (digits : List Char) :
    (collect start digits).1 < 2 ^ 64 := by
  induction digits generalizing start with
  | nil => exact word
  | cons digit digits ih =>
    rw [collect]
    split
    · next fits => exact ih fits
    · exact word

theorem isFinite_neg {x : Float} (finite : x.isFinite = true) : (-x).isFinite = true := by
  obtain ⟨sign, place, small, rfl⟩ := exists_signed_of_isFinite finite
  rw [neg_signed, isFinite_signed]
  exact small

theorem isFinite_toFloat {number : ℕ} (word : number < 2 ^ 64) :
    number.toUInt64.toFloat.isFinite = true := by
  obtain ⟨place, -, small, eq⟩ := exists_toFloat word
  rw [eq, isFinite_signed]
  exact small

theorem isFinite_ofInteger (negative : Bool) {magnitude : ℕ} (word : magnitude < 2 ^ 64) :
    (Digits.ofInteger negative magnitude).toFloat.isFinite = true := by
  have finite := isFinite_toFloat word
  unfold Digits.ofInteger
  split
  · exact finite
  · split
    · next signed =>
      simp only [Bool.and_eq_true, decide_eq_true_eq] at signed
      obtain ⟨before, rfl⟩ := Nat.exists_eq_succ_of_ne_zero (Nat.ne_of_gt signed.1)
      exact isFinite_neg finite
    · exact isFinite_neg finite

namespace Grammar.NumberToken

theorem significand_lt (number : NumberToken) : number.significand.1 < 2 ^ 64 := by
  have whole := Digits.collect_lt (by decide : 0 < 2 ^ 64) number.whole.text
  unfold significand
  dsimp only
  split
  · exact whole
  · exact Digits.collect_lt whole _

theorem isFinite_of_double? {negative : Bool} {significand : ℕ} (word : significand < 2 ^ 64)
    {power : ℤ} {number : Number} (h : double? negative significand power = some number) :
    number.toFloat.isFinite = true := by
  obtain ⟨scaled, scale, rfl⟩ := Option.map_eq_some_iff.1 h
  obtain ⟨a, -, finite, eq⟩ := exists_toFloat word
  obtain ⟨place, small, rfl⟩ := Digits.exists_place_of_scale? scale finite eq
  have finite := (isFinite_signed .positive place).2 small
  cases negative with
  | true => exact isFinite_neg finite
  | false => exact finite

/-- What is read of a number is finite. -/
theorem isFinite_of_value? {token : NumberToken} {number : Number}
    (h : token.value? = some number) : number.toFloat.isFinite = true := by
  have word := token.significand_lt
  unfold value? at h
  split at h
  next significand power parts =>
  rw [parts] at word
  split at h
  · next exponent _ =>
    unfold raised? at h
    split at h
    · exact isFinite_of_double? word h
    · split at h
      · cases h
      · rw [← Option.some.inj h]
        cases token.negative <;> decide
  · split at h
    · rw [← Option.some.inj h]
      exact isFinite_ofInteger _ word
    · exact isFinite_of_double? word h

end Grammar.NumberToken

end SpanScore.Json
