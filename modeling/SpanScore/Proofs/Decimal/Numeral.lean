import SpanScore.Proofs.Json.Drift

/-!
# Numerals are rounded once

Main statement: a numeral names the double nearest to its digits with their power of ten, or
infinity behind all doubles.  Digits with a small power of ten are converted by one exact product or
quotient, all others by an exact fraction that is rounded, and out of reach of both there is only
zero or infinity.
-/

namespace SpanScore

open Double Float.Model Float.Model.UnpackedFloat

namespace Double

/-- What is next to nothing is rounded to zero. -/
theorem roundsTo_zero {number : ℚ} (small : number ≤ 10 ^ (-324 : ℤ)) : RoundsTo number 0 := by
  have least : (2 : ℚ) * 10 ^ (-324 : ℤ) ≤ 2 ^ (-1074 : ℤ) :=
    calc (2 : ℚ) * 10 ^ (-324 : ℤ) ≤ 2 * 2 ^ (-1075 : ℤ) :=
          mul_le_mul_of_nonneg_left (Decimal.ten_zpow_le_two_zpow (by decide) (by decide)) (by simp)
      _ = 2 ^ (-1074 : ℤ) := by
        rw [show (-1074 : ℤ) = 1 + -1075 by decide, zpow_add₀ two_ne_zero, zpow_one]
  have first : midpoint 0 = 2 ^ (-1074 : ℤ) := by
    rw [midpoint, value_zero, zero_add, value, significand, Double.exponent, if_pos (by decide),
      if_pos (by decide), Nat.cast_one, one_mul]
  refine ⟨?_, by simp, by simp, by simp⟩
  rw [first]
  linarith

/-- A number behind all doubles is rounded to a place from that of infinity on. -/
theorem RoundsTo.infinityPlace_le {number : ℚ} {place : ℕ} (h : RoundsTo number place)
    (great : 10 ^ (309 : ℤ) ≤ number) : infinityPlace ≤ place := by
  refine h.le_of_value_le ?_
  rw [Json.Digits.value_infinityPlace]
  exact (Decimal.two_zpow_le_ten_zpow (by decide) (by decide)).trans great

end Double

namespace Numeral

open Json.Digits

/-! ## Digits that are converted at once -/

/-- Few digits with a small power of ten take one product or one quotient. -/
theorem ofScientific_of_short {digits : ℕ} (short : digits < 2 ^ 53) (negative : Bool)
    {exponent : ℕ} (small : exponent ≤ 22) :
    Float.ofScientific digits negative exponent =
      if negative then digits.toUInt64.toFloat / powerOfTen exponent
      else digits.toUInt64.toFloat * powerOfTen exponent := by
  have table : ∀ (exponent : ℕ) (_ : exponent < Float.exactlyRepresentablePowersOfTen.size),
      Float.exactlyRepresentablePowersOfTen[exponent] = powerOfTen exponent := by
    decide +kernel
  unfold Float.ofScientific
  rw [dif_pos ⟨short, small⟩]
  simp only [table]

/-- Few digits and a small power of ten are doubles. -/
theorem exists_exact {digits : ℕ} (pos : 0 < digits) (short : digits < 2 ^ 53) {exponent : ℕ}
    (small : exponent ≤ 22) :
    ∃ a < infinityPlace, ∃ b < infinityPlace, 0 < b ∧ value a = digits ∧ value b = 10 ^ exponent ∧
      digits.toUInt64.toFloat = signed .positive a ∧ powerOfTen exponent = signed .positive b := by
  obtain ⟨a, roundsA, finiteA, eqA⟩ := exists_toFloat (short.trans (by decide))
  obtain ⟨b, roundsB, least, finiteB, eqB⟩ :=
    exists_powerOfTen (show exponent ≤ greatestPower from small.trans (by decide))
  have nearA := near_significand pos roundsA
  have nearB := near_power roundsB
  rw [significandSteps, if_pos short] at nearA
  rw [powerSteps, if_pos small] at nearB
  have positive : 0 < onePlace := by decide
  exact ⟨a, finiteA, b, finiteB, by omega, nearA.eq.symm, nearB.eq.symm, eqA, eqB⟩

theorem exists_place_of_short {digits : ℕ} (pos : 0 < digits) (short : digits < 2 ^ 53)
    {exponent : ℤ} (small : exponent.natAbs ≤ 22) :
    ∃ place, RoundsTo (digits * 10 ^ exponent) place ∧
      Float.ofScientific digits (exponent < 0) exponent.natAbs = signed .positive place := by
  obtain ⟨a, finiteA, b, finiteB, posB, valueA, valueB, eqA, eqB⟩ := exists_exact pos short small
  rw [ofScientific_of_short short _ small, eqA, eqB]
  rcases Int.lt_or_le exponent 0 with negative | nonneg
  · obtain ⟨magnitude, rfl⟩ := Int.exists_eq_neg_ofNat negative.le
    rw [Int.natAbs_neg, Int.natAbs_natCast] at valueB
    obtain ⟨place, rounds, eq⟩ := exists_div_signed .positive .positive finiteA finiteB posB
    rw [valueA, valueB] at rounds
    refine ⟨place, ?_, ?_⟩
    · rwa [zpow_neg, zpow_natCast, ← div_eq_mul_inv]
    · rw [if_pos (decide_eq_true negative), eq]
      rfl
  · obtain ⟨magnitude, rfl⟩ := Int.eq_ofNat_of_zero_le nonneg
    rw [Int.natAbs_natCast] at valueB
    obtain ⟨place, rounds, eq⟩ := exists_mul_signed .positive .positive finiteA finiteB
    rw [valueA, valueB] at rounds
    refine ⟨place, ?_, ?_⟩
    · rwa [zpow_natCast]
    · rw [if_neg (by simp), eq]
      rfl

/-! ## Digits in reach of the doubles -/

/-- The exact fraction of digits with a power of ten is rounded. -/
theorem exists_place_unpacked {digits : ℕ} (pos : 0 < digits) {exponent : ℤ}
    (low : -(2048 + digits.log2 : ℤ) ≤ exponent) (high : exponent ≤ 2048) :
    ∃ place, RoundsTo (digits * 10 ^ exponent) place ∧
      UnpackedFloat.ofScientific Format.binary64 digits exponent = ofPlace .positive place := by
  have bound : (2 : ℤ) ^ Format.binary64.exponentBits = 2048 := by decide
  unfold UnpackedFloat.ofScientific
  rw [dif_neg pos.ne', if_neg (by rw [bound]; omega), if_neg (by rw [bound]; omega)]
  rcases Int.lt_or_le exponent 0 with negative | nonneg
  · obtain ⟨place, rounds, eq⟩ := exists_place_div_finite .positive .positive (e := 0) (f := 0) pos
      (show 0 < 10 ^ (-exponent).toNat from Nat.pow_pos (by decide))
    have power : (10 : ℚ) ^ exponent = (10 ^ (-exponent).toNat)⁻¹ := by
      rw [← zpow_natCast, Int.toNat_of_nonneg (by omega), zpow_neg, inv_inv]
    refine ⟨place, ?_, ?_⟩
    · rw [power, ← div_eq_mul_inv]
      simpa using rounds
    · rw [if_neg (by omega)]
      exact eq
  · obtain ⟨magnitude, rfl⟩ := Int.eq_ofNat_of_zero_le nonneg
    have longer : 0 < digits <<< 53 := by
      rw [Nat.shiftLeft_eq]
      positivity
    have power : 0 < 10 ^ magnitude := Nat.pow_pos (by decide)
    have enough : 2 ^ 52 ≤ digits <<< 53 * 10 ^ magnitude := by
      rw [Nat.shiftLeft_eq]
      calc 2 ^ 52 ≤ 1 * 2 ^ 53 * 1 := by decide
        _ ≤ digits * 2 ^ 53 * 10 ^ magnitude :=
          Nat.mul_le_mul (Nat.mul_le_mul_right _ pos) power
    obtain ⟨place, rounds, eq⟩ := exists_place_mul_finite .positive .positive (e := -53) (f := 0)
      longer power (.inr enough)
    refine ⟨place, ?_, ?_⟩
    · rw [Nat.shiftLeft_eq] at rounds
      rw [zpow_natCast]
      convert rounds using 1
      rw [Nat.cast_mul, Nat.cast_pow, Nat.cast_pow, Nat.cast_ofNat, Nat.cast_ofNat, zpow_zero,
        mul_one, zpow_neg, zpow_ofNat, mul_inv_cancel_right₀ (by positivity)]
    · rw [if_pos nonneg]
      exact eq

theorem exists_place_ofScientific {digits : ℕ} (pos : 0 < digits) {exponent : ℤ}
    (low : -(2048 + digits.log2 : ℤ) ≤ exponent) (high : exponent ≤ 2048) :
    ∃ place, RoundsTo (digits * 10 ^ exponent) place ∧
      Float.ofScientific digits (exponent < 0) exponent.natAbs = signed .positive place := by
  by_cases short : digits < 2 ^ 53 ∧ exponent.natAbs ≤ 22
  · exact exists_place_of_short pos short.1 short.2
  · obtain ⟨place, rounds, eq⟩ := exists_place_unpacked pos low high
    refine ⟨place, rounds, ?_⟩
    unfold Float.ofScientific
    rw [dif_neg short]
    have exponent_eq : (if decide (exponent < 0) = true then Int.negOfNat exponent.natAbs
        else Int.ofNat exponent.natAbs) = exponent := by
      by_cases negative : exponent < 0
      · rw [if_pos (decide_eq_true negative), Int.negOfNat_eq, Int.ofNat_eq_natCast]
        omega
      · rw [if_neg (by simpa using negative), Int.ofNat_eq_natCast,
          Int.natAbs_of_nonneg (Int.not_lt.1 negative)]
    dsimp only
    rw [exponent_eq]
    exact congrArg packed eq

/-! ## All digits -/

theorem lt_ten_zpow (digits : ℕ) : (digits : ℚ) < 10 ^ (digits.log2 / 3 + 1 : ℤ) := by
  have bits : digits < 10 ^ (digits.log2 / 3 + 1) :=
    calc digits < 2 ^ (digits.log2 + 1) := Nat.lt_log2_self
      _ ≤ 2 ^ (3 * (digits.log2 / 3 + 1)) := Nat.pow_le_pow_right (by decide) (by omega)
      _ = 8 ^ (digits.log2 / 3 + 1) := by rw [Nat.pow_mul]
      _ ≤ 10 ^ (digits.log2 / 3 + 1) := Nat.pow_le_pow_left (by decide) _
  exact_mod_cast bits

/-- A numeral names the double nearest to its number. -/
theorem exists_place_nearest (digits : ℕ) (exponent : ℤ) :
    ∃ place, RoundsTo (digits * 10 ^ exponent) place ∧
      nearest digits exponent = signed .positive place := by
  unfold nearest
  split
  · next zero =>
    refine ⟨0, ?_, by decide⟩
    rw [zero, Nat.cast_zero, zero_mul]
    exact RoundsTo.zero
  next nonzero =>
  have pos := Nat.pos_of_ne_zero nonzero
  split
  · next beyond =>
    obtain ⟨magnitude, rfl⟩ := Int.eq_ofNat_of_zero_le (show 0 ≤ exponent by omega)
    obtain ⟨place, rounds, -⟩ := exists_place_normalize (digits * 10 ^ magnitude) 0
    rw [zpow_zero, mul_one, Nat.cast_mul, Nat.cast_pow, Nat.cast_ofNat, ← zpow_natCast] at rounds
    have infinite := rounds.infinityPlace_le <|
      calc (10 : ℚ) ^ (309 : ℤ) ≤ 1 * 10 ^ (magnitude : ℤ) := by
            rw [one_mul]
            exact zpow_le_zpow_right₀ (by norm_num) beyond
        _ ≤ digits * 10 ^ (magnitude : ℤ) :=
          mul_le_mul_of_nonneg_right (by exact_mod_cast pos) (by positivity)
    refine ⟨place, rounds, ?_⟩
    rw [signed_of_le _ infinite]
    decide
  next within =>
  split
  · next below =>
    refine ⟨0, roundsTo_zero ?_, by decide⟩
    calc digits * (10 : ℚ) ^ exponent ≤ 10 ^ (digits.log2 / 3 + 1 : ℤ) * 10 ^ exponent :=
          mul_le_mul_of_nonneg_right (lt_ten_zpow digits).le (by positivity)
      _ = 10 ^ (digits.log2 / 3 + 1 + exponent : ℤ) := (zpow_add₀ (by norm_num) _ _).symm
      _ ≤ 10 ^ (-324 : ℤ) := zpow_le_zpow_right₀ (by norm_num) (by omega)
  · next above =>
    exact exists_place_ofScientific pos (by omega) (by omega)

end Numeral

end SpanScore
