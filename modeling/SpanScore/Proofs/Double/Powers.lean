import SpanScore.Json.Digits
import SpanScore.Proofs.Double.Order

/-!
# Words and powers of ten as doubles

A word of 64 bits and a power of ten within the doubles are converted to the nearest double; words
up to `2 ^ 53` and powers of ten up to the twenty-second are converted exactly.
-/

namespace SpanScore.Double

open Float.Model Float.Model.UnpackedFloat Json.Digits

/-- The place of the greatest double. -/
def greatestPlace : ℕ :=
  infinityPlace - 1

def greatest : ℕ :=
  (2 ^ 53 - 1) * 2 ^ 971

theorem value_greatestPlace : value greatestPlace = greatest := by
  have place_eq : greatestPlace = 2045 * 2 ^ 52 + (2 ^ 53 - 1) := by decide
  rw [place_eq, value_scaled (.inr (by decide)) (by decide), greatest, Nat.cast_mul, Nat.cast_pow,
    ← zpow_natCast]
  rfl

/-- A number up to the greatest double is not rounded to infinity. -/
theorem RoundsTo.lt_infinityPlace {number : ℚ} {place : ℕ} (h : RoundsTo number place)
    (le : number ≤ Double.value greatestPlace) : place < infinityPlace := by
  have bound := h.le_of_le_value le
  have last : greatestPlace < infinityPlace := by decide
  omega

/-- A number from one on is rounded to a double from one on. -/
theorem RoundsTo.onePlace_le {number : ℚ} {place : ℕ} (h : RoundsTo number place)
    (le : 1 ≤ number) : onePlace ≤ place := by
  rw [← value_onePlace] at le
  exact h.le_of_value_le le

theorem RoundsTo.one_le_value {number : ℚ} {place : ℕ} (h : RoundsTo number place)
    (le : 1 ≤ number) : 1 ≤ Double.value place := by
  rw [← value_onePlace]
  exact value_strictMono.monotone (h.onePlace_le le)

theorem one_le_ten_pow (exponent : ℕ) : (1 : ℚ) ≤ 10 ^ exponent :=
  one_le_pow₀ (by norm_num)

/-- A short significand with an exponent that is not too small is a double. -/
theorem exists_value_eq {mantissa : ℕ} (short : mantissa < 2 ^ 53) {exponent : ℤ}
    (least : -1074 ≤ exponent) : ∃ place, value place = mantissa * 2 ^ exponent := by
  rcases Nat.eq_zero_or_pos mantissa with rfl | pos
  · exact ⟨0, by simp⟩
  have bits : mantissa.log2 < 53 := (Nat.log2_lt (by omega)).2 short
  obtain ⟨shift, binade, exponent_eq, enough, some_bits⟩ : ∃ shift binade : ℕ,
      exponent = shift + (binade - 1074) ∧ (binade = 0 ∨ 52 ≤ mantissa.log2 + shift) ∧
        mantissa.log2 + shift ≤ 52 := by
    rcases Int.le_total (52 - mantissa.log2) (exponent + 1074) with many | few
    · exact ⟨52 - mantissa.log2, (exponent + 1074 - (52 - mantissa.log2)).toNat, by omega,
        .inr (by omega), by omega⟩
    · exact ⟨(exponent + 1074).toNat, 0, by omega, .inl rfl, by omega⟩
  have high : mantissa * 2 ^ shift < 2 ^ 53 :=
    calc mantissa * 2 ^ shift < 2 ^ (mantissa.log2 + 1) * 2 ^ shift :=
          Nat.mul_lt_mul_of_pos_right Nat.lt_log2_self (Nat.two_pow_pos shift)
      _ = 2 ^ (mantissa.log2 + 1 + shift) := (Nat.pow_add _ _ _).symm
      _ ≤ 2 ^ 53 := Nat.pow_le_pow_right (by decide) (by omega)
  have low : binade = 0 ∨ 2 ^ 52 ≤ mantissa * 2 ^ shift := by
    refine enough.imp_right fun many ↦ ?_
    calc 2 ^ 52 ≤ 2 ^ (mantissa.log2 + shift) := Nat.pow_le_pow_right (by decide) many
      _ = 2 ^ mantissa.log2 * 2 ^ shift := Nat.pow_add _ _ _
      _ ≤ mantissa * 2 ^ shift := Nat.mul_le_mul_right _ (Nat.log2_self_le (by omega))
  refine ⟨binade * 2 ^ 52 + mantissa * 2 ^ shift, ?_⟩
  rw [value_scaled low high.le, exponent_eq, zpow_add₀ two_ne_zero, zpow_natCast]
  push_cast
  ring

/-- What is a double is rounded to itself. -/
theorem RoundsTo.value_eq {number : ℚ} {place : ℕ} (h : RoundsTo number place)
    (exact : ∃ place, Double.value place = number) : Double.value place = number := by
  obtain ⟨same, rfl⟩ := exact
  rw [h.unique (RoundsTo.value same)]

/-! ## Words -/

/-- A word of 64 bits is converted to the nearest double. -/
theorem exists_toFloat {number : ℕ} (word : number < 2 ^ 64) :
    ∃ place, RoundsTo number place ∧ place < infinityPlace ∧
      number.toUInt64.toFloat = signed .positive place := by
  obtain ⟨place, rounds, eq⟩ := exists_place_ofNat number
  refine ⟨place, rounds, rounds.lt_infinityPlace ?_, ?_⟩
  · have within : 2 ^ 64 ≤ greatest := by decide +kernel
    rw [value_greatestPlace]
    exact Nat.cast_le.2 (word.le.trans within)
  · have same : number.toUInt64.toNat = number := UInt64.toNat_ofNat_of_lt' word
    change packed (UnpackedFloat.ofNat Format.binary64 number.toUInt64.toNat) = _
    rw [same, eq, signed]

/-! ## Powers of ten -/

/-- The table of small powers holds what rounding would give. -/
theorem powerOfTen_of_le {exponent : ℕ} (small : exponent ≤ 22) :
    powerOfTen exponent = .ofModel (Float.Model.ofScientific 1 exponent) := by
  have table : ∀ exponent : Fin 23,
      powerOfTen exponent = .ofModel (Float.Model.ofScientific 1 (exponent : ℕ)) := by
    decide +kernel
  exact table ⟨exponent, by omega⟩

theorem powerOfTen_eq (exponent : ℕ) :
    powerOfTen exponent = .ofModel (Float.Model.ofScientific 1 exponent) := by
  rcases Nat.lt_or_ge 22 exponent with great | small
  · unfold powerOfTen Float.ofScientific
    rw [dif_neg (by omega)]
    rfl
  · exact powerOfTen_of_le small

theorem ten_pow_le_greatest {exponent : ℕ} (within : exponent ≤ greatestPower) :
    (10 ^ exponent : ℚ) ≤ value greatestPlace := by
  have last : 10 ^ greatestPower ≤ greatest := by decide +kernel
  have le : 10 ^ exponent ≤ greatest := (Nat.pow_le_pow_right (by decide) within).trans last
  rw [value_greatestPlace, ← Nat.cast_ofNat, ← Nat.cast_pow]
  exact Nat.cast_le.2 le

/-- A power of ten is rounded to the nearest double. -/
theorem exists_powerOfTen {exponent : ℕ} (within : exponent ≤ greatestPower) :
    ∃ place, RoundsTo (10 ^ exponent) place ∧ onePlace ≤ place ∧ place < infinityPlace ∧
      powerOfTen exponent = signed .positive place := by
  have pos : 0 < 10 ^ exponent := Nat.pow_pos (by decide)
  obtain ⟨place, rounds, eq⟩ := exists_place_mul_finite .positive .positive (e := -53) (f := 0)
    (show 0 < 2 ^ 53 by decide) pos (.inr (by omega))
  have number_eq : ((2 ^ 53 : ℕ) * 2 ^ (-53 : ℤ) * ((10 ^ exponent : ℕ) * 2 ^ (0 : ℤ)) : ℚ) =
      10 ^ exponent := by
    push_cast
    norm_num
  rw [number_eq] at rounds
  refine ⟨place, rounds, rounds.onePlace_le (one_le_ten_pow exponent),
    rounds.lt_infinityPlace (ten_pow_le_greatest within), ?_⟩
  have bound : (2 : ℤ) ^ Format.binary64.exponentBits = 2048 := by decide
  rw [powerOfTen_eq]
  refine congrArg packed (Eq.trans ?_ eq)
  unfold greatestPower at within
  unfold UnpackedFloat.ofScientific
  rw [dif_neg (by decide), if_neg (by rw [bound]; omega), if_neg (by rw [bound]; omega),
    if_pos (Int.natCast_nonneg exponent)]
  rfl

end SpanScore.Double
