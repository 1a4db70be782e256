import Mathlib.Tactic.FieldSimp
import SpanScore.Proofs.Double.Rounding

/-!
# Arithmetic on places

Products, quotients, sums and conversions of doubles are the exact results, rounded to a place.
-/

namespace SpanScore.Double

open Float.Model Float.Model.UnpackedFloat

/-! ## Parts of doubles -/

theorem value_pos {place : ℕ} (h : 0 < place) : 0 < value place := by
  rw [← value_zero]
  exact value_strictMono h

/-- A double has all of its bits or the least exponent. -/
theorem exponent_eq_or_le_significand (place : ℕ) :
    exponent place = -1074 ∨ 2 ^ 52 ≤ significand place := by
  unfold exponent significand
  split
  · exact .inl rfl
  · exact .inr (Nat.le_add_right _ _)

theorem significand_lt (place : ℕ) : significand place < 2 ^ 53 := by
  unfold significand
  split <;> omega

theorem le_exponent (place : ℕ) : -1074 ≤ exponent place := by
  unfold exponent
  split <;> omega

/-! ## Products -/

/-- Products of signs. -/
theorem exists_place_mul_finite (left right : Sign) {m n : ℕ} {e f : ℤ} (hm : 0 < m) (hn : 0 < n)
    (enough : e + f ≤ -1074 ∨ 2 ^ 52 ≤ m * n) :
    ∃ place, RoundsTo (m * 2 ^ e * (n * 2 ^ f)) place ∧
      UnpackedFloat.mul Format.binary64 (.finite left m e hm) (.finite right n f hn) =
        ofPlace (left * right) place := by
  obtain ⟨place, rounds, eq⟩ :=
    exists_place_roundWithAccuracy (left * right) (Represents.exact (m * n)) enough
  refine ⟨place, ?_, eq⟩
  rw [zpow_add₀ (by norm_num), Nat.cast_mul] at rounds
  rwa [show (m * 2 ^ e * (n * 2 ^ f) : ℚ) = m * n * (2 ^ e * 2 ^ f) by ring]

/-- The product of two doubles is rounded to a place. -/
theorem exists_place_mul (left right : Sign) (a b : ℕ) :
    ∃ place, RoundsTo (value a * value b) place ∧
      UnpackedFloat.mul Format.binary64 (ofPlace left a) (ofPlace right b) =
        ofPlace (left * right) place := by
  rcases Nat.eq_zero_or_pos a with rfl | ha
  · refine ⟨0, by simpa using RoundsTo.zero, ?_⟩
    rcases Nat.eq_zero_or_pos b with rfl | hb
    · rfl
    · rw [ofPlace_of_pos right hb]
      rfl
  rcases Nat.eq_zero_or_pos b with rfl | hb
  · refine ⟨0, by simpa using RoundsTo.zero, ?_⟩
    rw [ofPlace_of_pos left ha]
    rfl
  have enough : exponent a + exponent b ≤ -1074 ∨ 2 ^ 52 ≤ significand a * significand b := by
    have posA := Nat.pos_of_ne_zero (mt significand_eq_zero_iff.1 (Nat.ne_of_gt ha))
    have posB := Nat.pos_of_ne_zero (mt significand_eq_zero_iff.1 (Nat.ne_of_gt hb))
    rcases exponent_eq_or_le_significand a with least | many
    · rcases exponent_eq_or_le_significand b with least' | many
      · exact .inl (by omega)
      · exact .inr (le_trans many (Nat.le_mul_of_pos_left _ posA))
    · exact .inr (le_trans many (Nat.le_mul_of_pos_right _ posB))
  rw [ofPlace_of_pos left ha, ofPlace_of_pos right hb]
  exact exists_place_mul_finite left right _ _ enough

/-! ## Quotients -/

/-- A remainder says on which side of the half the fraction lies. -/
theorem represents_add_div (whole : ℕ) {rest divisor : ℕ} (small : rest < divisor) :
    Represents (.ofMantissaAndAccuracy whole (accuracyOfFraction rest divisor))
      (whole + rest / divisor : ℚ) := by
  have posQ : (0 : ℚ) < divisor := by exact_mod_cast Nat.zero_lt_of_lt small
  have fraction : (rest : ℚ) / divisor < 1 := by
    rw [div_lt_one posQ]
    exact_mod_cast small
  unfold accuracyOfFraction
  split
  · next zero => simp [Represents, ExtendedMantissa.ofMantissaAndAccuracy, zero]
  · next nonzero =>
    have posRest : (0 : ℚ) < rest := by exact_mod_cast Nat.pos_of_ne_zero nonzero
    have posFraction : 0 < (rest : ℚ) / divisor := by positivity
    rcases Nat.lt_trichotomy (2 * rest) divisor with less | half | more
    · have below : (rest : ℚ) / divisor < 1 / 2 := by
        rw [div_lt_div_iff₀ posQ two_pos]
        exact_mod_cast (by omega : rest * 2 < 1 * divisor)
      rw [Nat.compare_eq_lt.2 less]
      simp only [Represents, ExtendedMantissa.ofMantissaAndAccuracy]
      norm_num
      exact ⟨posFraction, below⟩
    · have equal : (rest : ℚ) / divisor = 1 / 2 := by
        rw [div_eq_div_iff posQ.ne' two_ne_zero]
        exact_mod_cast (by omega : rest * 2 = 1 * divisor)
      rw [Nat.compare_eq_eq.2 half]
      simp only [Represents, ExtendedMantissa.ofMantissaAndAccuracy]
      norm_num [equal]
    · have above : 1 / 2 < (rest : ℚ) / divisor := by
        rw [div_lt_div_iff₀ two_pos posQ]
        exact_mod_cast (by omega : 1 * divisor < rest * 2)
      rw [Nat.compare_eq_gt.2 more]
      simp only [Represents, ExtendedMantissa.ofMantissaAndAccuracy]
      norm_num
      constructor <;> linarith

/-- A quotient with the accuracy that its remainder tells. -/
theorem represents_div (dividend : ℕ) {divisor : ℕ} (pos : 0 < divisor) :
    Represents (.ofMantissaAndAccuracy (dividend / divisor)
      (accuracyOfFraction (dividend % divisor) divisor)) (dividend / divisor : ℚ) := by
  have posQ : (0 : ℚ) < divisor := by exact_mod_cast pos
  have parts : (dividend : ℚ) = divisor * (dividend / divisor : ℕ) + (dividend % divisor : ℕ) := by
    exact_mod_cast (Nat.div_add_mod dividend divisor).symm
  have quotient : (dividend : ℚ) / divisor =
      (dividend / divisor : ℕ) + (dividend % divisor : ℕ) / divisor := by
    nth_rewrite 1 [parts]
    rw [add_div, mul_div_cancel_left₀ _ posQ.ne']
  rw [quotient]
  exact represents_add_div _ (Nat.mod_lt _ pos)

/-- Quotients of finite numbers of any length are rounded to a place. -/
theorem exists_place_div_finite (left right : Sign) {m n : ℕ} {e f : ℤ} (hm : 0 < m) (hn : 0 < n) :
    ∃ place, RoundsTo (m * 2 ^ e / (n * 2 ^ f)) place ∧
      UnpackedFloat.div Format.binary64 (.finite left m e hm) (.finite right n f hn) =
        ofPlace (left / right) place := by
  have target := targetExponent_eq (totalExponent m e - totalExponent n f)
  simp only [totalExponent] at target
  obtain ⟨least, least_eq⟩ : ∃ least : ℤ, min (e - f) (Format.binary64.targetExponent
      (totalExponent m e - totalExponent n f)) = least := ⟨_, rfl⟩
  obtain ⟨shift, shift_eq⟩ : ∃ shift : ℕ, (e - f - least).toNat = shift := ⟨_, rfl⟩
  have enough : least ≤ -1074 ∨ 2 ^ 52 ≤ m * 2 ^ shift / n := by
    rw [totalExponent, totalExponent, target] at least_eq
    rcases Int.lt_or_le (-1074) least with above | below
    · rw [Nat.le_div_iff_mul_le hn]
      have upper : 2 ^ 52 * n ≤ 2 ^ (m.log2 + shift) :=
        calc 2 ^ 52 * n ≤ 2 ^ 52 * 2 ^ (n.log2 + 1) :=
              Nat.mul_le_mul_left _ (Nat.le_of_lt Nat.lt_log2_self)
          _ = 2 ^ (52 + (n.log2 + 1)) := (Nat.pow_add _ _ _).symm
          _ ≤ 2 ^ (m.log2 + shift) := Nat.pow_le_pow_right (by decide) (by omega)
      rw [Nat.pow_add] at upper
      exact .inr (le_trans upper (Nat.mul_le_mul_right _ (Nat.log2_self_le (by omega))))
    · exact .inl below
  obtain ⟨place, rounds, eq⟩ :=
    exists_place_roundWithAccuracy (left / right) (represents_div (m * 2 ^ shift) hn) enough
  have exponents : (e - f : ℤ) = least + shift := by omega
  refine ⟨place, ?_, ?_⟩
  · have posN : (n : ℚ) ≠ 0 := by exact_mod_cast Nat.ne_of_gt hn
    have posF : (2 : ℚ) ^ f ≠ 0 := by positivity
    have power : (2 : ℚ) ^ e = 2 ^ f * (2 ^ least * 2 ^ shift) := by
      rw [← zpow_natCast, ← zpow_add₀ two_ne_zero, ← zpow_add₀ two_ne_zero, ← exponents]
      ring_nf
    rw [power]
    rw [Nat.cast_mul, Nat.cast_pow, Nat.cast_ofNat] at rounds
    rwa [show (m * (2 ^ f * (2 ^ least * 2 ^ shift)) / (n * 2 ^ f) : ℚ) =
      m * 2 ^ shift / n * 2 ^ least by field_simp]
  · rw [← eq]
    unfold UnpackedFloat.div divCore
    dsimp only
    rw [least_eq, shift_eq, Nat.shiftLeft_eq]

/-- The quotient of two doubles is rounded to a place. -/
theorem exists_place_div (left right : Sign) (a : ℕ) {b : ℕ} (hb : 0 < b) :
    ∃ place, RoundsTo (value a / value b) place ∧
      UnpackedFloat.div Format.binary64 (ofPlace left a) (ofPlace right b) =
        ofPlace (left / right) place := by
  rw [ofPlace_of_pos right hb]
  rcases Nat.eq_zero_or_pos a with rfl | ha
  · exact ⟨0, by simpa using RoundsTo.zero, rfl⟩
  · rw [ofPlace_of_pos left ha]
    exact exists_place_div_finite left right _ _

/-! ## Sums and conversions -/

/-- A smaller exponent makes the significand longer. -/
theorem decreaseExponent_value (mantissa : ℕ) {exponent least : ℤ} (le : least ≤ exponent) :
    ((decreaseExponent mantissa exponent least).1 : ℚ) * 2 ^ least = mantissa * 2 ^ exponent := by
  obtain ⟨shift, rfl⟩ := Int.le.dest le
  have shift_eq : (least + shift - least).toNat = shift := by omega
  simp only [decreaseExponent, shift_eq, Nat.shiftLeft_eq]
  rw [zpow_add₀ two_ne_zero, zpow_natCast]
  push_cast
  ring

/-- The sum of two positive doubles is rounded to a place. -/
theorem exists_place_add {a b : ℕ} (ha : 0 < a) (hb : 0 < b) :
    ∃ place, RoundsTo (value a + value b) place ∧
      UnpackedFloat.add Format.binary64 (ofPlace .positive a) (ofPlace .positive b) =
        ofPlace .positive place := by
  have left := decreaseExponent_value (significand a) (min_le_left (exponent a) (exponent b))
  have right := decreaseExponent_value (significand b) (min_le_right (exponent a) (exponent b))
  obtain ⟨place, rounds, eq⟩ := exists_place_normalize
    ((decreaseExponent (significand a) (exponent a) (min (exponent a) (exponent b))).1 +
      (decreaseExponent (significand b) (exponent b) (min (exponent a) (exponent b))).1)
    (min (exponent a) (exponent b))
  refine ⟨place, ?_, ?_⟩
  · rwa [Nat.cast_add, add_mul, left, right] at rounds
  · rw [ofPlace_of_pos .positive ha, ofPlace_of_pos .positive hb, ← eq]
    rfl

/-- A whole number with an exponent is rounded with its sign. -/
theorem exists_place_normalize_int (number exponent : ℤ) :
    ∃ sign place, (0 ≤ number → sign = .positive) ∧
      RoundsTo (|(number : ℚ)| * 2 ^ exponent) place ∧
      UnpackedFloat.normalize Format.binary64 number exponent .positive = ofPlace sign place := by
  rcases Int.lt_or_le number 0 with negative | nonneg
  · obtain ⟨magnitude, rfl⟩ := Int.exists_eq_neg_ofNat negative.le
    have pos : 0 < magnitude := by omega
    obtain ⟨place, rounds, eq⟩ := exists_place_round .negative pos exponent
    refine ⟨.negative, place, by omega, by simpa using rounds, ?_⟩
    rw [UnpackedFloat.normalize, Int.compare_eq_lt.2 negative, ← eq]
    simp only [neg_neg, Int.toNat_natCast]
  · obtain ⟨magnitude, rfl⟩ := Int.eq_ofNat_of_zero_le nonneg
    obtain ⟨place, rounds, eq⟩ := exists_place_normalize magnitude exponent
    exact ⟨.positive, place, fun _ ↦ rfl, by simpa using rounds, eq⟩

/-- The difference of two positive doubles is rounded to a place. -/
theorem exists_place_sub {a b : ℕ} (ha : 0 < a) (hb : 0 < b) :
    ∃ sign place, (b ≤ a → sign = .positive) ∧ RoundsTo |value a - value b| place ∧
      UnpackedFloat.sub Format.binary64 (ofPlace .positive a) (ofPlace .positive b) =
        ofPlace sign place := by
  obtain ⟨least, least_eq⟩ : ∃ least, min (exponent a) (exponent b) = least := ⟨_, rfl⟩
  have left := decreaseExponent_value (significand a) (least_eq ▸ min_le_left ..)
  have right := decreaseExponent_value (significand b) (least_eq ▸ min_le_right ..)
  have unit : (0 : ℚ) < 2 ^ least := by positivity
  obtain ⟨sign, place, sign_eq, rounds, eq⟩ := exists_place_normalize_int
    ((decreaseExponent (significand a) (exponent a) least).1 -
      (decreaseExponent (significand b) (exponent b) least).1) least
  refine ⟨sign, place, fun le ↦ sign_eq ?_, ?_, ?_⟩
  · have le_value : value b ≤ value a := value_strictMono.monotone le
    rw [value, value, ← left, ← right] at le_value
    have le_significand := le_of_mul_le_mul_right le_value unit
    rw [Nat.cast_le] at le_significand
    omega
  · rw [← abs_of_pos unit, ← abs_mul] at rounds
    push_cast at rounds
    rwa [sub_mul, left, right] at rounds
  · rw [ofPlace_of_pos .positive ha, ofPlace_of_pos .positive hb, ← eq, ← least_eq]
    rfl

/-- A natural number is rounded to a place. -/
theorem exists_place_ofNat (number : ℕ) :
    ∃ place, RoundsTo number place ∧
      UnpackedFloat.ofNat Format.binary64 number = ofPlace .positive place := by
  have rounded := exists_place_normalize number 0
  rwa [zpow_zero, mul_one] at rounded

end SpanScore.Double
