import SpanScore.Proofs.Json.Cut
import SpanScore.Proofs.Json.Numerals
import SpanScore.Proofs.Json.Readable

/-!
# Numbers against numerals

A number token is read in two ways: as a number it may be rounded several times, as a numeral it is
rounded once.  The two doubles have the same sign, and they are at most as many places apart as the
number is rounded before the last time.
-/

namespace SpanScore.Json

open Double

namespace Digits

/-! ## Scaling to nothing -/

/-- Zero stays zero. -/
theorem scale?_zero (power : ℤ) :
    scale? (signed .positive 0) power = some (signed .positive 0) := by
  have finite : 0 < infinityPlace := by decide
  have zero : (signed .positive 0 == 0) = true := by decide
  rcases Int.lt_or_le power 0 with negative | nonneg
  · obtain ⟨magnitude, rfl⟩ := Int.exists_eq_neg_ofNat negative.le
    rcases Nat.lt_or_ge greatestPower magnitude with beyond | within
    · rw [scale?, if_neg (by omega), if_neg (by omega), if_pos zero]
    · obtain ⟨-, place, -, -, le, eq⟩ := exists_div_powerOfTen finite within
      rw [scale?_neg (by omega) within, eq, Nat.le_zero.1 le]
  · obtain ⟨magnitude, rfl⟩ := Int.eq_ofNat_of_zero_le nonneg
    rcases Nat.lt_or_ge greatestPower magnitude with beyond | within
    · rw [scale?, if_pos nonneg, if_neg (by omega), if_pos zero]
    · obtain ⟨ten, place, -, rounds, eq⟩ := exists_scale?_mul finite within
      rw [value_zero, zero_mul] at rounds
      rw [eq, rounds.eq_zero, if_pos finite]

/-- The greatest power of ten has the magnitude of a power of two. -/
theorem div_powerOfTen_le {ten : ℕ} (rounds : RoundsTo (10 ^ greatestPower) ten) {x : ℚ} {bits : ℤ}
    (le : x ≤ 2 ^ bits) : x / value ten ≤ 2 ^ (bits - 1023) := by
  have place_eq := value_binade (show 0 < 2046 by decide)
  have power : (2 : ℚ) ^ ((2046 : ℕ) - 1023 : ℤ) ≤ 10 ^ greatestPower := by
    have steps : (2 : ℚ) ^ ((2046 : ℕ) - 1023 : ℤ) ≤ 10 ^ (greatestPower : ℤ) :=
      Decimal.two_zpow_le_ten_zpow (by decide) (by decide)
    rwa [zpow_natCast] at steps
  have great := value_strictMono.monotone (rounds.le_of_value_le (place_eq.trans_le power))
  rw [place_eq] at great
  rw [zpow_sub₀ two_ne_zero]
  exact div_le_div₀ (by positivity) le (by positivity) great

theorem value_le_of_roundsTo {number : ℚ} {place : ℕ} (rounds : RoundsTo number place) {bits : ℤ}
    (least : -1022 ≤ bits) (le : number ≤ 2 ^ bits) : value place ≤ 2 ^ bits := by
  obtain ⟨binade, rfl⟩ : ∃ binade : ℕ, bits = binade - 1023 := ⟨(bits + 1023).toNat, by omega⟩
  rw [← value_binade (by omega)] at le ⊢
  exact value_strictMono.monotone (rounds.le_of_le_value le)

/-- Two quotients by the greatest power of ten leave nothing of a word. -/
theorem scale?_of_lt {significand : ℕ} (word : significand < 2 ^ 64) {power : ℕ}
    (beyond : 2 * greatestPower < power) :
    scale? significand.toUInt64.toFloat (-power) = some (signed .positive 0) := by
  obtain ⟨a, roundsA, finite, eq⟩ := exists_toFloat word
  have small : value a ≤ 2 ^ (64 : ℤ) :=
    value_le_of_roundsTo roundsA (by decide) (by exact_mod_cast word.le)
  rw [eq]
  rcases Nat.eq_zero_or_pos a with rfl | posA
  · exact scale?_zero _
  obtain ⟨ten, b, roundsTen, roundsB, le, first⟩ :=
    exists_div_powerOfTen finite (le_refl greatestPower)
  have smaller : value b ≤ 2 ^ (64 - 1023 : ℤ) :=
    value_le_of_roundsTo roundsB (by decide) (div_powerOfTen_le roundsTen small)
  rw [scale?_step finite posA (by omega), first]
  rcases Nat.eq_zero_or_pos b with rfl | posB
  · exact scale?_zero _
  obtain ⟨ten', c, roundsTen', roundsC, -, second⟩ :=
    exists_div_powerOfTen (le.trans_lt finite) (le_refl greatestPower)
  have nothing : c = 0 := by
    refine roundsC.unique (roundsTo_zero ((div_powerOfTen_le roundsTen' smaller).trans ?_))
    exact Decimal.two_zpow_le_ten_zpow (by decide) (by decide)
  rw [show (greatestPower - power : ℤ) = -(power - greatestPower : ℕ) by omega,
    scale?_step (le.trans_lt finite) posB (by omega), second, nothing]
  exact scale?_zero _

theorem word_mul_le {significand : ℕ} (word : significand < 2 ^ 64) {power : ℕ}
    (beyond : 2 * greatestPower < power) :
    significand * (10 : ℚ) ^ (-power : ℤ) ≤ 10 ^ (-324 : ℤ) := by
  have digits : (significand : ℚ) ≤ 10 ^ (20 : ℤ) := by
    have bound : significand ≤ 10 ^ 20 := word.le.trans (by decide)
    exact_mod_cast bound
  calc significand * (10 : ℚ) ^ (-power : ℤ) ≤ 10 ^ (20 : ℤ) * 10 ^ (-power : ℤ) :=
        mul_le_mul_of_nonneg_right digits (by positivity)
    _ = 10 ^ (20 - power : ℤ) := by rw [← zpow_add₀ (by norm_num), sub_eq_add_neg]
    _ ≤ 10 ^ (-324 : ℤ) := by
      refine zpow_le_zpow_right₀ (by norm_num) ?_
      simp only [greatestPower] at beyond
      omega

/-! ## All powers of ten that are in range -/

/-- How often a significand with a power of ten may be rounded before the last time. -/
def scaleSteps (significand : ℕ) (power : ℤ) : ℕ :=
  drift significand power + if power < -330 then 1 else 0

variable {significand place : ℕ}

/-- What is in range is read as a double near the nearest one. -/
theorem exists_scale?_of_isSome (pos : 0 < significand) (word : significand < 2 ^ 64) {power : ℤ}
    (rounds : RoundsTo (significand * 10 ^ power) place)
    (isSome : (scale? significand.toUInt64.toFloat power).isSome) :
    ∃ found < infinityPlace,
      scale? significand.toUInt64.toFloat power = some (signed .positive found) ∧
      Within (scaleSteps significand power) place found := by
  rcases Int.lt_or_le power 0 with negative | nonneg
  · obtain ⟨magnitude, rfl⟩ := Int.exists_eq_neg_ofNat negative.le
    rcases Nat.lt_or_ge greatestPower magnitude with beyond | within
    · rcases Nat.lt_or_ge (2 * greatestPower) magnitude with nothing | double
      · have zero : place = 0 := rounds.unique (roundsTo_zero (word_mul_le word nothing))
        rw [zero]
        exact ⟨0, by decide, scale?_of_lt word nothing, by simp [Within]⟩
      · obtain ⟨rest, rfl⟩ := Nat.exists_eq_add_of_le beyond.le
        have steps : scaleSteps significand (-(greatestPower + rest : ℕ)) =
            significandSteps significand + 2 + powerSteps rest := by
          rw [scaleSteps, drift_neg_of_lt significand beyond, powerSteps]
          have greatest_eq : greatestPower = 308 := rfl
          rcases Nat.lt_or_ge 22 rest with many | few
          · rw [if_pos (by omega), if_neg (by omega)]
          · rw [if_neg (by omega), if_pos few]
        rw [steps]
        exact exists_two_quotients pos word (by omega) (by omega) rounds
    · have steps : scaleSteps significand (-magnitude) =
          significandSteps significand + powerSteps magnitude := by
        rw [scaleSteps, drift_neg_of_le significand within,
          if_neg (by simp only [greatestPower] at within; omega)]
        rfl
      rw [steps]
      exact exists_quotient pos word (by omega) within rounds
  · obtain ⟨magnitude, rfl⟩ := Int.eq_ofNat_of_zero_le nonneg
    rw [zpow_natCast] at rounds
    rw [scaleSteps, drift_natCast, if_neg (by omega)]
    rcases (isSome_scale?_iff word _).1 isSome with zero | low | ⟨within, -⟩
    · omega
    · exact exists_product pos word (by omega) rounds (.inr isSome)
    · exact exists_product pos word (by exact_mod_cast within) rounds (.inr isSome)

end Digits

/-! ## Tokens -/

theorem toFloat_ofInteger (negative : Bool) {magnitude : ℕ} :
    (Digits.ofInteger negative magnitude).toFloat =
      if negative then -magnitude.toUInt64.toFloat else magnitude.toUInt64.toFloat := by
  unfold Digits.ofInteger
  cases negative with
  | false => rfl
  | true =>
    simp only [Bool.not_true, Bool.false_eq_true, if_false, if_true]
    split
    · next signed =>
      simp only [Bool.and_eq_true, decide_eq_true_eq] at signed
      obtain ⟨before, rfl⟩ := Nat.exists_eq_succ_of_ne_zero (Nat.ne_of_gt signed.1)
      rfl
    · rfl

namespace Grammar.NumberToken

open Digits

theorem signed_sign (token : NumberToken) (place : ℕ) :
    signed token.sign place =
      if token.negative then -signed .positive place else signed .positive place := by
  rw [sign]
  cases token.negative with
  | true => exact (neg_signed .positive place).symm
  | false => rfl

/-- The power of ten by which the digits that are kept are scaled. -/
def scaledPower (token : NumberToken) : ℤ :=
  token.significand.2 + (token.exponent.map Exponent.value).getD 0

/-- How often a number may be rounded before the last time, zeros and words not at all. -/
def roundings (token : NumberToken) : ℕ :=
  if token.mantissa = 0 ∨ token.mantissa < 2 ^ 64 ∧ token.fraction = none ∧ token.exponent = none
  then 0 else token.cutSteps + scaleSteps token.significand.1 token.scaledPower

/-- A number is an integer, scaled, or of an exponent out of reach. -/
theorem value?_cases {token : NumberToken} {number : Number} (h : token.value? = some number) :
    (token.fraction = none ∧ token.exponent = none ∧ token.significand.2 = 0 ∧
        number = ofInteger token.negative token.significand.1) ∨
      (¬(token.fraction = none ∧ token.exponent = none ∧ token.significand.2 = 0) ∧
        (∀ exponent ∈ token.exponent, exponent.magnitude < 2 ^ 31) ∧
        double? token.negative token.significand.1 token.scaledPower = some number) ∨
      ∃ exponent, token.exponent = some exponent ∧ 2 ^ 31 ≤ exponent.magnitude ∧
        (token.significand.1 = 0 ∨ exponent.isBelow) ∧
        number = .double (if token.negative then -0.0 else 0.0) := by
  unfold value? at h
  dsimp only at h
  cases exponent_eq : token.exponent with
  | none =>
    rw [exponent_eq] at h
    dsimp only at h
    split at h
    · next plain =>
      rw [Option.isNone_iff_eq_none] at plain
      exact .inl ⟨plain.1, rfl, plain.2, (Option.some.inj h).symm⟩
    · next scaled =>
      rw [Option.isNone_iff_eq_none] at scaled
      refine .inr (.inl ⟨fun plain ↦ scaled ⟨plain.1, plain.2.2⟩, by simp, ?_⟩)
      rw [scaledPower, exponent_eq]
      simpa using h
  | some exponent =>
    rw [exponent_eq] at h
    dsimp only at h
    by_cases small : exponent.magnitude < 2 ^ 31
    · rw [raised?_of_lt small] at h
      refine .inr (.inl ⟨by simp, by simpa using small, ?_⟩)
      rw [← h, scaledPower, exponent_eq, Option.map_some, Option.getD_some, Exponent.value]
      split <;> rfl
    · rw [raised?, if_neg (show ¬_ < Nat.pow 2 31 from small)] at h
      split at h
      · cases h
      · next kept =>
        refine .inr (.inr ⟨exponent, rfl, Nat.not_lt.1 small, ?_, (Option.some.inj h).symm⟩)
        simpa [Classical.or_iff_not_imp_left] using kept

theorem near_scaledPower (token : NumberToken) :
    Near token.cutSteps (token.mantissa * 10 ^ token.power)
      (token.significand.1 * 10 ^ token.scaledPower) := by
  have near := token.near_scaled.mul (.refl ((10 : ℚ) ^ (token.exponent.map Exponent.value).getD 0))
    (by positivity) (by positivity) (by positivity) (by positivity)
  rw [mul_assoc, mul_assoc, ← zpow_add₀ (by norm_num), ← zpow_add₀ (by norm_num)] at near
  rw [power, scaledPower, sub_eq_neg_add]
  exact near

theorem significand_eq_zero_iff (token : NumberToken) :
    token.significand.1 = 0 ↔ token.mantissa = 0 := by
  constructor
  · intro zero
    have le := token.near_scaledPower.left
    rw [zero, Nat.cast_zero, zero_mul] at le
    have factor : 0 < shrink ^ token.cutSteps * (10 : ℚ) ^ token.power :=
      mul_pos (pow_pos shrink_pos _) (by positivity)
    have none : (token.mantissa : ℚ) ≤ 0 := by
      by_contra some
      nlinarith
    exact_mod_cast le_antisymm none (Nat.cast_nonneg _)
  · intro zero
    rw [significand_of_lt (by rw [zero]; decide), zero]

/-- Without a point all digits of an integer that is not scaled are kept. -/
theorem mantissa_eq_significand {token : NumberToken} (integer : token.fraction = none)
    (unscaled : token.significand.2 = 0) : token.mantissa = token.significand.1 := by
  obtain ⟨whole, kept, back, front, back', -, length_eq, mantissa_eq, kept_eq, significand_eq,
    -, -⟩ := token.exists_parts
  rw [fractionDigits, integer, Option.map_none, Option.getD_none, List.length_nil] at length_eq
  obtain rfl := List.length_eq_zero_iff.1 (show front.length = 0 by omega)
  obtain rfl := List.length_eq_zero_iff.1 (show back'.length = 0 by omega)
  rw [significand_eq] at unscaled ⊢
  obtain rfl := List.length_eq_zero_iff.1 (show back.length = 0 by simpa using unscaled)
  rw [mantissa_eq, kept_eq]
  rfl

theorem length_digits_le (token : NumberToken) : token.whole.text.length ≤ token.text.length := by
  rw [text, unsigned]
  split <;> simp only [List.length_cons, List.length_append] <;> omega

/-- Whether a number has an exponent of at most 31 bits, or else at most two billion characters. -/
def IsShort (token : NumberToken) : Prop :=
  ∀ exponent ∈ token.exponent, exponent.magnitude < 2 ^ 31 ∨ token.text.length ≤ 2 * 10 ^ 9

theorem power_of_isBelow {token : NumberToken} {exponent : Exponent}
    (exponent_eq : token.exponent = some exponent) (below : exponent.isBelow) :
    token.power = -exponent.magnitude - token.fractionDigits.length := by
  rw [power, exponent_eq, Option.map_some, Option.getD_some, Exponent.value, if_pos below]

/-- An exponent of more than 31 bits leaves nothing of a number with fewer digits. -/
theorem mantissa_mul_le {token : NumberToken} {exponent : Exponent}
    (exponent_eq : token.exponent = some exponent) (great : 2 ^ 31 ≤ exponent.magnitude)
    (below : exponent.isBelow) (short : token.text.length ≤ 2 * 10 ^ 9) :
    token.mantissa * (10 : ℚ) ^ token.power ≤ 10 ^ (-324 : ℤ) := by
  have digits := token.length_digits_le
  have bound := (ofDigitChars_mem (List.forall_mem_append.2
    ⟨token.whole.decimal, token.decimal_fractionDigits⟩) 0).2
  rw [Nat.zero_add, Nat.one_mul, ← mantissa] at bound
  calc token.mantissa * (10 : ℚ) ^ token.power
      ≤ 10 ^ (token.whole.text ++ token.fractionDigits).length * 10 ^ token.power :=
        mul_le_mul_of_nonneg_right (by exact_mod_cast bound.le) (by positivity)
    _ = 10 ^ (token.whole.text.length - exponent.magnitude : ℤ) := by
      rw [← zpow_natCast, ← zpow_add₀ (by norm_num), power_of_isBelow exponent_eq below,
        List.length_append]
      congr 1
      push_cast
      ring
    _ ≤ 10 ^ (-324 : ℤ) := zpow_le_zpow_right₀ (by norm_num) (by omega)

/-- Digits that are scaled are read as a double near the one they are rounded to at once. -/
theorem exists_read_of_double? {token : NumberToken} {number : Number}
    (pointed : ¬(token.fraction = none ∧ token.exponent = none ∧ token.significand.2 = 0))
    (scaled : double? token.negative token.significand.1 token.scaledPower = some number)
    {written : ℕ} (rounds : RoundsTo (token.mantissa * 10 ^ token.power) written) :
    ∃ found < infinityPlace, number.toFloat = signed token.sign found ∧
      Within token.roundings written found := by
  have word := token.significand_lt
  obtain ⟨double, scale, rfl⟩ := Option.map_eq_some_iff.1 scaled
  rcases Nat.eq_zero_or_pos token.significand.1 with zero | pos
  · have start : (0 : ℕ).toUInt64.toFloat = signed .positive 0 := by decide
    rw [zero, start, scale?_zero] at scale
    rw [token.significand_eq_zero_iff.1 zero, Nat.cast_zero, zero_mul] at rounds
    refine ⟨0, by decide, ?_, ?_⟩
    · rw [signed_sign, Option.some.inj scale]
      rfl
    · rw [rounds.eq_zero]
      simp [Within]
  · obtain ⟨place, rounds', -⟩ :=
      Numeral.exists_place_nearest token.significand.1 token.scaledPower
    obtain ⟨found, small, found_eq, near⟩ :=
      exists_scale?_of_isSome pos word rounds' (by rw [scale, Option.isSome_some])
    have cut := within_of_near rounds rounds' token.near_scaledPower
    have rounded : token.roundings =
        token.cutSteps + scaleSteps token.significand.1 token.scaledPower := by
      refine if_neg ?_
      rintro (zero | ⟨fits, integer, none⟩)
      · exact pos.ne' (token.significand_eq_zero_iff.2 zero)
      · refine pointed ⟨integer, none, ?_⟩
        rw [significand_of_lt fits, fractionDigits, integer]
        rfl
    rw [found_eq] at scale
    refine ⟨found, small, ?_, ?_⟩
    · rw [signed_sign, Option.some.inj scale]
      rfl
    · obtain ⟨left, right⟩ := near
      obtain ⟨left', right'⟩ := cut
      rw [rounded]
      exact ⟨by omega, by omega⟩

/-- An exponent out of reach leaves zero, and the number is next to nothing unless its digits are
many. -/
theorem eq_zero_of_exponent {token : NumberToken} {exponent : Exponent}
    (exponent_eq : token.exponent = some exponent) (great : 2 ^ 31 ≤ exponent.magnitude)
    (nothing : token.significand.1 = 0 ∨ exponent.isBelow)
    (close : token.mantissa = 0 ∨ token.IsShort ∨ token.power.natAbs ≤ 22) {written : ℕ}
    (rounds : RoundsTo (token.mantissa * 10 ^ token.power) written) : written = 0 := by
  have zero (none : token.mantissa = 0) : written = 0 := by
    rw [none, Nat.cast_zero, zero_mul] at rounds
    exact rounds.eq_zero
  rcases nothing with none | below
  · exact zero (token.significand_eq_zero_iff.1 none)
  rcases close with none | short | small
  · exact zero none
  · have few := (short exponent exponent_eq).resolve_left (Nat.not_lt.2 great)
    exact rounds.unique (roundsTo_zero (mantissa_mul_le exponent_eq great below few))
  · have power_eq := power_of_isBelow exponent_eq below
    omega

/-- What a number is read as is at most as many places away from the double nearest to it as the
number is rounded before the last time; it is zero where its exponent is out of reach. -/
theorem exists_read {token : NumberToken} {number : Number} (h : token.value? = some number)
    {written : ℕ} (rounds : RoundsTo (token.mantissa * 10 ^ token.power) written) :
    ∃ found < infinityPlace, number.toFloat = signed token.sign found ∧
      (token.mantissa = 0 ∨ token.IsShort ∨ token.power.natAbs ≤ 22 →
        Within token.roundings written found) ∧
      (¬token.IsShort → found = 0) := by
  rcases value?_cases h with ⟨integer, none, unscaled, rfl⟩ | ⟨pointed, short, scaled⟩ |
    ⟨exponent, exponent_eq, great, nothing, rfl⟩
  · have word := token.significand_lt
    have mantissa_eq := mantissa_eq_significand integer unscaled
    obtain ⟨place, rounds', finite, eq⟩ := exists_toFloat word
    have power_eq : token.power = 0 := by
      rw [power, none, fractionDigits, integer]
      rfl
    rw [power_eq, zpow_zero, mul_one, mantissa_eq] at rounds
    refine ⟨place, finite, ?_, fun _ ↦ ?_, fun long ↦ (long (by simp [IsShort, none])).elim⟩
    · rw [toFloat_ofInteger, eq, signed_sign]
    · rw [rounds.unique rounds', roundings, if_pos (.inr ⟨mantissa_eq ▸ word, integer, none⟩)]
      simp [Within]
  · obtain ⟨found, finite, eq, within⟩ := exists_read_of_double? pointed scaled rounds
    exact ⟨found, finite, eq, fun _ ↦ within,
      fun long ↦ (long fun exponent mem ↦ .inl (short exponent mem)).elim⟩
  · refine ⟨0, by decide, ?_, fun close ↦ ?_, fun _ ↦ rfl⟩
    · rw [signed_sign]
      cases token.negative <;> decide
    · rw [eq_zero_of_exponent exponent_eq great nothing close rounds]
      simp [Within]

end Grammar.NumberToken

end SpanScore.Json
