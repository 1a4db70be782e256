import SpanScore.Proofs.Double.Place

/-!
# Rounding of significands

A significand with a round bit and a sticky bit stands for every number that is cut off to it.
Shifting it keeps what it stands for, rounding it gives the nearest whole number, and so a number
with an exponent is rounded to the place of the nearest double.
-/

namespace SpanScore.Double

open Float.Model Float.Model.UnpackedFloat

/-! ## Significands with two more bits -/

/-- A significand with its two bits stands for a number. -/
def Represents (extended : ExtendedMantissa) (number : ℚ) : Prop :=
  let base : ℚ := extended.mantissa + if extended.roundBit then 1 / 2 else 0
  if extended.stickyBit then base < number ∧ number < base + 1 / 2 else number = base

namespace Represents

variable {extended : ExtendedMantissa} {number : ℚ}

theorem exact (mantissa : ℕ) :
    Represents (.ofMantissaAndAccuracy mantissa .exact) mantissa := by
  simp [Represents, ExtendedMantissa.ofMantissaAndAccuracy]

theorem le (h : Represents extended number) : extended.mantissa ≤ number := by
  obtain ⟨mantissa, round, sticky⟩ := extended
  cases round <;> cases sticky <;> simp only [Represents] at h <;> norm_num at h ⊢ <;> linarith

theorem lt (h : Represents extended number) : number < extended.mantissa + 1 := by
  obtain ⟨mantissa, round, sticky⟩ := extended
  cases round <;> cases sticky <;> simp only [Represents] at h <;> norm_num at h ⊢ <;> linarith

/-- One step to the right halves the number. -/
theorem shiftRightOne (h : Represents extended number) :
    Represents extended.shiftRightOne (number / 2) := by
  obtain ⟨mantissa, round, sticky⟩ := extended
  have halves : (mantissa : ℚ) = 2 * (mantissa / 2 : ℕ) + (mantissa % 2 : ℕ) := by
    exact_mod_cast (Nat.div_add_mod mantissa 2).symm
  rcases Nat.mod_two_eq_zero_or_one mantissa with even | odd
  · rw [even] at halves
    cases round <;> cases sticky <;>
      simp only [Represents, ExtendedMantissa.shiftRightOne, even] at h ⊢ <;>
      norm_num at h halves ⊢ <;> first | linarith | constructor <;> linarith
  · rw [odd] at halves
    cases round <;> cases sticky <;>
      simp only [Represents, ExtendedMantissa.shiftRightOne, odd] at h ⊢ <;>
      norm_num at h halves ⊢ <;> first | linarith | constructor <;> linarith

/-- Steps to the right divide the number by a power of two. -/
theorem shiftRight (h : Represents extended number) (count : ℕ) :
    Represents (extended >>> count) (number / 2 ^ count) := by
  change Represents (count.repeat ExtendedMantissa.shiftRightOne extended) _
  induction count with
  | zero => simpa [Nat.repeat] using h
  | succ count ih =>
    rw [Nat.repeat, pow_succ, ← div_div]
    exact ih.shiftRightOne

/-- Rounding takes the nearest whole number. -/
theorem nearestStep (h : Represents extended number) :
    NearestStep number extended.roundedMantissa := by
  obtain ⟨mantissa, round, sticky⟩ := extended
  by_cases tie : round = true ∧ sticky = false
  · obtain ⟨rfl, rfl⟩ := tie
    have half : number = mantissa + 1 / 2 := by simpa [Represents] using h
    change NearestStep number (mantissa + mantissa % 2)
    rcases Nat.mod_two_eq_zero_or_one mantissa with even | odd
    · rw [even, Nat.add_zero, half]
      constructor <;> intros <;> first | omega | linarith
    · rw [odd, half]
      constructor <;> push_cast <;> intros <;> first | omega | linarith
  · -- Away from a tie every bound is strict.
    have strict : 2 * (⟨mantissa, round, sticky⟩ : ExtendedMantissa).roundedMantissa - 1 <
          2 * number ∧
        2 * number < 2 * (⟨mantissa, round, sticky⟩ : ExtendedMantissa).roundedMantissa + 1 := by
      cases round <;> cases sticky
      · have exact : number = mantissa := by simpa [Represents] using h
        change 2 * (mantissa : ℚ) - 1 < _ ∧ _ < 2 * (mantissa : ℚ) + 1
        constructor <;> linarith
      · have below : mantissa < number ∧ number < mantissa + 1 / 2 := by
          simpa [Represents] using h
        change 2 * (mantissa : ℚ) - 1 < _ ∧ _ < 2 * (mantissa : ℚ) + 1
        constructor <;> linarith
      · exact absurd ⟨rfl, rfl⟩ tie
      · have above : mantissa + 1 / 2 < number ∧ number < mantissa + 1 / 2 + 1 / 2 := by
          simpa [Represents] using h
        change 2 * ((mantissa + 1 : ℕ) : ℚ) - 1 < _ ∧ _ < 2 * ((mantissa + 1 : ℕ) : ℚ) + 1
        push_cast
        constructor <;> linarith
    exact ⟨strict.2.le, strict.1.le, fun _ ↦ strict.2, fun _ ↦ strict.1⟩

end Represents

/-! ## Unpacked doubles by their place -/

/-- The double at a place, with a sign. -/
def ofPlace (sign : Sign) (place : ℕ) : UnpackedFloat :=
  if h : significand place = 0 then .zero sign
  else .finite sign (significand place) (exponent place) (Nat.pos_of_ne_zero h)

@[simp] theorem significand_eq_zero_iff {place : ℕ} : significand place = 0 ↔ place = 0 := by
  unfold significand
  split <;> omega

@[simp] theorem ofPlace_zero (sign : Sign) : ofPlace sign 0 = .zero sign := rfl

theorem ofPlace_of_pos (sign : Sign) {place : ℕ} (pos : 0 < place) :
    ofPlace sign place = .finite sign (significand place) (exponent place)
      (Nat.pos_of_ne_zero (mt significand_eq_zero_iff.1 (Nat.ne_of_gt pos))) :=
  dif_neg (mt significand_eq_zero_iff.1 (Nat.ne_of_gt pos))

/-- The double at a place is zero with either sign, or finite with either sign. -/
theorem ofPlace_cases (place : ℕ) : (∀ sign, ofPlace sign place = .zero sign) ∨
    ∃ mantissa exponent pos, ∀ sign, ofPlace sign place = .finite sign mantissa exponent pos := by
  rcases Nat.eq_zero_or_pos place with rfl | pos
  · exact .inl ofPlace_zero
  · exact .inr ⟨_, _, _, fun sign ↦ ofPlace_of_pos sign pos⟩

/-- What is unpacked is finite, infinite or no number. -/
theorem isFinite_unpacked_iff (number : UnpackedFloat) :
    number.isFinite = true ↔ number.isNaN = false ∧ number.isInf = false := by
  cases number with
  | notANumber => exact iff_of_false Bool.false_ne_true fun h ↦ Bool.noConfusion h.1
  | infinity sign => exact iff_of_false Bool.false_ne_true fun h ↦ Bool.noConfusion h.2
  | zero sign => exact iff_of_true rfl ⟨rfl, rfl⟩
  | finite sign mantissa exponent pos => exact iff_of_true rfl ⟨rfl, rfl⟩

theorem isFinite_ofPlace (sign : Sign) (place : ℕ) : (ofPlace sign place).isFinite = true := by
  rcases ofPlace_cases place with zero | ⟨_, _, _, finite⟩
  · rw [zero]
    rfl
  · rw [finite]
    rfl

theorem isNaN_ofPlace (sign : Sign) (place : ℕ) : (ofPlace sign place).isNaN = false :=
  ((isFinite_unpacked_iff _).1 (isFinite_ofPlace sign place)).1

theorem isInf_ofPlace (sign : Sign) (place : ℕ) : (ofPlace sign place).isInf = false :=
  ((isFinite_unpacked_iff _).1 (isFinite_ofPlace sign place)).2

theorem neg_ofPlace (sign : Sign) (place : ℕ) :
    (ofPlace sign place).neg = ofPlace (-sign) place := by
  rcases ofPlace_cases place with zero | ⟨_, _, _, finite⟩
  · rw [zero, zero]
    rfl
  · rw [finite, finite]
    rfl

theorem abs_ofPlace (sign : Sign) (place : ℕ) :
    (ofPlace sign place).abs = ofPlace .positive place := by
  rcases ofPlace_cases place with zero | ⟨_, _, _, finite⟩
  · rw [zero, zero]
    rfl
  · rw [finite, finite]
    rfl

/-- The parts of a double in terms of its binade. -/
theorem significand_scaled {binade step : ℕ} (low : binade = 0 ∨ 2 ^ 52 ≤ step)
    (high : step < 2 ^ 53) : significand (binade * 2 ^ 52 + step) = step := by
  unfold significand
  split <;> omega

theorem exponent_scaled {binade step : ℕ} (low : binade = 0 ∨ 2 ^ 52 ≤ step)
    (high : step < 2 ^ 53) : exponent (binade * 2 ^ 52 + step) = binade - 1074 := by
  unfold exponent
  split <;> omega

theorem ofPlace_scaled (sign : Sign) {binade step : ℕ} (low : binade = 0 ∨ 2 ^ 52 ≤ step)
    (high : step < 2 ^ 53) :
    ofPlace sign (binade * 2 ^ 52 + step) =
      if h : step = 0 then .zero sign
      else .finite sign step (binade - 1074) (Nat.pos_of_ne_zero h) := by
  have parts {mantissa : ℕ} {exponent : ℤ} (mantissa_eq : mantissa = step)
      (exponent_eq : exponent = binade - 1074) :
      (if h : mantissa = 0 then UnpackedFloat.zero sign
        else .finite sign mantissa exponent (Nat.pos_of_ne_zero h)) =
      if h : step = 0 then .zero sign
      else .finite sign step (binade - 1074) (Nat.pos_of_ne_zero h) := by
    subst mantissa_eq exponent_eq
    rfl
  exact parts (significand_scaled low high) (exponent_scaled low high)

/-! ## Rounding with an exponent -/

theorem targetExponent_eq (total : ℤ) :
    Format.binary64.targetExponent total = max (total - 53) (-1074) := rfl

/-- Shifting takes what is below the target exponent into the two bits. -/
theorem shiftToTargetExponent_eq {mantissa : ℕ} {exponent : ℤ} {accuracy : Accuracy} (shift : ℕ)
    (target : (Format.binary64.targetExponent (totalExponent mantissa exponent) - exponent).toNat =
      shift) :
    shiftToTargetExponent Format.binary64 mantissa exponent accuracy =
      (ExtendedMantissa.ofMantissaAndAccuracy mantissa accuracy >>> shift, exponent + shift) := by
  rw [shiftToTargetExponent, shiftToExponent, target]

/-- A rounded significand is brought to its place, which may be in the next binade. -/
theorem shiftToTargetExponent_step {binade step : ℕ} (high : step ≤ 2 ^ 53) :
    shiftToTargetExponent Format.binary64 step (binade - 1074) .exact =
      if step < 2 ^ 53 then (⟨step, false, false⟩, (binade - 1074 : ℤ))
      else (⟨2 ^ 52, false, false⟩, (binade + 1 : ℕ) - 1074) := by
  split
  · next within =>
    have bits : step.log2 ≤ 52 := by
      rcases Nat.eq_zero_or_pos step with rfl | pos
      · simp
      · exact Nat.le_of_lt_succ ((Nat.log2_lt (Nat.ne_of_gt pos)).2 within)
    rw [shiftToTargetExponent_eq 0]
    · simp [ExtendedMantissa.ofMantissaAndAccuracy, HShiftRight.hShiftRight, Nat.repeat]
    · rw [targetExponent_eq, totalExponent]
      omega
  · next full =>
    obtain rfl : step = 2 ^ 53 := by omega
    have bits : (2 ^ 53 : ℕ).log2 = 53 := Nat.log2_two_pow
    rw [shiftToTargetExponent_eq 1]
    · refine Prod.ext rfl ?_
      push_cast
      ring
    · rw [targetExponent_eq, totalExponent, bits]
      omega

/-- A rounded number is zero with either sign, or finite with either sign. -/
theorem roundWithAccuracy_cases (spec : Format) (mantissa : ℕ) (exponent : ℤ)
    (accuracy : Accuracy) :
    (∀ sign, roundWithAccuracy spec sign mantissa exponent accuracy = .zero sign) ∨
      ∃ mantissa' exponent' pos, ∀ sign, roundWithAccuracy spec sign mantissa exponent accuracy =
        .finite sign mantissa' exponent' pos := by
  by_cases zero : (shiftToTargetExponent spec
      (shiftToTargetExponent spec mantissa exponent accuracy).1.roundedMantissa
      (shiftToTargetExponent spec mantissa exponent accuracy).2 .exact).1.mantissa = 0
  · exact .inl fun sign ↦ dif_pos zero
  · exact .inr ⟨_, _, _, fun sign ↦ dif_neg zero⟩

theorem roundWithAccuracy_eq (sign : Sign) {mantissa : ℕ} {exponent : ℤ} {accuracy : Accuracy}
    {extended : ExtendedMantissa} {binade : ℕ}
    (shifted : shiftToTargetExponent Format.binary64 mantissa exponent accuracy =
      (extended, (binade - 1074 : ℤ)))
    (low : binade = 0 ∨ 2 ^ 52 ≤ extended.roundedMantissa)
    (high : extended.roundedMantissa ≤ 2 ^ 53) :
    roundWithAccuracy Format.binary64 sign mantissa exponent accuracy =
      ofPlace sign (binade * 2 ^ 52 + extended.roundedMantissa) := by
  have settled := @shiftToTargetExponent_step binade _ high
  unfold roundWithAccuracy
  rw [shifted]
  dsimp only
  generalize extended.roundedMantissa = step at low high settled ⊢
  rw [settled]
  by_cases within : step < 2 ^ 53
  · rw [if_pos within]
    exact (ofPlace_scaled sign low within).symm
  · obtain rfl : step = 2 ^ 53 := by omega
    rw [if_neg within, ← scaled_succ, ofPlace_scaled sign (.inr le_rfl) (by omega)]

/-- With enough bits the target exponent is the unit of a binade, and a shift leads up to it that
leaves no more and, above the least binade, no fewer than all bits of a double. -/
theorem exists_binade_shift {mantissa : ℕ} {exponent : ℤ}
    (enough : exponent ≤ -1074 ∨ 2 ^ 52 ≤ mantissa) :
    ∃ binade shift : ℕ, (binade - 1074 : ℤ) = exponent + shift ∧
      (Format.binary64.targetExponent (totalExponent mantissa exponent) - exponent).toNat = shift ∧
      mantissa + 1 ≤ 2 ^ (53 + shift) ∧ (binade = 0 ∨ 2 ^ (52 + shift) ≤ mantissa) := by
  have bits : exponent ≤ -1074 ∨ 52 ≤ mantissa.log2 :=
    enough.imp_right fun many ↦ (Nat.le_log2 (by omega)).2 many
  have target := targetExponent_eq (totalExponent mantissa exponent)
  rw [totalExponent] at target ⊢
  obtain ⟨binade, binade_eq⟩ : ∃ binade : ℕ, (binade : ℤ) =
      max (mantissa.log2 + 1 + exponent - 53) (-1074) + 1074 :=
    ⟨(max (mantissa.log2 + 1 + exponent - 53) (-1074) + 1074).toNat, by omega⟩
  obtain ⟨shift, shift_eq⟩ : ∃ shift : ℕ, (shift : ℤ) = binade - 1074 - exponent :=
    ⟨(binade - 1074 - exponent).toNat, by omega⟩
  refine ⟨binade, shift, by omega, by rw [target]; omega, ?_, ?_⟩
  · calc mantissa + 1 ≤ 2 ^ (mantissa.log2 + 1) := Nat.lt_log2_self
      _ ≤ 2 ^ (53 + shift) := Nat.pow_le_pow_right (by decide) (by omega)
  · rcases Nat.eq_zero_or_pos binade with zero | pos
    · exact .inl zero
    · have nonzero : mantissa ≠ 0 := by
        rintro rfl
        rw [Nat.log2_zero] at binade_eq bits
        omega
      exact .inr <|
        calc 2 ^ (52 + shift) ≤ 2 ^ mantissa.log2 :=
              Nat.pow_le_pow_right (by decide) (by omega)
          _ ≤ mantissa := Nat.log2_self_le nonzero

/-- A number that is cut off behind enough bits is rounded to the place of the nearest double. -/
theorem exists_place_roundWithAccuracy (sign : Sign) {mantissa : ℕ} {exponent : ℤ}
    {accuracy : Accuracy} {number : ℚ}
    (represents : Represents (.ofMantissaAndAccuracy mantissa accuracy) number)
    (enough : exponent ≤ -1074 ∨ 2 ^ 52 ≤ mantissa) :
    ∃ place, RoundsTo (number * 2 ^ exponent) place ∧
      roundWithAccuracy Format.binary64 sign mantissa exponent accuracy = ofPlace sign place := by
  have kept : (ExtendedMantissa.ofMantissaAndAccuracy mantissa accuracy).mantissa = mantissa := by
    cases accuracy with
    | exact => rfl
    | inexact order => cases order <;> rfl
  obtain ⟨binade, shift, binade_eq, target, above, below⟩ := exists_binade_shift enough
  have le := represents.le
  have lt := represents.lt
  rw [kept] at le lt
  have power : (0 : ℚ) < 2 ^ shift := by positivity
  have high : number / 2 ^ shift < 2 ^ 53 := by
    rw [div_lt_iff₀ power, ← pow_add]
    exact lt_of_lt_of_le lt (by exact_mod_cast above)
  have low : binade = 0 ∨ 2 ^ 52 ≤ number / 2 ^ shift := by
    refine below.imp_right fun below ↦ ?_
    rw [le_div_iff₀ power, ← pow_add]
    exact le_trans (by exact_mod_cast below) le
  have nearest := (represents.shiftRight shift).nearestStep
  have rounds := roundsTo_of_nearestStep nearest low high
  have reached := @shiftToTargetExponent_eq mantissa exponent accuracy shift target
  rw [← binade_eq] at reached
  refine ⟨_, ?_, roundWithAccuracy_eq sign reached (low.imp_right nearest.le_step)
    (nearest.step_le high)⟩
  rwa [binade_eq, add_comm, zpow_add₀ two_ne_zero, zpow_natCast, ← mul_assoc,
    div_mul_cancel₀ _ power.ne'] at rounds

/-- A whole number with an exponent is rounded to the place of the nearest double. -/
theorem exists_place_round (sign : Sign) {mantissa : ℕ} (pos : 0 < mantissa) (exponent : ℤ) :
    ∃ place, RoundsTo (mantissa * 2 ^ exponent) place ∧
      UnpackedFloat.round Format.binary64 sign mantissa exponent = ofPlace sign place := by
  have target := targetExponent_eq (totalExponent mantissa exponent)
  rw [totalExponent] at target
  obtain ⟨shift, shift_eq⟩ : ∃ shift : ℕ,
      (exponent - Format.binary64.targetExponent (mantissa.log2 + 1 + exponent)).toNat = shift :=
    ⟨_, rfl⟩
  have enough : exponent - shift ≤ -1074 ∨ 2 ^ 52 ≤ mantissa * 2 ^ shift := by
    rw [target] at shift_eq
    rcases Int.lt_or_le (-1074) (exponent - shift) with above | below
    · have power : 2 ^ 52 ≤ 2 ^ mantissa.log2 * 2 ^ shift := by
        rw [← Nat.pow_add]
        exact Nat.pow_le_pow_right (by decide) (by omega)
      exact .inr (le_trans power (Nat.mul_le_mul_right _ (Nat.log2_self_le (by omega))))
    · exact .inl below
  obtain ⟨place, rounds, eq⟩ := exists_place_roundWithAccuracy sign
    (Represents.exact (mantissa * 2 ^ shift)) enough
  refine ⟨place, ?_, ?_⟩
  · rw [zpow_sub₀ (by norm_num), zpow_natCast] at rounds
    have power : (2 : ℚ) ^ shift ≠ 0 := by positivity
    rwa [Nat.cast_mul, Nat.cast_pow, Nat.cast_ofNat, mul_assoc, mul_div_cancel₀ _ power] at rounds
  · rw [UnpackedFloat.round, totalExponent, decreaseExponent, shift_eq, ← eq]
    simp only [Nat.shiftLeft_eq]

theorem exists_place_normalize (number : ℕ) (exponent : ℤ) :
    ∃ place, RoundsTo (number * 2 ^ exponent) place ∧
      UnpackedFloat.normalize Format.binary64 number exponent .positive =
        ofPlace .positive place := by
  rcases Nat.eq_zero_or_pos number with rfl | pos
  · refine ⟨0, ?_, rfl⟩
    simpa using RoundsTo.zero
  · have gt : compare (number : ℤ) 0 = .gt := by
      rw [Int.compare_eq_gt]
      omega
    rw [UnpackedFloat.normalize, gt]
    exact exists_place_round .positive pos exponent

end SpanScore.Double
