import SpanScore.Proofs.Decimal.Search
import SpanScore.Proofs.Double.Near
import SpanScore.Proofs.Json.Doubles

/-!
# How far numbers drift

A number that is scaled is not always read as the nearest double.  Its significand and its power of
ten may each be rounded before the last operation, and a power of ten below all doubles takes one
more operation.  The double that is read is at most as many places away from the nearest one as
there are such steps.
-/

namespace SpanScore.Json.Digits

open Double Float.Model.UnpackedFloat

/-! ## Steps before the last operation -/

/-- Whether a significand may be rounded. -/
def significandSteps (significand : ℕ) : ℕ :=
  if significand < 2 ^ 53 then 0 else 1

/-- Whether a power of ten may be rounded. -/
def powerSteps (power : ℕ) : ℕ :=
  if power ≤ 22 then 0 else 1

/-- How often a significand with a power of ten may be rounded before the last operation. -/
def drift (significand : ℕ) (power : ℤ) : ℕ :=
  significandSteps significand + powerSteps power.natAbs + if power < -greatestPower then 1 else 0

theorem significandSteps_le (significand : ℕ) : significandSteps significand ≤ 1 := by
  unfold significandSteps
  split <;> omega

theorem powerSteps_le (power : ℕ) : powerSteps power ≤ 1 := by
  unfold powerSteps
  split <;> omega

theorem drift_le_three (significand : ℕ) (power : ℤ) : drift significand power ≤ 3 := by
  have first := significandSteps_le significand
  have second := powerSteps_le power.natAbs
  unfold drift
  split <;> omega

theorem drift_le_two (significand : ℕ) {power : ℤ} (h : -greatestPower ≤ power) :
    drift significand power ≤ 2 := by
  have first := significandSteps_le significand
  have second := powerSteps_le power.natAbs
  rw [drift, if_neg (by omega)]
  omega

/-- Between the twenty-second powers only the significand may be rounded. -/
theorem drift_of_natAbs_le (significand : ℕ) {power : ℤ} (h : power.natAbs ≤ 22) :
    drift significand power = significandSteps significand := by
  rw [drift, powerSteps, if_pos h, if_neg (by simp only [greatestPower]; omega)]
  rfl

theorem drift_natCast (significand power : ℕ) :
    drift significand power = significandSteps significand + powerSteps power := by
  rw [drift, if_neg (by omega), Int.natAbs_natCast, Nat.add_zero]

theorem drift_neg_of_le (significand : ℕ) {power : ℕ} (within : power ≤ greatestPower) :
    drift significand (-power) = significandSteps significand + powerSteps power := by
  rw [drift, if_neg (by omega), Int.natAbs_neg, Int.natAbs_natCast, Nat.add_zero]

theorem drift_neg_of_lt (significand : ℕ) {power : ℕ} (beyond : greatestPower < power) :
    drift significand (-power) = significandSteps significand + 2 := by
  have rounded : powerSteps power = 1 := by
    rw [powerSteps, if_neg (by simp only [greatestPower] at beyond; omega)]
  rw [drift, if_pos (by omega), Int.natAbs_neg, Int.natAbs_natCast, rounded]

theorem near_significand {significand a : ℕ} (pos : 0 < significand)
    (rounds : RoundsTo significand a) :
    Near (significandSteps significand) significand (value a) := by
  unfold significandSteps
  split
  · next short =>
    have exact : value a = significand := by
      apply rounds.value_eq
      simpa using exists_value_eq short (show (-1074 : ℤ) ≤ 0 by decide)
    rw [exact]
    exact .refl _
  · have normal : 2 ^ 52 ≤ onePlace := by decide
    exact rounds.near (normal.trans (rounds.onePlace_le (by exact_mod_cast pos)))

theorem near_power {power ten : ℕ} (rounds : RoundsTo (10 ^ power) ten) :
    Near (powerSteps power) (10 ^ power) (value ten) := by
  unfold powerSteps
  split
  · next small =>
    have short : 5 ^ power < 2 ^ 53 :=
      lt_of_le_of_lt (Nat.pow_le_pow_right (by decide) small) (by decide)
    have exact : value ten = 10 ^ power := by
      apply rounds.value_eq
      obtain ⟨place, place_eq⟩ := exists_value_eq short (show (-1074 : ℤ) ≤ power by omega)
      refine ⟨place, ?_⟩
      rw [place_eq, zpow_natCast, Nat.cast_pow, ← mul_pow]
      norm_num
    rw [exact]
    exact .refl _
  · have normal : 2 ^ 52 ≤ onePlace := by decide
    exact rounds.near (normal.trans (rounds.onePlace_le (one_le_ten_pow power)))

/-! ## Products and quotients -/

/-- Two places are a few places apart at most. -/
def Within (steps left right : ℕ) : Prop :=
  left ≤ right + steps ∧ right ≤ left + steps

theorem within_of_near {x y : ℚ} {m n steps : ℕ} (hx : RoundsTo x m) (hy : RoundsTo y n)
    (near : Near steps x y) : Within steps m n :=
  ⟨hy.le_add_of_near hx near.symm, hx.le_add_of_near hy near⟩

variable {significand place : ℕ}

theorem exists_product (pos : 0 < significand) (word : significand < 2 ^ 64) {power : ℕ}
    (within : power ≤ greatestPower) (rounds : RoundsTo (significand * 10 ^ power) place)
    (room : place + 2 < infinityPlace ∨ (scale? significand.toUInt64.toFloat power).isSome) :
    ∃ found < infinityPlace,
      scale? significand.toUInt64.toFloat power = some (signed .positive found) ∧
      Within (significandSteps significand + powerSteps power) place found := by
  obtain ⟨a, roundsA, finite, eq⟩ := exists_toFloat word
  obtain ⟨ten, found, roundsTen, roundsFound, scaled⟩ := exists_scale?_mul finite within
  have near := (near_significand pos roundsA).mul (near_power roundsTen) (by positivity)
    (value_nonneg a) (by positivity) (value_nonneg ten)
  have apart := within_of_near rounds roundsFound near
  have few := Nat.add_le_add (significandSteps_le significand) (powerSteps_le power)
  rw [← eq] at scaled
  have small : found < infinityPlace := by
    have upper := apart.2
    rcases room with below | isSome
    · omega
    · by_contra infinite
      rw [scaled, if_neg infinite] at isSome
      exact Bool.false_ne_true isSome
  rw [if_pos small] at scaled
  exact ⟨found, small, scaled, apart⟩

theorem exists_quotient (pos : 0 < significand) (word : significand < 2 ^ 64) {power : ℕ}
    (positive : 0 < power) (within : power ≤ greatestPower)
    (rounds : RoundsTo (significand * 10 ^ (-power : ℤ)) place) :
    ∃ found < infinityPlace,
      scale? significand.toUInt64.toFloat (-power) = some (signed .positive found) ∧
      Within (significandSteps significand + powerSteps power) place found := by
  obtain ⟨a, roundsA, finite, eq⟩ := exists_toFloat word
  obtain ⟨ten, found, roundsTen, roundsFound, small, quotient⟩ :=
    exists_div_powerOfTen finite within
  have one := roundsTen.one_le_value (one_le_ten_pow power)
  have near := (near_significand pos roundsA).div (near_power roundsTen) (by positivity)
    (value_nonneg a) (by positivity) (by linarith)
  rw [zpow_neg, zpow_natCast, ← div_eq_mul_inv] at rounds
  refine ⟨found, by omega, ?_, within_of_near rounds roundsFound near⟩
  rw [eq, scale?_neg positive within, quotient]

/-! ## Two quotients -/

/-- How many of the least doubles make one. -/
def leastInOne : ℕ :=
  2 ^ 1074

theorem leastInOne_pos : 0 < leastInOne := by
  unfold leastInOne
  positivity

theorem value_of_le {place : ℕ} (low : place ≤ 2 ^ 52) : value place = place / leastInOne := by
  have significand_eq : Double.significand place = place := by
    unfold Double.significand
    split <;> omega
  have exponent_eq : Double.exponent place = -1074 := by
    unfold Double.exponent
    split <;> omega
  have power : (2 : ℚ) ^ (-1074 : ℤ) = (leastInOne : ℚ)⁻¹ := by
    rw [zpow_neg, zpow_ofNat, leastInOne, Nat.cast_pow, Nat.cast_ofNat]
  rw [value, significand_eq, exponent_eq, power, div_eq_mul_inv]

/-- The quotients of one and two by the greatest power of ten have fewer bits than other doubles,
but they are near enough. -/
theorem near_of_subnormal {numerator bits : ℕ} (low : bits ≤ 2 ^ 52)
    (lower : (2 ^ 53 - 1) * numerator * leastInOne ≤ bits * 2 ^ 53 * 10 ^ greatestPower)
    (upper : (2 ^ 53 - 1) * bits * 10 ^ greatestPower ≤ numerator * 2 ^ 53 * leastInOne) :
    Near 1 (numerator / 10 ^ greatestPower) (value bits) := by
  have ten_eq : (10 : ℚ) ^ greatestPower = (10 ^ greatestPower : ℕ) := by
    rw [Nat.cast_pow, Nat.cast_ofNat]
  have unit := leastInOne_pos
  have ten : 0 < 10 ^ greatestPower := Nat.pow_pos (by decide)
  rw [value_of_le low, ten_eq]
  generalize leastInOne = units at lower upper unit ⊢
  generalize 10 ^ greatestPower = tens at lower upper ten ⊢
  have unitQ : (0 : ℚ) < units := by exact_mod_cast unit
  have tenQ : (0 : ℚ) < tens := by exact_mod_cast ten
  have lowerQ : (9007199254740991 * numerator * units : ℚ) ≤ bits * 2 ^ 53 * tens := by
    exact_mod_cast lower
  have upperQ : (9007199254740991 * bits * tens : ℚ) ≤ numerator * 2 ^ 53 * units := by
    exact_mod_cast upper
  constructor
  · rw [pow_one, ← mul_div_assoc, div_le_div_iff₀ tenQ unitQ]
    norm_num [shrink] at lowerQ ⊢
    linarith
  · rw [pow_one, ← mul_div_assoc, div_le_div_iff₀ unitQ tenQ]
    norm_num [shrink] at upperQ ⊢
    linarith

/-- From three on the quotients by the greatest power of ten have all of their bits. -/
theorem value_le_quotient {a ten : ℕ} (many : 3 ≤ significand) (roundsA : RoundsTo significand a)
    (nearTen : shrink ^ powerSteps greatestPower * value ten ≤ 10 ^ greatestPower)
    (one : 1 ≤ value ten) : value (2 ^ 52) ≤ value a / value ten := by
  have three : 3 ≤ value a := by
    obtain ⟨place, place_eq⟩ := exists_value_eq (show 3 < 2 ^ 53 by decide)
      (show (-1074 : ℤ) ≤ 0 by decide)
    have place_eq' : value place = 3 := by simpa using place_eq
    rw [← place_eq']
    refine value_strictMono.monotone (roundsA.le_of_value_le ?_)
    rw [place_eq']
    exact_mod_cast many
  have ten_eq : (10 : ℚ) ^ greatestPower = (10 ^ greatestPower : ℕ) := by
    rw [Nat.cast_pow, Nat.cast_ofNat]
  have room : 2 ^ 52 * (2 ^ 53 * 10 ^ greatestPower) ≤ 3 * (2 ^ 53 - 1) * leastInOne := by
    decide +kernel
  have units := leastInOne_pos
  rw [ten_eq, powerSteps, if_neg (by decide), pow_one] at nearTen
  rw [value_of_le le_rfl]
  generalize leastInOne = units' at room units ⊢
  generalize 10 ^ greatestPower = tens at room nearTen
  have unitQ : (0 : ℚ) < units' := by exact_mod_cast units
  have roomQ : (2 ^ 52 * (2 ^ 53 * tens) : ℚ) ≤ 3 * 9007199254740991 * units' := by
    exact_mod_cast room
  rw [div_le_div_iff₀ unitQ (by linarith)]
  norm_num [shrink] at nearTen roomQ ⊢
  nlinarith

/-- The double that a significand is read as, divided by the greatest power of ten. -/
theorem near_first_quotient {a ten b : ℕ} (pos : 0 < significand) (roundsA : RoundsTo significand a)
    (eq : significand.toUInt64.toFloat = signed .positive a) (small : b < infinityPlace)
    (roundsTen : RoundsTo (10 ^ greatestPower) ten) (roundsB : RoundsTo (value a / value ten) b)
    (quotient : signed .positive a / powerOfTen greatestPower = signed .positive b) :
    Near (significandSteps significand + 2) (significand / 10 ^ greatestPower) (value b) := by
  rcases Nat.lt_or_ge significand 3 with few | many
  · have bits_eq := congrArg (fun double ↦ double.toBits.toNat) quotient
    simp only [toNat_toBits_signed, signBit, Nat.min_eq_left small.le, Nat.zero_mul, Nat.zero_add,
      ← eq] at bits_eq
    have near : Near 1 (significand / 10 ^ greatestPower) (value b) := by
      rw [← bits_eq]
      obtain rfl | rfl : significand = 1 ∨ significand = 2 := by omega
      · exact near_of_subnormal (by decide +kernel) (by decide +kernel) (by decide +kernel)
      · exact near_of_subnormal (by decide +kernel) (by decide +kernel) (by decide +kernel)
    exact near.mono (by omega) (by positivity) (value_nonneg b)
  · have nearTen := near_power roundsTen
    have one := roundsTen.one_le_value (one_le_ten_pow greatestPower)
    have normal := roundsB.le_of_value_le (value_le_quotient many roundsA nearTen.right one)
    have nearB := roundsB.near normal
    have quotients := (near_significand pos roundsA).div nearTen (by positivity) (value_nonneg a)
      (by positivity) (by linarith)
    exact quotients.trans nearB

/-- A power of ten below all doubles takes two quotients. -/
theorem exists_two_quotients (pos : 0 < significand) (word : significand < 2 ^ 64) {power : ℕ}
    (positive : 0 < power) (within : power ≤ greatestPower)
    (rounds : RoundsTo (significand * 10 ^ (-(greatestPower + power : ℕ) : ℤ)) place) :
    ∃ found < infinityPlace,
      scale? significand.toUInt64.toFloat (-(greatestPower + power : ℕ)) =
        some (signed .positive found) ∧
      Within (significandSteps significand + 2 + powerSteps power) place found := by
  obtain ⟨a, roundsA, finite, eq⟩ := exists_toFloat word
  obtain ⟨greatest, b, roundsGreatest, roundsB, smallB, first⟩ :=
    exists_div_powerOfTen finite (le_refl greatestPower)
  obtain ⟨ten, found, roundsTen, roundsFound, smallFound, second⟩ :=
    exists_div_powerOfTen (smallB.trans_lt finite) within
  have one := roundsTen.one_le_value (one_le_ten_pow power)
  have nonzero : 0 < a := lt_of_lt_of_le (by decide) (roundsA.onePlace_le (by exact_mod_cast pos))
  have near := (near_first_quotient pos roundsA eq (smallB.trans_lt finite) roundsGreatest roundsB
    first).div (near_power roundsTen) (by positivity) (value_nonneg b) (by positivity) (by linarith)
  rw [div_div, ← pow_add, div_eq_mul_inv, ← zpow_natCast, ← zpow_neg] at near
  refine ⟨found, by omega, ?_, within_of_near rounds roundsFound near⟩
  rw [eq, scale?_step finite nonzero (by omega), first]
  rw [show (greatestPower - (greatestPower + power : ℕ) : ℤ) = -power by push_cast; ring,
    scale?_neg positive within, second]

/-! ## All powers of ten -/

theorem value_infinityPlace : value infinityPlace = 2 ^ (1024 : ℤ) := by
  rw [infinityPlace, value_binade (by decide)]
  norm_num

/-- A decimal that is rounded to a double has no power of ten beyond all doubles. -/
theorem le_greatestPower (pos : 0 < significand) {power : ℕ}
    (rounds : RoundsTo (significand * 10 ^ (power : ℤ)) place) (finite : place < infinityPlace) :
    power ≤ greatestPower := by
  by_contra beyond
  have one : (1 : ℚ) ≤ significand := by exact_mod_cast pos
  have above : value infinityPlace ≤ significand * 10 ^ (power : ℤ) :=
    calc value infinityPlace = 2 ^ (1024 : ℤ) := value_infinityPlace
      _ ≤ 10 ^ (309 : ℤ) := Decimal.two_zpow_le_ten_zpow (by decide) (by decide)
      _ ≤ 10 ^ (power : ℤ) :=
        zpow_le_zpow_right₀ (by norm_num) (by simp only [greatestPower] at beyond; omega)
      _ ≤ significand * 10 ^ (power : ℤ) := le_mul_of_one_le_left (by positivity) one
  have infinite := rounds.le_of_value_le above
  omega

/-- A decimal whose significand fits a word is read as a double near the nearest one. -/
theorem exists_scale? (pos : 0 < significand) (word : significand < 2 ^ 64) {power : ℤ}
    (least : -330 ≤ power) (rounds : RoundsTo (significand * 10 ^ power) place)
    (finite : place < infinityPlace)
    (room : place + 2 < infinityPlace ∨ (scale? significand.toUInt64.toFloat power).isSome) :
    ∃ found < infinityPlace,
      scale? significand.toUInt64.toFloat power = some (signed .positive found) ∧
      Within (drift significand power) place found := by
  rcases Int.lt_or_le power 0 with negative | nonneg
  · obtain ⟨magnitude, rfl⟩ := Int.exists_eq_neg_ofNat negative.le
    rcases Nat.lt_or_ge greatestPower magnitude with beyond | within
    · obtain ⟨rest, rfl⟩ := Nat.exists_eq_add_of_le beyond.le
      have small : rest ≤ 22 := by
        simp only [greatestPower] at least
        omega
      have quotients := exists_two_quotients pos word (by omega) (small.trans (by decide)) rounds
      rw [powerSteps, if_pos small, Nat.add_zero] at quotients
      rw [drift_neg_of_lt significand beyond]
      exact quotients
    · rw [drift_neg_of_le significand within]
      exact exists_quotient pos word (by omega) within rounds
  · obtain ⟨magnitude, rfl⟩ := Int.eq_ofNat_of_zero_le nonneg
    have within := le_greatestPower pos rounds finite
    rw [zpow_natCast] at rounds
    rw [drift_natCast]
    exact exists_product pos word within rounds room

end SpanScore.Json.Digits
