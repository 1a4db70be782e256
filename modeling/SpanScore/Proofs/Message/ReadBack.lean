import SpanScore.Proofs.Decimal.Written
import SpanScore.Proofs.Json.Drift
import SpanScore.Proofs.Message.Response

/-!
# Responses read back

The response with a finite similarity is always read again, with the same sign and at most three
doubles away.  It is not always the same double: the reader rounds the significand and the power of
ten before it rounds the result, so it is exact only where neither is rounded.
-/

namespace SpanScore

open Double
open Float.Model.UnpackedFloat (Sign)

/-! ## Tokens of doubles -/

/-- The greatest two doubles are written with digits whose product is still finite. -/
theorem Decimal.shortest_greatest :
    (Binary.ofPlace greatestPlace).shortest.digits = "17976931348623157".toList ∧
      (Binary.ofPlace greatestPlace).shortest.exponent = 308 ∧
      (Binary.ofPlace (greatestPlace - 1)).shortest.digits = "17976931348623155".toList ∧
      (Binary.ofPlace (greatestPlace - 1)).shortest.exponent = 308 := by
  decide +kernel

namespace Json.Digits

theorem isSome_scale?_of_product {significand power : ℕ} (within : power ≤ greatestPower)
    (bounded : (significand.toUInt64.toFloat * powerOfTen power).isInf = false) :
    (scale? significand.toUInt64.toFloat power).isSome := by
  rw [scale?, if_pos (Int.natCast_nonneg power), if_pos (by exact_mod_cast within)]
  dsimp only
  rw [Int.natAbs_natCast, bounded]
  rfl

end Json.Digits

namespace Decimal

open Json.Grammar (NumberToken)

/-- A token that spells seventeen digits has no zeros behind them. -/
theorem Digits.IsSpelledBy.eq_of_length {number : Digits} {token : NumberToken}
    (spelled : number.IsSpelledBy token) (length : number.digits.length = 17)
    (long : 10 ^ 16 ≤ number.significand) (short : token.mantissa < 10 ^ 17) :
    token.mantissa = number.significand ∧ token.power = number.exponent - 16 := by
  obtain ⟨zeros, mantissa_eq, power_eq, -⟩ := spelled.digits
  have none : zeros = 0 := by
    by_contra some
    obtain ⟨before, rfl⟩ := Nat.exists_eq_succ_of_ne_zero some
    have ten : 10 ≤ 10 ^ (before + 1) := Nat.le_self_pow (by omega) 10
    have long' := Nat.mul_le_mul long ten
    rw [mantissa_eq] at short
    exact absurd (long'.trans_lt short) (by decide)
  subst none
  rw [length] at power_eq
  exact ⟨by rw [mantissa_eq, Nat.pow_zero, Nat.mul_one], by omega⟩

/-- The tokens of the greatest two doubles are in range. -/
theorem IsWritten.isSome_of_top {place : ℕ} {token : NumberToken} (written : IsWritten place token)
    (spelled : (Binary.ofPlace place).shortest.IsSpelledBy token) (finite : place < infinityPlace)
    (top : infinityPlace ≤ place + 2) :
    (Json.Digits.scale? token.mantissa.toUInt64.toFloat token.power).isSome := by
  obtain ⟨digits, exponent, digits', exponent'⟩ := shortest_greatest
  have cases : place = greatestPlace ∨ place = greatestPlace - 1 := by
    unfold greatestPlace
    omega
  rcases cases with rfl | rfl
  · have spelling := spelled.eq_of_length (by rw [digits]; rfl)
      (by rw [Digits.significand, digits]; decide) written.lt
    rw [Digits.significand, digits, exponent] at spelling
    rw [spelling.1, spelling.2]
    exact Json.Digits.isSome_scale?_of_product (show 292 ≤ Json.Digits.greatestPower by decide)
      (by decide +kernel)
  · have spelling := spelled.eq_of_length (by rw [digits']; rfl)
      (by rw [Digits.significand, digits']; decide) written.lt
    rw [Digits.significand, digits', exponent'] at spelling
    rw [spelling.1, spelling.2]
    exact Json.Digits.isSome_scale?_of_product (show 292 ≤ Json.Digits.greatestPower by decide)
      (by decide +kernel)

/-- What is written of a double is read as one a few places away. -/
theorem IsWritten.exists_found {place : ℕ} {token : NumberToken} (written : IsWritten place token)
    (spelled : (Binary.ofPlace place).shortest.IsSpelledBy token) (finite : place < infinityPlace)
    (sign : Sign) (sign_eq : token.negative = decide (signBit sign = 1)) :
    ∃ found < infinityPlace,
      (∃ number, token.value? = some number ∧ number.toFloat = signed sign found) ∧
        Json.Digits.Within (Json.Digits.drift token.mantissa token.power) place found := by
  have word : token.mantissa < 2 ^ 64 := written.lt.trans (by decide)
  have least := written.least
  have room : place + 2 < infinityPlace ∨
      (Json.Digits.scale? token.mantissa.toUInt64.toFloat token.power).isSome := by
    rcases Nat.lt_or_ge (place + 2) infinityPlace with below | top
    · exact .inl below
    · exact .inr (written.isSome_of_top spelled finite top)
  obtain ⟨found, small, scaled, within⟩ :=
    Json.Digits.exists_scale? written.pos word (by omega) written.rounds finite room
  refine ⟨found, small, ⟨_, by rw [written.value_eq, NumberToken.double?, scaled]; rfl, ?_⟩, within⟩
  cases sign with
  | positive =>
    rw [sign_eq]
    rfl
  | negative =>
    rw [sign_eq]
    exact neg_signed .positive found

end Decimal

namespace Double

/-- How many places two doubles of one sign are apart. -/
def apart (x y : Float) : ℕ :=
  (x.toBits.toNat - y.toBits.toNat : ℤ).natAbs

theorem apart_signed (sign : Sign) {a b : ℕ} (ha : a ≤ infinityPlace) (hb : b ≤ infinityPlace) :
    apart (signed sign a) (signed sign b) = (a - b : ℤ).natAbs := by
  unfold apart
  rw [toNat_toBits_signed, toNat_toBits_signed, Nat.min_eq_left ha, Nat.min_eq_left hb]
  push_cast
  congr 1
  ring

theorem isSignNegative_signed (sign : Sign) (place : ℕ) :
    Decimal.isSignNegative (signed sign place) = decide (signBit sign = 1) := by
  have small : infinityPlace < 2 ^ 63 := by decide
  have bits := toNat_toBits_signed sign place
  rw [Bool.eq_iff_iff, decide_eq_true_iff]
  change decide (2 ^ 63 ≤ (signed sign place).toBits.toNat) = true ↔ _
  rw [decide_eq_true_iff]
  cases sign with
  | positive =>
    change _ = 0 * 2 ^ 63 + _ at bits
    exact iff_of_false (by omega) (by decide)
  | negative =>
    change _ = 1 * 2 ^ 63 + _ at bits
    exact iff_of_true (by omega) rfl

end Double

/-! ## Responses -/

namespace Response

open Json.Grammar (NumberToken)

/-- A finite double is written with its sign in front of its magnitude. -/
theorem double_eq_text {sign : Sign} {place : ℕ} (finite : place < infinityPlace)
    {token : NumberToken} (negative : token.negative = decide (signBit sign = 1))
    (text : token.unsigned = Decimal.Layout.json.magnitude (signed sign place)) :
    Json.Print.double (signed sign place) = token.text := by
  have isFinite := (isFinite_signed sign place).2 finite
  have notInf : (signed sign place).isInf = false := by
    rw [Bool.eq_false_iff, Ne, isInf_signed]
    omega
  rw [Json.Print.double, if_pos isFinite, Decimal.Layout.write, isNaN_signed, notInf,
    isSignNegative_signed, NumberToken.text, negative, text]
  cases sign <;> rfl

/-- A response with a double is read as what is read of the double's token. -/
theorem similarityOf_encode_of_token {x : Float} {token : NumberToken} {number : Json.Number}
    (text : Json.Print.double x = token.text) (value : token.value? = some number) :
    similarityOf (encode ⟨x⟩) = .ok number.toFloat := by
  have answers := answers_of_token value
  rw [← text] at answers
  exact similarityOf_eq_ok_iff.2 ⟨number, answers, rfl⟩

/-- Zeros are read back with their sign. -/
theorem similarityOf_encode_zero (sign : Sign) :
    similarityOf (encode ⟨signed sign 0⟩) = .ok (signed sign 0) := by
  let token : NumberToken := ⟨decide (signBit sign = 1), Decimal.zeroRun,
    Json.Grammar.DigitRun.isCanonical_single '0' rfl, some Decimal.zeroRun, none⟩
  have text : Json.Print.double (signed sign 0) = token.text := by
    cases sign <;> decide +kernel
  have value : token.value? = some (.double (signed sign 0)) := by
    cases sign <;> decide +kernel
  exact similarityOf_encode_of_token text value

/-- A double that is not zero is read back as one a few places away. -/
theorem exists_similarityOf_encode (sign : Sign) {place : ℕ} (positive : 0 < place)
    (finite : place < infinityPlace) :
    ∃ token, Decimal.IsWritten place token ∧ ∃ found < infinityPlace,
      similarityOf (encode ⟨signed sign place⟩) = .ok (signed sign found) ∧
        Json.Digits.Within (Json.Digits.drift token.mantissa token.power) place found := by
  obtain ⟨token, negative, text, written, spelled⟩ :=
    Decimal.Layout.exists_isWritten positive finite sign (decide (signBit sign = 1))
  obtain ⟨found, small, ⟨number, value, read⟩, within⟩ :=
    written.exists_found spelled finite sign negative
  refine ⟨token, written, found, small, ?_, within⟩
  rw [similarityOf_encode_of_token (double_eq_text finite negative text) value, read]

/-! ## How far apart -/

/-- A double from a constant on is behind each place before that of the constant. -/
theorem lt_place_of_le {constant : Float} {bound place : ℕ}
    (view : constant = signed .positive constant.toBits.toNat)
    (small : constant.toBits.toNat ≤ infinityPlace) (bound_lt : bound < constant.toBits.toNat)
    (finite : place ≤ infinityPlace) (le : constant ≤ signed .positive place) : bound < place := by
  rw [view, le_iff _ _ small finite, rank, rank] at le
  omega

theorem place_lt_of_le {constant : Float} {bound place : ℕ}
    (view : constant = signed .positive constant.toBits.toNat)
    (small : constant.toBits.toNat ≤ infinityPlace) (lt_bound : constant.toBits.toNat < bound)
    (finite : place ≤ infinityPlace) (le : signed .positive place ≤ constant) : place < bound := by
  rw [view, le_iff _ _ finite small, rank, rank] at le
  omega

open Decimal Json.Digits

section

variable {place : ℕ} {token : NumberToken} (written : IsWritten place token)
  (finite : place < infinityPlace)

include written finite

theorem drift_le_two_of_le (le : 1e-290 ≤ signed .positive place) :
    drift token.mantissa token.power ≤ 2 := by
  have behind : 56 * 2 ^ 52 < place :=
    lt_place_of_le (by decide +kernel) (by decide +kernel) (by decide +kernel) finite.le le
  have power : -309 < token.power :=
    written.lt_power written.lt (by decide) behind (ten_zpow_le_two_zpow (by decide) (by decide))
  exact drift_le_two _ (by simp only [greatestPower]; omega)

theorem natAbs_power_le (low : 1e-5 ≤ signed .positive place)
    (high : signed .positive place ≤ 1e22) : token.power.natAbs ≤ 22 := by
  have behind : 1004 * 2 ^ 52 < place :=
    lt_place_of_le (by decide) (by decide) (by decide) finite.le low
  have before : place < 1099 * 2 ^ 52 :=
    place_lt_of_le (by decide) (by decide) (by decide) finite.le high
  have above : -23 < token.power :=
    written.lt_power written.lt (by decide) behind (ten_zpow_le_two_zpow (by decide) (by decide))
  have below : token.power < 23 :=
    written.power_lt (by decide) before (two_zpow_le_ten_zpow (by decide) (by decide))
  omega

theorem drift_eq_zero (short : (Binary.ofPlace place).shortest.digits.length ≤ 15)
    (low : 1e-7 ≤ signed .positive place) (high : signed .positive place ≤ 1e13) :
    drift token.mantissa token.power = 0 := by
  have behind : 997 * 2 ^ 52 < place :=
    lt_place_of_le (by decide) (by decide) (by decide) finite.le low
  have before : place < 1067 * 2 ^ 52 :=
    place_lt_of_le (by decide) (by decide) (by decide) finite.le high
  have below : token.power < 23 :=
    written.power_lt (by decide) before (two_zpow_le_ten_zpow (by decide) (by decide))
  have exact : token.mantissa < 2 ^ 53 ∧ -23 < token.power := by
    rcases written.lt_of_short 15 short with few | tenth
    · exact ⟨few.trans (by decide), written.lt_power few (by decide) behind
        (ten_zpow_le_two_zpow (by decide) (by decide))⟩
    · have bound := written.decimal_lt (by decide) before
      rw [tenth] at bound
      norm_num at bound
      have few : (token.mantissa : ℚ) < 175921860444160 := by linarith
      have few' : token.mantissa < 175921860444160 := by exact_mod_cast few
      exact ⟨few'.trans (by decide), by omega⟩
  rw [drift_of_natAbs_le _ (by omega), significandSteps, if_pos exact.1]

end

end Response

end SpanScore
