import SpanScore.Proofs.Decimal.Shortest
import SpanScore.Proofs.Double.View

/-!
# Shortest digits round to their double

The two ends of the interval that the search compares decimals with are the midpoints to the double
before and to the double behind.  So whatever it finds is rounded to the double.
-/

namespace SpanScore.Decimal

open Double Float.Model.UnpackedFloat

namespace Binary

variable {decimal : ℕ} {scale : ℤ}

/-! ## Numbers by their place -/

def ofPlace (place : ℕ) : Binary :=
  ⟨significand place, Double.exponent place⟩

theorem ofFloat_signed (sign : Sign) {place : ℕ} (finite : place < infinityPlace) :
    ofFloat (signed sign place) = ofPlace place := by
  have bits := toNat_toBits_signed sign place
  have bit : signBit sign ≤ 1 := by cases sign <;> decide
  unfold infinityPlace at finite bits
  rw [Nat.min_eq_left finite.le] at bits
  unfold ofFloat ofPlace significand Double.exponent
  simp only [Nat.pow_eq, Int.ofNat_eq_natCast]
  have fraction : (signed sign place).toBits.toNat % 2 ^ 52 = place % 2 ^ 52 := by omega
  have field : (signed sign place).toBits.toNat / 2 ^ 52 % 2 ^ 11 = place / 2 ^ 52 := by omega
  rw [fraction, field]
  split
  · next subnormal => rw [if_pos (by omega), if_pos (by omega), Nat.mod_eq_of_lt (by omega)]
  · next normal => rw [if_neg (by omega), if_neg (by omega), Nat.add_comm]

/-- The upper end of the interval is the midpoint to the next double. -/
theorem two_mul_upper (place : ℕ) :
    2 * (ofPlace place).quarters (4 * (ofPlace place).mantissa + 2) = midpoint place := by
  obtain ⟨binade, step, rfl, low, high⟩ := exists_binade place
  rw [midpoint_scaled low high, quarters, ofPlace, significand_scaled low high,
    exponent_scaled low high, zpow_sub₀ two_ne_zero]
  push_cast
  ring

/-- The lower end of the interval is the midpoint to the double before. -/
theorem two_mul_lower (place : ℕ) :
    2 * (ofPlace (place + 1)).quarters (ofPlace (place + 1)).lowerQuarters = midpoint place := by
  obtain ⟨binade, step, place_eq, low, high⟩ := exists_binade (place + 1)
  have positive : 0 < step := by omega
  have lower_eq : (ofPlace (place + 1)).lowerQuarters =
      if step = 2 ^ 52 ∧ binade ≠ 0 then 4 * step - 1 else 4 * step - 2 := by
    unfold lowerQuarters ofPlace
    rw [place_eq, significand_scaled low high, exponent_scaled low high]
    have least : ((binade - 1074 : ℤ) != -1074) = decide (binade ≠ 0) := by
      rw [Bool.eq_iff_iff, bne_iff_ne, decide_eq_true_iff]
      omega
    simp only [least, Nat.pow_eq, Bool.and_eq_true, decide_eq_true_eq]
  rw [quarters, lower_eq]
  unfold ofPlace
  rw [place_eq, exponent_scaled low high, zpow_sub₀ two_ne_zero]
  split
  · next first =>
    rw [midpoint_pred_first first.2 (by omega), first.1]
    norm_num
    ring
  · rw [@midpoint_pred_scaled binade step _ (by omega) high.le (by omega)]
    obtain ⟨before, rfl⟩ := Nat.exists_eq_succ_of_ne_zero positive.ne'
    rw [show 4 * before.succ - 2 = 4 * before + 2 by omega]
    push_cast
    ring

/-- A decimal that lies in the interval is rounded to the double. -/
theorem roundsTo_of_roundsFrom {place : ℕ} (positive : 0 < place)
    (h : (ofPlace place).roundsFrom decimal scale = true) :
    RoundsTo (decimal * 10 ^ scale) place := by
  obtain ⟨before, rfl⟩ := Nat.exists_eq_succ_of_ne_zero positive.ne'
  simp only [Nat.succ_eq_add_one] at h ⊢
  obtain ⟨lower, upper, strict⟩ := roundsFrom_iff.1 h
  have lower_eq := two_mul_lower before
  have upper_eq := two_mul_upper (before + 1)
  have parity : (before + 1) % 2 = 1 → (ofPlace (before + 1)).mantissa % 2 = 1 := by
    simp only [ofPlace, significand]
    split <;> omega
  refine RoundsTo.of_pred ?_ (fun odd ↦ ?_) ?_ fun odd ↦ ?_
  · linarith
  · linarith [(strict (parity odd)).2]
  · rintro below pred
    obtain rfl : below = before := by omega
    linarith
  · rintro below pred
    obtain rfl : below = before := by omega
    linarith [(strict (parity odd)).1]

end Binary

end SpanScore.Decimal
