import SpanScore.Proofs.Double.Place

/-!
# Numbers near each other

Two positive numbers are near each other by some steps when neither has to be shrunk by more than as
many factors `1 - 2 ^ -53` to lie below the other.  Rounding to a double with all of its bits is one
step, steps add up under products, quotients and chains, and midpoints in a row are more than a step
apart.  So a number that is a few steps away from another one is rounded at most as many places
away.
-/

namespace SpanScore.Double

/-- The factor by which rounding changes a number at most. -/
def shrink : ℚ :=
  1 - 1 / 2 ^ 53

theorem shrink_pos : 0 < shrink := by
  norm_num [shrink]

theorem shrink_le_one : shrink ≤ 1 := by
  norm_num [shrink]

/-- Neither of two numbers is smaller than the other by more than some factors. -/
structure Near (steps : ℕ) (x y : ℚ) : Prop where
  left : shrink ^ steps * x ≤ y
  right : shrink ^ steps * y ≤ x

namespace Near

variable {j k : ℕ} {x y z x' y' : ℚ}

theorem refl (x : ℚ) : Near 0 x x := by
  constructor <;> simp

theorem symm (h : Near k x y) : Near k y x :=
  ⟨h.right, h.left⟩

/-- Without a step numbers are the same. -/
theorem eq (h : Near 0 x y) : x = y := by
  obtain ⟨left, right⟩ := h
  rw [pow_zero, one_mul] at left right
  exact le_antisymm left right

theorem mono (h : Near j x y) (le : j ≤ k) (hx : 0 ≤ x) (hy : 0 ≤ y) : Near k x y := by
  have smaller : shrink ^ k ≤ shrink ^ j := pow_le_pow_of_le_one shrink_pos.le shrink_le_one le
  exact ⟨(mul_le_mul_of_nonneg_right smaller hx).trans h.left,
    (mul_le_mul_of_nonneg_right smaller hy).trans h.right⟩

theorem trans (h : Near j x y) (h' : Near k y z) : Near (j + k) x z := by
  have factor (steps : ℕ) : 0 ≤ shrink ^ steps := pow_nonneg shrink_pos.le steps
  constructor
  · calc shrink ^ (j + k) * x = shrink ^ k * (shrink ^ j * x) := by ring
      _ ≤ shrink ^ k * y := mul_le_mul_of_nonneg_left h.left (factor k)
      _ ≤ z := h'.left
  · calc shrink ^ (j + k) * z = shrink ^ j * (shrink ^ k * z) := by ring
      _ ≤ shrink ^ j * y := mul_le_mul_of_nonneg_left h'.right (factor j)
      _ ≤ x := h.right

theorem mul (h : Near j x y) (h' : Near k x' y') (hx : 0 ≤ x) (hy : 0 ≤ y) (hx' : 0 ≤ x')
    (hy' : 0 ≤ y') : Near (j + k) (x * x') (y * y') := by
  have factor (steps : ℕ) : 0 ≤ shrink ^ steps := pow_nonneg shrink_pos.le steps
  constructor
  · calc shrink ^ (j + k) * (x * x') = shrink ^ j * x * (shrink ^ k * x') := by ring
      _ ≤ y * y' := mul_le_mul h.left h'.left (mul_nonneg (factor k) hx') hy
  · calc shrink ^ (j + k) * (y * y') = shrink ^ j * y * (shrink ^ k * y') := by ring
      _ ≤ x * x' := mul_le_mul h.right h'.right (mul_nonneg (factor k) hy') hx

theorem inv (h : Near k x y) (hx : 0 < x) (hy : 0 < y) : Near k x⁻¹ y⁻¹ := by
  constructor
  · rw [← div_eq_mul_inv, le_inv_comm₀ (div_pos (pow_pos shrink_pos k) hx) hy, inv_div,
      le_div_iff₀ (pow_pos shrink_pos k), mul_comm]
    exact h.right
  · rw [← div_eq_mul_inv, le_inv_comm₀ (div_pos (pow_pos shrink_pos k) hy) hx, inv_div,
      le_div_iff₀ (pow_pos shrink_pos k), mul_comm]
    exact h.left

theorem div (h : Near j x y) (h' : Near k x' y') (hx : 0 ≤ x) (hy : 0 ≤ y) (hx' : 0 < x')
    (hy' : 0 < y') : Near (j + k) (x / x') (y / y') := by
  rw [div_eq_mul_inv, div_eq_mul_inv]
  exact h.mul (h'.inv hx' hy') hx hy (inv_pos.2 hx').le (inv_pos.2 hy').le

end Near

/-! ## Rounding -/

/-- Rounding to a double with all of its bits is one step. -/
theorem RoundsTo.near {number : ℚ} {place : ℕ} (h : RoundsTo number place)
    (normal : 2 ^ 52 ≤ place) : Near 1 number (Double.value place) := by
  obtain ⟨binade, step, rfl, low, high⟩ := exists_binade place
  have bits : 2 ^ 52 ≤ step := by omega
  have bitsQ : (2 ^ 52 : ℚ) ≤ step := by exact_mod_cast bits
  have unit : (0 : ℚ) < 2 ^ (binade - 1074 : ℤ) := by positivity
  have upper := h.upper
  have lower := h.lower (binade * 2 ^ 52 + step - 1) (by omega)
  rw [midpoint_scaled low high] at upper
  rw [value_scaled low high.le]
  have below : (2 * step - 1) * 2 ^ (binade - 1074 : ℤ) ≤ 2 * number := by
    by_cases first : binade ≠ 0 ∧ step = 2 ^ 52
    · rw [midpoint_pred_first first.1 (by omega)] at lower
      rw [first.2]
      push_cast
      nlinarith
    · rwa [@midpoint_pred_scaled binade step _ (by omega) high.le (by omega)] at lower
  generalize (2 : ℚ) ^ (binade - 1074 : ℤ) = unit' at unit upper below
  have product := mul_le_mul_of_nonneg_right bitsQ unit.le
  rw [show ((2 : ℚ) ^ 52 * unit') = 4503599627370496 * unit' by norm_num] at product
  constructor <;> norm_num [shrink] <;> linarith

/-- Two midpoints in a row are more than a step apart. -/
theorem midpoint_lt_shrink (place : ℕ) : midpoint place < shrink * midpoint (place + 1) := by
  obtain ⟨binade, step, rfl, low, high⟩ := exists_binade place
  have unit : (0 : ℚ) < 2 ^ (binade - 1074 : ℤ) := by positivity
  rw [midpoint_scaled low high]
  rcases Nat.lt_or_ge (step + 1) (2 ^ 53) with within | full
  · have few : (step : ℚ) + 1 ≤ 2 ^ 53 - 1 := by
      have : step + 2 ≤ 2 ^ 53 := by omega
      have : (step : ℚ) + 2 ≤ 2 ^ 53 := by exact_mod_cast this
      linarith
    rw [Nat.add_assoc, midpoint_scaled (by omega) within, ← mul_assoc]
    refine mul_lt_mul_of_pos_right ?_ unit
    push_cast
    norm_num [shrink] at few ⊢
    linarith
  · obtain rfl : step = 2 ^ 53 - 1 := by omega
    rw [Nat.add_assoc, show 2 ^ 53 - 1 + 1 = 2 ^ 53 from rfl, ← scaled_succ,
      midpoint_scaled (.inr (by omega)) (by omega),
      show ((binade + 1 : ℕ) - 1074 : ℤ) = 1 + (binade - 1074) by push_cast; ring,
      zpow_add₀ (by norm_num), ← mul_assoc, ← mul_assoc]
    refine mul_lt_mul_of_pos_right ?_ unit
    norm_num [shrink]

theorem midpoint_le_shrink_pow (place steps : ℕ) :
    midpoint place ≤ shrink ^ steps * midpoint (place + steps) := by
  induction steps with
  | zero => simp
  | succ steps ih =>
    have last := midpoint_lt_shrink (place + steps)
    calc midpoint place ≤ shrink ^ steps * midpoint (place + steps) := ih
      _ ≤ shrink ^ steps * (shrink * midpoint (place + steps + 1)) :=
        mul_le_mul_of_nonneg_left last.le (pow_nonneg shrink_pos.le steps)
      _ = shrink ^ (steps + 1) * midpoint (place + (steps + 1)) := by
        rw [pow_succ, mul_assoc, Nat.add_assoc]

theorem midpoint_lt_shrink_pow (place : ℕ) {steps : ℕ} (pos : 0 < steps) :
    midpoint place < shrink ^ steps * midpoint (place + steps) := by
  obtain ⟨before, rfl⟩ := Nat.exists_eq_succ_of_ne_zero (Nat.ne_of_gt pos)
  have last := midpoint_lt_shrink (place + before)
  calc midpoint place ≤ shrink ^ before * midpoint (place + before) :=
        midpoint_le_shrink_pow place before
    _ < shrink ^ before * (shrink * midpoint (place + before + 1)) :=
      mul_lt_mul_of_pos_left last (pow_pos shrink_pos before)
    _ = shrink ^ (before + 1) * midpoint (place + (before + 1)) := by
      rw [pow_succ, mul_assoc, Nat.add_assoc]

/-- Numbers a few steps away from each other are rounded at most as many places away. -/
theorem RoundsTo.le_add_of_near {x y : ℚ} {m n steps : ℕ} (hx : RoundsTo x m) (hy : RoundsTo y n)
    (near : Near steps x y) : n ≤ m + steps := by
  rcases Nat.eq_zero_or_pos steps with rfl | pos
  · have le : y ≤ x := by simpa using near.right
    exact hy.mono hx le
  · apply hy.le_of_lt_midpoint
    have factor : 0 < shrink ^ steps := pow_pos shrink_pos steps
    have upper := hx.upper
    have far := midpoint_lt_shrink_pow m pos
    refine lt_of_mul_lt_mul_left ?_ factor.le
    calc shrink ^ steps * (2 * y) = 2 * (shrink ^ steps * y) := by ring
      _ ≤ 2 * x := by linarith [near.right]
      _ ≤ midpoint m := upper
      _ < shrink ^ steps * midpoint (m + steps) := far

end SpanScore.Double
