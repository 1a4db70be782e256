import Mathlib.Algebra.Order.Field.Power
import Mathlib.Data.Rat.Cast.Order
import Mathlib.Tactic.Linarith
import Mathlib.Tactic.Positivity
import Mathlib.Tactic.Ring
import SpanScore.Decimal.Shortest

/-!
# Decimals compared with binary numbers

The search for digits compares natural numbers.  They are the two sides of a comparison between a
decimal and a number, multiplied by a common factor, so that each test of the search says where a
decimal lies: below the number, above it, or in the interval that is rounded to it.
-/

namespace SpanScore.Decimal

/-! ## Powers with integer exponents -/

theorem ratioPower_eq (base : ℕ) (exponent : ℤ) :
    ratioPower base exponent = (base ^ exponent.toNat, base ^ (-exponent).toNat) := by
  unfold ratioPower
  dsimp only [Nat.pow_eq]
  split
  · next negative =>
    rw [show exponent.toNat = 0 by omega, show (-exponent).toNat = exponent.natAbs by omega,
      Nat.pow_zero]
  · next nonnegative =>
    rw [show (-exponent).toNat = 0 by omega, show exponent.toNat = exponent.natAbs by omega,
      Nat.pow_zero]

/-! ## The two sides of a comparison -/

theorem cast_ratioPower {base : ℕ} (pos : 0 < base) (exponent : ℤ) :
    ((ratioPower base exponent).1 : ℚ) = base ^ exponent * (ratioPower base exponent).2 ∧
      0 < (ratioPower base exponent).2 := by
  have nonzero : (base : ℚ) ≠ 0 := by exact_mod_cast pos.ne'
  rw [ratioPower_eq]
  refine ⟨?_, Nat.pow_pos pos⟩
  push_cast
  rw [← zpow_natCast, ← zpow_natCast, ← zpow_add₀ nonzero]
  congr 1
  omega

/-- The two sides of a comparison are those of the numbers, but for a common factor. -/
theorem exists_crossMultiply (decimal : ℕ) (scale : ℤ) (quarters : ℕ) (exponent : ℤ) :
    ∃ factor : ℚ, 0 < factor ∧
      ((crossMultiply decimal scale quarters exponent).1 : ℚ) = decimal * 10 ^ scale * factor ∧
      ((crossMultiply decimal scale quarters exponent).2 : ℚ) =
        quarters * 2 ^ (exponent - 2) * factor := by
  obtain ⟨ten, tenPos⟩ := cast_ratioPower (show 0 < 10 by decide) scale
  obtain ⟨two, twoPos⟩ := cast_ratioPower (show 0 < 2 by decide) (exponent - 2)
  refine ⟨(ratioPower 10 scale).2 * (ratioPower 2 (exponent - 2)).2, by positivity, ?_, ?_⟩
  · simp only [crossMultiply]
    push_cast at ten ⊢
    rw [ten]
    ring
  · simp only [crossMultiply]
    push_cast at two ⊢
    rw [two]
    ring

namespace Binary

def value (number : Binary) : ℚ :=
  number.mantissa * 2 ^ number.exponent

/-- Quarters of the last place. -/
def quarters (number : Binary) (count : ℕ) : ℚ :=
  count * 2 ^ (number.exponent - 2)

theorem quarters_four_mul (number : Binary) (count : ℕ) :
    number.quarters (4 * count) = count * 2 ^ number.exponent := by
  rw [quarters, zpow_sub₀ two_ne_zero]
  push_cast
  ring

variable {number : Binary} {decimal count : ℕ} {scale : ℤ}

theorem cross_le_iff :
    (crossMultiply decimal scale count number.exponent).1 ≤
        (crossMultiply decimal scale count number.exponent).2 ↔
      decimal * 10 ^ scale ≤ number.quarters count := by
  obtain ⟨factor, pos, left, right⟩ := exists_crossMultiply decimal scale count number.exponent
  rw [← Nat.cast_le (α := ℚ), left, right, mul_le_mul_iff_left₀ pos, quarters]

theorem cross_ge_iff :
    (crossMultiply decimal scale count number.exponent).2 ≤
        (crossMultiply decimal scale count number.exponent).1 ↔
      number.quarters count ≤ decimal * 10 ^ scale := by
  obtain ⟨factor, pos, left, right⟩ := exists_crossMultiply decimal scale count number.exponent
  rw [← Nat.cast_le (α := ℚ), left, right, mul_le_mul_iff_left₀ pos, quarters]

/-- The number of units that a scale fits into a number. -/
theorem le_floorAt_iff : decimal ≤ number.floorAt scale ↔ decimal * 10 ^ scale ≤ number.value := by
  have unit : (0 : ℚ) < 10 ^ scale := by positivity
  obtain ⟨factor, pos, left, right⟩ :=
    exists_crossMultiply 1 scale (4 * number.mantissa) number.exponent
  have positive : 0 < (crossMultiply 1 scale (4 * number.mantissa) number.exponent).1 := by
    rw [← Nat.cast_pos (α := ℚ), left]
    positivity
  have whole := number.quarters_four_mul number.mantissa
  rw [quarters] at whole
  unfold floorAt
  dsimp only
  rw [Nat.le_div_iff_mul_le positive, ← Nat.cast_le (α := ℚ), Nat.cast_mul, left, right, whole,
    ← mul_assoc, mul_le_mul_iff_left₀ pos, Nat.cast_one, one_mul, value]

theorem floorAt_pos_iff : 0 < number.floorAt scale ↔ 10 ^ scale ≤ number.value := by
  have unit := @le_floorAt_iff number 1 scale
  rwa [Nat.cast_one, one_mul, Nat.one_le_iff_ne_zero, ← Nat.pos_iff_ne_zero] at unit

theorem lt_floorAt_succ (number : Binary) (scale : ℤ) :
    number.value < (number.floorAt scale + 1 : ℕ) * 10 ^ scale := by
  rw [← not_le, ← le_floorAt_iff]
  omega

theorem floorAt_le (number : Binary) (scale : ℤ) :
    number.floorAt scale * 10 ^ scale ≤ number.value :=
  le_floorAt_iff.1 le_rfl

/-- Rounding to a number: a decimal lies between the ends of an interval, which belong to it when
the mantissa is even. -/
theorem roundsFrom_iff : number.roundsFrom decimal scale = true ↔
    number.quarters number.lowerQuarters ≤ decimal * 10 ^ scale ∧
      decimal * 10 ^ scale ≤ number.quarters (4 * number.mantissa + 2) ∧
      (number.mantissa % 2 = 1 →
        number.quarters number.lowerQuarters < decimal * 10 ^ scale ∧
          decimal * 10 ^ scale < number.quarters (4 * number.mantissa + 2)) := by
  unfold roundsFrom
  dsimp only
  split
  · next even =>
    rw [Bool.and_eq_true, decide_eq_true_iff, decide_eq_true_iff, cross_ge_iff, cross_le_iff]
    simp [even]
  · next odd =>
    rw [Bool.and_eq_true, decide_eq_true_iff, decide_eq_true_iff, ← Nat.not_le, ← Nat.not_le,
      cross_ge_iff, cross_le_iff, not_le, not_le]
    constructor
    · intro h
      exact ⟨h.1.le, h.2.le, fun _ ↦ h⟩
    · intro h
      exact h.2.2 (by omega)

/-- Nothing rounds from zero. -/
theorem roundsFrom_zero (pos : 0 < number.mantissa) (scale : ℤ) :
    number.roundsFrom 0 scale = false := by
  have count : 0 < number.lowerQuarters := by
    unfold lowerQuarters
    split <;> omega
  have lower : 0 < number.quarters number.lowerQuarters := by
    unfold quarters
    positivity
  rw [Bool.eq_false_iff, ne_eq, roundsFrom_iff, Nat.cast_zero, zero_mul]
  rintro ⟨le, -⟩
  linarith

/-- Whatever is found at a scale rounds to the number and is not far above it. -/
theorem roundsFrom_of_nearestAt? (found : number.nearestAt? scale = some decimal) :
    number.roundsFrom decimal scale = true ∧ decimal ≤ number.floorAt scale + 1 := by
  unfold nearestAt? at found
  dsimp only at found
  split at found
  · next below _ =>
    obtain rfl := Option.some.inj found
    exact ⟨below, Nat.le_succ _⟩
  · next _ above =>
    obtain rfl := Option.some.inj found
    exact ⟨above, Nat.le_refl _⟩
  · cases found
  · next below above =>
    have either : number.floorAt scale = decimal ∨ number.floorAt scale + 1 = decimal := by
      split at found
      · exact .inl (Option.some.inj found)
      split at found
      · exact .inr (Option.some.inj found)
      split at found
      · exact .inl (Option.some.inj found)
      · exact .inr (Option.some.inj found)
    rcases either with rfl | rfl
    · exact ⟨below, Nat.le_succ _⟩
    · exact ⟨above, Nat.le_refl _⟩

/-- Whatever is found at a scale is positive. -/
theorem nearestAt?_pos (pos : 0 < number.mantissa)
    (found : number.nearestAt? scale = some decimal) : 0 < decimal := by
  rcases Nat.eq_zero_or_pos decimal with rfl | positive
  · have rounds := (roundsFrom_of_nearestAt? found).1
    rw [roundsFrom_zero pos] at rounds
    exact absurd rounds Bool.false_ne_true
  · exact positive

/-- Where nothing is found neither of the decimals around the number rounds to it. -/
theorem roundsFrom_of_nearestAt?_eq_none (failed : number.nearestAt? scale = none) :
    number.roundsFrom (number.floorAt scale) scale = false ∧
      number.roundsFrom (number.floorAt scale + 1) scale = false := by
  unfold nearestAt? at failed
  dsimp only at failed
  split at failed
  · cases failed
  · cases failed
  · next below above => exact ⟨below, above⟩
  · split at failed
    · cases failed
    split at failed
    · cases failed
    split at failed <;> cases failed

end Binary

end SpanScore.Decimal
