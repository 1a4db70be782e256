import Mathlib.Algebra.Order.Field.Power
import Mathlib.Data.Rat.Cast.Order
import Mathlib.Order.Monotone.Basic
import Mathlib.Tactic.Linarith
import Mathlib.Tactic.Positivity
import Mathlib.Tactic.Ring

/-!
# Places of doubles

The doubles that are not negative stand in one row: zero at place zero, then one after the other in
increasing order, as if their exponents had no upper bound.  The place of a double is the number
that its bits spell without the sign, so doubles are as far apart as their places are.

A number is rounded to the place of the nearest double, a tie going to the even place.  Rounding in
this form is monotone, and it leaves a double where it is.
-/

namespace SpanScore.Double

def significand (place : ℕ) : ℕ :=
  if place < 2 ^ 52 then place else 2 ^ 52 + place % 2 ^ 52

def exponent (place : ℕ) : ℤ :=
  if place < 2 ^ 52 then -1074 else (place / 2 ^ 52 : ℕ) - 1075

/-- The double at a place. -/
def value (place : ℕ) : ℚ :=
  significand place * 2 ^ exponent place

/-! ## Binades -/

/-- Up to its upper end, a binade has its doubles at equal distances. -/
theorem value_scaled {binade step : ℕ} (low : binade = 0 ∨ 2 ^ 52 ≤ step) (high : step ≤ 2 ^ 53) :
    value (binade * 2 ^ 52 + step) = step * 2 ^ (binade - 1074 : ℤ) := by
  unfold value significand exponent
  rcases Nat.lt_or_ge step (2 ^ 52) with subnormal | normal
  · obtain rfl : binade = 0 := by omega
    rw [if_pos (by omega), if_pos (by omega), Nat.zero_mul, Nat.zero_add]
    rfl
  · rw [if_neg (by omega), if_neg (by omega)]
    rcases Nat.lt_or_ge step (2 ^ 53) with within | full
    · rw [show 2 ^ 52 + (binade * 2 ^ 52 + step) % 2 ^ 52 = step by omega,
        show (binade * 2 ^ 52 + step) / 2 ^ 52 = binade + 1 by omega]
      push_cast
      ring_nf
    · obtain rfl : step = 2 ^ 53 := by omega
      rw [show 2 ^ 52 + (binade * 2 ^ 52 + 2 ^ 53) % 2 ^ 52 = 2 ^ 52 by omega,
        show (binade * 2 ^ 52 + 2 ^ 53) / 2 ^ 52 = binade + 2 by omega]
      push_cast
      rw [show (binade + 2 - 1075 : ℤ) = 1 + (binade - 1074) by ring, zpow_add₀ (by norm_num)]
      ring

/-- The first double of a binade is a power of two. -/
theorem value_binade {binade : ℕ} (positive : 0 < binade) :
    value (binade * 2 ^ 52) = 2 ^ (binade - 1023 : ℤ) := by
  obtain ⟨before, rfl⟩ := Nat.exists_eq_succ_of_ne_zero positive.ne'
  have scaled := @value_scaled before (2 ^ 52) (.inr le_rfl) (by decide)
  rw [Nat.succ_eq_add_one, Nat.add_mul, Nat.one_mul, scaled, Nat.cast_pow, Nat.cast_ofNat,
    ← zpow_natCast, ← zpow_add₀ two_ne_zero]
  congr 1
  push_cast
  ring

theorem exists_binade (place : ℕ) :
    ∃ binade step, place = binade * 2 ^ 52 + step ∧ (binade = 0 ∨ 2 ^ 52 ≤ step) ∧
      step < 2 ^ 53 := by
  rcases Nat.lt_or_ge place (2 ^ 52) with subnormal | normal
  · exact ⟨0, place, by omega, .inl rfl, by omega⟩
  · exact ⟨place / 2 ^ 52 - 1, 2 ^ 52 + place % 2 ^ 52, by omega, .inr (by omega), by omega⟩

theorem value_nonneg (place : ℕ) : 0 ≤ value place := by
  unfold value
  positivity

theorem value_lt_succ (place : ℕ) : value place < value (place + 1) := by
  obtain ⟨binade, step, rfl, low, high⟩ := exists_binade place
  have unit : (0 : ℚ) < 2 ^ (binade - 1074 : ℤ) := by positivity
  rw [Nat.add_assoc, value_scaled low (by omega), value_scaled (by omega) (by omega)]
  push_cast
  linarith

theorem value_strictMono : StrictMono value :=
  strictMono_nat_of_lt_succ value_lt_succ

@[simp] theorem value_zero : value 0 = 0 := by
  simp [value, significand]

/-! ## Rounding -/

/-- Twice the midpoint between a double and the next one. -/
def midpoint (place : ℕ) : ℚ :=
  value place + value (place + 1)

theorem midpoint_strictMono : StrictMono midpoint :=
  strictMono_nat_of_lt_succ fun place ↦
    add_lt_add (value_lt_succ place) (value_lt_succ (place + 1))

/-- A number is rounded to a place: no midpoint lies between the two, and a midpoint itself is
rounded to the even place. -/
structure RoundsTo (number : ℚ) (place : ℕ) : Prop where
  upper : 2 * number ≤ midpoint place
  upper_of_odd : place % 2 = 1 → 2 * number < midpoint place
  lower : ∀ below < place, midpoint below ≤ 2 * number
  lower_of_odd : place % 2 = 1 → ∀ below < place, midpoint below < 2 * number

namespace RoundsTo

variable {left right : ℚ} {leftPlace rightPlace : ℕ}

/-- It is enough to look at the midpoint just below a place. -/
theorem of_pred {number : ℚ} {place : ℕ} (upper : 2 * number ≤ midpoint place)
    (upper_of_odd : place % 2 = 1 → 2 * number < midpoint place)
    (lower : ∀ below, below + 1 = place → midpoint below ≤ 2 * number)
    (lower_of_odd : place % 2 = 1 → ∀ below, below + 1 = place → midpoint below < 2 * number) :
    RoundsTo number place where
  upper := upper
  upper_of_odd := upper_of_odd
  lower below lt := by
    have last := lower (place - 1) (by omega)
    exact le_trans (midpoint_strictMono.monotone (by omega)) last
  lower_of_odd odd below lt := by
    have last := lower_of_odd odd (place - 1) (by omega)
    exact lt_of_le_of_lt (midpoint_strictMono.monotone (by omega)) last

/-- Rounding is monotone: two numbers out of order would be one midpoint, and its two neighbours are
not both even. -/
theorem mono (h : RoundsTo left leftPlace) (h' : RoundsTo right rightPlace) (le : left ≤ right) :
    leftPlace ≤ rightPlace := by
  by_contra lt
  have below := h.lower rightPlace (by omega)
  have above := h'.upper
  rcases Nat.mod_two_eq_zero_or_one rightPlace with even | odd
  · rcases Nat.mod_two_eq_zero_or_one leftPlace with even' | odd'
    · have next := h.lower (rightPlace + 1) (by omega)
      have longer := midpoint_strictMono (Nat.lt_succ_self rightPlace)
      simp only [Nat.succ_eq_add_one] at longer
      linarith
    · have strict := h.lower_of_odd odd' rightPlace (by omega)
      linarith
  · have strict := h'.upper_of_odd odd
    linarith

theorem unique {number : ℚ} (h : RoundsTo number leftPlace) (h' : RoundsTo number rightPlace) :
    leftPlace = rightPlace :=
  Nat.le_antisymm (h.mono h' le_rfl) (h'.mono h le_rfl)

/-- A double is rounded to itself. -/
theorem value (place : ℕ) : RoundsTo (value place) place := by
  have above := value_lt_succ place
  refine of_pred ?_ (fun _ ↦ ?_) ?_ fun _ ↦ ?_
  · rw [midpoint]
    linarith
  · rw [midpoint]
    linarith
  · rintro below rfl
    have longer := value_lt_succ below
    rw [midpoint]
    linarith
  · rintro below rfl
    have longer := value_lt_succ below
    rw [midpoint]
    linarith

theorem zero : RoundsTo 0 0 := by
  simpa using value 0

theorem eq_zero {place : ℕ} (h : RoundsTo 0 place) : place = 0 :=
  h.unique zero

theorem le_of_le_value {number : ℚ} {place bound : ℕ} (h : RoundsTo number place)
    (le : number ≤ Double.value bound) : place ≤ bound :=
  h.mono (value bound) le

theorem le_of_value_le {number : ℚ} {place bound : ℕ} (h : RoundsTo number place)
    (le : Double.value bound ≤ number) : bound ≤ place :=
  (value bound).mono h le

theorem le_of_lt_midpoint {number : ℚ} {place bound : ℕ} (h : RoundsTo number place)
    (lt : 2 * number < midpoint bound) : place ≤ bound := by
  by_contra above
  have least := h.lower bound (by omega)
  linarith

end RoundsTo

/-! ## Steps of a scale -/

/-- Rounding to the nearest whole number, a tie going to the even one. -/
structure NearestStep (number : ℚ) (step : ℕ) : Prop where
  upper : 2 * number ≤ 2 * step + 1
  lower : 2 * step - 1 ≤ 2 * number
  upper_of_odd : step % 2 = 1 → 2 * number < 2 * step + 1
  lower_of_odd : step % 2 = 1 → 2 * step - 1 < 2 * number

theorem NearestStep.le_step {number : ℚ} {step : ℕ} (h : NearestStep number step)
    (least : 2 ^ 52 ≤ number) : 2 ^ 52 ≤ step := by
  have upper := h.upper
  have bound : (2 ^ 53 : ℚ) < 2 * step + 2 := by linarith
  norm_cast at bound
  omega

theorem NearestStep.step_le {number : ℚ} {step : ℕ} (h : NearestStep number step)
    (high : number < 2 ^ 53) : step ≤ 2 ^ 53 := by
  have lower := h.lower
  have bound : (2 * step : ℚ) < 2 ^ 54 + 1 := by linarith
  norm_cast at bound
  omega

/-- Within a binade the midpoints lie half a step behind the doubles. -/
theorem midpoint_scaled {binade step : ℕ} (low : binade = 0 ∨ 2 ^ 52 ≤ step)
    (high : step < 2 ^ 53) :
    midpoint (binade * 2 ^ 52 + step) = (2 * step + 1) * 2 ^ (binade - 1074 : ℤ) := by
  rw [midpoint, Nat.add_assoc, value_scaled low (by omega), value_scaled (by omega) (by omega)]
  push_cast
  ring

/-- The first double of a binade is the last one of the binade before. -/
theorem scaled_succ (binade : ℕ) :
    (binade + 1) * 2 ^ 52 + 2 ^ 52 = binade * 2 ^ 52 + 2 ^ 53 := by
  omega

theorem le_midpoint_scaled {binade step : ℕ} (low : binade = 0 ∨ 2 ^ 52 ≤ step)
    (high : step ≤ 2 ^ 53) :
    (2 * step + 1) * 2 ^ (binade - 1074 : ℤ) ≤ midpoint (binade * 2 ^ 52 + step) := by
  rcases Nat.lt_or_ge step (2 ^ 53) with within | full
  · exact (midpoint_scaled low within).ge
  · obtain rfl : step = 2 ^ 53 := by omega
    have unit : (0 : ℚ) < 2 ^ (binade - 1074 : ℤ) := by positivity
    rw [← scaled_succ, midpoint_scaled (.inr (by omega)) (by omega),
      show ((binade + 1 : ℕ) - 1074 : ℤ) = 1 + (binade - 1074) by push_cast; ring,
      zpow_add₀ (by norm_num)]
    push_cast
    nlinarith

/-- The midpoint below a double that is not the first of its binade. -/
theorem midpoint_pred_scaled {binade step below : ℕ} (low : binade = 0 ∨ 2 ^ 52 < step)
    (high : step ≤ 2 ^ 53) (pred : below + 1 = binade * 2 ^ 52 + step) :
    midpoint below = (2 * step - 1) * 2 ^ (binade - 1074 : ℤ) := by
  rcases Nat.eq_zero_or_pos step with rfl | pos
  · omega
  · obtain rfl : below = binade * 2 ^ 52 + (step - 1) := by omega
    rw [midpoint_scaled (by omega) (by omega)]
    push_cast [Nat.cast_sub pos]
    ring

/-- The midpoint below the first double of a binade. -/
theorem midpoint_pred_first {binade below : ℕ} (positive : binade ≠ 0)
    (pred : below + 1 = binade * 2 ^ 52 + 2 ^ 52) :
    midpoint below = (2 ^ 53 - 1 / 2) * 2 ^ (binade - 1074 : ℤ) := by
  obtain ⟨before, rfl⟩ := Nat.exists_eq_succ_of_ne_zero positive
  simp only [Nat.succ_eq_add_one] at pred ⊢
  rw [midpoint_pred_scaled (.inr (by omega)) (by omega) (pred.trans (scaled_succ before)),
    show ((before + 1 : ℕ) - 1074 : ℤ) = 1 + (before - 1074) by push_cast; ring,
    zpow_add₀ (by norm_num)]
  push_cast
  ring

/-- Within a binade rounding is rounding to a step of its scale. -/
theorem roundsTo_of_nearestStep {number : ℚ} {binade step : ℕ}
    (nearest : NearestStep number step) (low : binade = 0 ∨ 2 ^ 52 ≤ number)
    (high : number < 2 ^ 53) :
    RoundsTo (number * 2 ^ (binade - 1074 : ℤ)) (binade * 2 ^ 52 + step) := by
  have unit : (0 : ℚ) < 2 ^ (binade - 1074 : ℤ) := by positivity
  have stepLow : binade = 0 ∨ 2 ^ 52 ≤ step := low.imp_right nearest.le_step
  have stepHigh : step ≤ 2 ^ 53 := nearest.step_le high
  have above := le_midpoint_scaled stepLow stepHigh
  have parity : (binade * 2 ^ 52 + step) % 2 = 1 → step % 2 = 1 := by omega
  refine RoundsTo.of_pred ?_ (fun odd ↦ ?_) ?_ fun odd ↦ ?_
  · have upper := mul_le_mul_of_nonneg_right nearest.upper unit.le
    linarith
  · have upper := mul_lt_mul_of_pos_right (nearest.upper_of_odd (parity odd)) unit
    linarith
  all_goals
    intro below pred
    by_cases first : binade ≠ 0 ∧ step = 2 ^ 52
    · rw [first.2] at pred
      have least := mul_le_mul_of_nonneg_right (low.resolve_left first.1) unit.le
      rw [midpoint_pred_first first.1 pred]
      linarith
    rw [midpoint_pred_scaled (by omega) stepHigh pred]
  · have lower := mul_le_mul_of_nonneg_right nearest.lower unit.le
    linarith
  · have lower := mul_lt_mul_of_pos_right (nearest.lower_of_odd (parity odd)) unit
    linarith

end SpanScore.Double
