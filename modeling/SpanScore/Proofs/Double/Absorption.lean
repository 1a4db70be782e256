import SpanScore.Proofs.Double.Amounts
import SpanScore.Proofs.Double.Powers

/-!
# Absorption

A double that is `2 ^ 54` times another one absorbs it: it is so coarse that their sum is rounded
back to it.  A sum from left to right therefore stops growing, and however many terms it has, it
stays below `2 ^ 54` times a bound on each of them.
-/

namespace SpanScore.Double

/-- The double at a place, `bits` binades up. -/
theorem exists_value_eq_mul (place : ℕ) (bits : ℕ) :
    ∃ raised, value raised = 2 ^ bits * value place := by
  have least := le_exponent place
  obtain ⟨raised, raised_eq⟩ := exists_value_eq (significand_lt place)
    (show -1074 ≤ exponent place + bits by omega)
  refine ⟨raised, ?_⟩
  rw [raised_eq, value, zpow_add₀ two_ne_zero, zpow_natCast]
  ring

/-- The double at a place, `bits` binades down, where there are as many below it. -/
theorem exists_value_mul_eq {place bits : ℕ} (room : bits ≤ exponent place + 1074) :
    ∃ lowered, 2 ^ bits * value lowered = value place := by
  obtain ⟨lowered, lowered_eq⟩ := exists_value_eq (significand_lt place)
    (show -1074 ≤ exponent place - bits by omega)
  have power : (2 : ℚ) ^ bits ≠ 0 := by positivity
  refine ⟨lowered, ?_⟩
  rw [lowered_eq, value, zpow_sub₀ two_ne_zero, zpow_natCast]
  field_simp

/-- What is added is less than half of a step of the greater double. -/
theorem roundsTo_of_absorbs {small great : ℕ} (pos : 0 < small)
    (great_eq : value great = 2 ^ 54 * value small) :
    RoundsTo (value great + value small) great := by
  have small_pos := value_pos pos
  have above : 2 * (value great + value small) < midpoint great := by
    obtain ⟨binade, step, rfl, low, high⟩ := exists_binade great
    have unit : (0 : ℚ) < 2 ^ (binade - 1074 : ℤ) := by positivity
    have few : (step : ℚ) < 2 ^ 53 := by exact_mod_cast high
    have product := mul_lt_mul_of_pos_right few unit
    rw [midpoint_scaled low high]
    rw [value_scaled low high.le] at great_eq ⊢
    linarith
  have below (place : ℕ) (lt : place < great) :
      midpoint place < 2 * (value great + value small) := by
    have first := value_strictMono lt
    have second := value_strictMono.monotone (Nat.succ_le_of_lt lt)
    rw [midpoint]
    simp only [Nat.succ_eq_add_one] at second
    linarith
  exact ⟨above.le, fun _ ↦ above, fun place lt ↦ (below place lt).le, fun _ ↦ below⟩

/-- A double absorbs one that is `2 ^ 54` times smaller. -/
theorem add_eq_of_absorbs {small great : ℕ} (pos : 0 < small)
    (great_eq : value great = 2 ^ 54 * value small) :
    signed .positive great + signed .positive small = signed .positive great := by
  have great_pos : 0 < great := by
    rw [← value_strictMono.lt_iff_lt, value_zero, great_eq]
    exact mul_pos (by positivity) (value_pos pos)
  obtain ⟨place, rounds, sum_eq⟩ := exists_add_of_pos great_pos pos
  rw [sum_eq, rounds.unique (roundsTo_of_absorbs pos great_eq)]

/-- A sum does not grow beyond a double that absorbs each of its terms. -/
theorem foldl_add_le_of_absorbs {values : List Float} {start part bound : Float}
    (absorbs : bound + part = bound) (low : 0 ≤ start) (start_le : start ≤ bound)
    (le : ∀ value ∈ values, 0 ≤ value ∧ value ≤ part) :
    values.foldl (· + ·) start ≤ bound := by
  induction values generalizing start with
  | nil => exact start_le
  | cons first rest ih =>
    rw [List.forall_mem_cons] at le
    refine ih (add_nonneg low le.1.1) ?_ le.2
    rw [← absorbs]
    exact Double.add_le_add low le.1.1 start_le le.1.2

end SpanScore.Double
