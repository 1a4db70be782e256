import SpanScore.Proofs.Double.Amounts

/-!
# Doubles between zero and one

Zero has the share zero of every positive double, one is the neutral factor, a product with a factor
up to one does not exceed the other factor, and what a share leaves of one is a share again.
-/

namespace SpanScore.Double

open Float.Model Float.Model.UnpackedFloat

variable {x y : Float}

/-- Zero has the share zero of every positive double, of infinity, too. -/
theorem zero_div_of_pos (pos : 0 < y) : 0 / y = 0 := by
  obtain ⟨b, within, positive, rfl⟩ := exists_place_of_pos pos
  rw [zero_eq]
  rcases Nat.lt_or_ge b infinityPlace with finite | infinite
  · obtain ⟨place, rounds, quotient_eq⟩ :=
      exists_div_signed .positive .positive (by decide : 0 < infinityPlace) finite positive
    rw [value_zero, zero_div, ← value_zero] at rounds
    rw [quotient_eq, rounds.unique (.value 0)]
    rfl
  · exact div_signed_of_le _ _ (by decide) infinite

theorem mul_one_of_isFinite (finite : x.isFinite = true) : x * 1 = x := by
  obtain ⟨sign, a, ha, rfl⟩ := exists_signed_of_isFinite finite
  obtain ⟨place, rounds, product_eq⟩ :=
    exists_mul_signed sign .positive ha (by decide : onePlace < infinityPlace)
  rw [value_onePlace, mul_one] at rounds
  rw [one_eq, product_eq, rounds.unique (.value a)]
  cases sign <;> rfl

/-- A product with a factor up to one does not exceed the other factor. -/
theorem mul_mem_of_unit (low : 0 ≤ x) (finite : x.isFinite = true) (low' : 0 ≤ y) (high' : y ≤ 1) :
    0 ≤ x * y ∧ x * y ≤ x := by
  have small := isFinite_of_unit low' high'
  obtain ⟨left, a, -, rfl, nonneg⟩ := exists_place_of_nonneg low
  obtain ⟨right, b, hb, rfl, nonneg'⟩ := exists_place_of_nonneg low'
  rw [isFinite_signed] at finite small
  obtain ⟨place, rounds, product_eq⟩ := exists_mul_signed left right finite small
  have factor : b ≤ onePlace := by
    rw [one_eq] at high'
    exact place_le_of_signed_le nonneg' (.inl rfl) hb (by decide) high'
  have le_one : value b ≤ 1 := by
    rw [← value_onePlace]
    exact value_strictMono.monotone factor
  have bound : place ≤ a :=
    rounds.le_of_le_value (mul_le_of_le_one_right (value_nonneg a) le_one)
  have nonneg_product : left * right = .positive ∨ place = 0 := by
    rcases nonneg with rfl | rfl
    · rcases nonneg' with rfl | rfl
      · exact .inl rfl
      · rw [value_zero, mul_zero, ← value_zero] at rounds
        exact .inr (rounds.unique (.value 0))
    · exact .inr (by omega)
  rw [product_eq]
  exact ⟨zero_le_signed nonneg_product, signed_le_signed nonneg_product nonneg bound⟩

/-- What a share leaves of one is a share. -/
theorem one_sub_mem (low : 0 ≤ x) (high : x ≤ 1) : 0 ≤ 1 - x ∧ 1 - x ≤ 1 := by
  obtain ⟨sign, b, hb, rfl, nonneg⟩ := exists_place_of_nonneg low
  have positive : 0 < onePlace ∧ onePlace < infinityPlace := by decide
  rw [one_eq] at high ⊢
  have le : b ≤ onePlace := place_le_of_signed_le nonneg (.inl rfl) hb positive.2.le high
  obtain ⟨place, difference_eq, bound⟩ : ∃ place,
      signed .positive onePlace - signed sign b = signed .positive place ∧ place ≤ onePlace := by
    rcases Nat.eq_zero_or_pos b with rfl | pos
    · exact ⟨onePlace, by cases sign <;> rfl, le_rfl⟩
    · obtain rfl : sign = .positive := nonneg.resolve_right pos.ne'
      obtain ⟨sign, place, sign_eq, rounds, difference_eq⟩ :=
        exists_sub_of_pos positive.1 pos positive.2 (by omega)
      refine ⟨place, by rw [difference_eq, sign_eq le], rounds.le_of_le_value ?_⟩
      have le_value := value_strictMono.monotone le
      have nonneg_value := value_nonneg b
      rw [abs_of_nonneg (by linarith)]
      linarith
  rw [difference_eq]
  exact ⟨zero_le_signed (.inl rfl), signed_le_signed (.inl rfl) (.inl rfl) bound⟩

end SpanScore.Double
