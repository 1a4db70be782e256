import SpanScore.Proofs.Double.Order

/-!
# Results that are no numbers

What is no number stays so in every operation.  An operation on numbers has no number as its result
only where two infinities cancel, where zero meets infinity in a product, and where both sides of a
quotient are infinite or both zero.
-/

namespace SpanScore.Double

open Float.Model Float.Model.UnpackedFloat

/-- What is no number stays so. -/
theorem isNaN_of_operand {x y : Float} (not : x.isNaN = true ∨ y.isNaN = true) :
    (x + y).isNaN = true ∧ (x - y).isNaN = true ∧ (x * y).isNaN = true ∧
      (x / y).isNaN = true := by
  change (packed (UnpackedFloat.add _ (unpacked x) (unpacked y))).isNaN = true ∧
    (packed (UnpackedFloat.sub _ (unpacked x) (unpacked y))).isNaN = true ∧
    (packed (UnpackedFloat.mul _ (unpacked x) (unpacked y))).isNaN = true ∧
    (packed (UnpackedFloat.div _ (unpacked x) (unpacked y))).isNaN = true
  change (unpacked x).isNaN = true ∨ (unpacked y).isNaN = true at not
  simp only [isNaN_packed]
  generalize unpacked x = left at not ⊢
  generalize unpacked y = right at not ⊢
  rcases not with not | not
  · cases left <;> cases not
    exact ⟨rfl, rfl, rfl, rfl⟩
  · cases right <;> cases not
    cases left <;> exact ⟨rfl, rfl, rfl, rfl⟩

theorem ne_one_of_isNaN {x : Float} (not : x.isNaN = true) : x ≠ 1 := by
  rintro rfl
  exact absurd not (by decide)

/-- The summands of a number are numbers. -/
theorem isNaN_eq_false_of_add {x y : Float} (number : (x + y).isNaN = false) :
    x.isNaN = false ∧ y.isNaN = false := by
  rw [← Bool.not_eq_true, ← Bool.not_eq_true, ← not_or]
  exact fun not ↦ Bool.eq_false_iff.1 number (isNaN_of_operand not).1

@[simp] theorem isNaN_abs (x : Float) : x.abs.isNaN = x.isNaN := by
  change (packed (unpacked x).abs).isNaN = (unpacked x).isNaN
  rw [isNaN_packed]
  cases unpacked x <;> rfl

@[simp] theorem isInf_abs (x : Float) : x.abs.isInf = x.isInf := by
  rcases isNaN_or_exists_signed x with not | ⟨sign, place, -, rfl⟩
  · have infinite (y : Float) (not : y.isNaN = true) : y.isInf = false := by
      change (unpacked y).isNaN = true at not
      change (unpacked y).isInf = false
      generalize unpacked y = view at not ⊢
      cases view <;> cases not
      rfl
    rw [infinite x not, infinite x.abs (by rwa [isNaN_abs])]
  · rw [abs_signed, Bool.eq_iff_iff, isInf_signed, isInf_signed]

/-- A difference is finite only when both sides are. -/
theorem isFinite_of_sub {x y : Float} (finite : (x - y).isFinite = true) :
    x.isFinite = true ∧ y.isFinite = true := by
  change (packed (UnpackedFloat.sub _ (unpacked x) (unpacked y))).isFinite = true at finite
  change (unpacked x).isFinite = true ∧ (unpacked y).isFinite = true
  have proper : ∀ number, (packed number).isFinite = true → number.isFinite = true := by
    intro number finite
    cases number with
    | notANumber => exact finite
    | infinity sign =>
      rw [packed_infinity, isFinite_signed] at finite
      exact absurd finite (lt_irrefl _)
    | zero sign => rfl
    | finite sign mantissa exponent pos => rfl
  have finite := proper _ finite
  generalize unpacked x = left at finite ⊢
  generalize unpacked y = right at finite ⊢
  cases left with
  | notANumber => cases finite
  | infinity sign => cases right with
    | infinity sign' => cases sign <;> cases sign' <;> cases finite
    | _ => cases finite
  | _ => cases right with
    | notANumber => cases finite
    | infinity sign => cases finite
    | _ => exact ⟨rfl, rfl⟩

/-! ## Operations on numbers -/

/-- Rounding always gives a number. -/
@[simp] theorem isNaN_roundWithAccuracy (spec : Format) (sign : Sign) (mantissa : ℕ)
    (exponent : ℤ) (accuracy : Accuracy) :
    (roundWithAccuracy spec sign mantissa exponent accuracy).isNaN = false := by
  rcases roundWithAccuracy_cases spec mantissa exponent accuracy with zero | ⟨_, _, _, finite⟩
  · rw [zero]
    rfl
  · rw [finite]
    rfl

@[simp] theorem isNaN_normalize (spec : Format) (mantissa exponent : ℤ) (zeroSign : Sign) :
    (UnpackedFloat.normalize spec mantissa exponent zeroSign).isNaN = false := by
  unfold UnpackedFloat.normalize UnpackedFloat.round
  split
  · exact isNaN_roundWithAccuracy ..
  · rfl
  · exact isNaN_roundWithAccuracy ..

section

variable (left right : Sign) {a b : ℕ} (ha : a ≤ infinityPlace) (hb : b ≤ infinityPlace)

include ha hb

theorem isNaN_sub_signed_iff :
    (signed left a - signed right b).isNaN = true ↔
      a = infinityPlace ∧ b = infinityPlace ∧ left = right := by
  have positive : 0 < infinityPlace := by decide
  change (packed (UnpackedFloat.sub _ (unpacked (signed left a))
    (unpacked (signed right b)))).isNaN = true ↔ _
  rw [isNaN_packed]
  rcases unpacked_cases left ha with ⟨place, eq⟩ | ⟨_, _, _, eq⟩ | ⟨place, eq⟩ <;>
    rcases unpacked_cases right hb with ⟨place', eq'⟩ | ⟨_, _, _, eq'⟩ | ⟨place', eq'⟩ <;>
    rw [eq, eq']
  case inr.inl.inr.inl =>
    exact iff_of_false (Bool.eq_false_iff.1 (isNaN_normalize ..)) (by omega)
  case inr.inr.inr.inr =>
    cases left <;> cases right <;>
      first
      | exact iff_of_true rfl ⟨place, place', rfl⟩
      | exact iff_of_false Bool.false_ne_true fun h ↦ Sign.noConfusion h.2.2
  all_goals cases left <;> cases right <;> exact iff_of_false Bool.false_ne_true (by omega)

theorem isNaN_mul_signed_iff :
    (signed left a * signed right b).isNaN = true ↔
      a = infinityPlace ∧ b = 0 ∨ a = 0 ∧ b = infinityPlace := by
  have positive : 0 < infinityPlace := by decide
  change (packed (UnpackedFloat.mul _ (unpacked (signed left a))
    (unpacked (signed right b)))).isNaN = true ↔ _
  rw [isNaN_packed]
  rcases unpacked_cases left ha with ⟨place, eq⟩ | ⟨_, _, _, eq⟩ | ⟨place, eq⟩ <;>
    rcases unpacked_cases right hb with ⟨place', eq'⟩ | ⟨_, _, _, eq'⟩ | ⟨place', eq'⟩ <;>
    rw [eq, eq']
  case inr.inl.inr.inl =>
    exact iff_of_false (Bool.eq_false_iff.1 (isNaN_roundWithAccuracy ..)) (by omega)
  all_goals
    first
    | exact iff_of_true rfl (by omega)
    | exact iff_of_false Bool.false_ne_true (by omega)

theorem isNaN_div_signed_iff :
    (signed left a / signed right b).isNaN = true ↔
      a = infinityPlace ∧ b = infinityPlace ∨ a = 0 ∧ b = 0 := by
  have positive : 0 < infinityPlace := by decide
  change (packed (UnpackedFloat.div _ (unpacked (signed left a))
    (unpacked (signed right b)))).isNaN = true ↔ _
  rw [isNaN_packed]
  rcases unpacked_cases left ha with ⟨place, eq⟩ | ⟨_, _, _, eq⟩ | ⟨place, eq⟩ <;>
    rcases unpacked_cases right hb with ⟨place', eq'⟩ | ⟨_, _, _, eq'⟩ | ⟨place', eq'⟩ <;>
    rw [eq, eq']
  case inr.inl.inr.inl =>
    exact iff_of_false (Bool.eq_false_iff.1 (isNaN_roundWithAccuracy ..)) (by omega)
  all_goals
    first
    | exact iff_of_true rfl (by omega)
    | exact iff_of_false Bool.false_ne_true (by omega)

end

/-! ## All doubles -/

theorem beq_zero_signed (sign : Sign) {place : ℕ} (h : place ≤ infinityPlace) :
    (signed sign place == 0) = true ↔ place = 0 := by
  rw [zero_eq, beq_iff _ _ h (by decide)]
  cases sign <;> simp [rank]

theorem signed_eq_signed_iff {left right : Sign} {a b : ℕ} (ha : a ≤ infinityPlace)
    (hb : b ≤ infinityPlace) : signed left a = signed right b ↔ left = right ∧ a = b := by
  refine ⟨fun equal ↦ ?_, fun ⟨sign, place⟩ ↦ by rw [sign, place]⟩
  have bits := congrArg (fun x : Float ↦ x.toBits.toNat) equal
  simp only [toNat_toBits_signed, Nat.min_eq_left ha, Nat.min_eq_left hb] at bits
  have small : infinityPlace < 2 ^ 63 := by decide
  cases left <;> cases right <;> simp [signBit] at bits ⊢ <;> omega

theorem isNaN_sub_iff (x y : Float) :
    (x - y).isNaN = true ↔ x.isNaN = true ∨ y.isNaN = true ∨ x.isInf = true ∧ y = x := by
  rcases isNaN_or_exists_signed x with not | ⟨left, a, ha, rfl⟩
  · exact iff_of_true (isNaN_of_operand (.inl not)).2.1 (.inl not)
  rcases isNaN_or_exists_signed y with not | ⟨right, b, hb, rfl⟩
  · exact iff_of_true (isNaN_of_operand (.inr not)).2.1 (.inr (.inl not))
  rw [isNaN_sub_signed_iff left right ha hb, isInf_signed, signed_eq_signed_iff hb ha]
  simp only [isNaN_signed, Bool.false_eq_true, false_or]
  grind

theorem isNaN_mul_iff (x y : Float) :
    (x * y).isNaN = true ↔ x.isNaN = true ∨ y.isNaN = true ∨
      x.isInf = true ∧ (y == 0) = true ∨ (x == 0) = true ∧ y.isInf = true := by
  rcases isNaN_or_exists_signed x with not | ⟨left, a, ha, rfl⟩
  · exact iff_of_true (isNaN_of_operand (.inl not)).2.2.1 (.inl not)
  rcases isNaN_or_exists_signed y with not | ⟨right, b, hb, rfl⟩
  · exact iff_of_true (isNaN_of_operand (.inr not)).2.2.1 (.inr (.inl not))
  rw [isNaN_mul_signed_iff left right ha hb, isInf_signed, isInf_signed, beq_zero_signed _ ha,
    beq_zero_signed _ hb]
  simp only [isNaN_signed, Bool.false_eq_true, false_or]
  grind

theorem isNaN_div_iff (x y : Float) :
    (x / y).isNaN = true ↔ x.isNaN = true ∨ y.isNaN = true ∨
      x.isInf = true ∧ y.isInf = true ∨ (x == 0) = true ∧ (y == 0) = true := by
  rcases isNaN_or_exists_signed x with not | ⟨left, a, ha, rfl⟩
  · exact iff_of_true (isNaN_of_operand (.inl not)).2.2.2 (.inl not)
  rcases isNaN_or_exists_signed y with not | ⟨right, b, hb, rfl⟩
  · exact iff_of_true (isNaN_of_operand (.inr not)).2.2.2 (.inr (.inl not))
  rw [isNaN_div_signed_iff left right ha hb, isInf_signed, isInf_signed, beq_zero_signed _ ha,
    beq_zero_signed _ hb]
  simp only [isNaN_signed, Bool.false_eq_true, false_or]
  grind

theorem isNaN_mul_of_isFinite {x y : Float} (hx : x.isFinite = true) (hy : y.isFinite = true) :
    (x * y).isNaN = false := by
  rw [isFinite_iff] at hx hy
  rw [Bool.eq_false_iff, Ne, isNaN_mul_iff, hx.1, hx.2, hy.1, hy.2]
  simp

@[simp] theorem isNaN_one_sub (x : Float) : (1 - x).isNaN = x.isNaN := by
  have one : (1 : Float).isNaN = false ∧ (1 : Float).isInf = false := by decide
  rw [Bool.eq_iff_iff, isNaN_sub_iff, one.1, one.2]
  simp

@[simp] theorem isNaN_half_mul (x : Float) : (0.5 * x).isNaN = x.isNaN := by
  have half : (0.5 : Float).isNaN = false ∧ (0.5 : Float).isInf = false ∧
      ((0.5 : Float) == 0) = false := by decide
  rw [Bool.eq_iff_iff, isNaN_mul_iff, half.1, half.2.1, half.2.2]
  simp

end SpanScore.Double
