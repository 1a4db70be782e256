import SpanScore.Proofs.Double.Order

/-!
# Distances of doubles

The magnitude of a difference does not depend on which side is taken from which: the two differences
are rounded to the same place, and there is only one double that is no number.  Equal finite doubles
are at distance zero.
-/

namespace SpanScore.Double

open Float.Model Float.Model.UnpackedFloat

/-! ## Magnitudes -/

theorem abs_packed (number : UnpackedFloat) : (packed number).abs = packed number.abs := by
  cases number with
  | notANumber => rfl
  | infinity sign =>
    rw [packed_infinity, abs_signed]
    exact (packed_infinity .positive).symm
  | zero sign => exact abs_signed sign 0
  | finite sign mantissa exponent pos =>
    obtain ⟨place, packed_eq⟩ := exists_place_packed exponent pos
    rw [packed_eq, abs_signed]
    exact (packed_eq .positive).symm

/-! ## Differences -/

/-- A number and its negative are rounded to one magnitude. -/
theorem abs_normalize_neg (spec : Format) (number exponent : ℤ) :
    (UnpackedFloat.normalize spec (-number) exponent .positive).abs =
      (UnpackedFloat.normalize spec number exponent .positive).abs := by
  have magnitude (sign : Sign) (mantissa : ℕ) (exponent : ℤ) (accuracy : Accuracy) :
      (roundWithAccuracy spec sign mantissa exponent accuracy).abs =
        roundWithAccuracy spec .positive mantissa exponent accuracy := by
    rcases roundWithAccuracy_cases spec mantissa exponent accuracy with zero | ⟨_, _, _, finite⟩
    · rw [zero, zero]
      rfl
    · rw [finite, finite]
      rfl
  unfold UnpackedFloat.normalize UnpackedFloat.round
  rcases Int.lt_trichotomy number 0 with negative | rfl | positive
  · rw [Int.compare_eq_lt.2 negative, Int.compare_eq_gt.2 (by omega)]
    simp only [magnitude]
  · rfl
  · rw [Int.compare_eq_gt.2 positive, Int.compare_eq_lt.2 (by omega)]
    simp only [magnitude, neg_neg]

/-- The two differences of two numbers have one magnitude. -/
theorem abs_sub_unpacked (spec : Format) (left right : UnpackedFloat) :
    (UnpackedFloat.sub spec left right).abs = (UnpackedFloat.sub spec right left).abs := by
  cases left with
  | notANumber => cases right <;> rfl
  | infinity sign => cases right with
    | infinity sign' => cases sign <;> cases sign' <;> rfl
    | _ => rfl
  | zero sign => cases right with
    | zero sign' => cases sign <;> cases sign' <;> rfl
    | _ => rfl
  | finite sign mantissa exponent pos => cases right with
    | finite sign' mantissa' exponent' pos' =>
      change (UnpackedFloat.normalize spec (_ - _) (min exponent exponent') .positive).abs =
        (UnpackedFloat.normalize spec (_ - _) (min exponent' exponent) .positive).abs
      rw [min_comm exponent' exponent, ← neg_sub, abs_normalize_neg]
    | _ => rfl

/-- A double is as far from another as that one is from it. -/
protected theorem abs_sub_comm (x y : Float) : (x - y).abs = (y - x).abs := by
  change (packed (UnpackedFloat.sub Format.binary64 (unpacked x) (unpacked y))).abs =
    (packed (UnpackedFloat.sub Format.binary64 (unpacked y) (unpacked x))).abs
  rw [abs_packed, abs_packed, abs_sub_unpacked]

/-! ## Equal doubles -/

/-- A finite double less itself is zero, whatever its sign. -/
theorem sub_self_signed (sign : Sign) {place : ℕ} (finite : place < infinityPlace) :
    signed sign place - signed sign place = 0 := by
  change packed (UnpackedFloat.sub _ (unpacked (signed sign place))
    (unpacked (signed sign place))) = packed (.zero .positive)
  rw [unpacked_of_lt sign finite]
  rcases ofPlace_cases place with zero | ⟨_, _, _, eq⟩
  · rw [zero]
    cases sign <;> rfl
  · rw [eq]
    change packed (UnpackedFloat.normalize _ (_ - _) _ .positive) = _
    rw [sub_self]
    rfl

/-- Equal finite doubles are at distance zero, the two zeros included. -/
theorem abs_sub_of_beq {x y : Float} (finite : x.isFinite = true) (finite' : y.isFinite = true)
    (equal : (x == y) = true) : (x - y).abs = 0 := by
  obtain ⟨left, a, ha, rfl⟩ := exists_signed_of_isFinite finite
  obtain ⟨right, b, hb, rfl⟩ := exists_signed_of_isFinite finite'
  rw [beq_iff _ _ ha.le hb.le] at equal
  have same : left = right ∧ a = b ∨ a = 0 ∧ b = 0 := by
    cases left <;> cases right <;> simp only [rank] at equal <;> simp <;> omega
  rcases same with ⟨rfl, rfl⟩ | ⟨rfl, rfl⟩
  · rw [sub_self_signed left ha]
    rfl
  · cases left <;> cases right <;> rfl

/-- A finite double is at distance zero from itself. -/
theorem abs_sub_self {x : Float} (finite : x.isFinite = true) : (x - x).abs = 0 := by
  obtain ⟨sign, place, within, rfl⟩ := exists_signed_of_isFinite finite
  rw [sub_self_signed sign within]
  rfl

end SpanScore.Double
