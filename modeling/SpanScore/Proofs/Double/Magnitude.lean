import SpanScore.Proofs.Double.Amounts

/-!
# Magnitudes

A magnitude is a double that taking the magnitude of leaves as it is: no number is below zero among
them, negative zero is not one, and what is no number is.  Sums of magnitudes are magnitudes, and
zero adds nothing to them, bit for bit.
-/

namespace SpanScore.Double

open Float.Model Float.Model.UnpackedFloat

/-- Whether a double has no negative sign. -/
def IsMagnitude (x : Float) : Prop :=
  x.abs = x

theorem isMagnitude_iff {x : Float} :
    IsMagnitude x ↔ x.isNaN = true ∨ ∃ place ≤ infinityPlace, x = signed .positive place := by
  unfold IsMagnitude
  rcases isNaN_or_exists_signed x with not | ⟨sign, place, within, rfl⟩
  · exact iff_of_true (eq_of_isNaN (by rwa [isNaN_abs]) not) (.inl not)
  · rw [abs_signed]
    constructor
    · intro eq
      exact .inr ⟨place, within, eq.symm⟩
    · rintro (not | ⟨place', within', eq⟩)
      · rw [isNaN_signed] at not
        cases not
      · rw [signed_eq_signed_iff within within'] at eq
        rw [eq.1]

theorem isMagnitude_abs (x : Float) : IsMagnitude x.abs := by
  rcases isNaN_or_exists_signed x with not | ⟨sign, place, -, rfl⟩
  · exact eq_of_isNaN (by rwa [isNaN_abs, isNaN_abs]) (by rwa [isNaN_abs])
  · rw [IsMagnitude, abs_signed, abs_signed]

theorem isMagnitude_of_pos {x : Float} (pos : 0 < x) : IsMagnitude x := by
  obtain ⟨place, -, -, rfl⟩ := exists_place_of_pos pos
  exact abs_signed .positive place

/-- Zero adds nothing to a magnitude. -/
theorem IsMagnitude.zero_add {x : Float} (h : IsMagnitude x) : 0 + x = x := by
  rcases isMagnitude_iff.1 h with not | ⟨place, within, rfl⟩
  · exact eq_of_isNaN (isNaN_of_operand (.inr not)).1 not
  · rcases Nat.eq_zero_or_pos place with rfl | pos
    · rfl
    · obtain ⟨sign, sum_eq, sign_eq⟩ := exists_zero_add .positive .positive within
      rw [zero_eq, sum_eq, sign_eq.resolve_right pos.ne']

theorem IsMagnitude.add {x y : Float} (hx : IsMagnitude x) (hy : IsMagnitude y) :
    IsMagnitude (x + y) := by
  rcases isMagnitude_iff.1 hx with not | ⟨a, ha, rfl⟩
  · exact isMagnitude_iff.2 (.inl (isNaN_of_operand (.inl not)).1)
  rcases isMagnitude_iff.1 hy with not | ⟨b, hb, rfl⟩
  · exact isMagnitude_iff.2 (.inl (isNaN_of_operand (.inr not)).1)
  rcases Nat.eq_zero_or_pos a with rfl | pos
  · rwa [← zero_eq, hy.zero_add]
  rcases Nat.eq_zero_or_pos b with rfl | pos'
  · rwa [← zero_eq, Double.add_comm, hx.zero_add]
  obtain ⟨place, -, sum_eq⟩ := exists_add_of_pos pos pos'
  rw [sum_eq]
  exact abs_signed .positive place

end SpanScore.Double
