import SpanScore.Feature.Distribution
import SpanScore.Proofs.Double.View

/-!
# Order of doubles

Doubles that are numbers are ordered as their places are, those with a negative sign the other way
round, and the two zeros are equal.  So a number clamped between zero and one lies there, and only
what is no number passes a clamp as it is.
-/

namespace SpanScore.Double

open Float.Model Float.Model.UnpackedFloat

/-- Where a double stands among all numbers. -/
def rank : Sign → ℕ → ℤ
  | .negative, place => -place
  | .positive, place => place

/-! ## Comparisons -/

/-- Doubles of one sign are compared by their exponents first, then by their significands. -/
theorem compare_parts (a b : ℕ) :
    (compare (exponent a) (exponent b)).then (compare (significand a) (significand b)) =
      compare a b := by
  have order : exponent a < exponent b ∨
      exponent a = exponent b ∧ significand a < significand b ↔ a < b := by
    unfold exponent significand
    split <;> split <;> omega
  have order' : exponent b < exponent a ∨
      exponent b = exponent a ∧ significand b < significand a ↔ b < a := by
    unfold exponent significand
    split <;> split <;> omega
  rcases Nat.lt_trichotomy a b with less | rfl | greater
  · rw [Nat.compare_eq_lt.2 less]
    rcases order.2 less with exponents | ⟨same, significands⟩
    · rw [Int.compare_eq_lt.2 exponents]
      rfl
    · rw [same, Nat.compare_eq_lt.2 significands]
      simp
  · simp
  · rw [Nat.compare_eq_gt.2 greater]
    rcases order'.2 greater with exponents | ⟨same, significands⟩
    · rw [Int.compare_eq_gt.2 exponents]
      rfl
    · rw [same, Nat.compare_eq_gt.2 significands]
      simp

theorem compare_rank_positive (a b : ℕ) :
    compare (rank .positive a) (rank .positive b) = compare a b := by
  rcases Nat.lt_trichotomy a b with less | rfl | greater
  · rw [Nat.compare_eq_lt.2 less, Int.compare_eq_lt, rank, rank]
    omega
  · simp
  · rw [Nat.compare_eq_gt.2 greater, Int.compare_eq_gt, rank, rank]
    omega

theorem compare_rank_negative (a b : ℕ) :
    compare (rank .negative a) (rank .negative b) = (compare a b).swap := by
  rcases Nat.lt_trichotomy a b with less | rfl | greater
  · rw [Nat.compare_eq_lt.2 less, Ordering.swap, Int.compare_eq_gt, rank, rank]
    omega
  · simp
  · rw [Nat.compare_eq_gt.2 greater, Ordering.swap, Int.compare_eq_lt, rank, rank]
    omega

/-- A double is zero, positive and finite, or infinite, but for its sign. -/
theorem unpacked_cases (sign : Sign) {place : ℕ} (h : place ≤ infinityPlace) :
    (place = 0 ∧ unpacked (signed sign place) = .zero sign) ∨
      (∃ pos, 0 < place ∧ place < infinityPlace ∧ unpacked (signed sign place) =
        .finite sign (significand place) (exponent place) pos) ∨
      place = infinityPlace ∧ unpacked (signed sign place) = .infinity sign := by
  rcases Nat.eq_or_lt_of_le h with infinite | finite
  · exact .inr (.inr ⟨infinite, unpacked_of_le sign infinite.ge⟩)
  · rcases Nat.eq_zero_or_pos place with rfl | pos
    · exact .inl ⟨rfl, unpacked_of_lt sign finite⟩
    · exact .inr (.inl ⟨_, pos, finite, (unpacked_of_lt sign finite).trans
        (ofPlace_of_pos sign pos)⟩)

theorem compare_signed (left right : Sign) {a b : ℕ} (ha : a ≤ infinityPlace)
    (hb : b ≤ infinityPlace) :
    (unpacked (signed left a)).compare (unpacked (signed right b)) =
      some (compare (rank left a) (rank right b)) := by
  have some_lt {i j : ℤ} (h : i < j) : some Ordering.lt = some (compare i j) :=
    congrArg some (Int.compare_eq_lt.2 h).symm
  have some_gt {i j : ℤ} (h : j < i) : some Ordering.gt = some (compare i j) :=
    congrArg some (Int.compare_eq_gt.2 h).symm
  have some_eq {i j : ℤ} (h : i = j) : some Ordering.eq = some (compare i j) :=
    congrArg some (Int.compare_eq_eq.2 h).symm
  have positive : 0 < infinityPlace := by decide
  rcases unpacked_cases left ha with ⟨place, eq⟩ | ⟨_, _, _, eq⟩ | ⟨place, eq⟩ <;>
    rcases unpacked_cases right hb with ⟨place', eq'⟩ | ⟨_, _, _, eq'⟩ | ⟨place', eq'⟩ <;>
    rw [eq, eq'] <;> cases left <;> cases right <;>
    first
    | exact some_lt (by simp only [rank]; omega)
    | exact some_gt (by simp only [rank]; omega)
    | exact some_eq (by simp only [rank]; omega)
    | exact congrArg some ((congrArg Ordering.swap (compare_parts a b)).trans
        (compare_rank_negative a b).symm)
    | exact congrArg some ((compare_parts a b).trans (compare_rank_positive a b).symm)

theorem lt_iff (left right : Sign) {a b : ℕ} (ha : a ≤ infinityPlace) (hb : b ≤ infinityPlace) :
    signed left a < signed right b ↔ rank left a < rank right b := by
  change decide ((unpacked (signed left a)).lt (unpacked (signed right b)) = true) = true ↔ _
  rw [decide_eq_true_iff, UnpackedFloat.lt, compare_signed left right ha hb, beq_iff_eq,
    Option.some.injEq, Int.compare_eq_lt]

theorem le_iff (left right : Sign) {a b : ℕ} (ha : a ≤ infinityPlace) (hb : b ≤ infinityPlace) :
    signed left a ≤ signed right b ↔ rank left a ≤ rank right b := by
  change decide ((unpacked (signed left a)).le (unpacked (signed right b)) = true) = true ↔ _
  rw [decide_eq_true_iff, UnpackedFloat.le, compare_signed left right ha hb, Option.any_some,
    Ordering.isLE_iff_ne_gt]
  exact (not_congr Int.compare_eq_gt).trans not_lt

theorem beq_iff (left right : Sign) {a b : ℕ} (ha : a ≤ infinityPlace) (hb : b ≤ infinityPlace) :
    (signed left a == signed right b) = true ↔ rank left a = rank right b := by
  change (unpacked (signed left a)).beq (unpacked (signed right b)) = true ↔ _
  unfold UnpackedFloat.beq
  rw [compare_signed left right ha hb, beq_iff_eq, Option.some.injEq, Int.compare_eq_eq]

/-- A number is equal to itself. -/
theorem beq_self {x : Float} (number : x.isNaN = false) : (x == x) = true := by
  obtain ⟨sign, place, within, rfl⟩ := exists_signed_of_isNaN_eq_false number
  exact (beq_iff sign sign within within).2 rfl

/-- What is no number is not below anything. -/
theorem not_lt_of_isNaN {x : Float} (not : x.isNaN = true) (y : Float) : ¬x < y ∧ ¬y < x := by
  change (unpacked x).isNaN = true at not
  have none_eq : (unpacked x).compare (unpacked y) = none ∧
      (unpacked y).compare (unpacked x) = none := by
    generalize unpacked x = view at not ⊢
    generalize unpacked y = other
    cases view <;> cases not
    cases other <;> exact ⟨rfl, rfl⟩
  constructor
  · change ¬decide ((unpacked x).lt (unpacked y) = true) = true
    rw [decide_eq_true_iff, UnpackedFloat.lt, none_eq.1]
    decide
  · change ¬decide ((unpacked y).lt (unpacked x) = true) = true
    rw [decide_eq_true_iff, UnpackedFloat.lt, none_eq.2]
    decide

theorem isNaN_eq_false_of_le {x y : Float} (le : x ≤ y) : x.isNaN = false ∧ y.isNaN = false := by
  change decide ((unpacked x).le (unpacked y) = true) = true at le
  rw [decide_eq_true_iff, UnpackedFloat.le] at le
  change (unpacked x).isNaN = false ∧ (unpacked y).isNaN = false
  generalize unpacked x = view at le ⊢
  generalize unpacked y = other at le ⊢
  cases view <;> cases other <;> first | exact ⟨rfl, rfl⟩ | cases le

/-- Numbers are ordered without gaps. -/
theorem not_lt_iff {x y : Float} (hx : x.isNaN = false) (hy : y.isNaN = false) :
    ¬x < y ↔ y ≤ x := by
  obtain ⟨left, a, ha, rfl⟩ := exists_signed_of_isNaN_eq_false hx
  obtain ⟨right, b, hb, rfl⟩ := exists_signed_of_isNaN_eq_false hy
  rw [lt_iff left right ha hb, le_iff right left hb ha, not_lt]

/-! ## Between zero and one -/

def onePlace : ℕ :=
  1023 * 2 ^ 52

theorem value_onePlace : value onePlace = 1 := by
  rw [onePlace, value_binade (by decide)]
  norm_num

theorem zero_eq : (0 : Float) = signed .positive 0 := by
  decide

theorem one_eq : (1 : Float) = signed .positive onePlace := by
  decide

/-- A double that is not negative has the positive sign, or it is negative zero. -/
theorem exists_place_of_nonneg {x : Float} (low : 0 ≤ x) :
    ∃ sign place, place ≤ infinityPlace ∧ x = signed sign place ∧
      (sign = .positive ∨ place = 0) := by
  obtain ⟨sign, place, within, rfl⟩ :=
    exists_signed_of_isNaN_eq_false (isNaN_eq_false_of_le low).2
  rw [zero_eq, le_iff _ _ (by decide) within] at low
  refine ⟨sign, place, within, rfl, ?_⟩
  cases sign with
  | positive => exact .inl rfl
  | negative =>
    simp only [rank] at low
    exact .inr (by omega)

theorem isFinite_of_unit {x : Float} (low : 0 ≤ x) (high : x ≤ 1) : x.isFinite = true := by
  obtain ⟨sign, place, within, rfl, nonneg⟩ := exists_place_of_nonneg low
  have bound : onePlace < infinityPlace := by decide
  rw [one_eq, le_iff _ _ within bound.le] at high
  rw [isFinite_signed]
  rcases nonneg with rfl | rfl
  · simp only [rank] at high
    omega
  · omega

end SpanScore.Double

namespace SpanScore.Distribution

open Double

/-- A clamp passes what is no number. -/
theorem clamp_of_isNaN {x : Float} (not : x.isNaN = true) : clamp x = x := by
  simp only [clamp]
  rw [if_neg (not_lt_of_isNaN not 0).1, if_neg (not_lt_of_isNaN not 1).2]

/-- A clamped number lies between zero and one. -/
theorem clamp_mem {x : Float} (number : x.isNaN = false) : 0 ≤ clamp x ∧ clamp x ≤ 1 := by
  have least : (0 : Float).isNaN = false := by decide
  have greatest : (1 : Float).isNaN = false := by decide
  have ends : (0 : Float) ≤ 1 ∧ (0 : Float) ≤ 0 ∧ (1 : Float) ≤ 1 := by decide
  have between : ∀ raised : Float, 0 ≤ raised →
      0 ≤ (if raised > 1 then 1 else raised) ∧ (if raised > 1 then 1 else raised) ≤ 1 := by
    intro raised low
    split
    · exact ⟨ends.1, ends.2.2⟩
    · next high => exact ⟨low, (not_lt_iff greatest (isNaN_eq_false_of_le low).2).1 high⟩
  unfold clamp
  apply between
  split
  · exact ends.2.1
  · next low => exact (not_lt_iff number least).1 low

@[simp] theorem isNaN_clamp (x : Float) : (clamp x).isNaN = x.isNaN := by
  cases h : x.isNaN with
  | true => rw [clamp_of_isNaN h, h]
  | false => exact (isNaN_eq_false_of_le (clamp_mem h).2).1

/-- What lies between zero and one stays as it is. -/
theorem clamp_eq_self {x : Float} (low : 0 ≤ x) (high : x ≤ 1) : clamp x = x := by
  obtain ⟨least, number⟩ := isNaN_eq_false_of_le low
  have greatest := (isNaN_eq_false_of_le high).2
  simp only [clamp]
  rw [if_neg ((not_lt_iff number least).2 low), if_neg ((not_lt_iff greatest number).2 high)]

end SpanScore.Distribution
