import SpanScore.Proofs.Double.Special

/-!
# Doubles that are not negative

Sums of doubles that are not negative are not negative either, and they grow with each summand, up
to infinity.  A quotient of two of them lies between zero and one when the divisor is the greater
one, and their difference is finite when they are.
-/

namespace SpanScore.Double

open Float.Model Float.Model.UnpackedFloat

/-! ## Places -/

theorem rank_of_nonneg {sign : Sign} {place : ℕ} (h : sign = .positive ∨ place = 0) :
    rank sign place = place := by
  rcases h with rfl | rfl
  · rfl
  · cases sign <;> rfl

section

variable {left right : Sign} {a b : ℕ} (ha : left = .positive ∨ a = 0)
  (hb : right = .positive ∨ b = 0)

include ha hb

/-- Doubles that are not negative are ordered as their places are. -/
theorem signed_le_signed (le : a ≤ b) : signed left a ≤ signed right b := by
  have capped (sign : Sign) (place : ℕ) :
      signed sign place = signed sign (min place infinityPlace) := by
    rcases Nat.le_total place infinityPlace with within | beyond
    · rw [Nat.min_eq_left within]
    · rw [Nat.min_eq_right beyond, signed_of_le sign beyond]
  rw [capped left, capped right, le_iff _ _ (Nat.min_le_right ..) (Nat.min_le_right ..),
    rank_of_nonneg (ha.imp_right (by omega)), rank_of_nonneg (hb.imp_right (by omega))]
  omega

theorem place_le_of_signed_le (within : a ≤ infinityPlace) (within' : b ≤ infinityPlace)
    (le : signed left a ≤ signed right b) : a ≤ b := by
  rw [le_iff _ _ within within', rank_of_nonneg ha, rank_of_nonneg hb] at le
  omega

end

theorem zero_le_signed {sign : Sign} {place : ℕ} (h : sign = .positive ∨ place = 0) :
    0 ≤ signed sign place := by
  rw [zero_eq]
  exact signed_le_signed (.inl rfl) h (Nat.zero_le place)

theorem le_refl_of_nonneg {x : Float} (low : 0 ≤ x) : x ≤ x := by
  obtain ⟨sign, place, -, rfl, nonneg⟩ := exists_place_of_nonneg low
  exact signed_le_signed nonneg nonneg le_rfl

theorem le_trans_of_nonneg {x y z : Float} (low : 0 ≤ x) (le : x ≤ y) (le' : y ≤ z) : x ≤ z := by
  obtain ⟨first, a, ha, rfl, nonneg⟩ := exists_place_of_nonneg low
  obtain ⟨second, b, hb, rfl⟩ := exists_signed_of_isNaN_eq_false (isNaN_eq_false_of_le le).2
  obtain ⟨third, c, hc, rfl⟩ := exists_signed_of_isNaN_eq_false (isNaN_eq_false_of_le le').2
  rw [le_iff _ _ ha hb] at le
  rw [le_iff _ _ hb hc] at le'
  rw [le_iff _ _ ha hc]
  exact le.trans le'

/-- Nothing but infinity is above infinity. -/
theorem isInf_of_le {x y : Float} (low : 0 ≤ x) (le : x ≤ y) (infinite : x.isInf = true) :
    y.isInf = true := by
  obtain ⟨_, a, ha, rfl, nonneg⟩ := exists_place_of_nonneg low
  obtain ⟨_, b, hb, rfl, nonneg'⟩ := exists_place_of_nonneg (le_trans_of_nonneg (by decide) low le)
  have less := place_le_of_signed_le nonneg nonneg' ha hb le
  rw [isInf_signed] at infinite ⊢
  omega

theorem pos_of_isInf {x : Float} (low : 0 ≤ x) (infinite : x.isInf = true) : 0 < x := by
  obtain ⟨_, place, within, rfl, nonneg⟩ := exists_place_of_nonneg low
  have positive : 0 < infinityPlace := by decide
  rw [isInf_signed] at infinite
  rw [zero_eq, lt_iff _ _ positive.le within, rank_of_nonneg nonneg, rank]
  omega

/-! ## Sums -/

protected theorem add_comm (x y : Float) : x + y = y + x := by
  change packed (UnpackedFloat.add _ (unpacked x) (unpacked y)) =
    packed (UnpackedFloat.add _ (unpacked y) (unpacked x))
  congr 1
  generalize unpacked x = left
  generalize unpacked y = right
  cases left with
  | notANumber => cases right <;> rfl
  | infinity sign => cases right with
    | infinity sign' => cases sign <;> cases sign' <;> rfl
    | _ => rfl
  | zero sign => cases right with
    | zero sign' => cases sign <;> cases sign' <;> rfl
    | _ => rfl
  | finite sign mantissa exponent pos => cases right with
    | finite sign' mantissa' exponent' pos' =>
      change UnpackedFloat.normalize _ (_ + _) (min exponent exponent') .positive =
        UnpackedFloat.normalize _ (_ + _) (min exponent' exponent) .positive
      rw [min_comm exponent exponent', Int.add_comm]
    | _ => rfl

/-- Zero adds nothing, but for the sign of zero. -/
theorem exists_zero_add (left right : Sign) {place : ℕ} (h : place ≤ infinityPlace) :
    ∃ sign, signed left 0 + signed right place = signed sign place ∧
      (sign = right ∨ place = 0) := by
  change ∃ sign, packed (UnpackedFloat.add _ (unpacked (signed left 0))
    (unpacked (signed right place))) = signed sign place ∧ _
  rw [unpacked_of_lt left (by decide), ofPlace_zero]
  have kept := packed_unpacked (signed right place)
  rcases unpacked_cases right h with ⟨rfl, eq⟩ | ⟨_, _, _, eq⟩ | ⟨_, eq⟩
  · rw [eq]
    cases left <;> cases right
    · exact ⟨.negative, rfl, .inl rfl⟩
    · exact ⟨.positive, rfl, .inl rfl⟩
    · exact ⟨.positive, rfl, .inr rfl⟩
    · exact ⟨.positive, rfl, .inl rfl⟩
  · rw [eq] at kept ⊢
    exact ⟨right, kept, .inl rfl⟩
  · rw [eq] at kept ⊢
    exact ⟨right, kept, .inl rfl⟩

/-- Negative zero adds nothing at all. -/
theorem neg_zero_add (x : Float) : -0.0 + x = x := by
  change packed (UnpackedFloat.add _ (.zero .negative) (unpacked x)) = x
  have neutral : ∀ number, UnpackedFloat.add Format.binary64 (.zero .negative) number = number
    | .notANumber | .infinity _ | .zero .negative | .zero .positive | .finite .. => rfl
  rw [neutral, packed_unpacked]

/-- The sum of two positive doubles, either of which may be infinite. -/
theorem exists_add_of_pos {a b : ℕ} (ha : 0 < a) (hb : 0 < b) :
    ∃ place, RoundsTo (value a + value b) place ∧
      signed .positive a + signed .positive b = signed .positive place := by
  obtain ⟨place, rounds, eq⟩ := exists_place_add ha hb
  refine ⟨place, rounds, ?_⟩
  change packed (UnpackedFloat.add _ (unpacked (signed .positive a))
    (unpacked (signed .positive b))) = _
  have above : infinityPlace ≤ a ∨ infinityPlace ≤ b → infinityPlace ≤ place := by
    rintro (infinite | infinite)
    · have less := value_nonneg b
      exact le_trans infinite (rounds.le_of_value_le (by linarith))
    · have less := value_nonneg a
      exact le_trans infinite (rounds.le_of_value_le (by linarith))
  rcases Nat.lt_or_ge a infinityPlace with finite | infinite
  · rcases Nat.lt_or_ge b infinityPlace with finite' | infinite
    · rw [unpacked_of_lt _ finite, unpacked_of_lt _ finite', eq, signed]
    · rw [signed_of_le _ (above (.inr infinite)), ← packed_infinity, unpacked_of_lt _ finite,
        unpacked_of_le _ infinite, ofPlace_of_pos _ ha]
      rfl
  · rw [signed_of_le _ (above (.inl infinite)), ← packed_infinity, unpacked_of_le _ infinite,
      unpacked_signed]
    split
    · rw [ofPlace_of_pos _ hb]
      rfl
    · rfl

/-- The sum of two doubles that are not negative is rounded to a place and is not negative. -/
theorem exists_add_signed {left right : Sign} {a b : ℕ} (ha : left = .positive ∨ a = 0)
    (hb : right = .positive ∨ b = 0) (within : a ≤ infinityPlace) (within' : b ≤ infinityPlace) :
    ∃ sign place, RoundsTo (value a + value b) place ∧
      signed left a + signed right b = signed sign place ∧
      (sign = .positive ∨ place = 0) := by
  rcases Nat.eq_zero_or_pos a with rfl | pos
  · obtain ⟨sign, sum_eq, sign_eq⟩ := exists_zero_add left right within'
    exact ⟨sign, b, by simpa using RoundsTo.value b, sum_eq, by grind⟩
  rcases Nat.eq_zero_or_pos b with rfl | pos'
  · obtain ⟨sign, sum_eq, sign_eq⟩ := exists_zero_add right left within
    rw [Double.add_comm] at sum_eq
    exact ⟨sign, a, by simpa using RoundsTo.value a, sum_eq, by grind⟩
  obtain rfl : left = .positive := ha.resolve_right pos.ne'
  obtain rfl : right = .positive := hb.resolve_right pos'.ne'
  obtain ⟨place, rounds, sum_eq⟩ := exists_add_of_pos pos pos'
  exact ⟨.positive, place, rounds, sum_eq, .inl rfl⟩

section

variable {x y : Float}

/-- Sums of doubles that are not negative grow with both summands. -/
protected theorem add_le_add {x' y' : Float} (hx : 0 ≤ x) (hy : 0 ≤ y) (le : x ≤ x')
    (le' : y ≤ y') : x + y ≤ x' + y' := by
  have hx' : 0 ≤ x' := le_trans_of_nonneg (by decide) hx le
  have hy' : 0 ≤ y' := le_trans_of_nonneg (by decide) hy le'
  obtain ⟨_, a', ha', rfl, nonneg₁⟩ := exists_place_of_nonneg hx'
  obtain ⟨_, b', hb', rfl, nonneg₂⟩ := exists_place_of_nonneg hy'
  obtain ⟨_, a, ha, rfl, nonneg₃⟩ := exists_place_of_nonneg hx
  obtain ⟨_, b, hb, rfl, nonneg₄⟩ := exists_place_of_nonneg hy
  obtain ⟨_, sum, rounds, sum_eq, nonneg⟩ := exists_add_signed nonneg₃ nonneg₄ ha hb
  obtain ⟨_, sum', rounds', sum_eq', nonneg'⟩ := exists_add_signed nonneg₁ nonneg₂ ha' hb'
  rw [sum_eq, sum_eq']
  have left := value_strictMono.monotone (place_le_of_signed_le nonneg₃ nonneg₁ ha ha' le)
  have right := value_strictMono.monotone (place_le_of_signed_le nonneg₄ nonneg₂ hb hb' le')
  exact signed_le_signed nonneg nonneg' (rounds.mono rounds' (add_le_add left right))

theorem add_nonneg (hx : 0 ≤ x) (hy : 0 ≤ y) : 0 ≤ x + y := by
  obtain ⟨_, a, ha, rfl, nonneg⟩ := exists_place_of_nonneg hx
  obtain ⟨_, b, hb, rfl, nonneg'⟩ := exists_place_of_nonneg hy
  obtain ⟨_, sum, -, sum_eq, nonneg''⟩ := exists_add_signed nonneg nonneg' ha hb
  rw [sum_eq]
  exact zero_le_signed nonneg''

theorem le_add (hx : 0 ≤ x) (hy : 0 ≤ y) : x ≤ x + y ∧ y ≤ x + y := by
  obtain ⟨_, a, ha, rfl, nonneg⟩ := exists_place_of_nonneg hx
  obtain ⟨_, b, hb, rfl, nonneg'⟩ := exists_place_of_nonneg hy
  obtain ⟨_, sum, rounds, sum_eq, nonneg''⟩ := exists_add_signed nonneg nonneg' ha hb
  have left := value_nonneg a
  have right := value_nonneg b
  rw [sum_eq]
  exact ⟨signed_le_signed nonneg nonneg'' (rounds.le_of_value_le (by linarith)),
    signed_le_signed nonneg' nonneg'' (rounds.le_of_value_le (by linarith))⟩

/-- An amount is any double but a negative number. -/
def IsAmount (x : Float) : Prop :=
  x.isNaN = false → 0 ≤ x

theorem isAmount_of_nonneg (low : 0 ≤ x) : IsAmount x :=
  fun _ ↦ low

theorem isAmount_abs (x : Float) : IsAmount x.abs := by
  intro number
  rw [isNaN_abs] at number
  obtain ⟨sign, place, -, rfl⟩ := exists_signed_of_isNaN_eq_false number
  rw [abs_signed]
  exact zero_le_signed (.inl rfl)

/-- Amounts have a sum that is an amount, and it is a number when they are. -/
theorem IsAmount.isNaN_add_iff (hx : IsAmount x) (hy : IsAmount y) :
    (x + y).isNaN = true ↔ x.isNaN = true ∨ y.isNaN = true := by
  refine ⟨fun not ↦ ?_, fun not ↦ (isNaN_of_operand not).1⟩
  by_contra numbers
  rw [not_or, Bool.not_eq_true, Bool.not_eq_true] at numbers
  have low := add_nonneg (hx numbers.1) (hy numbers.2)
  rw [(isNaN_eq_false_of_le low).2] at not
  cases not

theorem IsAmount.add (hx : IsAmount x) (hy : IsAmount y) : IsAmount (x + y) := by
  intro number
  have numbers := (not_congr (hx.isNaN_add_iff hy)).1 (Bool.eq_false_iff.1 number)
  rw [not_or, Bool.not_eq_true, Bool.not_eq_true] at numbers
  exact add_nonneg (hx numbers.1) (hy numbers.2)

/-! ## Quotients -/

/-- A positive double has the positive sign. -/
theorem exists_place_of_pos (pos : 0 < x) :
    ∃ place ≤ infinityPlace, 0 < place ∧ x = signed .positive place := by
  have number : x.isNaN = false := by
    by_contra not
    exact (not_lt_of_isNaN (Bool.not_eq_false _ ▸ not) 0).2 pos
  obtain ⟨sign, place, within, rfl⟩ := exists_signed_of_isNaN_eq_false number
  rw [zero_eq, lt_iff _ _ (by decide) within] at pos
  cases sign with
  | positive =>
    simp only [rank] at pos
    exact ⟨place, within, by omega, rfl⟩
  | negative =>
    simp only [rank] at pos
    omega

/-- What is not below a positive double is positive. -/
theorem pos_of_le (pos : 0 < x) (le : x ≤ y) : 0 < y := by
  obtain ⟨a, ha, positive, rfl⟩ := exists_place_of_pos pos
  obtain ⟨sign, b, hb, rfl, nonneg⟩ :=
    exists_place_of_nonneg (le_trans_of_nonneg (by decide) (zero_le_signed (.inl rfl)) le)
  have less : a ≤ b := place_le_of_signed_le (.inl rfl) nonneg ha hb le
  rw [zero_eq, lt_iff _ _ (by decide) hb, rank_of_nonneg nonneg, rank]
  omega

theorem beq_zero_of_pos (pos : 0 < x) : (x == 0) = false := by
  obtain ⟨place, within, positive, rfl⟩ := exists_place_of_pos pos
  rw [Bool.eq_false_iff, Ne, beq_zero_signed _ within]
  omega

/-- A quotient by a positive double, which may be infinite. -/
theorem exists_div_of_pos {sign : Sign} {a b : ℕ} (nonneg : sign = .positive ∨ a = 0)
    (finite : a < infinityPlace) (pos : 0 < b) :
    ∃ sign' place, (sign' = .positive ∨ place = 0) ∧
      signed sign a / signed .positive b = signed sign' place ∧
      if b < infinityPlace then RoundsTo (value a / value b) place else place = 0 := by
  split
  · next within =>
    obtain ⟨place, rounds, quotient_eq⟩ := exists_div_signed sign .positive finite within pos
    refine ⟨_, place, nonneg.imp (fun h ↦ by rw [h]; rfl) fun h ↦ ?_, quotient_eq, rounds⟩
    rw [h, value_zero, zero_div, ← value_zero] at rounds
    exact rounds.unique (.value 0)
  · next infinite =>
    exact ⟨_, 0, .inr rfl, div_signed_of_le sign .positive finite (Nat.le_of_not_lt infinite), rfl⟩

/-- A finite double that is not negative, divided by one that is not smaller. -/
theorem div_mem (low : 0 ≤ x) (le : x ≤ y) (pos : 0 < y) (finite : x.isFinite = true) :
    0 ≤ x / y ∧ x / y ≤ 1 := by
  obtain ⟨sign, a, ha, rfl, nonneg⟩ := exists_place_of_nonneg low
  obtain ⟨b, hb, positive, rfl⟩ := exists_place_of_pos pos
  have less : a ≤ b := place_le_of_signed_le nonneg (.inl rfl) ha hb le
  obtain ⟨_, place, nonneg', quotient_eq, rounds⟩ :=
    exists_div_of_pos nonneg ((isFinite_signed _ _).1 finite) positive
  have bound : place ≤ onePlace := by
    split at rounds
    · refine rounds.le_of_le_value ?_
      rw [value_onePlace, div_le_one (value_pos positive)]
      exact value_strictMono.monotone less
    · omega
  rw [quotient_eq, one_eq]
  exact ⟨zero_le_signed nonneg', signed_le_signed nonneg' (.inl rfl) bound⟩

/-- Quotients fall as their divisors grow, up to infinity. -/
protected theorem div_le_div_left {z : Float} (low : 0 ≤ x) (finite : x.isFinite = true)
    (pos : 0 < y) (le : y ≤ z) : x / z ≤ x / y := by
  have pos' := pos_of_le pos le
  obtain ⟨sign, a, ha, rfl, nonneg⟩ := exists_place_of_nonneg low
  obtain ⟨b, hb, positive, rfl⟩ := exists_place_of_pos pos
  obtain ⟨c, hc, positive', rfl⟩ := exists_place_of_pos pos'
  have less : b ≤ c := place_le_of_signed_le (.inl rfl) (.inl rfl) hb hc le
  have small := (isFinite_signed _ _).1 finite
  obtain ⟨_, place, nonneg₁, quotient_eq, rounds⟩ := exists_div_of_pos nonneg small positive
  obtain ⟨_, place', nonneg₂, quotient_eq', rounds'⟩ := exists_div_of_pos nonneg small positive'
  rw [quotient_eq, quotient_eq']
  refine signed_le_signed nonneg₂ nonneg₁ ?_
  split at rounds'
  · next within =>
    rw [if_pos (less.trans_lt within)] at rounds
    exact rounds'.mono rounds (div_le_div_of_nonneg_left (value_nonneg a) (value_pos positive)
      (value_strictMono.monotone less))
  · omega

/-! ## Differences -/

/-- Subtracting is adding the negative. -/
theorem sub_signed (x : Float) (sign : Sign) (place : ℕ) :
    x - signed sign place = x + signed (-sign) place := by
  change packed (UnpackedFloat.sub _ (unpacked x) (unpacked (signed sign place))) =
    packed (UnpackedFloat.add _ (unpacked x) (unpacked (signed (-sign) place)))
  congr 1
  have negated : unpacked (signed (-sign) place) = (unpacked (signed sign place)).neg := by
    rw [unpacked_signed, unpacked_signed]
    split
    · exact (neg_ofPlace sign place).symm
    · rfl
  rw [negated]
  generalize unpacked (signed sign place) = right
  cases unpacked x with
  | notANumber => rfl
  | infinity sign => cases right <;> rfl
  | zero sign => cases right <;> rfl
  | finite sign mantissa exponent pos =>
    cases right with
    | finite sign' mantissa' exponent' pos' =>
      cases sign' with
      | positive => rfl
      | negative =>
        change UnpackedFloat.normalize _ (_ - -_) (min exponent exponent') .positive =
          UnpackedFloat.normalize _ (_ + _) (min exponent exponent') .positive
        rw [sub_neg_eq_add]
        rfl
    | _ => rfl

/-- The difference of two positive doubles. -/
theorem exists_sub_of_pos {a b : ℕ} (ha : 0 < a) (hb : 0 < b) (finite : a < infinityPlace)
    (finite' : b < infinityPlace) :
    ∃ sign place, (b ≤ a → sign = .positive) ∧ RoundsTo |value a - value b| place ∧
      signed .positive a - signed .positive b = signed sign place := by
  obtain ⟨sign, place, sign_eq, rounds, eq⟩ := exists_place_sub ha hb
  refine ⟨sign, place, sign_eq, rounds, ?_⟩
  change packed (UnpackedFloat.sub _ (unpacked (signed .positive a))
    (unpacked (signed .positive b))) = _
  rw [unpacked_of_lt _ finite, unpacked_of_lt _ finite', eq, signed]

/-- The difference of finite doubles that are not negative is finite. -/
theorem isFinite_sub (hx : 0 ≤ x) (hy : 0 ≤ y) (finite : x.isFinite = true)
    (finite' : y.isFinite = true) : (x - y).isFinite = true := by
  obtain ⟨left, a, ha, rfl, nonneg⟩ := exists_place_of_nonneg hx
  obtain ⟨right, b, hb, rfl, nonneg'⟩ := exists_place_of_nonneg hy
  have small := (isFinite_signed _ _).1 finite
  have small' := (isFinite_signed _ _).1 finite'
  rcases Nat.eq_zero_or_pos a with rfl | pos
  · obtain ⟨sign, sum_eq, -⟩ := exists_zero_add left (-right) hb
    rw [sub_signed _ right, sum_eq]
    exact (isFinite_signed _ _).2 small'
  rcases Nat.eq_zero_or_pos b with rfl | pos'
  · obtain ⟨sign, sum_eq, -⟩ := exists_zero_add (-right) left ha
    rw [sub_signed _ right, Double.add_comm, sum_eq]
    exact (isFinite_signed _ _).2 small
  obtain rfl : left = .positive := nonneg.resolve_right pos.ne'
  obtain rfl : right = .positive := nonneg'.resolve_right pos'.ne'
  obtain ⟨sign, place, -, rounds, difference_eq⟩ := exists_sub_of_pos pos pos' small small'
  have bound : place ≤ max a b := by
    have less := value_strictMono.monotone (le_max_left a b)
    have less' := value_strictMono.monotone (le_max_right a b)
    have nonneg := value_nonneg a
    have nonneg' := value_nonneg b
    exact rounds.le_of_le_value (abs_le.2 ⟨by linarith, by linarith⟩)
  rw [difference_eq, isFinite_signed]
  omega

end

end SpanScore.Double
