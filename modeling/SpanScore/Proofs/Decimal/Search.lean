import SpanScore.Proofs.Decimal.Nearest

/-!
# The search for shortest digits

From the first digit on the search succeeds with seventeen digits at the latest, and for the least
doubles at the scale `10 ^ -324`.  So the shortest digits of a double are those of a decimal that is
rounded to it, and bounds are known for their number and for their scale.
-/

namespace SpanScore.Decimal

open Double

namespace Binary

variable {number : Binary}

/-! ## Success -/

/-- A number lies between the ends of its interval. -/
theorem value_mem_interval (range : number.InRange) :
    number.quarters number.lowerQuarters < number.value ∧
      number.value < number.quarters (4 * number.mantissa + 2) := by
  have unit : (0 : ℚ) < 2 ^ (number.exponent - 2) := by positivity
  have pos : 0 < number.mantissa := range.mantissa_pos
  have fewer : number.lowerQuarters < 4 * number.mantissa := by
    unfold lowerQuarters
    split <;> omega
  rw [Binary.value, ← number.quarters_four_mul number.mantissa]
  exact ⟨mul_lt_mul_of_pos_right (Nat.cast_lt.2 fewer) unit,
    mul_lt_mul_of_pos_right (Nat.cast_lt.2 (by omega)) unit⟩

/-- A scale that is finer than the interval of a number has a decimal in it, for else the two
decimals around the number would both lie outside, and the interval between them. -/
theorem exists_nearestAt? (range : number.InRange) {scale : ℤ}
    (fine : 10 ^ scale < number.quarters (4 * number.mantissa + 2) -
      number.quarters number.lowerQuarters) :
    ∃ decimal, number.nearestAt? scale = some decimal := by
  cases found : number.nearestAt? scale with
  | some decimal => exact ⟨decimal, rfl⟩
  | none =>
    obtain ⟨below, above⟩ := roundsFrom_of_nearestAt?_eq_none found
    obtain ⟨lower, upper⟩ := value_mem_interval range
    have floor_le := number.floorAt_le scale
    have lt_succ := number.lt_floorAt_succ scale
    have left : number.floorAt scale * 10 ^ scale ≤ number.quarters number.lowerQuarters := by
      by_contra inside
      rw [not_le] at inside
      refine absurd (roundsFrom_iff.2 ⟨inside.le, ?_, fun _ ↦ ⟨inside, ?_⟩⟩)
        (Bool.eq_false_iff.1 below) <;> linarith
    have right : number.quarters (4 * number.mantissa + 2) ≤
        (number.floorAt scale + 1 : ℕ) * 10 ^ scale := by
      by_contra inside
      rw [not_le] at inside
      refine absurd (roundsFrom_iff.2 ⟨?_, inside.le, fun _ ↦ ⟨?_, inside⟩⟩)
        (Bool.eq_false_iff.1 above) <;> linarith
    push_cast at right
    linarith

/-- The width of the interval of a number is a unit in the last place, or three quarters of one. -/
theorem width_eq (range : number.InRange) :
    number.quarters (4 * number.mantissa + 2) - number.quarters number.lowerQuarters =
      (if number.mantissa = 2 ^ 52 ∧ number.exponent ≠ -1074 then 3 / 4 else 1) *
        2 ^ number.exponent := by
  obtain ⟨before, mantissa_eq⟩ := Nat.exists_eq_succ_of_ne_zero range.mantissa_pos.ne'
  have lower_eq : number.lowerQuarters =
      if number.mantissa = 2 ^ 52 ∧ number.exponent ≠ -1074 then 4 * before + 3
      else 4 * before + 2 := by
    simp only [lowerQuarters, Nat.pow_eq, Bool.and_eq_true, decide_eq_true_eq, bne_iff_ne]
    split <;> omega
  have power : (2 : ℚ) ^ number.exponent = 4 * 2 ^ (number.exponent - 2) := by
    rw [zpow_sub₀ two_ne_zero]
    ring
  rw [quarters, quarters, lower_eq, power]
  generalize (2 : ℚ) ^ (number.exponent - 2) = unit
  split <;> rw [mantissa_eq] <;> push_cast <;> ring

/-- With seventeen digits the search succeeds. -/
theorem exists_nearestAt?_of_seventeen (range : number.InRange) :
    ∃ decimal, number.nearestAt? (number.leadingExponent - 16) = some decimal := by
  apply exists_nearestAt? range
  have unit : (0 : ℚ) < 2 ^ number.exponent := by positivity
  have bits : (number.mantissa : ℚ) < 2 ^ 53 := by exact_mod_cast range.mantissa_lt
  have first := (leadingExponent_spec range).1
  rw [Binary.value] at first
  rw [width_eq range, zpow_sub₀ (by norm_num), div_lt_iff₀ (by norm_num)]
  refine first.trans_lt ?_
  rw [mul_right_comm]
  refine mul_lt_mul_of_pos_right ?_ unit
  split
  · next boundary =>
    rw [boundary.1]
    norm_num
  · refine bits.trans ?_
    norm_num

/-- For the numbers with the least exponent the search succeeds at the scale `10 ^ -324`. -/
theorem exists_nearestAt?_of_least (range : number.InRange) (least : number.exponent = -1074) :
    ∃ decimal, number.nearestAt? (-324) = some decimal := by
  apply exists_nearestAt? range
  rw [width_eq range, least, if_neg (by simp), one_mul]
  calc (10 : ℚ) ^ (-324 : ℤ) ≤ 2 ^ (-1075 : ℤ) := ten_zpow_le_two_zpow (by decide) (by decide)
    _ < 2 ^ (-1074 : ℤ) := zpow_lt_zpow_right₀ (by norm_num) (by decide)

/-! ## Doubles -/

theorem inRange_ofPlace {place : ℕ} (positive : 0 < place) (finite : place < infinityPlace) :
    (ofPlace place).InRange := by
  unfold infinityPlace at finite
  constructor
  · exact Nat.pos_of_ne_zero (mt significand_eq_zero_iff.1 positive.ne')
  · exact significand_lt place
  · exact le_exponent place
  · change Double.exponent place ≤ 972
    unfold Double.exponent
    split <;> omega

variable {place : ℕ}

/-- No double has its first digit below the scale `10 ^ -324`. -/
theorem le_leadingExponent (range : number.InRange) : -324 ≤ number.leadingExponent := by
  have bounds := binaryExponent_mem range
  have last : (10 : ℚ) ^ (-324 : ℤ) < 10 ^ (number.leadingExponent + 1) :=
    calc (10 : ℚ) ^ (-324 : ℤ) ≤ 2 ^ (-1074 : ℤ) := ten_zpow_le_two_zpow (by decide) (by decide)
      _ ≤ 2 ^ number.binaryExponent := zpow_le_zpow_right₀ (by norm_num) bounds.1
      _ ≤ number.value := two_zpow_le_value range
      _ < 10 ^ (number.leadingExponent + 1) := (leadingExponent_spec range).2
  have lt := (zpow_lt_zpow_iff_right₀ (by norm_num)).1 last
  omega

/-- No double has its first digit above the scale `10 ^ 308`. -/
theorem leadingExponent_le (range : number.InRange) : number.leadingExponent ≤ 308 := by
  have bounds := binaryExponent_mem range
  have first : (10 : ℚ) ^ number.leadingExponent < 10 ^ (309 : ℤ) :=
    calc (10 : ℚ) ^ number.leadingExponent ≤ number.value := (leadingExponent_spec range).1
      _ < 2 ^ (number.binaryExponent + 1) := number.value_lt_two_zpow
      _ ≤ 2 ^ (1025 : ℤ) := zpow_le_zpow_right₀ (by norm_num) (by omega)
      _ ≤ 10 ^ (309 : ℤ) := two_zpow_le_ten_zpow (by decide) (by decide)
  have lt := (zpow_lt_zpow_iff_right₀ (by norm_num)).1 first
  omega

/-- Doubles far down have the least exponent. -/
theorem exponent_of_leadingExponent_lt (range : (ofPlace place).InRange)
    (small : (ofPlace place).leadingExponent < -308) : (ofPlace place).exponent = -1074 := by
  refine (exponent_eq_or_le_significand place).resolve_right fun bits ↦ ?_
  have bitsQ : (2 ^ 52 : ℚ) ≤ significand place := by exact_mod_cast bits
  have least := le_exponent place
  have upper := (leadingExponent_spec range).2
  have lower : (2 : ℚ) ^ (-1022 : ℤ) ≤ (ofPlace place).value :=
    calc (2 : ℚ) ^ (-1022 : ℤ) = 2 ^ 52 * 2 ^ (-1074 : ℤ) := by
          rw [← zpow_natCast, ← zpow_add₀ two_ne_zero]
          rfl
      _ ≤ significand place * 2 ^ Double.exponent place :=
        mul_le_mul bitsQ (zpow_le_zpow_right₀ (by norm_num) least) (by positivity) (by positivity)
  have power : (10 : ℚ) ^ ((ofPlace place).leadingExponent + 1) ≤ 2 ^ (-1022 : ℤ) :=
    calc (10 : ℚ) ^ ((ofPlace place).leadingExponent + 1) ≤ 10 ^ (-308 : ℤ) :=
          zpow_le_zpow_right₀ (by norm_num) (by omega)
      _ ≤ 2 ^ (-1022 : ℤ) := ten_zpow_le_two_zpow (by decide) (by decide)
  linarith

/-- The search succeeds with at most seventeen digits, and not below the scale `10 ^ -324`. -/
theorem exists_success (positive : 0 < place) (finite : place < infinityPlace) :
    ∃ more : ℕ, more < 17 ∧ -324 ≤ (ofPlace place).leadingExponent - more ∧
      ∃ decimal, (ofPlace place).nearestAt? ((ofPlace place).leadingExponent - more) =
        some decimal := by
  have range := inRange_ofPlace positive finite
  have least := le_leadingExponent range
  rcases Int.lt_or_le (ofPlace place).leadingExponent (-308) with small | normal
  · obtain ⟨more, more_eq⟩ := Int.le.dest least
    refine ⟨more, by omega, by omega, ?_⟩
    rw [show (ofPlace place).leadingExponent - more = -324 by omega]
    exact exists_nearestAt?_of_least range (exponent_of_leadingExponent_lt range small)
  · exact ⟨16, by decide, by omega, exists_nearestAt?_of_seventeen range⟩

/-- A decimal that is found has at most as many digits as were tried. -/
theorem le_ten_pow_of_nearestAt? (range : number.InRange) {more decimal : ℕ}
    (found : number.nearestAt? (number.leadingExponent - more) = some decimal) :
    decimal ≤ 10 ^ (more + 1) := by
  have near := (roundsFrom_of_nearestAt? found).2
  have floor_lt : number.floorAt (number.leadingExponent - more) < 10 ^ (more + 1) := by
    have unit : (0 : ℚ) < 10 ^ (number.leadingExponent - more) := by positivity
    have le := number.floorAt_le (number.leadingExponent - more)
    have upper := (leadingExponent_spec range).2
    have power : (10 : ℚ) ^ (number.leadingExponent + 1) =
        10 ^ (more + 1) * 10 ^ (number.leadingExponent - more) := by
      rw [← zpow_natCast, ← zpow_add₀ (by norm_num)]
      congr 1
      push_cast
      ring
    rw [power] at upper
    exact_mod_cast lt_of_mul_lt_mul_right (le.trans_lt upper) unit.le
  omega

/-- The shortest digits of a double are those of a decimal that is rounded to it.  The search for
them stops no later than where it is known to succeed. -/
theorem exists_shortest (positive : 0 < place) (finite : place < infinityPlace) :
    ∃ (decimal : ℕ) (scale : ℤ), (ofPlace place).shortest = Digits.ofScaled decimal scale ∧
      RoundsTo (decimal * 10 ^ scale) place ∧ 0 < decimal ∧ decimal ≤ 10 ^ 17 ∧
        -324 ≤ scale ∧ scale ≤ 308 := by
  have range := inRange_ofPlace positive finite
  have greatest := leadingExponent_le range
  obtain ⟨enough, few, least, decimal', success⟩ := exists_success positive finite
  unfold shortest
  dsimp only
  cases search : (List.range 17).findSome? fun (more : ℕ) ↦
      ((ofPlace place).nearestAt? ((ofPlace place).leadingExponent - more)).map fun decimal ↦
        Digits.ofScaled decimal ((ofPlace place).leadingExponent - more) with
  | none =>
    have failed := List.findSome?_eq_none_iff.1 search enough (List.mem_range.2 few)
    rw [success] at failed
    cases failed
  | some digits =>
    obtain ⟨before, more, after, split, found, earlier⟩ := List.findSome?_eq_some_iff.1 search
    obtain ⟨decimal, nearest, rfl⟩ := Option.map_eq_some_iff.1 found
    rw [List.range_eq_range', List.range'_eq_append_iff] at split
    obtain ⟨last, -, rfl, others⟩ := split
    obtain ⟨more_eq, -, -⟩ := List.range'_eq_cons_iff.1 others.symm
    have early : more ≤ enough := by
      by_contra late
      have failed := earlier enough (List.mem_range'_1.2 ⟨by omega, by omega⟩)
      rw [success] at failed
      cases failed
    refine ⟨decimal, _, rfl, roundsTo_of_roundsFrom positive (roundsFrom_of_nearestAt? nearest).1,
      nearestAt?_pos range.mantissa_pos nearest, ?_, by omega, by omega⟩
    exact (le_ten_pow_of_nearestAt? range nearest).trans
      (Nat.pow_le_pow_right (by decide) (by omega))

end Binary

end SpanScore.Decimal
