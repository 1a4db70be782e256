import SpanScore.Proofs.Decimal.Layout
import SpanScore.Proofs.Decimal.Search

/-!
# What is written of a double

In a JSON text a double is written as a number token of at most seventeen digits whose decimal is
rounded to the double.
-/

namespace SpanScore.Decimal

open Double Json.Grammar

/-! ## Digits of scaled decimals -/

namespace Digits

/-- Taking away zeros at the end raises the scale. -/
theorem exists_ofScaled (decimal : ℕ) (scale : ℤ) :
    ∃ zeros : ℕ, decimal = (ofScaled decimal scale).significand * 10 ^ zeros ∧
      (ofScaled decimal scale).exponent + 1 - (ofScaled decimal scale).digits.length =
        scale + zeros ∧
      (Nat.toDigits 10 decimal).length = (ofScaled decimal scale).digits.length + zeros := by
  have parts : Nat.toDigits 10 decimal = (ofScaled decimal scale).digits ++
      ((Nat.toDigits 10 decimal).reverse.takeWhile (· == '0')).reverse := by
    change _ = ((Nat.toDigits 10 decimal).reverse.dropWhile (· == '0')).reverse ++ _
    rw [← List.reverse_append, List.takeWhile_append_dropWhile, List.reverse_reverse]
  have zeros : ((Nat.toDigits 10 decimal).reverse.takeWhile (· == '0')).reverse =
      List.replicate ((Nat.toDigits 10 decimal).reverse.takeWhile (· == '0')).length '0' := by
    rw [List.eq_replicate_iff]
    refine ⟨List.length_reverse, fun char mem ↦ ?_⟩
    simpa using List.mem_takeWhile_imp (List.mem_reverse.1 mem)
  generalize ((Nat.toDigits 10 decimal).reverse.takeWhile (· == '0')).length = count at zeros
  rw [zeros] at parts
  have length := congrArg List.length parts
  rw [List.length_append, List.length_replicate] at length
  refine ⟨count, ?_, ?_, length⟩
  · have spelled := congrArg (Nat.ofDigitChars 10 · 0) parts
    simp only [Nat.ofDigitChars_ten_toDigits, Nat.ofDigitChars_append,
      Nat.ofDigitChars_replicate_zero] at spelled
    exact spelled.trans (Nat.mul_comm _ _)
  · change scale + (Nat.toDigits 10 decimal).length - 1 + 1 - _ = _
    rw [length]
    push_cast
    ring

theorem significand_ofScaled_lt (decimal : ℕ) (scale : ℤ) :
    (ofScaled decimal scale).significand < 10 ^ (ofScaled decimal scale).digits.length := by
  obtain ⟨zeros, decimal_eq, -, length⟩ := exists_ofScaled decimal scale
  have bound := (Nat.length_toDigits_le_iff (b := 10) (by decide) Nat.length_toDigits_pos).1
    (Nat.le_refl (Nat.toDigits 10 decimal).length)
  rw [length, Nat.pow_add] at bound
  exact Nat.lt_of_mul_lt_mul_right (decimal_eq.symm.trans_lt bound)

theorem length_ofScaled_le {decimal : ℕ} (few : decimal ≤ 10 ^ 17) (scale : ℤ) :
    (ofScaled decimal scale).digits.length ≤ 17 := by
  rcases Nat.lt_or_eq_of_le few with less | rfl
  · obtain ⟨zeros, -, -, length⟩ := exists_ofScaled decimal scale
    have bound := (Nat.length_toDigits_le_iff (b := 10) (by decide) (by decide)).2 less
    omega
  · have one : (ofScaled (10 ^ 17) scale).digits = ['1'] := by
      change ((Nat.toDigits 10 (10 ^ 17)).reverse.dropWhile (· == '0')).reverse = ['1']
      decide
    rw [one]
    decide

/-- A token spells the decimal whose digits it spells. -/
theorem IsSpelledBy.value_eq {decimal : ℕ} {scale : ℤ} {token : NumberToken}
    (spelled : (ofScaled decimal scale).IsSpelledBy token) :
    (token.mantissa * 10 ^ token.power : ℚ) = decimal * 10 ^ scale := by
  obtain ⟨zeros, mantissa_eq, power_eq, -⟩ := spelled.digits
  obtain ⟨stripped, decimal_eq, scale_eq, -⟩ := exists_ofScaled decimal scale
  have ten : (10 : ℚ) ≠ 0 := by norm_num
  have balance : zeros + token.power = stripped + scale := by omega
  have left : (token.mantissa * 10 ^ token.power : ℚ) =
      (ofScaled decimal scale).significand * 10 ^ (zeros + token.power : ℤ) := by
    rw [mantissa_eq, zpow_add₀ ten, zpow_natCast]
    push_cast
    ring
  have right : (decimal * 10 ^ scale : ℚ) =
      (ofScaled decimal scale).significand * 10 ^ (stripped + scale : ℤ) := by
    rw [zpow_add₀ ten, zpow_natCast, ← mul_assoc]
    congr 1
    exact_mod_cast decimal_eq
  rw [left, right, balance]

theorem IsSpelledBy.mantissa_pos {decimal : ℕ} {scale : ℤ} {token : NumberToken}
    (spelled : (ofScaled decimal scale).IsSpelledBy token) (pos : 0 < decimal) :
    0 < token.mantissa := by
  refine Nat.pos_of_ne_zero fun zero ↦ ?_
  have value_eq := spelled.value_eq
  have positive : (0 : ℚ) < decimal * 10 ^ scale := by positivity
  rw [zero, Nat.cast_zero, zero_mul] at value_eq
  linarith

/-- Zeros that are written behind digits lower the power of ten to one place behind the point. -/
theorem IsSpelledBy.le_power {decimal : ℕ} {scale : ℤ} {token : NumberToken}
    (spelled : (ofScaled decimal scale).IsSpelledBy token) : min scale (-1) ≤ token.power := by
  obtain ⟨zeros, -, power_eq, place⟩ := spelled.digits
  obtain ⟨stripped, -, scale_eq, -⟩ := exists_ofScaled decimal scale
  rcases place with rfl | ⟨tenth, -⟩ <;> omega

/-- How long the number of a token is that spells digits. -/
theorem IsSpelledBy.mantissa_lt {decimal : ℕ} {scale : ℤ} {token : NumberToken}
    (spelled : (ofScaled decimal scale).IsSpelledBy token) {count : ℕ}
    (few : (ofScaled decimal scale).digits.length ≤ count)
    (room : token.power = -1 → token.exponent = none →
      (ofScaled decimal scale).exponent + 2 ≤ count) :
    token.mantissa < 10 ^ count := by
  obtain ⟨zeros, mantissa_eq, power_eq, place⟩ := spelled.digits
  have bound := significand_ofScaled_lt decimal scale
  have size : (ofScaled decimal scale).digits.length + zeros ≤ count := by
    rcases place with rfl | ⟨tenth, absent⟩
    · omega
    · have low := room tenth absent
      omega
  calc token.mantissa = (ofScaled decimal scale).significand * 10 ^ zeros := mantissa_eq
    _ < 10 ^ (ofScaled decimal scale).digits.length * 10 ^ zeros :=
      Nat.mul_lt_mul_of_pos_right bound (Nat.pow_pos (by decide))
    _ = 10 ^ ((ofScaled decimal scale).digits.length + zeros) := (Nat.pow_add _ _ _).symm
    _ ≤ 10 ^ count := Nat.pow_le_pow_right (by decide) size

end Digits

/-! ## Doubles -/

/-- What is written of a double that is neither zero nor infinite: a token whose decimal is rounded
to the double.  It is scaled once, and as many digits as are written make a number at most as
long, unless the number ends in one place behind the point. -/
structure IsWritten (place : ℕ) (token : NumberToken) : Prop where
  rounds : RoundsTo (token.mantissa * 10 ^ token.power) place
  pos : 0 < token.mantissa
  lt : token.mantissa < 10 ^ 17
  least : -324 ≤ token.power
  value_eq : token.value? = NumberToken.double? token.negative token.mantissa token.power
  lt_of_short : ∀ count, (Binary.ofPlace place).shortest.digits.length ≤ count →
    token.mantissa < 10 ^ count ∨ token.power = -1

namespace IsWritten

variable {place : ℕ} {token : NumberToken} {power : ℤ} {binade : ℕ}

/-- The decimal of a double lies on the side of a power of two on which the double lies. -/
theorem lt_decimal (written : IsWritten place token) (positive : 0 < binade)
    (above : binade * 2 ^ 52 < place) :
    (2 ^ (binade - 1023 : ℤ) : ℚ) < token.mantissa * 10 ^ token.power := by
  rw [← value_binade positive, ← not_le]
  intro le
  have low := written.rounds.le_of_le_value le
  omega

theorem decimal_lt (written : IsWritten place token) (positive : 0 < binade)
    (below : place < binade * 2 ^ 52) :
    (token.mantissa * 10 ^ token.power : ℚ) < 2 ^ (binade - 1023 : ℤ) := by
  rw [← value_binade positive, ← not_le]
  intro le
  have high := written.rounds.le_of_value_le le
  omega

/-- A double that is not small has no small power of ten. -/
theorem lt_power (written : IsWritten place token) {count : ℕ}
    (short : token.mantissa < 10 ^ count) (positive : 0 < binade)
    (above : binade * 2 ^ 52 < place)
    (le : (10 ^ (count + power : ℤ) : ℚ) ≤ 2 ^ (binade - 1023 : ℤ)) : power < token.power := by
  have shortQ : (token.mantissa : ℚ) ≤ 10 ^ (count : ℤ) := by
    rw [zpow_natCast]
    exact_mod_cast short.le
  have bound : (10 : ℚ) ^ (count + power : ℤ) < 10 ^ (count + token.power : ℤ) :=
    calc (10 : ℚ) ^ (count + power : ℤ) ≤ 2 ^ (binade - 1023 : ℤ) := le
      _ < token.mantissa * 10 ^ token.power := written.lt_decimal positive above
      _ ≤ 10 ^ (count : ℤ) * 10 ^ token.power :=
        mul_le_mul_of_nonneg_right shortQ (by positivity)
      _ = 10 ^ (count + token.power : ℤ) := (zpow_add₀ (by norm_num) _ _).symm
  have lt := (zpow_lt_zpow_iff_right₀ (by norm_num)).1 bound
  omega

/-- A double that is not great has no great power of ten. -/
theorem power_lt (written : IsWritten place token) (positive : 0 < binade)
    (below : place < binade * 2 ^ 52)
    (le : (2 ^ (binade - 1023 : ℤ) : ℚ) ≤ 10 ^ power) : token.power < power := by
  have one : (1 : ℚ) ≤ token.mantissa := by exact_mod_cast written.pos
  have bound : (10 : ℚ) ^ token.power < 10 ^ power :=
    calc (10 : ℚ) ^ token.power ≤ token.mantissa * 10 ^ token.power :=
          le_mul_of_one_le_left (by positivity) one
      _ < 2 ^ (binade - 1023 : ℤ) := written.decimal_lt positive below
      _ ≤ 10 ^ power := le
  exact (zpow_lt_zpow_iff_right₀ (by norm_num)).1 bound

end IsWritten

/-- A double is written as a token whose decimal is rounded to the double. -/
theorem Layout.exists_isWritten {place : ℕ} (positive : 0 < place) (finite : place < infinityPlace)
    (sign : Float.Model.UnpackedFloat.Sign) (negative : Bool) :
    ∃ token : NumberToken, token.negative = negative ∧
      token.unsigned = Layout.json.magnitude (signed sign place) ∧ IsWritten place token ∧
      (Binary.ofPlace place).shortest.IsSpelledBy token := by
  obtain ⟨decimal, scale, shortest, rounds, pos, few, least, greatest⟩ :=
    Binary.exists_shortest positive finite
  have nonzero : (Binary.ofFloat (signed sign place)).mantissa ≠ 0 := by
    rw [Binary.ofFloat_signed sign finite]
    exact mt significand_eq_zero_iff.1 positive.ne'
  obtain ⟨token, negative_eq, text, spelled, positional⟩ :=
    Layout.json.exists_token nonzero negative
  rw [Binary.ofFloat_signed sign finite, shortest] at spelled positional
  rw [shortest]
  have size := Digits.length_ofScaled_le few scale
  have lt : token.mantissa < 10 ^ 17 := by
    refine spelled.mantissa_lt size fun _ absent ↦ ?_
    have low := positional absent
    simp only [Layout.isPositional, Layout.json, Option.all_some, Bool.and_eq_true,
      decide_eq_true_eq] at low
    omega
  have lowest := spelled.le_power
  refine ⟨token, negative_eq, text, ⟨by rwa [spelled.value_eq], spelled.mantissa_pos pos, lt,
    by omega, ?_, ?_⟩, spelled⟩
  · refine NumberToken.value?_of_lt (lt.trans (by decide)) (fun exponent some ↦ ?_) spelled.pointed
    obtain ⟨stripped, -, scale_eq, length⟩ := Digits.exists_ofScaled decimal scale
    have long : (Nat.toDigits 10 decimal).length ≤ 18 :=
      (Nat.length_toDigits_le_iff (by decide) (by decide)).2 (few.trans_lt (by decide))
    rw [spelled.magnitude exponent some]
    omega
  · intro count short
    rw [shortest] at short
    by_cases tenth : token.power = -1
    · exact .inr tenth
    · exact .inl (spelled.mantissa_lt short fun same ↦ absurd same tenth)

end SpanScore.Decimal
