import Mathlib.Data.List.DropRight
import SpanScore.Proofs.Decimal.Comparison

/-!
# What the shortest digits look like

The shortest digits of a positive number are decimal digits, and the first of them is no zero.  For
that the search has to leave zero out at every scale, and the scale at which it gives up has to be
fine enough for the number not to vanish there: the exponent from which the scales are counted is
that of the first decimal digit.
-/

namespace SpanScore.Decimal

/-! ## Digits with no zero in front -/

/-- Decimal digits, at least one, with no zero in front. -/
structure Digits.IsProper (number : Digits) : Prop where
  starts : ∃ digit others, number.digits = digit :: others ∧ digit ≠ '0'
  decimal : ∀ char ∈ number.digits, char.isDigit

/-- The first digit of a positive number is no zero. -/
theorem exists_cons_toDigits {number : Nat} (h : 0 < number) :
    ∃ digit others, Nat.toDigits 10 number = digit :: others ∧ digit ≠ '0' := by
  induction number using Nat.strongRecOn with
  | ind number ih =>
    rw [Nat.toDigits_eq_if (by decide)]
    split
    · next small =>
      have nonzero : ∀ digit : Fin 10, 0 < digit.val → digit.val.digitChar ≠ '0' := by decide
      exact ⟨_, [], rfl, nonzero ⟨number, small⟩ h⟩
    · next large =>
      obtain ⟨digit, others, front, nonzero⟩ := ih (number / 10) (by omega) (by omega)
      exact ⟨digit, others ++ [(number % 10).digitChar], by rw [front, List.cons_append], nonzero⟩

/-- Taking the zeros at the end away keeps the first digit. -/
theorem Digits.isProper_ofScaled {decimal : Nat} (h : 0 < decimal) (scale : Int) :
    (Digits.ofScaled decimal scale).IsProper := by
  obtain ⟨digit, others, digits, nonzero⟩ := exists_cons_toDigits h
  have stripped : (Digits.ofScaled decimal scale).digits =
      (Nat.toDigits 10 decimal).rdropWhile (· == '0') := rfl
  have sub := List.rdropWhile_prefix (· == '0') (Nat.toDigits 10 decimal)
  constructor
  · have kept : (Digits.ofScaled decimal scale).digits ≠ [] := by
      rw [stripped, ne_eq, List.rdropWhile_eq_nil_iff]
      intro all
      have zero := all digit (by rw [digits]; exact List.mem_cons_self)
      exact nonzero (by simpa using zero)
    obtain ⟨first, rest, parts⟩ := List.exists_cons_of_ne_nil kept
    have same : first = digit := by
      rw [← stripped, parts, digits, List.cons_prefix_cons] at sub
      exact sub.1
    exact ⟨first, rest, parts, same ▸ nonzero⟩
  · intro char mem
    rw [stripped] at mem
    exact Nat.isDigit_of_mem_toDigits (by decide) (by decide) (sub.subset mem)

/-! ## Powers of ten and of two -/

section

variable {a b : ℚ} {p q u v : ℕ} {s t : ℤ}

theorem zpow_le_zpow_of_nonneg (ha : 1 ≤ a) (hb : 1 ≤ b) (hp : 0 < p) (h : a ^ p ≤ b ^ q)
    (nonneg : 0 ≤ s) (le : q * s ≤ p * t) : a ^ s ≤ b ^ t := by
  have hb' : 0 < b := by linarith
  refine le_of_pow_le_pow_left₀ hp.ne' (zpow_nonneg hb'.le t) ?_
  calc (a ^ s) ^ p = (a ^ p) ^ s := by rw [← zpow_natCast, ← zpow_natCast, zpow_comm]
    _ ≤ (b ^ q) ^ s := zpow_le_zpow_left₀ nonneg (by positivity) h
    _ = b ^ (q * s) := by rw [← zpow_natCast, ← zpow_mul]
    _ ≤ b ^ (p * t) := zpow_le_zpow_right₀ hb le
    _ = (b ^ t) ^ p := by rw [← zpow_natCast, ← zpow_mul, mul_comm]

/-- Powers are compared by two ratios of exponents, one above and one below the true one. -/
theorem zpow_le_zpow_of_pow_le (ha : 1 ≤ a) (hb : 1 ≤ b) (hp : 0 < p) (hu : 0 < u)
    (h : a ^ p ≤ b ^ q) (h' : b ^ u ≤ a ^ v) (le : q * s ≤ p * t) (le' : u * s ≤ v * t) :
    a ^ s ≤ b ^ t := by
  rcases Int.le_total 0 s with nonneg | nonpos
  · exact zpow_le_zpow_of_nonneg ha hb hp h nonneg le
  rcases Int.le_total 0 t with nonneg' | nonpos'
  · calc a ^ s ≤ 1 := zpow_le_one_of_nonpos₀ ha nonpos
      _ ≤ b ^ t := one_le_zpow₀ hb nonneg'
  · have inverse : b ^ (-t) ≤ a ^ (-s) :=
      zpow_le_zpow_of_nonneg hb ha hu h' (by omega) (by linarith)
    rw [zpow_neg, zpow_neg, inv_le_inv₀ (zpow_pos (by linarith) t) (zpow_pos (by linarith) s)]
      at inverse
    exact inverse

end

theorem ten_zpow_le_two_zpow {tens twos : ℤ} (above : 196 * tens ≤ 59 * twos)
    (below : 93 * tens ≤ 28 * twos) : (10 ^ tens : ℚ) ≤ 2 ^ twos :=
  zpow_le_zpow_of_pow_le (by norm_num) (by norm_num) (p := 59) (q := 196) (u := 93) (v := 28)
    (by decide) (by decide) (by norm_num) (by norm_num) above below

theorem two_zpow_le_ten_zpow {twos tens : ℤ} (above : 28 * twos ≤ 93 * tens)
    (below : 59 * twos ≤ 196 * tens) : (2 ^ twos : ℚ) ≤ 10 ^ tens :=
  zpow_le_zpow_of_pow_le (by norm_num) (by norm_num) (p := 93) (q := 28) (u := 59) (v := 196)
    (by decide) (by decide) (by norm_num) (by norm_num) above below

namespace Binary

variable {number : Binary}

/-! ## The first digit -/

/-- The numbers that doubles have as magnitudes. -/
structure InRange (number : Binary) : Prop where
  mantissa_pos : 0 < number.mantissa
  mantissa_lt : number.mantissa < 2 ^ 53
  le_exponent : -1074 ≤ number.exponent
  exponent_le : number.exponent ≤ 972

/-- The exponent of a number's first binary digit. -/
def binaryExponent (number : Binary) : ℤ :=
  Int.ofNat number.mantissa.log2 + number.exponent

theorem log2_mantissa_lt (range : number.InRange) : number.mantissa.log2 < 53 :=
  (Nat.log2_lt (Nat.ne_of_gt range.mantissa_pos)).2 range.mantissa_lt

theorem two_zpow_le_value (range : number.InRange) : 2 ^ number.binaryExponent ≤ number.value := by
  have first : 2 ^ number.mantissa.log2 ≤ number.mantissa :=
    Nat.log2_self_le range.mantissa_pos.ne'
  have firstQ : (2 ^ number.mantissa.log2 : ℚ) ≤ number.mantissa := by exact_mod_cast first
  rw [binaryExponent, Int.ofNat_eq_natCast, zpow_add₀ two_ne_zero, zpow_natCast, value]
  exact mul_le_mul_of_nonneg_right firstQ (by positivity)

theorem value_lt_two_zpow (number : Binary) : number.value < 2 ^ (number.binaryExponent + 1) := by
  have last : number.mantissa < 2 ^ (number.mantissa.log2 + 1) := Nat.lt_log2_self
  have lastQ : (number.mantissa : ℚ) < 2 ^ (number.mantissa.log2 + 1) := by exact_mod_cast last
  rw [binaryExponent, Int.ofNat_eq_natCast, add_right_comm, zpow_add₀ two_ne_zero, value,
    ← Nat.cast_succ, zpow_natCast]
  exact mul_lt_mul_of_pos_right lastQ (by positivity)

theorem binaryExponent_mem (range : number.InRange) :
    -1074 ≤ number.binaryExponent ∧ number.binaryExponent ≤ 1024 := by
  have size := log2_mantissa_lt range
  have least := range.le_exponent
  have greatest := range.exponent_le
  rw [binaryExponent, Int.ofNat_eq_natCast]
  omega

/-- The leading exponent is that of the first decimal digit. -/
theorem leadingExponent_spec (range : number.InRange) :
    10 ^ number.leadingExponent ≤ number.value ∧
      number.value < 10 ^ (number.leadingExponent + 1) := by
  have bounds := binaryExponent_mem range
  have low := two_zpow_le_value range
  have high := number.value_lt_two_zpow
  have estimate_le := Int.mul_ediv_add_emod (number.binaryExponent * 1233) 4096
  have rest_nonneg := Int.emod_nonneg (number.binaryExponent * 1233) (b := 4096) (by decide)
  have rest_lt := Int.emod_lt_of_pos (number.binaryExponent * 1233) (b := 4096) (by decide)
  unfold leadingExponent
  dsimp only
  rw [← binaryExponent]
  generalize number.binaryExponent = twos at bounds low high estimate_le rest_nonneg rest_lt ⊢
  generalize twos * 1233 / 4096 = estimate at estimate_le ⊢
  have below {scale : ℤ} (h : ¬0 < number.floorAt scale) : number.value < 10 ^ scale :=
    not_le.1 (mt floorAt_pos_iff.2 h)
  split
  · next above =>
    refine ⟨floorAt_pos_iff.1 above, high.trans_le ?_⟩
    exact two_zpow_le_ten_zpow (by omega) (by omega)
  · next notAbove =>
    split
    · next exact => exact ⟨floorAt_pos_iff.1 exact, below notAbove⟩
    · next less =>
      refine ⟨(ten_zpow_le_two_zpow (by omega) (by omega)).trans low, ?_⟩
      rw [sub_add_cancel]
      exact below less

/-- Seventeen digits are enough for a number not to vanish. -/
theorem floorAt_leadingExponent_pos (range : number.InRange) :
    0 < number.floorAt (number.leadingExponent - 16) :=
  floorAt_pos_iff.2 <|
    calc (10 : ℚ) ^ (number.leadingExponent - 16) ≤ 10 ^ number.leadingExponent :=
          zpow_le_zpow_right₀ (by norm_num) (by omega)
      _ ≤ number.value := (leadingExponent_spec range).1

/-! ## The digits that are found -/

/-- The shortest digits of a number are proper. -/
theorem isProper_shortest (range : number.InRange) :
    number.shortest.IsProper := by
  unfold shortest
  dsimp only
  cases search : (List.range 17).findSome? fun (more : Nat) ↦
      (number.nearestAt? (number.leadingExponent - more)).map fun decimal ↦
        Digits.ofScaled decimal (number.leadingExponent - more) with
  | none => exact Digits.isProper_ofScaled (floorAt_leadingExponent_pos range) _
  | some digits =>
    obtain ⟨more, -, found⟩ := List.exists_of_findSome?_eq_some search
    obtain ⟨decimal, nearest, rfl⟩ := Option.map_eq_some_iff.1 found
    exact Digits.isProper_ofScaled (nearestAt?_pos range.mantissa_pos nearest) _

/-- The magnitude of a double that is not zero is in range. -/
theorem inRange_ofFloat {value : Float} (h : (ofFloat value).mantissa ≠ 0) :
    (ofFloat value).InRange := by
  have fraction : value.toBits.toNat % 2 ^ 52 < 2 ^ 52 := Nat.mod_lt _ (by decide)
  have field : value.toBits.toNat / 2 ^ 52 % 2 ^ 11 < 2 ^ 11 := Nat.mod_lt _ (by decide)
  unfold ofFloat at h ⊢
  simp only [Nat.pow_eq, Int.ofNat_eq_natCast] at h ⊢
  split at h
  · next zero =>
    rw [if_pos zero]
    constructor <;> dsimp only at h ⊢ <;> omega
  · next nonzero =>
    rw [if_neg nonzero]
    constructor <;> dsimp only at h ⊢ <;> omega

end Binary

end SpanScore.Decimal
