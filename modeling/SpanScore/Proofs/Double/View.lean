import SpanScore.Proofs.Double.Arithmetic
import SpanScore.Proofs.Double.Bits

/-!
# Doubles by sign and place

Every double that is a number has a sign and a place, up to the place of infinity.  In this view
negation and magnitude change the sign alone, and the other operations round the exact result to a
place; a result behind all doubles is infinity.
-/

namespace SpanScore.Double

open Float.Model Float.Model.UnpackedFloat

/-- What a double is. -/
def unpacked (x : Float) : UnpackedFloat :=
  x.toModel.unpack

/-- The double that is a rounded number. -/
def packed (number : UnpackedFloat) : Float :=
  .ofModel (.pack number)

/-- The double with a sign at a place; infinity takes all places behind the doubles. -/
def signed (sign : Sign) (place : ℕ) : Float :=
  packed (ofPlace sign place)

/-! ## All doubles -/

theorem toNat_toBits_signed (sign : Sign) (place : ℕ) :
    (signed sign place).toBits.toNat = signBit sign * 2 ^ 63 + min place infinityPlace :=
  toNat_pack_ofPlace sign place

theorem unpacked_signed (sign : Sign) (place : ℕ) :
    unpacked (signed sign place) =
      if place < infinityPlace then ofPlace sign place else .infinity sign :=
  unpack_pack_ofPlace sign place

theorem unpacked_of_lt (sign : Sign) {place : ℕ} (finite : place < infinityPlace) :
    unpacked (signed sign place) = ofPlace sign place := by
  rw [unpacked_signed, if_pos finite]

theorem unpacked_of_le (sign : Sign) {place : ℕ} (infinite : infinityPlace ≤ place) :
    unpacked (signed sign place) = .infinity sign := by
  rw [unpacked_signed, if_neg (by omega)]

theorem eq_of_toNat_toBits {x y : Float} (h : x.toBits.toNat = y.toBits.toNat) : x = y := by
  obtain ⟨⟨bits, _⟩⟩ := x
  obtain ⟨⟨bits', _⟩⟩ := y
  obtain rfl : bits = bits' := UInt64.toNat_inj.1 h
  rfl

/-- All places from that of infinity on are one double. -/
theorem signed_of_le (sign : Sign) {place : ℕ} (infinite : infinityPlace ≤ place) :
    signed sign place = signed sign infinityPlace := by
  apply eq_of_toNat_toBits
  rw [toNat_toBits_signed, toNat_toBits_signed, Nat.min_eq_right infinite, Nat.min_self]

theorem packed_infinity (sign : Sign) : packed (.infinity sign) = signed sign infinityPlace := by
  apply eq_of_toNat_toBits
  rw [toNat_toBits_signed, Nat.min_self]
  exact toNat_packedInfinity sign

/-- A double is no number, or it has a sign and a place. -/
theorem isNaN_or_exists_signed (x : Float) :
    x.isNaN = true ∨ ∃ sign place, place ≤ infinityPlace ∧ x = signed sign place := by
  obtain ⟨sign, place, small, bits_eq⟩ := exists_signBit_add x.toBits.toNat_lt
  rcases Nat.lt_or_ge infinityPlace place with beyond | within
  · exact .inl ((isNaN_unpack_iff bits_eq small).2 beyond)
  · refine .inr ⟨sign, place, within, eq_of_toNat_toBits ?_⟩
    rw [toNat_toBits_signed, Nat.min_eq_left within, bits_eq]

/-- The bits of what is no number. -/
theorem toNat_toBits_of_isNaN {x : Float} (not : x.isNaN = true) :
    x.toBits.toNat = (packedNaN Format.binary64).toNat := by
  obtain ⟨⟨bits, valid⟩⟩ := x
  obtain ⟨sign, place, small, bits_eq⟩ := exists_signBit_add bits.toNat_lt
  have beyond : infinityPlace < place := (isNaN_unpack_iff bits_eq small).1 not
  unfold infinityPlace at beyond
  have top : @unpackExponent Format.binary64 bits.toBitVec = -1#11 := by
    rw [unpackExponent_eq_iff bits_eq small, show (-1#11).toNat = 2047 from rfl]
    omega
  have filled : @unpackMantissa Format.binary64 bits.toBitVec ≠ 0#52 := by
    rw [ne_eq, unpackMantissa_eq_zero_iff bits_eq]
    omega
  exact congrArg BitVec.toNat (valid.eq_packedNaN top filled)

/-- There is only one double that is no number. -/
theorem eq_of_isNaN {x y : Float} (hx : x.isNaN = true) (hy : y.isNaN = true) : x = y :=
  eq_of_toNat_toBits ((toNat_toBits_of_isNaN hx).trans (toNat_toBits_of_isNaN hy).symm)

@[simp] theorem isNaN_signed (sign : Sign) (place : ℕ) : (signed sign place).isNaN = false := by
  change (unpacked (signed sign place)).isNaN = false
  rw [unpacked_signed]
  split
  · exact isNaN_ofPlace sign place
  · rfl

/-- Fields that are not those of infinity are a sign and a place. -/
theorem packed_of_components {number : UnpackedFloat} {sign : Sign} {field : BitVec 11}
    {fraction : BitVec 52} (proper : field.toNat < 2047)
    (eq : UnpackedFloat.pack Format.binary64 number =
      packComponents Format.binary64 sign field fraction) :
    packed number = signed sign (field.toNat * 2 ^ 52 + fraction.toNat) := by
  have bound := fraction.isLt
  apply eq_of_toNat_toBits
  rw [toNat_toBits_signed, infinityPlace, Nat.min_eq_left (by omega)]
  exact (congrArg BitVec.toNat eq).trans (toNat_packComponents sign field fraction)

/-- A number is packed to one place, whatever its sign. -/
theorem exists_place_packed {mantissa : ℕ} (exponent : ℤ) (pos : 0 < mantissa) :
    ∃ place, ∀ sign, packed (.finite sign mantissa exponent pos) = signed sign place := by
  obtain ⟨field, field_eq⟩ : ∃ field : ℕ,
      (exponent + Format.binary64.exponentBias + (52 : ℕ)).toNat = field := ⟨_, rfl⟩
  have pack_eq (sign : Sign) := pack_finite sign pos field_eq
  by_cases above : 2048 ≤ field + 1
  · refine ⟨infinityPlace, fun sign ↦ ?_⟩
    have bits_eq := congrArg BitVec.toNat ((pack_eq sign).trans (if_pos above))
    rw [toNat_packedInfinity] at bits_eq
    apply eq_of_toNat_toBits
    rw [toNat_toBits_signed, Nat.min_self]
    exact bits_eq
  by_cases normal : mantissa.log2 + 1 = 53
  · have proper : (BitVec.ofNat 11 field).toNat < 2047 := by
      rw [BitVec.toNat_ofNat]
      omega
    exact ⟨_, fun sign ↦ packed_of_components proper
      (by rw [pack_eq, if_neg above, if_pos normal])⟩
  · have proper : (0 : BitVec 11).toNat < 2047 := by decide
    exact ⟨_, fun sign ↦ packed_of_components proper
      (by rw [pack_eq, if_neg above, if_neg normal])⟩

/-- Packing keeps what is no number. -/
theorem isNaN_packed (number : UnpackedFloat) : (packed number).isNaN = number.isNaN := by
  cases number with
  | notANumber => rfl
  | infinity sign => rw [packed_infinity, isNaN_signed]; rfl
  | zero sign => exact isNaN_signed sign 0
  | finite sign mantissa exponent pos =>
    obtain ⟨place, packed_eq⟩ := exists_place_packed exponent pos
    rw [packed_eq, isNaN_signed]
    rfl

/-- A double is what it is unpacked to. -/
theorem packed_unpacked (x : Float) : packed (unpacked x) = x := by
  rcases isNaN_or_exists_signed x with not | ⟨sign, place, -, rfl⟩
  · exact eq_of_isNaN ((isNaN_packed _).trans not) not
  · rw [unpacked_signed]
    split
    · rfl
    · next infinite => rw [packed_infinity, signed_of_le _ (Nat.le_of_not_lt infinite)]

theorem isFinite_signed (sign : Sign) (place : ℕ) :
    (signed sign place).isFinite = true ↔ place < infinityPlace := by
  change (unpacked (signed sign place)).isFinite = true ↔ _
  rw [unpacked_signed]
  split
  · next inside => exact iff_of_true (isFinite_ofPlace sign place) inside
  · next infinite => exact iff_of_false Bool.false_ne_true infinite

theorem isInf_signed (sign : Sign) (place : ℕ) :
    (signed sign place).isInf = true ↔ infinityPlace ≤ place := by
  change (unpacked (signed sign place)).isInf = true ↔ _
  rw [unpacked_signed]
  split
  · next inside =>
    exact iff_of_false (Bool.eq_false_iff.1 (isInf_ofPlace sign place)) (Nat.not_le.2 inside)
  · next infinite => exact iff_of_true rfl (by omega)

/-- A double is finite, infinite or no number. -/
theorem isFinite_iff (x : Float) : x.isFinite = true ↔ x.isNaN = false ∧ x.isInf = false :=
  isFinite_unpacked_iff (unpacked x)

theorem exists_signed_of_isNaN_eq_false {x : Float} (number : x.isNaN = false) :
    ∃ sign place, place ≤ infinityPlace ∧ x = signed sign place :=
  (isNaN_or_exists_signed x).resolve_left (Bool.eq_false_iff.1 number)

theorem exists_signed_of_isFinite {x : Float} (finite : x.isFinite = true) :
    ∃ sign place, place < infinityPlace ∧ x = signed sign place := by
  obtain ⟨sign, place, -, rfl⟩ := exists_signed_of_isNaN_eq_false ((isFinite_iff x).1 finite).1
  exact ⟨sign, place, (isFinite_signed sign place).1 finite, rfl⟩

/-! ## Operations -/

@[simp] theorem neg_signed (sign : Sign) (place : ℕ) :
    -signed sign place = signed (-sign) place := by
  change packed (unpacked (signed sign place)).neg = _
  rw [unpacked_signed]
  split
  · rw [neg_ofPlace, signed]
  · next infinite => rw [signed_of_le _ (Nat.le_of_not_lt infinite), ← packed_infinity]; rfl

@[simp] theorem abs_signed (sign : Sign) (place : ℕ) :
    (signed sign place).abs = signed .positive place := by
  change packed (unpacked (signed sign place)).abs = _
  rw [unpacked_signed]
  split
  · rw [abs_ofPlace, signed]
  · next infinite => rw [signed_of_le _ (Nat.le_of_not_lt infinite), ← packed_infinity]; rfl

section

variable {a b : ℕ}

theorem exists_mul_signed (left right : Sign) (ha : a < infinityPlace) (hb : b < infinityPlace) :
    ∃ place, RoundsTo (value a * value b) place ∧
      signed left a * signed right b = signed (left * right) place := by
  obtain ⟨place, rounds, eq⟩ := exists_place_mul left right a b
  refine ⟨place, rounds, ?_⟩
  change packed (UnpackedFloat.mul Format.binary64 (unpacked (signed left a))
    (unpacked (signed right b))) = _
  rw [unpacked_of_lt left ha, unpacked_of_lt right hb, eq, signed]

theorem exists_div_signed (left right : Sign) (ha : a < infinityPlace) (hb : b < infinityPlace)
    (pos : 0 < b) :
    ∃ place, RoundsTo (value a / value b) place ∧
      signed left a / signed right b = signed (left / right) place := by
  obtain ⟨place, rounds, eq⟩ := exists_place_div left right a pos
  refine ⟨place, rounds, ?_⟩
  change packed (UnpackedFloat.div Format.binary64 (unpacked (signed left a))
    (unpacked (signed right b))) = _
  rw [unpacked_of_lt left ha, unpacked_of_lt right hb, eq, signed]

/-- What is divided by infinity is zero. -/
theorem div_signed_of_le (left right : Sign) (ha : a < infinityPlace) (hb : infinityPlace ≤ b) :
    signed left a / signed right b = signed (left / right) 0 := by
  change packed (UnpackedFloat.div Format.binary64 (unpacked (signed left a))
    (unpacked (signed right b))) = _
  rw [unpacked_of_lt left ha, unpacked_of_le right hb]
  rcases ofPlace_cases a with zero | ⟨_, _, _, finite⟩
  · rw [zero]
    rfl
  · rw [finite]
    rfl

end

end SpanScore.Double
