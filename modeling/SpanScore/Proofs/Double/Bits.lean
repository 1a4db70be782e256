import SpanScore.Proofs.Double.Rounding

/-!
# Bits of doubles

The bits of a double are its sign and its place.  Behind the places of all doubles come the one of
infinity and then those of what is no number; rounding that leads beyond the doubles ends at
infinity.
-/

namespace SpanScore.Double

open Float.Model Float.Model.UnpackedFloat

/-- The place of infinity, behind those of all doubles. -/
def infinityPlace : ℕ :=
  2047 * 2 ^ 52

def signBit : Sign → ℕ
  | .negative => 1
  | .positive => 0

/-! ## Packing -/

theorem toNat_packComponents (sign : Sign) (field : BitVec 11) (fraction : BitVec 52) :
    (packComponents Format.binary64 sign field fraction).toNat =
      signBit sign * 2 ^ 63 + (field.toNat * 2 ^ 52 + fraction.toNat) := by
  have bit : sign.toBitVec.toNat = signBit sign := by
    cases sign <;> rfl
  have first := Nat.shiftLeft_add_eq_or_of_lt field.isLt sign.toBitVec.toNat
  have second := Nat.shiftLeft_add_eq_or_of_lt fraction.isLt (sign.toBitVec ++ field).toNat
  rw [packComponents, BitVec.toNat_append, ← second, BitVec.toNat_append, ← first, bit,
    Nat.shiftLeft_eq, Nat.shiftLeft_eq]
  ring

theorem toNat_packedInfinity (sign : Sign) :
    (packedInfinity Format.binary64 sign).toNat = signBit sign * 2 ^ 63 + infinityPlace :=
  toNat_packComponents sign (-1#11) 0

/-- A number is packed with a field for its exponent, and as infinity when none is left for it. -/
theorem pack_finite (sign : Sign) {mantissa : ℕ} (pos : 0 < mantissa) {exponent : ℤ} {field : ℕ}
    (field_eq : (exponent + Format.binary64.exponentBias + (52 : ℕ)).toNat = field) :
    UnpackedFloat.pack Format.binary64 (.finite sign mantissa exponent pos) =
      if 2048 ≤ field + 1 then packedInfinity Format.binary64 sign
      else if mantissa.log2 + 1 = 53 then
        packComponents Format.binary64 sign (.ofNat 11 field) (.ofNat 52 mantissa)
      else packComponents Format.binary64 sign 0 (.ofNat 52 mantissa) := by
  rw [← field_eq]
  rfl

/-- A double is packed as its sign and its place, infinity taking the places behind. -/
theorem toNat_pack_ofPlace (sign : Sign) (place : ℕ) :
    (UnpackedFloat.pack Format.binary64 (ofPlace sign place)).toNat =
      signBit sign * 2 ^ 63 + min place infinityPlace := by
  rcases Nat.eq_zero_or_pos place with rfl | pos
  · exact toNat_packComponents sign 0 0
  obtain ⟨binade, step, rfl, low, high⟩ := exists_binade place
  have nonzero : step ≠ 0 := by omega
  have field_eq : ((binade - 1074 : ℤ) + Format.binary64.exponentBias + (52 : ℕ)).toNat =
      binade + 1 := by
    rw [show Format.binary64.exponentBias = 1023 from rfl]
    omega
  rw [ofPlace_scaled sign low high, dif_neg nonzero, pack_finite sign _ field_eq]
  have normal : step.log2 + 1 = 53 ↔ 2 ^ 52 ≤ step := by
    rw [← Nat.le_log2 nonzero]
    have below := (Nat.log2_lt nonzero).2 high
    omega
  unfold infinityPlace
  split
  · rw [toNat_packedInfinity, infinityPlace, Nat.min_eq_right (by omega)]
  · rw [Nat.min_eq_left (by omega)]
    split
    · next all =>
      rw [toNat_packComponents, BitVec.toNat_ofNat, BitVec.toNat_ofNat]
      omega
    · next fewer =>
      rw [toNat_packComponents, BitVec.toNat_ofNat]
      change signBit sign * 2 ^ 63 + (0 * 2 ^ 52 + step % 2 ^ 52) = _
      omega

/-! ## Unpacking -/

theorem toNat_unpackMantissa (bits : BitVec 64) :
    (@unpackMantissa Format.binary64 bits).toNat = bits.toNat % 2 ^ 52 := by
  rw [unpackMantissa, BitVec.toNat_cast, BitVec.extractLsb_toNat]
  rfl

theorem toNat_unpackExponent (bits : BitVec 64) :
    (@unpackExponent Format.binary64 bits).toNat = bits.toNat / 2 ^ 52 % 2 ^ 11 := by
  rw [unpackExponent, BitVec.toNat_cast, BitVec.extractLsb_toNat, Nat.shiftRight_eq_div_pow]
  rfl

theorem toNat_unpackSign (bits : BitVec 64) :
    (@unpackSign Format.binary64 bits).toNat = bits.toNat / 2 ^ 63 := by
  unfold unpackSign
  rw [BitVec.toNat_cast, BitVec.extractLsb_toNat, Nat.shiftRight_eq_div_pow]
  have bound := bits.isLt
  change bits.toNat / 2 ^ 63 % 2 ^ 1 = _
  omega

section

variable {sign : Sign} {bits : BitVec 64} {place : ℕ}
  (bits_eq : bits.toNat = signBit sign * 2 ^ 63 + place)

include bits_eq

theorem unpackMantissa_eq : (@unpackMantissa Format.binary64 bits).toNat = place % 2 ^ 52 := by
  rw [toNat_unpackMantissa]
  omega

theorem unpackMantissa_eq_zero_iff :
    @unpackMantissa Format.binary64 bits = 0#52 ↔ place % 2 ^ 52 = 0 := by
  rw [← BitVec.toNat_inj, unpackMantissa_eq bits_eq]
  rfl

variable (small : place < 2 ^ 63)

include small

theorem ofBitVec_unpackSign : Sign.ofBitVec (@unpackSign Format.binary64 bits) = sign := by
  have same : @unpackSign Format.binary64 bits = sign.toBitVec := by
    rw [← BitVec.toNat_inj, toNat_unpackSign, bits_eq]
    cases sign <;> simp only [signBit, Sign.toBitVec] <;> norm_num <;> omega
  rw [same]
  cases sign <;> rfl

theorem unpackExponent_eq : (@unpackExponent Format.binary64 bits).toNat = place / 2 ^ 52 := by
  have bit_le : signBit sign ≤ 1 := by
    cases sign <;> decide
  rw [toNat_unpackExponent]
  omega

theorem unpackExponent_eq_iff (field : BitVec 11) :
    @unpackExponent Format.binary64 bits = field ↔ place / 2 ^ 52 = field.toNat := by
  rw [← BitVec.toNat_inj, unpackExponent_eq bits_eq small]

/-- The bits of a subnormal double. -/
theorem unpack_of_lt (subnormal : place < 2 ^ 52) :
    UnpackedFloat.unpack Format.binary64 bits = ofPlace sign place := by
  have top : @unpackExponent Format.binary64 bits ≠ -1#11 := by
    rw [ne_eq, unpackExponent_eq_iff bits_eq small, show (-1#11).toNat = 2047 from rfl]
    omega
  have bottom : @unpackExponent Format.binary64 bits = 0#11 := by
    rw [unpackExponent_eq_iff bits_eq small, show (0#11).toNat = 0 from rfl]
    omega
  unfold UnpackedFloat.unpack
  dsimp only
  rw [ofBitVec_unpackSign bits_eq small, if_neg top, if_pos bottom]
  by_cases zero : place % 2 ^ 52 = 0
  · obtain rfl : place = 0 := by omega
    rw [dif_pos ((unpackMantissa_eq_zero_iff bits_eq).2 zero), ofPlace_zero]
  · rw [dif_neg (mt (unpackMantissa_eq_zero_iff bits_eq).1 zero),
      ofPlace_of_pos sign (by omega), finite.injEq]
    refine ⟨rfl, ?_, ?_⟩
    · rw [unpackMantissa_eq bits_eq, significand, if_pos subnormal, Nat.mod_eq_of_lt subnormal]
    · rw [unpackExponent_eq bits_eq small, Nat.div_eq_of_lt subnormal, Double.exponent,
        if_pos subnormal]
      rfl

/-- The bits of a double with all of its significand. -/
theorem unpack_of_le (normal : 2 ^ 52 ≤ place) (inside : place < infinityPlace) :
    UnpackedFloat.unpack Format.binary64 bits = ofPlace sign place := by
  unfold infinityPlace at inside
  have top : @unpackExponent Format.binary64 bits ≠ -1#11 := by
    rw [ne_eq, unpackExponent_eq_iff bits_eq small, show (-1#11).toNat = 2047 from rfl]
    omega
  have bottom : @unpackExponent Format.binary64 bits ≠ 0#11 := by
    rw [ne_eq, unpackExponent_eq_iff bits_eq small, show (0#11).toNat = 0 from rfl]
    omega
  have whole : (1#1 ++ @unpackMantissa Format.binary64 bits).toNat =
      2 ^ 52 + place % 2 ^ 52 := by
    rw [BitVec.toNat_append, ← Nat.shiftLeft_add_eq_or_of_lt (BitVec.isLt _),
      unpackMantissa_eq bits_eq]
    rfl
  unfold UnpackedFloat.unpack
  dsimp only
  rw [ofBitVec_unpackSign bits_eq small, if_neg top, if_neg bottom,
    ofPlace_of_pos sign (by omega), finite.injEq]
  refine ⟨rfl, ?_, ?_⟩
  · rw [whole, significand, if_neg (by omega)]
  · rw [unpackExponent_eq bits_eq small, Double.exponent, if_neg (by omega)]
    rfl

/-- The bits behind all doubles. -/
theorem unpack_of_beyond (beyond : infinityPlace ≤ place) :
    UnpackedFloat.unpack Format.binary64 bits =
      if place = infinityPlace then .infinity sign else .notANumber := by
  unfold infinityPlace at beyond ⊢
  have top : @unpackExponent Format.binary64 bits = -1#11 := by
    rw [unpackExponent_eq_iff bits_eq small, show (-1#11).toNat = 2047 from rfl]
    omega
  have empty : @unpackMantissa Format.binary64 bits = 0#52 ↔ place = 2047 * 2 ^ 52 := by
    rw [unpackMantissa_eq_zero_iff bits_eq]
    omega
  unfold UnpackedFloat.unpack
  dsimp only
  rw [ofBitVec_unpackSign bits_eq small, if_pos top]
  simp only [empty]

/-- What the bits of a double say. -/
theorem unpack_eq :
    UnpackedFloat.unpack Format.binary64 bits =
      if place < infinityPlace then ofPlace sign place
      else if place = infinityPlace then .infinity sign else .notANumber := by
  split
  · next inside =>
    rcases Nat.lt_or_ge place (2 ^ 52) with subnormal | normal
    · exact unpack_of_lt bits_eq small subnormal
    · exact unpack_of_le bits_eq small normal inside
  · next beyond => exact unpack_of_beyond bits_eq small (Nat.not_lt.1 beyond)

/-- What is no number lies behind infinity. -/
theorem isNaN_unpack_iff :
    (UnpackedFloat.unpack Format.binary64 bits).isNaN = true ↔ infinityPlace < place := by
  rw [unpack_eq bits_eq small]
  rcases Nat.lt_trichotomy place infinityPlace with inside | infinite | beyond
  · rw [if_pos inside]
    exact iff_of_false (Bool.eq_false_iff.1 (isNaN_ofPlace sign place)) (Nat.lt_asymm inside)
  · rw [if_neg infinite.not_lt, if_pos infinite]
    exact iff_of_false Bool.false_ne_true infinite.not_gt
  · rw [if_neg (by omega), if_neg (by omega)]
    exact iff_of_true rfl beyond

end

/-- All bits are a sign and a place. -/
theorem exists_signBit_add {bits : ℕ} (bound : bits < 2 ^ 64) :
    ∃ sign place, place < 2 ^ 63 ∧ bits = signBit sign * 2 ^ 63 + place := by
  rcases Nat.lt_or_ge bits (2 ^ 63) with low | high
  · exact ⟨.positive, bits, low, by simp only [signBit]; omega⟩
  · exact ⟨.negative, bits - 2 ^ 63, by omega, by simp only [signBit]; omega⟩

/-- A packed double is unpacked again, with infinity in the place of what lies beyond. -/
theorem unpack_pack_ofPlace (sign : Sign) (place : ℕ) :
    UnpackedFloat.unpack Format.binary64 (UnpackedFloat.pack Format.binary64 (ofPlace sign place)) =
      if place < infinityPlace then ofPlace sign place else .infinity sign := by
  have small : min place infinityPlace < 2 ^ 63 := by
    unfold infinityPlace
    omega
  rw [unpack_eq (toNat_pack_ofPlace sign place) small]
  rcases Nat.lt_or_ge place infinityPlace with inside | beyond
  · rw [Nat.min_eq_left inside.le, if_pos inside, if_pos inside]
  · rw [Nat.min_eq_right beyond, if_neg (lt_irrefl _), if_pos rfl, if_neg (by omega)]

end SpanScore.Double
