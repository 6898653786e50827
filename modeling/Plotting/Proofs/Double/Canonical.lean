import Mathlib
import Plotting.Decimal.Format

/-!
# The parts of a finite double

A finite double other than zero is a sign, a mantissa and a power of two.  Many
pairs of mantissa and exponent denote the same number; the format picks the one
with a mantissa of 53 bits, or the least exponent if there are fewer.  Such a
pair survives packing into bits and unpacking, and it is the pair that
`Decimal.binary` takes apart the bits into.
-/

namespace Plotting
namespace Double

open Float.Model (UnpackedFloat Format totalExponent)
open Float.Model.UnpackedFloat

/-! ## Canonical pairs -/

/-- The exponent that the format asks for leaves 53 bits, or is the least one. -/
theorem targetExponent_binary64 (t : ℤ) :
    Format.binary64.targetExponent t = max (t - 53) (-1074) := rfl

/-- The mantissa has 53 bits, or fewer at the least exponent. -/
structure Canonical (m : ℕ) (q : ℤ) : Prop where
  pos : 0 < m
  lt : m < 2 ^ 53
  least : -1074 ≤ q
  full : 2 ^ 52 ≤ m ∨ q = -1074

namespace Canonical
variable {m : ℕ} {q : ℤ}

theorem log2_lt (h : Canonical m q) : m.log2 < 53 :=
  (Nat.log2_lt h.pos.ne').mpr h.lt

theorem le_log2 (h : Canonical m q) (hm : 2 ^ 52 ≤ m) : 52 ≤ m.log2 :=
  (Nat.le_log2 h.pos.ne').mpr hm

/-- The exponent is the one that the format asks for. -/
theorem targetExponent_eq (h : Canonical m q) :
    Format.binary64.targetExponent (totalExponent m q) = q := by
  have hlog := h.log2_lt
  have hleast := h.least
  rw [targetExponent_binary64, totalExponent]
  rcases h.full with hm | hq
  · have hlog' := h.le_log2 hm
    omega
  · omega

end Canonical

/-! ## Packing and unpacking -/

section Packing
variable {s : Sign} {m : ℕ} {q : ℤ}

theorem exponentBias_eq : (Format.binary64.exponentBias : ℤ) = 1023 := by decide

theorem mantissaBits_eq : Format.binary64.mantissaBits = 53 := by decide

/-- The bit that is not stored stands before the stored ones. -/
theorem toNat_append_one (v : BitVec 52) : (1#1 ++ v).toNat = 2 ^ 52 + v.toNat := by
  have hor : 2 ^ 52 * 1 + v.toNat = 2 ^ 52 * 1 ||| v.toNat := Nat.two_pow_add_eq_or_of_lt v.isLt 1
  rw [Nat.mul_one] at hor
  rw [BitVec.toNat_append, hor]
  rfl

/-- The bits of a mantissa behind the bit that is not stored. -/
theorem toNat_append_ofNat (hlow : 2 ^ 52 ≤ m) (hhigh : m < 2 ^ 53) :
    (1#1 ++ BitVec.ofNat Format.binary64.mantissaBitsWithoutImplicit m).toNat = m := by
  rw [toNat_append_one, BitVec.toNat_ofNat]
  omega

/-- The stored exponent of a canonical pair fits its eleven bits. -/
theorem toNat_storedExponent (hleast : -1074 ≤ q) (hmost : q ≤ 971) :
    (BitVec.ofNat Format.binary64.exponentBits (q + 1075).toNat).toNat = (q + 1075).toNat := by
  rw [BitVec.toNat_ofNat]
  refine Nat.mod_eq_of_lt ?_
  show _ < 2 ^ 11
  omega

/-- Bits with an exponent that stands for neither extreme. -/
theorem unpack_normal {b : BitVec Format.binary64.numBits} (hones : unpackExponent b ≠ -1#_)
    (hzeros : unpackExponent b ≠ 0#_) (hm : (1#1 ++ unpackMantissa b).toNat = m) (hpos : 0 < m)
    (hq : ((unpackExponent b).toNat : ℤ) - 1075 = q) :
    unpack Format.binary64 b = .finite (Sign.ofBitVec (unpackSign b)) m q hpos := by
  subst hm hq
  rw [unpack]
  simp only [if_neg hones, if_neg hzeros, exponentBias_eq]
  congr 1

/-- Bits with the exponent zero and some mantissa. -/
theorem unpack_subnormal {b : BitVec Format.binary64.numBits} (hzeros : unpackExponent b = 0#_)
    (hm : (unpackMantissa b).toNat = m) (hpos : 0 < m) :
    unpack Format.binary64 b = .finite (Sign.ofBitVec (unpackSign b)) m (-1074) hpos := by
  subst hm
  have hfield : (unpackExponent b).toNat = 0 := by rw [hzeros]; rfl
  have hones : unpackExponent b ≠ -1#_ := by rw [hzeros]; decide
  have hmantissa : unpackMantissa b ≠ 0#_ := by
    intro hzero
    rw [hzero] at hpos
    exact absurd hpos (by decide)
  rw [unpack]
  simp only [if_neg hones, if_pos hzeros, dif_neg hmantissa, hfield, exponentBias_eq]
  rfl

theorem unpack_pack (h : Canonical m q) (hmost : q ≤ 971) :
    unpack Format.binary64 (pack Format.binary64 (.finite s m q h.pos)) =
      .finite s m q h.pos := by
  have hlog := h.log2_lt
  have hleast := h.least
  have hstored : (q + 1023 + (52 : ℕ)).toNat = (q + 1075).toNat := by omega
  have hexponent := toNat_storedExponent hleast hmost
  rw [pack]
  simp only [exponentBias_eq, mantissaBits_eq]
  rw [hstored, if_neg (by omega)]
  by_cases hfull : m.log2 + 1 = 53
  · have hlow : 2 ^ 52 ≤ m := (Nat.le_log2 h.pos.ne').mp (by omega)
    rw [if_pos hfull]
    refine (unpack_normal (q := q) ?_ ?_ ?_ h.pos ?_).trans ?_
    · intro hones
      have hnat := congrArg BitVec.toNat hones
      rw [unpackExponent_packComponents, hexponent] at hnat
      change _ = 2047 at hnat
      omega
    · intro hzero
      have hnat := congrArg BitVec.toNat hzero
      rw [unpackExponent_packComponents, hexponent] at hnat
      change _ = 0 at hnat
      omega
    · rw [unpackMantissa_packComponents, toNat_append_ofNat hlow h.lt]
    · rw [unpackExponent_packComponents, hexponent]
      omega
    · rw [unpackSign_packComponents, Sign.ofBitVec_toBitVec]
  · have hlt : m < 2 ^ 52 := (Nat.log2_lt h.pos.ne').mp (by omega)
    obtain rfl : q = -1074 := h.full.resolve_left (by omega)
    rw [if_neg hfull]
    refine (unpack_subnormal ?_ ?_ h.pos).trans ?_
    · exact unpackExponent_packComponents
    · rw [unpackMantissa_packComponents, BitVec.toNat_ofNat]
      exact Nat.mod_eq_of_lt hlt
    · rw [unpackSign_packComponents, Sign.ofBitVec_toBitVec]

end Packing

/-! ## Taking a double apart -/

section Parts
variable {x y : Float}

/-- A double is determined by its parts. -/
theorem eq_of_unpack_eq (h : x.toModel.unpack = y.toModel.unpack) : x = y := by
  have hbits := (unpack_inj_of_valid x.toModel.valid y.toModel.valid).mp h
  refine Float.toBits_inj.mp ?_
  exact UInt64.toBitVec_inj.mp hbits

theorem toNat_unpackMantissa (b : BitVec Format.binary64.numBits) :
    (unpackMantissa b).toNat = b.toNat % 2 ^ 52 := by
  rw [unpackMantissa_def, BitVec.extractLsb'_toNat, Nat.shiftRight_zero]

theorem toNat_unpackExponent (b : BitVec Format.binary64.numBits) :
    (unpackExponent b).toNat = b.toNat / 2 ^ 52 % 2 ^ 11 := by
  rw [unpackExponent_def, BitVec.extractLsb'_toNat, Nat.shiftRight_eq_div_pow]

theorem binary_eq {b : BitVec Format.binary64.numBits} (hb : x.toBits.toNat = b.toNat) :
    Decimal.binary x =
      if (unpackExponent b).toNat = 0 then ((unpackMantissa b).toNat, -1074)
      else (2 ^ 52 + (unpackMantissa b).toNat, ((unpackExponent b).toNat : ℤ) - 1075) := by
  have hfield : b.toNat % 2 ^ 63 / 2 ^ 52 = b.toNat / 2 ^ 52 % 2 ^ 11 := by omega
  have hfraction : b.toNat % 2 ^ 63 % 2 ^ 52 = b.toNat % 2 ^ 52 := by omega
  rw [toNat_unpackExponent, toNat_unpackMantissa]
  simp only [Decimal.binary, Nat.pow_eq, hb, hfield, hfraction]

/-- The sign of a double, which a zero has too. -/
def sign (x : Float) : Sign :=
  if NumberFormat.isSigned x then .negative else .positive

theorem sign_eq {b : BitVec Format.binary64.numBits} (hb : x.toBits.toNat = b.toNat) :
    Sign.ofBitVec (unpackSign b) = sign x := by
  have hbit : (unpackSign b).toNat = b.toNat / 2 ^ 63 := by
    have hlt : b.toNat < 2 ^ 64 := b.isLt
    rw [unpackSign_def, BitVec.extractLsb'_toNat, Nat.shiftRight_eq_div_pow]
    show b.toNat / 2 ^ 63 % 2 ^ 1 = _
    omega
  by_cases h : 2 ^ 63 ≤ b.toNat
  · have hone : unpackSign b ≠ 0#1 := by
      intro hzero
      rw [hzero] at hbit
      change 0 = _ at hbit
      omega
    rw [Sign.ofBitVec, if_neg hone, sign, NumberFormat.isSigned, hb, if_pos (by simpa using h)]
  · have hzero : unpackSign b = 0#1 := by
      refine BitVec.eq_of_toNat_eq ?_
      show _ = 0
      omega
    rw [Sign.ofBitVec, if_pos hzero, sign, NumberFormat.isSigned, hb, if_neg (by simpa using h)]

/-- The parts of a finite double: a signed zero, or the canonical pair that its
bits are taken apart into. -/
theorem unpack_cases (h : x.isFinite = true) :
    x.toModel.unpack = .zero (sign x) ∨
      ∃ (m : ℕ) (q : ℤ) (hc : Canonical m q), q ≤ 971 ∧
        x.toModel.unpack = .finite (sign x) m q hc.pos ∧ Decimal.binary x = (m, q) := by
  obtain ⟨b, hb⟩ : ∃ b : BitVec Format.binary64.numBits, x.toBits.toBitVec = b := ⟨_, rfl⟩
  have hsign : Sign.ofBitVec (unpackSign b) = sign x := sign_eq (congrArg BitVec.toNat hb)
  have hbinary := binary_eq (congrArg BitVec.toNat hb)
  have hunpack : x.toModel.unpack = unpack Format.binary64 b := by
    rw [← hb]
    rfl
  have hmantissa : (unpackMantissa b).toNat < 2 ^ 52 := (unpackMantissa b).isLt
  have hexponent : (unpackExponent b).toNat < 2 ^ 11 := (unpackExponent b).isLt
  change x.toModel.unpack.isFinite = true at h
  rw [← hsign, hunpack]
  rw [hunpack] at h
  by_cases hones : unpackExponent b = -1#_
  · rw [unpack] at h
    simp only [if_pos hones] at h
    split at h <;> cases h
  by_cases hzeros : unpackExponent b = 0#_
  · have hfield : (unpackExponent b).toNat = 0 := by rw [hzeros]; rfl
    by_cases hm : unpackMantissa b = 0#_
    · left
      rw [unpack]
      simp only [if_neg hones, if_pos hzeros, dif_pos hm]
    · have hpos : 0 < (unpackMantissa b).toNat :=
        Nat.pos_of_ne_zero fun hzero => hm (BitVec.eq_of_toNat_eq hzero)
      refine Or.inr ⟨(unpackMantissa b).toNat, -1074,
        ⟨hpos, by omega, le_refl _, Or.inr rfl⟩, by decide, unpack_subnormal hzeros rfl hpos, ?_⟩
      rw [hbinary, if_pos hfield]
  · have hfield : (unpackExponent b).toNat ≠ 0 :=
      fun hzero => hzeros (BitVec.eq_of_toNat_eq hzero)
    have hmost : (unpackExponent b).toNat ≠ 2047 :=
      fun hall => hones (BitVec.eq_of_toNat_eq hall)
    refine Or.inr ⟨2 ^ 52 + (unpackMantissa b).toNat, (unpackExponent b).toNat - 1075,
      ⟨by omega, by omega, by omega, Or.inl (by omega)⟩, by omega,
      unpack_normal hones hzeros (toNat_append_one _) _ rfl, ?_⟩
    rw [hbinary, if_neg hfield]

/-! ## Sign and magnitude -/

theorem unpack_zero : (0 : Float).toModel.unpack = .zero .positive := by
  have hzero : (0 : Float) = .ofModel (.pack (.zero .positive)) :=
    Float.toBits_inj.mp (by decide)
  rw [hzero]
  exact unpack_packedZero

/-- The magnitude of a zero is zero, and that of another number has the same
mantissa and exponent. -/
theorem unpack_abs_of_zero {s : Sign} (h : x.toModel.unpack = .zero s) :
    x.abs.toModel.unpack = .zero .positive := by
  have habs : x.abs.toModel.unpack =
      unpack Format.binary64 (pack Format.binary64 x.toModel.unpack.abs) := rfl
  rw [habs, h]
  exact unpack_packedZero

theorem unpack_abs_of_finite {s : Sign} {m : ℕ} {q : ℤ} (hc : Canonical m q) (hmost : q ≤ 971)
    (h : x.toModel.unpack = .finite s m q hc.pos) :
    x.abs.toModel.unpack = .finite .positive m q hc.pos := by
  have habs : x.abs.toModel.unpack =
      unpack Format.binary64 (pack Format.binary64 x.toModel.unpack.abs) := rfl
  rw [habs, h]
  exact unpack_pack hc hmost

/-- The sign put back on the magnitude. -/
theorem signed_abs (h : x.isFinite = true) :
    (if NumberFormat.isSigned x then -x.abs else x.abs) = x := by
  have hneg : (-x.abs).toModel.unpack =
      unpack Format.binary64 (pack Format.binary64 x.abs.toModel.unpack.neg) := rfl
  refine eq_of_unpack_eq ?_
  rcases unpack_cases h with hx | ⟨m, q, hc, hmost, hx, -⟩
  · have habs := unpack_abs_of_zero hx
    by_cases hs : NumberFormat.isSigned x = true
    · rw [if_pos hs, hneg, habs, hx, sign, if_pos hs]
      exact unpack_packedZero
    · rw [if_neg hs, habs, hx, sign, if_neg hs]
  · have habs := unpack_abs_of_finite hc hmost hx
    by_cases hs : NumberFormat.isSigned x = true
    · rw [if_pos hs, hneg, habs, hx, sign, if_pos hs]
      exact unpack_pack hc hmost
    · rw [if_neg hs, habs, hx, sign, if_neg hs]

end Parts
end Double
end Plotting
