import Mathlib
import Plotting.Proofs.Decimal.Exact

/-!
# Whole numbers of 64 bits are finite doubles

A result is packed into the bits of an infinity only if its exponent is above 971.  Rounding raises
an exponent by no more than the number of bits that it takes off the mantissa, twice, so a mantissa
that is not too long keeps clear of it.  That is far from sharp and enough for whole numbers.
-/

namespace Plotting
namespace Double

open Float.Model (UnpackedFloat Format totalExponent)
open Float.Model.UnpackedFloat

/-! ## Packing -/

/-- Only the exponent decides whether parts are packed into a finite double. -/
theorem isFinite_unpack_pack {s : Sign} {m : ℕ} {e : ℤ} (hm : 0 < m) (he : e ≤ 971) :
    (unpack Format.binary64 (pack Format.binary64 (.finite s m e hm))).isFinite = true := by
  have hcomponents : ∀ (x : BitVec Format.binary64.exponentBits)
      (y : BitVec Format.binary64.mantissaBitsWithoutImplicit), x ≠ -1#_ →
      (unpack Format.binary64 (packComponents Format.binary64 s x y)).isFinite = true := by
    intro x y hx
    unfold unpack
    simp only [unpackExponent_packComponents, if_neg hx]
    split
    · split <;> rfl
    · rfl
  have hstored : (e + 1023 + (52 : ℕ)).toNat < 2047 := by omega
  unfold pack
  simp only [exponentBias_eq]
  rw [if_neg (show ¬ 2 ^ 11 ≤ (e + 1023 + (52 : ℕ)).toNat + 1 by omega)]
  split
  · refine hcomponents _ _ fun hones => ?_
    have hnat := congrArg BitVec.toNat hones
    rw [BitVec.toNat_ofNat] at hnat
    change (e + 1023 + (52 : ℕ)).toNat % 2048 = 2047 at hnat
    omega
  · exact hcomponents _ _ (by decide)

/-! ## Rounding -/

/-- Shifting to the right leaves no larger mantissa. -/
theorem mantissa_shiftRight_le (em : ExtendedMantissa) (k : ℕ) :
    (em >>> k).mantissa ≤ em.mantissa := by
  show (k.repeat ExtendedMantissa.shiftRightOne em).mantissa ≤ em.mantissa
  induction k with
  | zero => exact le_refl _
  | succ k ih => exact le_trans (Nat.div_le_self _ _) ih

theorem roundToNearestEven_le (m : ℕ) (a : Accuracy) : a.roundToNearestEven m ≤ m + 1 := by
  cases a with
  | exact => exact Nat.le_succ m
  | inexact o =>
    cases o with
    | lt => exact Nat.le_succ m
    | eq => exact Nat.add_le_add_left (Nat.le_of_lt_succ (Nat.mod_lt m two_pos)) m
    | gt => exact le_refl _

theorem log2_succ_le (m : ℕ) : (m + 1).log2 ≤ m.log2 + 1 := by
  have hlt : m + 1 < 2 ^ (m.log2 + 1 + 1) := by
    have hm := Nat.lt_log2_self (n := m)
    have hpos := Nat.two_pow_pos (m.log2 + 1)
    rw [pow_succ]
    omega
  exact Nat.le_of_lt_succ ((Nat.log2_lt (Nat.succ_ne_zero m)).mpr hlt)

theorem log2_mono {m n : ℕ} (h : m ≤ n) : m.log2 ≤ n.log2 := by
  rw [Nat.log2_eq_log_two, Nat.log2_eq_log_two]
  exact Nat.log_mono_right h

/-- Bringing a mantissa to the exponent that the format asks for does not make it larger, and it
raises the exponent by its bits at most. -/
theorem shiftToTargetExponent_le {m : ℕ} {e : ℤ} (a : Accuracy) (hlow : -1074 ≤ e) :
    (shiftToTargetExponent Format.binary64 m e a).1.mantissa ≤ m ∧
      e ≤ (shiftToTargetExponent Format.binary64 m e a).2 ∧
      (shiftToTargetExponent Format.binary64 m e a).2 ≤ e + m.log2 := by
  have hmantissa : (ExtendedMantissa.ofMantissaAndAccuracy m a).mantissa = m := by
    fun_cases ExtendedMantissa.ofMantissaAndAccuracy m a <;> rfl
  unfold shiftToTargetExponent shiftToExponent
  simp only [targetExponent_binary64, totalExponent]
  refine ⟨le_trans (mantissa_shiftRight_le _ _) hmantissa.le, ?_, ?_⟩
  · omega
  · omega

/-- What rounding makes of a mantissa that is not too long is packed into a finite double. -/
theorem isFinite_roundWithAccuracy {s : Sign} {m : ℕ} {e : ℤ} {a : Accuracy} (hlow : -1074 ≤ e)
    (hhigh : e + 2 * m.log2 < 971) :
    (unpack Format.binary64 (pack Format.binary64
      (roundWithAccuracy Format.binary64 s m e a))).isFinite = true := by
  obtain ⟨hm₁, hlow₁, hhigh₁⟩ := shiftToTargetExponent_le (m := m) a hlow
  unfold roundWithAccuracy
  simp only
  generalize shiftToTargetExponent Format.binary64 m e a = first at hm₁ hlow₁ hhigh₁ ⊢
  have hrounded : first.1.roundedMantissa ≤ m + 1 :=
    le_trans (roundToNearestEven_le _ _) (Nat.succ_le_succ hm₁)
  have hlog : first.1.roundedMantissa.log2 ≤ m.log2 + 1 :=
    le_trans (log2_mono hrounded) (log2_succ_le m)
  obtain ⟨-, -, hhigh₂⟩ := shiftToTargetExponent_le (m := first.1.roundedMantissa) .exact
    (le_trans hlow hlow₁)
  split
  · rw [pack, unpack_packedZero]
    rfl
  · exact isFinite_unpack_pack _ (by omega)

/-! ## Whole numbers -/

theorem isFinite_of_hasParts {x : Float} {m : ℕ} {q : ℤ} (h : HasParts x m q) :
    x.isFinite = true := by
  show x.toModel.unpack.isFinite = true
  rw [h.unpack_eq]
  rfl

/-- A whole number of at most 53 bits is its own double times one. -/
theorem isFinite_toFloat_mul {n : ℕ} (hpos : 0 < n) (hlt : n < 2 ^ 53) :
    (n.toUInt64.toFloat * Float.exactlyRepresentablePowersOfTen[(0 : Fin 23)]).isFinite = true := by
  obtain ⟨m, q, hparts, hlong, -⟩ := exists_parts_toFloat hpos hlt
  obtain ⟨k, r, hpower, hk, hone⟩ := exists_parts_powerOfTen 0
  have hvalue : ((m * k : ℕ) : ℚ) * 2 ^ (q + r) = m * 2 ^ q := by
    rw [zpow_add₀ two_ne_zero]
    push_cast
    calc (m : ℚ) * k * (2 ^ q * 2 ^ r) = m * 2 ^ q * (k * 2 ^ r) := by ring
      _ = m * 2 ^ q := by rw [hone]; norm_num
  rw [HasParts.mul hparts hpower hparts (le_trans hlong (Nat.le_mul_of_pos_right m hk)) hvalue]
  exact isFinite_of_hasParts hparts

/-- A longer whole number is rounded. -/
theorem ofScientific_natCast {n : ℕ} (hn : n ≠ 0) :
    UnpackedFloat.ofScientific Format.binary64 n 0 =
      roundWithAccuracy Format.binary64 (.positive * .positive)
        (n <<< Format.binary64.mantissaBits * 10 ^ (0 : ℤ).toNat)
        (-Format.binary64.mantissaBits + 0) .exact := by
  have hsafe : ¬ (0 : ℤ) < -((2 ^ Format.binary64.exponentBits : ℤ) + n.log2) := by
    have hpow : (0 : ℤ) ≤ 2 ^ Format.binary64.exponentBits := by positivity
    omega
  rw [UnpackedFloat.ofScientific, dif_neg hn, if_neg (by decide), if_neg hsafe,
    if_pos (le_refl _), UnpackedFloat.mul]

/-- A whole number of 64 bits is a finite double, exact or rounded. -/
theorem isFinite_ofNat {n : ℕ} (hn : n ≤ 2 ^ 64) : (Float.ofNat n).isFinite = true := by
  rcases Nat.eq_zero_or_pos n with rfl | hpos
  · decide
  show (Float.ofScientific n false 0).isFinite = true
  unfold Float.ofScientific
  split
  · next hsmall => exact isFinite_toFloat_mul hpos hsmall.1
  · have hlt : n <<< Format.binary64.mantissaBits * 10 ^ (0 : ℤ).toNat < 2 ^ 118 := by
      rw [mantissaBits_eq, Nat.shiftLeft_eq, Int.toNat_zero, pow_zero]
      omega
    have hlog : (n <<< Format.binary64.mantissaBits * 10 ^ (0 : ℤ).toNat).log2 < 118 := by
      refine (Nat.log2_lt ?_).mpr hlt
      rw [mantissaBits_eq, Nat.shiftLeft_eq, Int.toNat_zero, pow_zero]
      omega
    show (unpack Format.binary64 (pack Format.binary64
      (UnpackedFloat.ofScientific Format.binary64 n 0))).isFinite = true
    rw [ofScientific_natCast hpos.ne']
    refine isFinite_roundWithAccuracy (by decide) ?_
    rw [mantissaBits_eq] at hlog ⊢
    omega

/-- The other sign makes no difference. -/
theorem isFinite_neg {x : Float} (h : x.isFinite = true) : (-x).isFinite = true := by
  have hneg : (-x).toModel.unpack =
      unpack Format.binary64 (pack Format.binary64 x.toModel.unpack.neg) := rfl
  show (-x).toModel.unpack.isFinite = true
  rw [hneg]
  rcases unpack_cases h with hx | ⟨m, q, hc, hmost, hx, -⟩
  · rw [hx, UnpackedFloat.neg, pack, unpack_packedZero]
    rfl
  · rw [hx, UnpackedFloat.neg]
    exact isFinite_unpack_pack hc.pos hmost

theorem isFinite_ofInt {n : ℤ} (hlow : -2 ^ 63 ≤ n) (hhigh : n < 2 ^ 64) :
    (Float.ofInt n).isFinite = true := by
  cases n with
  | ofNat k =>
    rw [Int.ofNat_eq_natCast] at hhigh
    exact isFinite_ofNat (by omega)
  | negSucc k =>
    rw [Int.negSucc_eq] at hlow
    exact isFinite_neg (isFinite_ofNat (by omega))

end Double
end Plotting
