import Plotting.Proofs.Double.Rounding
import Plotting.Proofs.Decimal.Canonical

/-!
# Decimals that are doubles

A decimal is read as the nearest double.  If its value is that of a double, this
double is the result, whichever way the reading goes: small digits are scaled by
a power of ten from a table, and all others by a power of ten computed in full.
-/

namespace Plotting
namespace Double

open Float.Model (UnpackedFloat Format totalExponent)
open Float.Model.UnpackedFloat

/-! ## Whole numbers as doubles -/

section Whole
variable {n : ℕ}

theorem log2_le_of_lt (hpos : 0 < n) (hlt : n < 2 ^ 53) : n.log2 ≤ 52 :=
  Nat.le_of_lt_succ ((Nat.log2_lt hpos.ne').mpr hlt)

/-- The canonical pair of a whole number of at most 53 bits, scaled. -/
theorem canonical_natCast (hpos : 0 < n) (hlt : n < 2 ^ 53) (k : ℕ) :
    Canonical (n * 2 ^ (52 - n.log2)) (n.log2 - 52 + k) where
  pos := Nat.mul_pos hpos (Nat.two_pow_pos _)
  lt := by
    have hlog := log2_le_of_lt hpos hlt
    have hmul := Nat.mul_lt_mul_of_pos_right (Nat.lt_log2_self (n := n))
      (Nat.two_pow_pos (52 - n.log2))
    rw [← pow_add] at hmul
    rwa [show n.log2 + 1 + (52 - n.log2) = 53 by omega] at hmul
  least := by omega
  full := by
    have hlog := log2_le_of_lt hpos hlt
    have hmul := Nat.mul_le_mul_right (2 ^ (52 - n.log2)) (Nat.log2_self_le hpos.ne')
    rw [← pow_add, show n.log2 + (52 - n.log2) = 52 by omega] at hmul
    exact Or.inl hmul

theorem value_natCast (hpos : 0 < n) (hlt : n < 2 ^ 53) (k : ℕ) :
    ((n * 2 ^ (52 - n.log2) : ℕ) : ℚ) * 2 ^ ((n.log2 : ℤ) - 52 + k) = n * 2 ^ k := by
  have hlog := log2_le_of_lt hpos hlt
  have hexponent : (n.log2 : ℤ) - 52 + k = k - (52 - n.log2 : ℕ) := by omega
  rw [hexponent, zpow_sub₀ (by norm_num), zpow_natCast, zpow_natCast]
  push_cast
  field_simp

theorem toNat_toUInt64 (hlt : n < 2 ^ 53) : n.toUInt64.toNat = n := by
  show n % 2 ^ 64 = n
  omega

/-- Rounding brings a whole number to its canonical pair. -/
theorem round_natCast (hpos : 0 < n) (hlt : n < 2 ^ 53)
    (hcanonical : Canonical (n * 2 ^ (52 - n.log2)) (n.log2 - 52)) :
    UnpackedFloat.round Format.binary64 .positive n 0 =
      .finite .positive (n * 2 ^ (52 - n.log2)) (n.log2 - 52) hcanonical.pos := by
  have hlog := log2_le_of_lt hpos hlt
  have htarget : Format.binary64.targetExponent (totalExponent n 0) = (n.log2 : ℤ) - 52 := by
    rw [targetExponent_binary64, totalExponent]
    omega
  have hshift : (0 - ((n.log2 : ℤ) - 52)).toNat = 52 - n.log2 := by omega
  have hlower : (0 : ℤ) - (52 - n.log2 : ℕ) = (n.log2 : ℤ) - 52 - (0 : ℕ) := by omega
  have hround := roundWithAccuracy_exact (s := .positive) hcanonical 0
  rw [pow_zero, mul_one] at hround
  simp only [UnpackedFloat.round, decreaseExponent, htarget, hshift, Nat.shiftLeft_eq, hlower]
  exact hround

/-- A whole number of at most 53 bits is converted without loss. -/
theorem exists_parts_toFloat (hpos : 0 < n) (hlt : n < 2 ^ 53) :
    ∃ (m : ℕ) (q : ℤ), HasParts n.toUInt64.toFloat m q ∧ 2 ^ 52 ≤ m ∧ (m : ℚ) * 2 ^ q = n := by
  have hcanonical : Canonical (n * 2 ^ (52 - n.log2)) (n.log2 - 52) := by
    simpa using canonical_natCast hpos hlt 0
  have hlog := log2_le_of_lt hpos hlt
  have hmodel : n.toUInt64.toFloat =
      .ofModel (.pack (ofNat Format.binary64 n.toUInt64.toNat)) := rfl
  have hcompare : compare (n : ℤ) 0 = .gt := Int.compare_eq_gt.mpr (by exact_mod_cast hpos)
  refine ⟨n * 2 ^ (52 - n.log2), n.log2 - 52, ?_, hcanonical.full.resolve_right (by omega), ?_⟩
  · rw [hmodel, toNat_toUInt64 hlt, ofNat, ofInt, UnpackedFloat.normalize, hcompare]
    simp only [Int.toNat_natCast, round_natCast hpos hlt hcanonical]
    exact .ofModel_pack hcanonical (by omega)
  · simpa using value_natCast hpos hlt 0

end Whole

/-! ## Powers of ten -/

/-- The table holds the powers of ten without loss. -/
theorem toBits_powerOfTen : ∀ e : Fin 23,
    (Float.exactlyRepresentablePowersOfTen[e]).toBits =
      (Float.ofModel (.pack (.finite .positive (5 ^ e.val * 2 ^ (52 - (5 ^ e.val).log2))
        ((5 ^ e.val).log2 - 52 + e.val)
        (Nat.mul_pos (Nat.pow_pos (by decide)) (Nat.two_pow_pos _))))).toBits := by
  decide

theorem exists_parts_powerOfTen (e : Fin 23) :
    ∃ (m : ℕ) (q : ℤ), HasParts Float.exactlyRepresentablePowersOfTen[e] m q ∧ 0 < m ∧
      (m : ℚ) * 2 ^ q = 10 ^ e.val := by
  have hpos : 0 < 5 ^ e.val := Nat.pow_pos (by decide)
  have hlt : 5 ^ e.val < 2 ^ 53 :=
    lt_of_le_of_lt (Nat.pow_le_pow_right (by decide) (Nat.le_of_lt_succ e.isLt)) (by decide)
  have hlog := log2_le_of_lt hpos hlt
  have hcanonical := canonical_natCast hpos hlt e.val
  refine ⟨5 ^ e.val * 2 ^ (52 - (5 ^ e.val).log2), (5 ^ e.val).log2 - 52 + e.val, ?_,
    hcanonical.pos, ?_⟩
  · rw [Float.toBits_inj.mp (toBits_powerOfTen e)]
    exact .ofModel_pack hcanonical (by omega)
  · rw [value_natCast hpos hlt]
    push_cast
    rw [← mul_pow]
    norm_num

end Double

/-! ## Reading a decimal -/

namespace Decimal
open Double
open Float.Model (UnpackedFloat Format)

variable {d : Decimal} {x : Float} {m : ℕ} {q : ℤ}

/-- A power with a negative exponent is an inverse. -/
theorem zpow_mul_pow_eq_one {b : ℚ} (hb : b ≠ 0) {e : ℤ} {k : ℕ} (hk : (k : ℤ) = -e) :
    b ^ e * b ^ k = 1 := by
  rw [← zpow_natCast, ← zpow_add₀ hb, hk, add_neg_cancel, zpow_zero]

theorem toFloat_zero : (Decimal.mk 0 0).toFloat = 0 :=
  Float.toBits_inj.mp (by decide)

/-- Small digits are scaled by a power of ten from the table. -/
theorem toFloat_of_small (hx : HasParts x m q) (hpos : 0 < d.digits)
    (hvalue : (d.digits : ℚ) * 10 ^ d.exponent = m * 2 ^ q) (hdigits : d.digits < 2 ^ 53)
    (hexponent : d.exponent.natAbs < 23) : d.toFloat = x := by
  obtain ⟨m₁, q₁, hwhole, hlong, hwholeValue⟩ := exists_parts_toFloat hpos hdigits
  obtain ⟨m₂, q₂, hpower, hpower_pos, hpowerValue⟩ :=
    exists_parts_powerOfTen ⟨d.exponent.natAbs, hexponent⟩
  rw [toFloat, Float.ofScientific, dif_pos ⟨hdigits, by omega⟩]
  by_cases hneg : d.exponent < 0
  · have hinverse : (10 : ℚ) ^ d.exponent * 10 ^ d.exponent.natAbs = 1 :=
      zpow_mul_pow_eq_one (by norm_num) (Int.ofNat_natAbs_of_nonpos hneg.le)
    rw [if_pos (by simpa using hneg)]
    refine hwhole.div hpower hx ?_
    rw [hwholeValue, hpowerValue, ← hvalue, mul_assoc, hinverse, mul_one]
  · have hpower_eq : (10 : ℚ) ^ d.exponent = 10 ^ d.exponent.natAbs := by
      rw [← zpow_natCast, Int.natAbs_of_nonneg (not_lt.mp hneg)]
    rw [if_neg (by simpa using hneg)]
    refine hwhole.mul hpower hx (le_trans hlong (Nat.le_mul_of_pos_right _ hpower_pos)) ?_
    rw [← hvalue, hpower_eq, ← hwholeValue, ← hpowerValue, zpow_add₀ (by norm_num)]
    push_cast
    ring

/-- A double stays below the next power of two, so the scale of its decimal does. -/
theorem exponent_lt (hx : HasParts x m q) (hpos : 0 < d.digits)
    (hvalue : (d.digits : ℚ) * 10 ^ d.exponent = m * 2 ^ q) : d.exponent < 1024 := by
  by_contra hge
  have hm : (m : ℚ) < 2 ^ (53 : ℤ) := by exact_mod_cast hx.canonical.lt
  have hq : (2 : ℚ) ^ q ≤ 2 ^ (971 : ℤ) := zpow_le_zpow_right₀ (by norm_num) hx.most
  have hlow : (2 : ℚ) ^ (1024 : ℤ) ≤ 10 ^ d.exponent :=
    le_trans (zpow_le_zpow_right₀ (by norm_num) (not_lt.mp hge))
      (zpow_le_zpow_left₀ (le_trans (by norm_num) (not_lt.mp hge)) (by norm_num) (by norm_num))
  have hone : (1 : ℚ) ≤ d.digits := by exact_mod_cast hpos
  have hhigh : (m : ℚ) * 2 ^ q < 2 ^ (1024 : ℤ) := by
    calc (m : ℚ) * 2 ^ q < 2 ^ (53 : ℤ) * 2 ^ q :=
          mul_lt_mul_of_pos_right hm (zpow_pos (by norm_num) q)
      _ ≤ 2 ^ (53 : ℤ) * 2 ^ (971 : ℤ) := mul_le_mul_of_nonneg_left hq (by norm_num)
      _ = 2 ^ (1024 : ℤ) := by rw [← zpow_add₀ (by norm_num)]; norm_num
  have hscale : (10 : ℚ) ^ d.exponent ≤ d.digits * 10 ^ d.exponent :=
    le_mul_of_one_le_left (zpow_nonneg (by norm_num) _) hone
  rw [hvalue] at hscale
  exact absurd (lt_of_le_of_lt hscale hhigh) (not_lt.mpr hlow)

/-- All other digits are scaled by a power of ten computed in full. -/
theorem ofScientific_eq (hx : HasParts x m q) (hpos : 0 < d.digits)
    (hvalue : (d.digits : ℚ) * 10 ^ d.exponent = m * 2 ^ q) (hleast : -1074 ≤ d.exponent) :
    UnpackedFloat.ofScientific Format.binary64 d.digits d.exponent =
      .finite .positive m q hx.canonical.pos := by
  have hmost := exponent_lt hx hpos hvalue
  have hlarge : ¬ d.exponent > 2 ^ Format.binary64.exponentBits := by
    show ¬ d.exponent > 2 ^ 11
    omega
  have hsmall : ¬ d.exponent < -((2 ^ Format.binary64.exponentBits : ℤ) + d.digits.log2) := by
    show ¬ d.exponent < -((2 ^ 11 : ℤ) + d.digits.log2)
    omega
  rw [UnpackedFloat.ofScientific, dif_neg hpos.ne', if_neg hlarge, if_neg hsmall]
  by_cases hneg : d.exponent < 0
  · have hinverse : (10 : ℚ) ^ d.exponent * 10 ^ (-d.exponent).toNat = 1 :=
      zpow_mul_pow_eq_one (by norm_num) (Int.toNat_of_nonneg (by omega))
    rw [if_neg (not_le.mpr hneg)]
    refine div_exact hx.canonical ?_
    rw [← hvalue]
    push_cast
    rw [mul_one, mul_one, mul_assoc, hinverse, mul_one]
  · have hpower : (10 : ℚ) ^ d.exponent = 10 ^ d.exponent.toNat := by
      rw [← zpow_natCast, Int.toNat_of_nonneg (not_lt.mp hneg)]
    rw [if_pos (not_lt.mp hneg)]
    refine mul_exact hx.canonical ?_ ?_
    -- the digits are shifted up first, so that the product has bits to spare
    · rw [← hvalue, hpower, mantissaBits_eq, Nat.shiftLeft_eq, add_zero, zpow_neg, zpow_natCast]
      push_cast
      field_simp
      norm_num
    · rw [mantissaBits_eq, Nat.shiftLeft_eq]
      exact le_trans (le_trans (by norm_num) (Nat.le_mul_of_pos_left _ hpos))
        (Nat.le_mul_of_pos_right _ (Nat.pow_pos (by decide)))

/-- A decimal with the value of a double is read as this double. -/
theorem toFloat_eq (hx : HasParts x m q) (hpos : 0 < d.digits)
    (hvalue : (d.digits : ℚ) * 10 ^ d.exponent = m * 2 ^ q) (hleast : -1074 ≤ d.exponent) :
    d.toFloat = x := by
  by_cases hfast : d.digits < 2 ^ 53 ∧ d.exponent.natAbs ≤ 22
  · exact toFloat_of_small hx hpos hvalue hfast.1 (Nat.lt_succ_of_le hfast.2)
  · have hexponent : (if decide (d.exponent < 0) = true then Int.negOfNat d.exponent.natAbs
        else Int.ofNat d.exponent.natAbs) = d.exponent := by
      split
      · next hneg =>
        have hneg' := of_decide_eq_true hneg
        rw [Int.negOfNat_eq, Int.ofNat_eq_natCast]
        omega
      · next hneg =>
        have hneg' := of_decide_eq_false (Bool.eq_false_of_not_eq_true hneg)
        exact Int.natAbs_of_nonneg (not_lt.mp hneg')
    have hmodel : Float.Model.ofScientific d.digits d.exponent =
        .pack (UnpackedFloat.ofScientific Format.binary64 d.digits d.exponent) := rfl
    rw [toFloat, Float.ofScientific, dif_neg hfast]
    simp only [hexponent]
    rw [hmodel, ofScientific_eq hx hpos hvalue hleast]
    exact (HasParts.ofModel_pack hx.canonical hx.most).eq hx

end Decimal
end Plotting
