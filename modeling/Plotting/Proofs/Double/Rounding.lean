import Plotting.Proofs.Double.Canonical

/-!
# Numbers that need no rounding

Products and quotients of doubles are formed exactly and then rounded.  Where
the exact result has a canonical pair, rounding finds it: all the bits that are
shifted out are zeros.  Values are compared as rational numbers, since the
intermediate results stand at exponents of either sign.
-/

namespace Plotting
namespace Double

open Float.Model (UnpackedFloat Format totalExponent)
open Float.Model.UnpackedFloat

variable {s : Sign} {m : ℕ} {q : ℤ}

/-! ## Shifting out zeros -/

theorem log2_mul_pow (hm : 0 < m) (k : ℕ) : (m * 2 ^ k).log2 = m.log2 + k := by
  have hpos : 0 < m * 2 ^ k := Nat.mul_pos hm (Nat.two_pow_pos k)
  rw [Nat.log2_eq_iff hpos.ne']
  have hlow : 2 ^ m.log2 ≤ m := Nat.log2_self_le hm.ne'
  have hhigh : m < 2 ^ (m.log2 + 1) := Nat.lt_log2_self
  constructor
  · rw [pow_add]
    exact Nat.mul_le_mul_right _ hlow
  · rw [add_right_comm, pow_add]
    exact Nat.mul_lt_mul_of_pos_right hhigh (Nat.two_pow_pos k)

theorem shiftRight_mul_pow (m k : ℕ) :
    (ExtendedMantissa.mk (m * 2 ^ k) false false) >>> k = ⟨m, false, false⟩ := by
  induction k generalizing m with
  | zero =>
    show ExtendedMantissa.mk (m * 2 ^ 0) false false = _
    rw [pow_zero, mul_one]
  | succ k ih =>
    have hstep : (ExtendedMantissa.mk (m * 2 ^ (k + 1)) false false) >>> (k + 1) =
        ((ExtendedMantissa.mk (m * 2 ^ (k + 1)) false false) >>> k).shiftRightOne := rfl
    have hshift : m * 2 ^ (k + 1) = m * 2 * 2 ^ k := by
      rw [pow_succ]
      ring
    rw [hstep, hshift, ih]
    simp [ExtendedMantissa.shiftRightOne]

/-- Zeros behind a canonical mantissa are shifted out. -/
theorem shiftToTargetExponent_exact (h : Canonical m q) (k : ℕ) :
    shiftToTargetExponent Format.binary64 (m * 2 ^ k) (q - k) .exact = (⟨m, false, false⟩, q) := by
  have htotal : totalExponent (m * 2 ^ k) (q - k) = totalExponent m q := by
    rw [totalExponent, totalExponent, log2_mul_pow h.pos]
    push_cast
    ring
  have hamount : (q - (q - k)).toNat = k := by omega
  rw [shiftToTargetExponent]
  simp only [htotal, h.targetExponent_eq, shiftToExponent, hamount,
    ExtendedMantissa.ofMantissaAndAccuracy, shiftRight_mul_pow]
  congr 1
  omega

/-- An exact value with a canonical pair is not changed by rounding. -/
theorem roundWithAccuracy_exact (h : Canonical m q) (k : ℕ) :
    roundWithAccuracy Format.binary64 s (m * 2 ^ k) (q - k) .exact = .finite s m q h.pos := by
  have hagain := shiftToTargetExponent_exact h 0
  rw [pow_zero, mul_one, Nat.cast_zero, sub_zero] at hagain
  rw [roundWithAccuracy]
  simp only [shiftToTargetExponent_exact h k, ExtendedMantissa.roundedMantissa,
    ExtendedMantissa.accuracy, Accuracy.roundToNearestEven, hagain]
  rw [dif_neg h.pos.ne']

/-! ## Exact products and quotients -/

/-- Equal values at different exponents, brought to natural numbers. -/
theorem mul_pow_eq_of_value_eq {a b : ℕ} {x y : ℤ} (h : (a : ℚ) * 2 ^ x = b * 2 ^ y) {i j : ℕ}
    (hij : (i : ℤ) - j = x - y) : a * 2 ^ i = b * 2 ^ j := by
  have hi : (2 : ℚ) ^ (i : ℤ) = 2 ^ x * 2 ^ ((i : ℤ) - x) := by
    rw [← zpow_add₀ (by norm_num)]
    congr 1
    ring
  have hj : (2 : ℚ) ^ (j : ℤ) = 2 ^ y * 2 ^ ((i : ℤ) - x) := by
    rw [← zpow_add₀ (by norm_num)]
    congr 1
    omega
  have hcast : (a : ℚ) * 2 ^ (i : ℤ) = b * 2 ^ (j : ℤ) := by
    rw [hi, hj, ← mul_assoc, ← mul_assoc, h]
  exact_mod_cast hcast

/-- A value with at least as many bits as a canonical mantissa stands at no
greater exponent. -/
theorem exists_shift (h : Canonical m q) {a : ℕ} {x : ℤ} (hvalue : (a : ℚ) * 2 ^ x = m * 2 ^ q)
    (hlong : 2 ^ 52 ≤ a) : ∃ k : ℕ, a = m * 2 ^ k ∧ x = q - k := by
  have hle : x ≤ q := by
    -- otherwise `m` would be at least `2 * a`, which has 54 bits
    by_contra hlt
    have hnat := mul_pow_eq_of_value_eq hvalue (i := (x - q).toNat) (j := 0) (by omega)
    obtain ⟨i, hi⟩ : ∃ i, (x - q).toNat = i + 1 := ⟨(x - q).toNat - 1, by omega⟩
    have hpos : 0 < 2 ^ i := Nat.two_pow_pos i
    have htwo : a * 2 ^ (i + 1) = a * 2 * 2 ^ i := by ring
    have hgrow : a * 2 ≤ a * 2 * 2 ^ i := Nat.le_mul_of_pos_right _ hpos
    have hm := h.lt
    rw [hi, htwo, pow_zero, mul_one] at hnat
    omega
  have hnat := mul_pow_eq_of_value_eq hvalue (i := 0) (j := (q - x).toNat) (by omega)
  exact ⟨(q - x).toNat, by simpa using hnat, by omega⟩

variable {m₁ m₂ : ℕ} {e₁ e₂ : ℤ} {h₁ : 0 < m₁} {h₂ : 0 < m₂}

theorem mul_exact (h : Canonical m q)
    (hvalue : ((m₁ * m₂ : ℕ) : ℚ) * 2 ^ (e₁ + e₂) = m * 2 ^ q) (hlong : 2 ^ 52 ≤ m₁ * m₂) :
    mul Format.binary64 (.finite .positive m₁ e₁ h₁) (.finite .positive m₂ e₂ h₂) =
      .finite .positive m q h.pos := by
  obtain ⟨k, hk, he⟩ := exists_shift h hvalue hlong
  rw [mul, hk, he]
  exact roundWithAccuracy_exact h k

theorem log2_mul_le (h₁ : 0 < m₁) (h₂ : 0 < m₂) : (m₁ * m₂).log2 ≤ m₁.log2 + m₂.log2 + 1 := by
  have hlt : m₁ * m₂ < 2 ^ (m₁.log2 + 1) * 2 ^ (m₂.log2 + 1) :=
    Nat.mul_lt_mul'' Nat.lt_log2_self Nat.lt_log2_self
  rw [← pow_add] at hlt
  have hlog := (Nat.log2_lt (Nat.mul_pos h₁ h₂).ne').mpr hlt
  omega

/-- The quotient is computed at an exponent that is low enough for all its bits. -/
theorem targetExponent_quotient_le (h : Canonical m q) (h₁ : 0 < m₁) (h₂ : 0 < m₂)
    (hvalue : (m₁ : ℚ) * 2 ^ e₁ = ((m * m₂ : ℕ) : ℚ) * 2 ^ (q + e₂)) :
    Format.binary64.targetExponent (totalExponent m₁ e₁ - totalExponent m₂ e₂) ≤ q := by
  have hnat := mul_pow_eq_of_value_eq hvalue (i := (e₁ - (q + e₂)).toNat)
    (j := (q + e₂ - e₁).toNat) (by omega)
  have hlog := congrArg Nat.log2 hnat
  rw [log2_mul_pow h₁, log2_mul_pow (Nat.mul_pos h.pos h₂)] at hlog
  have hle := log2_mul_le h.pos h₂
  have hq := h.targetExponent_eq
  rw [targetExponent_binary64, totalExponent] at hq ⊢
  rw [totalExponent]
  omega

/-- An exact quotient leaves no remainder. -/
theorem div_exact (h : Canonical m q) (hvalue : (m₁ : ℚ) * 2 ^ e₁ = m * 2 ^ q * (m₂ * 2 ^ e₂)) :
    div Format.binary64 (.finite .positive m₁ e₁ h₁) (.finite .positive m₂ e₂ h₂) =
      .finite .positive m q h.pos := by
  have hproduct : (m₁ : ℚ) * 2 ^ e₁ = ((m * m₂ : ℕ) : ℚ) * 2 ^ (q + e₂) := by
    rw [hvalue, zpow_add₀ (by norm_num)]
    push_cast
    ring
  have hle := targetExponent_quotient_le h h₁ h₂ hproduct
  rw [div]
  simp only [divCore]
  generalize ht : min (e₁ - e₂)
    (Format.binary64.targetExponent (totalExponent m₁ e₁ - totalExponent m₂ e₂)) = t
  obtain ⟨k, hk⟩ : ∃ k : ℕ, t = q - k := ⟨(q - t).toNat, by omega⟩
  have hnat := mul_pow_eq_of_value_eq hproduct (i := (e₁ - e₂ - t).toNat) (j := k) (by omega)
  have hshift : m₁ <<< (e₁ - e₂ - t).toNat = m * 2 ^ k * m₂ := by
    rw [Nat.shiftLeft_eq, hnat]
    ring
  rw [hshift, Nat.mul_div_cancel _ h₂, Nat.mul_mod_left, accuracyOfFraction, if_pos rfl, hk]
  exact roundWithAccuracy_exact h k

/-! ## Positive doubles by their parts -/

/-- The double is `m * 2 ^ q`, with a canonical pair. -/
structure HasParts (x : Float) (m : ℕ) (q : ℤ) : Prop where
  canonical : Canonical m q
  most : q ≤ 971
  unpack_eq : x.toModel.unpack = .finite .positive m q canonical.pos

namespace HasParts
variable {x y z : Float} {q₁ q₂ : ℤ}

/-- Packing a canonical pair gives the double with these parts. -/
theorem ofModel_pack (h : Canonical m q) (hmost : q ≤ 971) :
    HasParts (.ofModel (.pack (.finite .positive m q h.pos))) m q :=
  ⟨h, hmost, unpack_pack h hmost⟩

theorem eq (hx : HasParts x m q) (hy : HasParts y m q) : x = y :=
  eq_of_unpack_eq (hx.unpack_eq.trans hy.unpack_eq.symm)

/-- A product with an exact value has the parts of that value. -/
theorem mul (hx : HasParts x m₁ q₁) (hy : HasParts y m₂ q₂) (hz : HasParts z m q)
    (hlong : 2 ^ 52 ≤ m₁ * m₂)
    (hvalue : ((m₁ * m₂ : ℕ) : ℚ) * 2 ^ (q₁ + q₂) = m * 2 ^ q) : x * y = z := by
  refine eq_of_unpack_eq ?_
  have hmul : (x * y).toModel.unpack = unpack Format.binary64 (pack Format.binary64
      (Float.Model.UnpackedFloat.mul Format.binary64 x.toModel.unpack y.toModel.unpack)) := rfl
  rw [hmul, hx.unpack_eq, hy.unpack_eq, mul_exact hz.canonical hvalue hlong, hz.unpack_eq]
  exact unpack_pack hz.canonical hz.most

/-- A quotient with an exact value has the parts of that value. -/
theorem div (hx : HasParts x m₁ q₁) (hy : HasParts y m₂ q₂) (hz : HasParts z m q)
    (hvalue : (m₁ : ℚ) * 2 ^ q₁ = m * 2 ^ q * (m₂ * 2 ^ q₂)) : x / y = z := by
  refine eq_of_unpack_eq ?_
  have hdiv : (x / y).toModel.unpack = unpack Format.binary64 (pack Format.binary64
      (Float.Model.UnpackedFloat.div Format.binary64 x.toModel.unpack y.toModel.unpack)) := rfl
  rw [hdiv, hx.unpack_eq, hy.unpack_eq, div_exact hz.canonical hvalue, hz.unpack_eq]
  exact unpack_pack hz.canonical hz.most

end HasParts
end Double
end Plotting
