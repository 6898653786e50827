import Plotting.Decimal.Reader
import Plotting.Proofs.Decimal.Numerals
import Plotting.Proofs.Decimal.Shortest

/-!
# Short numerals are read as the nearest double

The reader in a hurry may round three times: where it takes in the digits, where it looks up the
power of ten, and where it scales the one by the other.  If the digits fit into the mantissa of a
double, and the power is one of those that are doubles (`Decimal.IsShort`), nothing is lost before
the last step, and this is how the nearest double is found, too.  So a short numeral is read as the
double nearest to what is written (`NumberReader.magnitude_of_isShort`).

What is written may end in zeros, which are no part of the decimal that it spells.  For whole numbers
they make no difference (`Decimal.toFloat_ofDigits_of_whole`).
-/

namespace Plotting
namespace Decimal
open Double

/-- The digits are a double, and so is the power of ten. -/
@[mk_iff]
structure IsShort (d : Decimal) : Prop where
  digits : d.digits < 2 ^ 53
  exponent : d.exponent.natAbs ≤ 22

instance (d : Decimal) : Decidable d.IsShort :=
  decidable_of_iff' _ (isShort_iff d)

variable {n : ℕ} {e : ℤ}

theorem toFloat_zero_digits (h : e.natAbs ≤ 22) : (Decimal.mk 0 e).toFloat = 0 := by
  have hall : ∀ (below : Bool) (k : Fin 23),
      (Float.ofScientific 0 below k).toBits = (0 : Float).toBits := by
    decide
  exact Float.toBits_inj.mp (hall (e < 0) ⟨e.natAbs, Nat.lt_succ_of_le h⟩)

/-- The zeros at the end of a whole number may as well be digits: the number is a double. -/
theorem toFloat_ofDigits_of_whole (h : (Decimal.mk n e).IsShort) (he : e ≤ 0)
    (hwhole : 0 ≤ (ofDigits n e).exponent) : (ofDigits n e).toFloat = (Decimal.mk n e).toFloat := by
  rcases Nat.eq_zero_or_pos n with rfl | hpos
  · rw [toFloat_zero_digits h.exponent]
    exact toFloat_zero
  · obtain ⟨k, hdigits, hexponent⟩ := exists_ofDigits hpos.ne' e
    have hvalue := value_ofDigits hpos.ne' e
    have hstripped := (isCanonical_ofDigits hpos.ne' e).pos
    generalize ofDigits n e = d at *
    obtain ⟨j, hj⟩ := Int.eq_ofNat_of_zero_le hwhole
    have hle : d.digits * 10 ^ j ≤ n := by
      rw [hdigits]
      exact Nat.mul_le_mul_left _ (Nat.pow_le_pow_right (by decide) (by omega))
    obtain ⟨m, q, hx, -, hnumber⟩ := exists_parts_toFloat
      (Nat.mul_pos hstripped (Nat.pow_pos (by decide))) (lt_of_le_of_lt hle h.digits)
    have hwritten : (d.digits : ℚ) * 10 ^ d.exponent = m * 2 ^ q := by
      rw [hnumber, hj]
      push_cast
      rw [zpow_natCast]
    rw [toFloat_eq hx hstripped hwritten (by omega)]
    exact (toFloat_of_small hx hpos (hvalue.symm.trans hwritten) h.digits
      (Nat.lt_succ_of_le h.exponent)).symm

end Decimal

namespace NumberReader

/-! ## Taking in digits -/

theorem le_ofDigitChars (cs : List Char) (n : ℕ) : n ≤ Nat.ofDigitChars 10 cs n := by
  induction cs generalizing n with
  | nil => exact le_rfl
  | cons c cs ih =>
    rw [Nat.ofDigitChars_cons]
    exact le_trans (by omega) (ih _)

/-- Digits of a number of 64 bits are all taken in. -/
theorem takeDigits_eq {cs : List Char} {n : ℕ} (h : Nat.ofDigitChars 10 cs n < 2 ^ 64) :
    takeDigits n cs = (Nat.ofDigitChars 10 cs n, []) := by
  induction cs generalizing n with
  | nil => rfl
  | cons c cs ih =>
    rw [Nat.ofDigitChars_cons] at h ⊢
    rw [takeDigits]
    exact (if_pos (lt_of_le_of_lt (le_ofDigitChars cs _) h)).trans (ih h)

theorem magnitude_eq_scale {n : Numeral} (h : n.written.digits < 2 ^ 64) :
    bestEffort.magnitude n = scale n.written.digits n.written.exponent := by
  rw [Numeral.written, Nat.ofDigitChars_append] at h
  have hwhole := takeDigits_eq (lt_of_le_of_lt (le_ofDigitChars _ _) h)
  have hall := takeDigits_eq h
  simp only [bestEffort, hwhole, hall, List.length_nil, Nat.cast_zero, add_zero, Numeral.written,
    Nat.ofDigitChars_append]

/-! ## Scaling -/

/-- The reader finds the powers that are doubles, as everybody does. -/
theorem powerOfTen_eq (k : Fin 23) : powerOfTen k = Float.exactlyRepresentablePowersOfTen[k] := by
  have hall : ∀ k : Fin 23,
      (powerOfTen k).toBits = (Float.exactlyRepresentablePowersOfTen[k]).toBits := by
    decide
  exact Float.toBits_inj.mp (hall k)

theorem scale_of_isShort {d : Decimal} (h : d.IsShort) : scale d.digits d.exponent = d.toFloat := by
  have hpower := powerOfTen_eq ⟨d.exponent.natAbs, Nat.lt_succ_of_le h.exponent⟩
  have hexponent := h.exponent
  rw [Decimal.toFloat, Float.ofScientific, dif_pos ⟨h.digits, h.exponent⟩, scale]
  by_cases hneg : d.exponent < 0
  · have hrounds : (d.exponent.natAbs - 1) / maxPower = 0 := Nat.div_eq_of_lt (by
      rw [maxPower]
      omega)
    simp only [if_pos hneg, decide_eq_true hneg, if_true, hrounds, Nat.mul_zero, Nat.sub_zero]
    rw [divide, hpower]
    rfl
  · simp only [if_neg hneg, decide_eq_false hneg, Bool.false_eq_true, if_false]
    rw [if_pos (by rw [maxPower]; omega), hpower]
    rfl

/-- **A short numeral is read as the nearest double** to the decimal that is written. -/
theorem magnitude_of_isShort {n : Numeral} (h : n.written.IsShort) :
    bestEffort.magnitude n = n.written.toFloat := by
  rw [magnitude_eq_scale (lt_trans h.digits (by norm_num)), scale_of_isShort h]

end NumberReader
end Plotting
