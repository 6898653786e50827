import Mathlib
import Plotting.Decimal.Basic

/-!
# Decimals without trailing zeros

`Decimal.ofDigits` moves zeros from the digits into the exponent.  What is left
ends in another digit, denotes the same number, and does not depend on how many
zeros there were.
-/

namespace Plotting
namespace Decimal

/-- The digits do not end in a zero. -/
def IsCanonical (d : Decimal) : Prop :=
  d.digits % 10 ≠ 0

theorem IsCanonical.pos {d : Decimal} (h : d.IsCanonical) : 0 < d.digits := by
  rcases Nat.eq_zero_or_pos d.digits with h0 | h0
  · exact absurd (by rw [h0]) h
  · exact h0

theorem isCanonical_strip {fuel n : Nat} (e : Int) (hn : 0 < n) (hfuel : n ≤ fuel) :
    (strip fuel n e).IsCanonical := by
  induction fuel generalizing n e with
  | zero => omega
  | succ fuel ih =>
    rw [strip]
    split
    · exact ih _ (by omega) (by omega)
    · next h => exact h

/-- Stripping zeros only moves them. -/
theorem exists_strip (fuel n : Nat) (e : Int) :
    ∃ k : Nat, n = (strip fuel n e).digits * 10 ^ k ∧ (strip fuel n e).exponent = e + k := by
  induction fuel generalizing n e with
  | zero => exact ⟨0, by simp [strip], by simp [strip]⟩
  | succ fuel ih =>
    rw [strip]
    split
    · next h =>
      obtain ⟨k, hdigits, hexponent⟩ := ih (n / 10) (e + 1)
      refine ⟨k + 1, ?_, by rw [hexponent]; omega⟩
      rw [Nat.pow_succ, ← Nat.mul_assoc, ← hdigits]
      omega
    · exact ⟨0, by simp, by simp⟩

theorem isCanonical_ofDigits {n : Nat} (hn : n ≠ 0) (e : Int) : (ofDigits n e).IsCanonical := by
  rw [ofDigits, if_neg hn]
  exact isCanonical_strip e (Nat.pos_of_ne_zero hn) (Nat.le_refl n)

theorem exists_ofDigits {n : Nat} (hn : n ≠ 0) (e : Int) :
    ∃ k : Nat, n = (ofDigits n e).digits * 10 ^ k ∧ (ofDigits n e).exponent = e + k := by
  rw [ofDigits, if_neg hn]
  exact exists_strip n n e

theorem strip_mul_pow {n k fuel : Nat} (h : n % 10 ≠ 0) (e : Int) (hfuel : k ≤ fuel) :
    strip fuel (n * 10 ^ k) e = ⟨n, e + k⟩ := by
  induction k generalizing e fuel with
  | zero => simpa using strip_of_mod_ne_zero fuel e h
  | succ k ih =>
    obtain ⟨fuel, rfl⟩ : ∃ f, fuel = f + 1 := ⟨fuel - 1, by omega⟩
    have hshift : n * 10 ^ (k + 1) = 10 * (n * 10 ^ k) := by
      rw [Nat.pow_succ, Nat.mul_comm (10 ^ k), Nat.mul_left_comm]
    rw [hshift, strip_mul_ten, ih (e + 1) (by omega)]
    congr 1
    omega

/-- Zeros behind digits that do not end in one all go into the exponent. -/
theorem ofDigits_mul_pow {n : Nat} (h : n % 10 ≠ 0) (k : Nat) (e : Int) :
    ofDigits (n * 10 ^ k) e = ⟨n, e + k⟩ := by
  have hn : 0 < n := by omega
  have hpow : k < 10 ^ k := Nat.lt_pow_self (by decide)
  have hle : 10 ^ k ≤ n * 10 ^ k := Nat.le_mul_of_pos_left _ hn
  rw [ofDigits, if_neg (by omega)]
  exact strip_mul_pow h e (by omega)

end Decimal
end Plotting
