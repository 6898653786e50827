/-!
# Decimal numbers

A decimal is a natural number scaled by a power of ten.  Number texts denote
decimals, and a decimal denotes the nearest double.

The same number has many such pairs (`15 * 10 ^ 0`, `150 * 10 ^ (-1)`, ...).
`Decimal.ofDigits` keeps one of them, the pair with no trailing zero.  A text
therefore denotes the very pair that was written, whatever zeros the written form
added, and the step from pairs to doubles never has to be opened.
-/

namespace Plotting

/-- The non-negative number `digits * 10 ^ exponent`. -/
structure Decimal where
  digits : Nat
  exponent : Int
deriving DecidableEq, Repr

namespace Decimal

/-- Moves at most `fuel` trailing zeros of the digits into the exponent. -/
def strip : Nat → Nat → Int → Decimal
  | 0, n, e => ⟨n, e⟩
  | fuel + 1, n, e => if n % 10 = 0 then strip fuel (n / 10) (e + 1) else ⟨n, e⟩

/-- The decimal `n * 10 ^ e` without trailing zeros; a number has fewer zeros
than its own size, so the digits themselves bound the stripping. -/
def ofDigits (n : Nat) (e : Int) : Decimal :=
  if n = 0 then ⟨0, 0⟩ else strip n n e

/-- The double nearest to a decimal; past the largest double it is infinite. -/
def toFloat (d : Decimal) : Float :=
  Float.ofScientific d.digits (d.exponent < 0) d.exponent.natAbs

/-! ## Trailing zeros -/

theorem strip_of_mod_ne_zero (fuel : Nat) {n : Nat} (e : Int) (h : n % 10 ≠ 0) :
    strip fuel n e = ⟨n, e⟩ := by
  cases fuel <;> simp [strip, h]

/-- A zero at the end of the digits may as well stand in the exponent. -/
theorem strip_mul_ten (fuel n : Nat) (e : Int) :
    strip (fuel + 1) (10 * n) e = strip fuel n (e + 1) := by
  simp [strip]

/-- Digits that do not end in a zero are kept. -/
theorem ofDigits_of_mod_ne_zero {n : Nat} (e : Int) (h : n % 10 ≠ 0) :
    ofDigits n e = ⟨n, e⟩ := by
  have : n ≠ 0 := by rintro rfl; simp at h
  simp [ofDigits, this, strip_of_mod_ne_zero n e h]

end Decimal
end Plotting
