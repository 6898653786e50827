import Plotting.Proofs.Decimal.Exact

/-!
# Shortest digits denote their double

The search for the fewest digits either stops at a decimal that was found to
denote the double, or ends with its exact expansion.  The expansion has the value
of the double, so it denotes the double as well.
-/

namespace Plotting
namespace Decimal
open Double

variable {x : Float} {m : ℕ} {q : ℤ}

/-! ## The exact expansion -/

theorem expand_eq (m : ℕ) (q : ℤ) :
    expand m q = if 0 ≤ q then (m * 2 ^ q.toNat, 0) else (m * 5 ^ (-q).toNat, q) := rfl

theorem value_expand (m : ℕ) (q : ℤ) :
    ((expand m q).1 : ℚ) * 10 ^ (expand m q).2 = m * 2 ^ q := by
  by_cases hq : 0 ≤ q
  · rw [expand_eq, if_pos hq, zpow_zero, mul_one]
    push_cast
    rw [← zpow_natCast, Int.toNat_of_nonneg hq]
  · have hten : (10 : ℚ) ^ q = 2 ^ q * 5 ^ q := by
      rw [← mul_zpow]
      norm_num
    have hfive : (5 : ℚ) ^ q * 5 ^ (-q).toNat = 1 :=
      zpow_mul_pow_eq_one (by norm_num) (Int.toNat_of_nonneg (by omega))
    rw [expand_eq, if_neg hq, hten]
    push_cast
    rw [mul_mul_mul_comm, mul_comm (5 ^ (-q).toNat), hfive, mul_one]

theorem expand_pos (hm : 0 < m) (q : ℤ) : 0 < (expand m q).1 := by
  by_cases hq : 0 ≤ q
  · rw [expand_eq, if_pos hq]
    exact Nat.mul_pos hm (Nat.two_pow_pos _)
  · rw [expand_eq, if_neg hq]
    exact Nat.mul_pos hm (Nat.pow_pos (by decide))

theorem le_exponent_expand (m : ℕ) (hq : -1074 ≤ q) : -1074 ≤ (expand m q).2 := by
  rw [expand_eq]
  split
  · show (-1074 : ℤ) ≤ 0
    decide
  · exact hq

/-- Moving zeros into the exponent keeps the value. -/
theorem value_ofDigits {n : ℕ} (hn : n ≠ 0) (e : ℤ) :
    ((ofDigits n e).digits : ℚ) * 10 ^ (ofDigits n e).exponent = n * 10 ^ e := by
  obtain ⟨k, hdigits, hexponent⟩ := exists_ofDigits hn e
  have hcast : (n : ℚ) = (ofDigits n e).digits * 10 ^ k := by exact_mod_cast hdigits
  rw [hexponent, hcast, zpow_add₀ (by norm_num), zpow_natCast]
  ring

theorem le_exponent_ofDigits {n : ℕ} (hn : n ≠ 0) (e : ℤ) : e ≤ (ofDigits n e).exponent := by
  obtain ⟨k, -, hexponent⟩ := exists_ofDigits hn e
  omega

theorem toFloat_expand (hx : HasParts x m q) :
    (ofDigits (expand m q).1 (expand m q).2).toFloat = x := by
  have hpos := expand_pos hx.canonical.pos q
  refine toFloat_eq hx (isCanonical_ofDigits hpos.ne' _).pos ?_ ?_
  · rw [value_ofDigits hpos.ne', value_expand]
  · exact le_trans (le_exponent_expand m hx.canonical.least) (le_exponent_ofDigits hpos.ne' _)

/-! ## The search -/

/-- Every step of the search ends in a decimal that denotes the double. -/
theorem toFloat_search (tie : Tie) {n : ℕ} {e : ℤ} (hexact : (ofDigits n e).toFloat = x) (t : ℕ) :
    (search tie x n e t).toFloat = x := by
  induction t with
  | zero => exact hexact
  | succ t ih =>
    rw [search]
    cases hfound : neighbour? tie x n e (t + 1) with
    | none => exact ih
    | some d => exact toFloat_of_neighbour? hfound

/-- A number is tried without its trailing zeros. -/
theorem exists_ofDigits_of_neighbour? {tie : Tie} {n t : ℕ} {e : ℤ} {d : Decimal}
    (h : neighbour? tie x n e t = some d) : ∃ n' e', d = ofDigits n' e' := by
  have hmem := List.mem_of_find?_eq_some h
  simp only [List.mem_cons, List.not_mem_nil, or_false] at hmem
  rcases hmem with rfl | rfl | rfl
  · split <;> exact ⟨_, _, rfl⟩
  · exact ⟨_, _, rfl⟩
  · exact ⟨_, _, rfl⟩

theorem exists_ofDigits_search (tie : Tie) (x : Float) (n : ℕ) (e : ℤ) (t : ℕ) :
    ∃ n' e', search tie x n e t = ofDigits n' e' := by
  induction t with
  | zero => exact ⟨n, e, rfl⟩
  | succ t ih =>
    rw [search]
    cases hfound : neighbour? tie x n e (t + 1) with
    | none => exact ih
    | some d => exact exists_ofDigits_of_neighbour? hfound

/-! ## What is written -/

theorem toFloat_shortest (tie : Tie) (hx : HasParts x.abs m q) (hbinary : binary x = (m, q)) :
    (shortest tie x).toFloat = x.abs := by
  rw [shortest, hbinary]
  exact toFloat_search tie (toFloat_expand hx) _

theorem isCanonical_shortest (tie : Tie) (hx : HasParts x.abs m q) (hbinary : binary x = (m, q)) :
    (shortest tie x).IsCanonical := by
  have hread := toFloat_shortest tie hx hbinary
  obtain ⟨n, e, hform⟩ : ∃ n e, shortest tie x = ofDigits n e := by
    rw [shortest, hbinary]
    exact exists_ofDigits_search tie _ _ _ _
  rw [hform] at hread ⊢
  refine isCanonical_ofDigits ?_ e
  rintro rfl
  have habs : (0 : Float) = x.abs := toFloat_zero.symm.trans hread
  have hparts := (congrArg (fun y : Float => y.toModel.unpack) habs).trans hx.unpack_eq
  exact absurd (unpack_zero.symm.trans hparts) (by simp)

end Decimal
end Plotting
