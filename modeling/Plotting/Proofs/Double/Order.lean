import Mathlib
import Plotting.Element.Style

/-!
# The order of doubles

Two doubles that are numbers are comparable, and comparing them the other way round gives the
opposite answer.  So a number that is not below a bound is at or above it, which is what brings a
clamped number between its bounds: `Double.clampUnit_mem_unit`.
-/

namespace Plotting
namespace Double

open Float.Model (UnpackedFloat)

/-! ## Comparing -/

/-- Comparing the other way round gives the opposite answer. -/
theorem compare_eq_map_swap (u v : UnpackedFloat) :
    v.compare u = (u.compare v).map Ordering.swap := by
  have hsigns : ∀ s t : UnpackedFloat.Sign, compare t s = (compare s t).swap := by decide
  cases u with
  | notANumber => cases v <;> rfl
  | infinity s =>
    cases v with
    | infinity t => exact congrArg some (hsigns s t)
    | _ => cases s <;> rfl
  | zero s =>
    cases v with
    | infinity t | finite t => cases t <;> rfl
    | _ => rfl
  | finite s m e hm =>
    cases v with
    | infinity t => cases t <;> rfl
    | zero | notANumber => cases s <;> rfl
    | finite t n f hn =>
      have hmagnitude : ((compare e f).then (compare m n)).swap =
          (compare f e).then (compare n m) := by
        rw [Ordering.swap_then, Int.compare_swap, Nat.compare_swap]
      cases s <;> cases t <;>
        simp only [UnpackedFloat.compare, Option.map_some, ← hmagnitude, Ordering.swap]

/-- Two numbers can be compared. -/
theorem compare_isSome {u v : UnpackedFloat} (hu : u.isNaN = false) (hv : v.isNaN = false) :
    (u.compare v).isSome = true := by
  fun_cases UnpackedFloat.compare u v <;> first | rfl | cases hu | cases hv

/-- Of two numbers, one that is not below the other is at or above it. -/
theorem le_of_not_lt {a b : Float} (ha : a.isNaN = false) (hb : b.isNaN = false)
    (h : ¬ a < b) : b ≤ a := by
  obtain ⟨o, ho⟩ := Option.isSome_iff_exists.mp (compare_isSome ha hb)
  have hswap : b.toModel.unpack.compare a.toModel.unpack = some o.swap := by
    rw [compare_eq_map_swap, ho, Option.map_some]
  have hlt : o ≠ .lt := by
    rintro rfl
    refine h (decide_eq_true ?_)
    show (a.toModel.unpack.compare b.toModel.unpack == some .lt) = true
    rw [ho]
    rfl
  refine decide_eq_true ?_
  show (b.toModel.unpack.compare a.toModel.unpack).any (·.isLE) = true
  rw [hswap]
  cases o <;> first | rfl | exact absurd rfl hlt

/-- A finite double is a number. -/
theorem isNaN_of_isFinite {a : Float} (h : a.isFinite = true) : a.isNaN = false := by
  change a.toModel.unpack.isFinite = true at h
  show a.toModel.unpack.isNaN = false
  cases hu : a.toModel.unpack <;> rw [hu] at h <;> first | rfl | cases h

/-! ## Bringing a number between zero and one -/

/-- A finite double is clamped to a finite one from zero to one. -/
theorem clampUnit_mem_unit {x : Float} (h : x.isFinite = true) :
    (clampUnit x).isFinite = true ∧ 0 ≤ clampUnit x ∧ clampUnit x ≤ 1 := by
  have hx : x.isNaN = false := isNaN_of_isFinite h
  unfold clampUnit
  split
  · decide
  · next hlow =>
    split
    · decide
    · next hhigh =>
      exact ⟨h, le_of_not_lt hx (by decide) hlow, le_of_not_lt (by decide) hx hhigh⟩

end Double
end Plotting
