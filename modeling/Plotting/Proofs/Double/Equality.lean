import Mathlib
import Plotting.View.Samples

/-!
# When equal numbers are the same double

Equality written `==` compares doubles as numbers.  It is coarser than identity in one place and
finer in another: the two zeros are equal, and what is not a number does not equal itself.  The
memories of a view compare bounds by `sameNumber`, which mends the second by holding all that is
not a number for one.  There is a single such double, so only the zeros are left, and two bounds
that are the same number are the same double as soon as neither is the negative zero.
-/

namespace Plotting
namespace Double

/-- Equal numbers are one double if neither is the negative zero. -/
theorem eq_of_beq {a b : Float} (h : (a == b) = true) (ha : a ≠ -0) (hb : b ≠ -0) : a = b := by
  obtain ⟨-, -, rfl | ⟨-, hneg⟩ | ⟨hneg, -⟩⟩ := Float.beq_iff_ne_nan_and_eq.mp h
  · rfl
  · exact absurd hneg hb
  · exact absurd hneg ha

/-- There is one double that is not a number. -/
theorem eq_of_isNaN {a b : Float} (ha : a.isNaN = true) (hb : b.isNaN = true) : a = b := by
  rw [Float.isNaN_eq_decide_eq_nan, decide_eq_true_eq] at ha hb
  rw [ha, hb]

/-- The comparison of bounds tells doubles apart, the zeros excepted. -/
theorem eq_of_sameNumber {a b : Float} (h : sameNumber a b = true) (ha : a ≠ -0) (hb : b ≠ -0) :
    a = b := by
  rw [sameNumber, Bool.or_eq_true, Bool.and_eq_true] at h
  rcases h with h | ⟨hna, hnb⟩
  · exact eq_of_beq h ha hb
  · exact eq_of_isNaN hna hnb

end Double
end Plotting
