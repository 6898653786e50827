import Mathlib
import Plotting.Proofs.Double.Canonical

/-!
# Doubles without a minus sign

A sum is the negative zero only if both of its terms are, and a product or a quotient has a minus
sign only if one of its operands has.  So what is computed from doubles without a minus sign by
multiplying and dividing has none, and adding it to a zero gives the same double whichever of the
two zeros it was added to, unless both are the negative one.
-/

namespace Plotting
namespace Double

open Float.Model (UnpackedFloat Format)
open Float.Model.UnpackedFloat

/-! ## Parts -/

/-- There is no minus sign; what is not a number has none. -/
def Unsigned : UnpackedFloat → Prop
  | .notANumber => True
  | .infinity s | .zero s | .finite s _ _ _ => s = .positive

instance : DecidablePred Unsigned
  | .notANumber => .isTrue trivial
  | .infinity s | .zero s | .finite s _ _ _ => decidable_of_iff _ (beq_iff_eq (a := s))

namespace Unsigned

variable {f : Format} {u v : UnpackedFloat}

theorem roundWithAccuracy (f : Format) (m : ℕ) (e : ℤ) (a : Accuracy) :
    Unsigned (roundWithAccuracy f .positive m e a) := by
  unfold UnpackedFloat.roundWithAccuracy
  simp only
  split <;> rfl

/-- A product of operands without a minus sign has none. -/
theorem mul (hu : Unsigned u) (hv : Unsigned v) : Unsigned (mul f u v) := by
  cases u <;> cases v <;> cases hu <;> cases hv <;>
    first | trivial | rfl | exact roundWithAccuracy f _ _ _

/-- A quotient of operands without a minus sign has none. -/
theorem div (hu : Unsigned u) (hv : Unsigned v) : Unsigned (div f u v) := by
  cases u <;> cases v <;> cases hu <;> cases hv <;>
    first | trivial | rfl | exact roundWithAccuracy f _ _ _

/-- A whole number has no minus sign. -/
theorem ofNat (f : Format) (n : ℕ) : Unsigned (ofNat f n) := by
  unfold UnpackedFloat.ofNat UnpackedFloat.ofInt UnpackedFloat.normalize
  split
  · next h => exact absurd (Int.compare_eq_lt.mp h) (by omega)
  · rfl
  · exact roundWithAccuracy f _ _ _

theorem ofScientific (f : Format) (m : ℕ) (e : ℤ) : Unsigned (ofScientific f m e) := by
  unfold UnpackedFloat.ofScientific
  split
  · rfl
  split
  · rfl
  split
  · rfl
  split
  · exact mul rfl rfl
  · exact div rfl rfl

/-- The sign is a bit of its own. -/
theorem unpack_packComponents (e : BitVec f.exponentBits)
    (m : BitVec f.mantissaBitsWithoutImplicit) :
    Unsigned (unpack f (packComponents f .positive e m)) := by
  have hsign : Sign.ofBitVec (unpackSign (packComponents f .positive e m)) = .positive := by
    rw [unpackSign_packComponents, Sign.ofBitVec_toBitVec]
  unfold unpack
  simp only
  split
  · split
    · exact hsign
    · trivial
  · split
    · split <;> exact hsign
    · exact hsign

/-- Packing into bits keeps the sign. -/
theorem unpack_pack (hu : Unsigned u) : Unsigned (unpack f (pack f u)) := by
  cases u with
  | notANumber => exact unpack_packComponents _ _
  | infinity s | zero s =>
    obtain rfl : s = .positive := hu
    exact unpack_packComponents _ _
  | finite s m e hm =>
    obtain rfl : s = .positive := hu
    unfold pack
    simp only
    split
    · exact unpack_packComponents _ _
    · split <;> exact unpack_packComponents _ _

end Unsigned

/-! ## Whole numbers -/

/-- A whole number, however large, has no minus sign as a double. -/
theorem unsigned_ofNat (n : ℕ) : Unsigned (Float.ofNat n).toModel.unpack := by
  have hpower : Unsigned (Float.exactlyRepresentablePowersOfTen[0]).toModel.unpack := by
    decide
  show Unsigned (Float.ofScientific n false 0).toModel.unpack
  unfold Float.ofScientific
  split
  · exact ((Unsigned.ofNat _ _).unpack_pack.mul hpower).unpack_pack
  · exact (Unsigned.ofScientific _ _ _).unpack_pack

end Double
end Plotting
