import Mathlib
import Plotting.Proofs.Double.Canonical
import Plotting.Proofs.Double.Equality
import Plotting.Proofs.Double.Order

/-!
# Arithmetic up to the sign of a zero

Doubles that are the same number may still be two doubles, the two zeros.  Taken apart, both are
zeros and only their signs differ, and `SameValue` says so of parts.  The basic operations look at
the sign of a zero in order to find the sign of a result, so the results of sums, differences and
products of the same numbers are the same numbers again.  The comparisons do not look at it at all.

The exception is division: the sign of a zero in the denominator becomes the sign of an infinity.
Hence `sameNumber_div_right` lets only the numerator vary.
-/

namespace Plotting
namespace Double

open Float.Model (UnpackedFloat Format)
open Float.Model.UnpackedFloat

/-! ## The same value -/

/-- Two parts denote one value: they are the same, or both are zeros. -/
inductive SameValue : UnpackedFloat → UnpackedFloat → Prop
  | refl (u : UnpackedFloat) : SameValue u u
  | zeros (s t : Sign) : SameValue (.zero s) (.zero t)

namespace SameValue

variable {f : Format} {u v u' v' : UnpackedFloat}

/-- A value that is not zero is kept as it is. -/
theorem eq_of_ne_zero (h : SameValue u v) (hu : ∀ s, u ≠ .zero s) : u = v := by
  cases h with
  | refl => rfl
  | zeros s t => exact absurd rfl (hu s)

/-- What follows a zero in a sum or a difference is one value, whatever the sign of the zero. -/
theorem zero_add (f : Format) (s t : Sign) (w : UnpackedFloat) :
    SameValue (add f (.zero s) w) (add f (.zero t) w) := by
  cases w with
  | zero r => cases s <;> cases t <;> cases r <;> constructor
  | _ => exact .refl _

theorem add_zero (f : Format) (s t : Sign) (w : UnpackedFloat) :
    SameValue (add f w (.zero s)) (add f w (.zero t)) := by
  cases w with
  | zero r => cases s <;> cases t <;> cases r <;> constructor
  | _ => exact .refl _

theorem zero_sub (f : Format) (s t : Sign) (w : UnpackedFloat) :
    SameValue (sub f (.zero s) w) (sub f (.zero t) w) := by
  cases w with
  | zero r => cases s <;> cases t <;> cases r <;> constructor
  | _ => exact .refl _

theorem sub_zero (f : Format) (s t : Sign) (w : UnpackedFloat) :
    SameValue (sub f w (.zero s)) (sub f w (.zero t)) := by
  cases w with
  | zero r => cases s <;> cases t <;> cases r <;> constructor
  | _ => exact .refl _

theorem trans (h : SameValue u v) (h' : SameValue v v') : SameValue u v' := by
  cases h with
  | refl => exact h'
  | zeros s t =>
    cases h' with
    | refl => exact .zeros s t
    | zeros _ r => exact .zeros s r

theorem add (h : SameValue u v) (h' : SameValue u' v') :
    SameValue (add f u u') (add f v v') := by
  have hleft : SameValue (UnpackedFloat.add f u u') (UnpackedFloat.add f v u') := by
    cases h with
    | refl => exact .refl _
    | zeros s t => exact zero_add f s t u'
  refine hleft.trans ?_
  cases h' with
  | refl => exact .refl _
  | zeros s t => exact add_zero f s t v

theorem sub (h : SameValue u v) (h' : SameValue u' v') :
    SameValue (sub f u u') (sub f v v') := by
  have hleft : SameValue (UnpackedFloat.sub f u u') (UnpackedFloat.sub f v u') := by
    cases h with
    | refl => exact .refl _
    | zeros s t => exact zero_sub f s t u'
  refine hleft.trans ?_
  cases h' with
  | refl => exact .refl _
  | zeros s t => exact sub_zero f s t v

theorem mul (h : SameValue u v) (h' : SameValue u' v') :
    SameValue (mul f u u') (mul f v v') := by
  have hleft : SameValue (UnpackedFloat.mul f u u') (UnpackedFloat.mul f v u') := by
    cases h with
    | refl => exact .refl _
    | zeros s t => cases u' <;> constructor
  refine hleft.trans ?_
  cases h' with
  | refl => exact .refl _
  | zeros s t => cases v <;> constructor

/-- Only the numerator may vary. -/
theorem div_right (h : SameValue u v) (w : UnpackedFloat) :
    SameValue (div f u w) (div f v w) := by
  cases h with
  | refl => exact .refl _
  | zeros s t => cases w <;> constructor

/-- The bits of a result keep its value. -/
theorem unpack_pack (h : SameValue u v) :
    SameValue (unpack f (pack f u)) (unpack f (pack f v)) := by
  cases h with
  | refl => exact .refl _
  | zeros s t =>
    have hzero : ∀ r : Sign, unpack f (pack f (.zero r)) = .zero r := fun _ => unpack_packedZero
    rw [hzero, hzero]
    exact .zeros s t

/-- Comparisons see the value only. -/
theorem compare_right (h : SameValue u v) (w : UnpackedFloat) : u.compare w = v.compare w := by
  cases h with
  | refl => rfl
  | zeros s t =>
    cases w with
    | infinity r | finite r => cases r <;> rfl
    | _ => rfl

theorem isFinite_eq (h : SameValue u v) : u.isFinite = v.isFinite := by
  cases h <;> rfl

end SameValue

/-! ## The same number -/

variable {a b c a' b' : Float}

/-- The comparison of bounds is the comparison of values. -/
theorem sameNumber_iff :
    sameNumber a b = true ↔ SameValue a.toModel.unpack b.toModel.unpack := by
  have hbeq : (a == b) = a.toModel.unpack.beq b.toModel.unpack := rfl
  have hnan : ∀ x : Float, x.isNaN = x.toModel.unpack.isNaN := fun _ => rfl
  rw [sameNumber, Bool.or_eq_true, Bool.and_eq_true, hbeq, beq_iff_ne_notANumber_and_eq, hnan,
    hnan, isNaN_iff, isNaN_iff]
  constructor
  · rintro (⟨-, -, h | ⟨ha, hb⟩ | ⟨ha, hb⟩⟩ | ⟨ha, hb⟩)
    · rw [h]
      exact .refl _
    · rw [ha, hb]
      exact .zeros _ _
    · rw [ha, hb]
      exact .zeros _ _
    · rw [ha, hb]
      exact .refl _
  · intro h
    generalize a.toModel.unpack = u at h ⊢
    generalize b.toModel.unpack = v at h ⊢
    cases h with
    | refl =>
      by_cases hu : u = .notANumber
      · exact Or.inr ⟨hu, hu⟩
      · exact Or.inl ⟨hu, hu, Or.inl rfl⟩
    | zeros s t => cases s <;> cases t <;> simp

theorem sameNumber_refl (a : Float) : sameNumber a a = true :=
  sameNumber_iff.mpr (.refl _)

theorem sameNumber_of_beq (h : (a == b) = true) : sameNumber a b = true := by
  rw [sameNumber, h, Bool.true_or]

/-- Numbers that are the same are equal as numbers. -/
theorem beq_of_sameNumber (h : sameNumber a b = true) (ha : a.isFinite = true) :
    (a == b) = true := by
  rw [sameNumber, Bool.or_eq_true, Bool.and_eq_true] at h
  refine h.resolve_right fun hnan => ?_
  have hfinite : a.toModel.unpack.isFinite = true := ha
  rw [isNaN_iff.mp (show a.toModel.unpack.isNaN = true from hnan.1)] at hfinite
  cases hfinite

/-- A finite double equals itself. -/
theorem beq_self_of_isFinite (ha : a.isFinite = true) : (a == a) = true :=
  beq_of_sameNumber (sameNumber_refl a) ha

/-! ## Arithmetic -/

theorem sameNumber_add (h : sameNumber a b = true) (h' : sameNumber a' b' = true) :
    sameNumber (a + a') (b + b') = true :=
  sameNumber_iff.mpr ((sameNumber_iff.mp h).add (sameNumber_iff.mp h')).unpack_pack

theorem sameNumber_sub (h : sameNumber a b = true) (h' : sameNumber a' b' = true) :
    sameNumber (a - a') (b - b') = true :=
  sameNumber_iff.mpr ((sameNumber_iff.mp h).sub (sameNumber_iff.mp h')).unpack_pack

theorem sameNumber_mul (h : sameNumber a b = true) (h' : sameNumber a' b' = true) :
    sameNumber (a * a') (b * b') = true :=
  sameNumber_iff.mpr ((sameNumber_iff.mp h).mul (sameNumber_iff.mp h')).unpack_pack

theorem sameNumber_div_right (h : sameNumber a b = true) (c : Float) :
    sameNumber (a / c) (b / c) = true :=
  sameNumber_iff.mpr ((sameNumber_iff.mp h).div_right _).unpack_pack

/-! ## Guards -/

theorem isFinite_congr (h : sameNumber a b = true) : a.isFinite = b.isFinite :=
  (sameNumber_iff.mp h).isFinite_eq

/-- The order of doubles is that of their parts. -/
theorem lt_iff : a < b ↔ a.toModel.unpack.lt b.toModel.unpack = true :=
  decide_eq_true_iff

theorem lt_congr_left (h : sameNumber a b = true) : a < c ↔ b < c := by
  rw [lt_iff, lt_iff, UnpackedFloat.lt, UnpackedFloat.lt, (sameNumber_iff.mp h).compare_right]

theorem lt_congr_right (h : sameNumber a b = true) : c < a ↔ c < b := by
  have hcompare := congrArg (Option.map Ordering.swap) ((sameNumber_iff.mp h).compare_right
    c.toModel.unpack)
  rw [← compare_eq_map_swap, ← compare_eq_map_swap] at hcompare
  rw [lt_iff, lt_iff, UnpackedFloat.lt, UnpackedFloat.lt, hcompare]

theorem isPositive_congr (h : sameNumber a b = true) : isPositive a = isPositive b := by
  rw [isPositive, isPositive, isFinite_congr h, decide_eq_decide.mpr (lt_congr_right h)]

theorem sameNumber_clampUnit (h : sameNumber a b = true) :
    sameNumber (clampUnit a) (clampUnit b) = true := by
  unfold clampUnit
  rw [if_congr (lt_congr_left h) rfl rfl]
  split
  · exact sameNumber_refl 0
  · rw [if_congr (lt_congr_right h) rfl rfl]
    split
    · exact sameNumber_refl 1
    · exact h

end Double
end Plotting
