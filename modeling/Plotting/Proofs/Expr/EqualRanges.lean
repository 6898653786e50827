import Mathlib
import Plotting.Expr.Sampling
import Plotting.Proofs.Double.Congruence
import Plotting.Proofs.Double.Unsigned

/-!
# Samples over equal ranges

Ranges with the same numbers for bounds may still differ in the signs of zeros.  A formula can tell
the zeros apart, by dividing by one of them, and so the question is where it is evaluated.

A start other than zero absorbs everything: the width of the range is then one double, and so is
each place.  A start at zero is added to a product of a whole number and a step.  If the range runs
upwards, or nowhere, the product has no minus sign, and the sum is the positive zero or the product
itself, whichever zero it starts from.  There remain the ranges that run below zero from zero: the
first place is the start itself, and it keeps its sign.  `StartsApart` describes pairs of those,
and `sample_congr` says that ranges which are not such a pair give the same samples.
-/

namespace Plotting
namespace Double

open Float.Model (UnpackedFloat Format)
open Float.Model.UnpackedFloat

variable {a b z z' p p' : Float} {s s' : Sign}

/-! ## Sums with a zero -/

/-- The bits of a double are those of its parts. -/
theorem unpack_pack_self (x : Float) :
    unpack Format.binary64 (pack Format.binary64 x.toModel.unpack) = x.toModel.unpack :=
  congrArg (unpack Format.binary64) (pack_unpack_of_valid x.toModel.valid)

theorem unpack_add_eq (a b : Float) :
    (a + b).toModel.unpack = unpack Format.binary64 (pack Format.binary64
      (add Format.binary64 a.toModel.unpack b.toModel.unpack)) := rfl

/-- A zero in front of anything else is absorbed. -/
theorem zero_add_eq (hz : z.toModel.unpack = .zero s) (hp : ∀ t, p.toModel.unpack ≠ .zero t) :
    z + p = p := by
  have hadd : add Format.binary64 (.zero s) p.toModel.unpack = p.toModel.unpack := by
    cases hu : p.toModel.unpack with
    | zero t => exact absurd hu (hp t)
    | _ => rfl
  refine eq_of_unpack_eq ?_
  rw [unpack_add_eq, hz, hadd]
  exact unpack_pack_self p

/-- A sum of zeros that are not both negative is the positive zero. -/
theorem zero_add_zero_eq (hz : z.toModel.unpack = .zero s) {t : Sign}
    (hp : p.toModel.unpack = .zero t) (h : s = .positive ∨ t = .positive) : z + p = 0 := by
  have hadd : add Format.binary64 (.zero s) (.zero t) = .zero .positive := by
    rcases h with rfl | rfl
    · cases t <;> rfl
    · cases s <;> rfl
  refine eq_of_unpack_eq ?_
  rw [unpack_add_eq, hz, hp, hadd, unpack_zero]
  exact unpack_packedZero

/-- Zeros absorb the same number alike, unless a negative zero meets a minus sign. -/
theorem zero_add_congr (hz : z.toModel.unpack = .zero s) (hz' : z'.toModel.unpack = .zero s')
    (hp : sameNumber p p' = true) (h : s = .positive ∨ Unsigned p.toModel.unpack)
    (h' : s' = .positive ∨ Unsigned p'.toModel.unpack) : z + p = z' + p' := by
  have hsame := sameNumber_iff.mp hp
  by_cases hzero : ∃ t, p.toModel.unpack = .zero t
  · obtain ⟨t, ht⟩ := hzero
    obtain ⟨t', ht'⟩ : ∃ t', p'.toModel.unpack = .zero t' := by
      rw [ht] at hsame
      generalize p'.toModel.unpack = v at hsame ⊢
      cases hsame with
      | refl => exact ⟨t, rfl⟩
      | zeros _ t' => exact ⟨t', rfl⟩
    rw [ht] at h
    rw [ht'] at h'
    rw [zero_add_zero_eq hz ht h, zero_add_zero_eq hz' ht' h']
  · have hne : ∀ t, p.toModel.unpack ≠ .zero t := fun t ht => hzero ⟨t, ht⟩
    obtain rfl : p = p' := eq_of_unpack_eq (hsame.eq_of_ne_zero hne)
    rw [zero_add_eq hz hne, zero_add_eq hz' hne]

/-! ## Differences -/

/-- What is not zero is taken away from both zeros alike. -/
theorem sub_left_congr (h : sameNumber a b = true) (hz : ∀ t, z.toModel.unpack ≠ .zero t) :
    a - z = b - z := by
  have hsub : sub Format.binary64 a.toModel.unpack z.toModel.unpack =
      sub Format.binary64 b.toModel.unpack z.toModel.unpack := by
    have hsame := sameNumber_iff.mp h
    generalize a.toModel.unpack = u at hsame ⊢
    generalize b.toModel.unpack = v at hsame ⊢
    cases hsame with
    | refl => rfl
    | zeros s t =>
      cases hu : z.toModel.unpack with
      | zero r => exact absurd hu (hz r)
      | _ => rfl
  exact congrArg (fun u => Float.ofModel (.pack u)) hsub

/-- A number that is not below zero, less the negative zero, has no minus sign. -/
theorem unsigned_sub (ha : ¬ a < 0) (hz : z.toModel.unpack = .zero .negative) :
    Unsigned (a - z).toModel.unpack := by
  rw [lt_iff, unpack_zero] at ha
  have hsub : Unsigned (sub Format.binary64 a.toModel.unpack (.zero .negative)) := by
    cases hu : a.toModel.unpack with
    | notANumber => trivial
    | zero t => cases t <;> rfl
    | infinity t | finite t =>
      rw [hu] at ha
      cases t with
      | positive => rfl
      | negative => exact absurd rfl ha
  have hunpack : (a - z).toModel.unpack = unpack Format.binary64 (pack Format.binary64
      (sub Format.binary64 a.toModel.unpack z.toModel.unpack)) := rfl
  rw [hunpack, hz]
  exact hsub.unpack_pack

/-- A number below zero is no zero. -/
theorem ne_zero_of_lt (h : a < 0) (t : Sign) : a.toModel.unpack ≠ .zero t := by
  intro ht
  rw [lt_iff, ht, unpack_zero] at h
  cases h

end Double

open Double

/-! ## Ranges -/

namespace AxisRange

variable {r r' : AxisRange}

/-- Bounds that are the same numbers. -/
def Agrees (r r' : AxisRange) : Prop :=
  sameNumber r.min r'.min = true ∧ sameNumber r.max r'.max = true

/-- The ranges start at different zeros and run below them. -/
def StartsApart (r r' : AxisRange) : Prop :=
  r.min ≠ r'.min ∧ r.max < 0

/-- Below zero, bounds that agree are one double. -/
theorem eq_of_agrees_of_lt (h : r.Agrees r') (happart : ¬ r.StartsApart r') (hend : r.max < 0) :
    r = r' := by
  have hmin : r.min = r'.min := by
    by_contra hne
    exact happart ⟨hne, hend⟩
  have hmax : r.max = r'.max :=
    eq_of_unpack_eq ((sameNumber_iff.mp h.2).eq_of_ne_zero (ne_zero_of_lt hend))
  obtain ⟨min, max⟩ := r
  obtain ⟨min', max'⟩ := r'
  cases hmin
  cases hmax
  rfl

end AxisRange

/-! ## Places -/

namespace Expr

variable {r r' : AxisRange}

/-- The place where step `i` starts. -/
def place (range : AxisRange) (count i : ℕ) : Float :=
  range.min + Float.ofNat i * step range count

/-- All steps have the same width, that of the range over their number. -/
theorem place_eq (range : AxisRange) (count i : ℕ) :
    place range count i =
      range.min + Float.ofNat i * ((range.max - range.min) / Float.ofNat count) := rfl

theorem sampleAt_eq (e : Expr) (range : AxisRange) (count i : ℕ) :
    e.sampleAt range count i = ⟨place range count i, e.eval (place range count i)⟩ := rfl

/-- The steps of a range that starts at the negative zero and does not end below it. -/
theorem unsigned_offset (hend : ¬ r.max < 0) (hstart : r.min.toModel.unpack = .zero .negative)
    (count i : ℕ) : Unsigned (Float.ofNat i * step r count).toModel.unpack :=
  ((unsigned_ofNat i).mul ((unsigned_sub hend hstart).div (unsigned_ofNat count)).unpack_pack
    ).unpack_pack

/-- Ranges that agree have their places in common. -/
theorem place_congr (h : r.Agrees r') (happart : ¬ r.StartsApart r') (count i : ℕ) :
    place r count i = place r' count i := by
  by_cases hend : r.max < 0
  · rw [AxisRange.eq_of_agrees_of_lt h happart hend]
  have hend' : ¬ r'.max < 0 := mt (lt_congr_left h.2).mpr hend
  have hmin := sameNumber_iff.mp h.1
  by_cases hzero : ∃ s, r.min.toModel.unpack = .zero s
  · obtain ⟨s, hs⟩ := hzero
    obtain ⟨s', hs'⟩ : ∃ s', r'.min.toModel.unpack = .zero s' := by
      rw [hs] at hmin
      generalize r'.min.toModel.unpack = v at hmin ⊢
      cases hmin with
      | refl => exact ⟨s, rfl⟩
      | zeros _ s' => exact ⟨s', rfl⟩
    have hstep : sameNumber (step r count) (step r' count) = true :=
      sameNumber_div_right (sameNumber_sub h.2 h.1) _
    refine zero_add_congr hs hs' (sameNumber_mul (sameNumber_refl _) hstep) ?_ ?_
    · cases s with
      | positive => exact Or.inl rfl
      | negative => exact Or.inr (unsigned_offset hend hs count i)
    · cases s' with
      | positive => exact Or.inl rfl
      | negative => exact Or.inr (unsigned_offset hend' hs' count i)
  · have hne : ∀ s, r.min.toModel.unpack ≠ .zero s := fun s hs => hzero ⟨s, hs⟩
    have hstart : r.min = r'.min := eq_of_unpack_eq (hmin.eq_of_ne_zero hne)
    have hstep : step r count = step r' count := by
      rw [step, step, ← hstart, sub_left_congr h.2 hne]
    rw [place, place, hstep, hstart]

/-! ## Samples -/

theorem sample_congr (e : Expr) (h : r.Agrees r') (happart : ¬ r.StartsApart r') (count : ℕ) :
    e.sample r count = e.sample r' count := by
  have hsample : ∀ n, e.sampleAt r n = e.sampleAt r' n := by
    intro n
    funext i
    rw [sampleAt_eq, sampleAt_eq, place_congr h happart]
  simp only [sample, isFinite_congr h.1, isFinite_congr h.2, hsample]

theorem sampleText_congr (text : String) (h : r.Agrees r') (happart : ¬ r.StartsApart r')
    (count : ℕ) : sampleText text r count = sampleText text r' count := by
  unfold sampleText
  split
  · exact sample_congr _ h happart count
  · rfl

end Expr
end Plotting
