import Mathlib.Data.Nat.Notation
import Plotting.Element.Drawing

/-!
# Hints that mean nothing

A width or size that is not a positive number, and an opacity that is not a number, are of no use
and are to be ignored.  An element with such a hint is then drawn as the element without it, and a
hint that stands behind it, or a default of the configuration, takes its place.

That is so for all hints but one (`unusable_hints_are_ignored`).  The flat width and the width in
the block of stroke hints are weighed against each other before either is checked, so an unusable
flat width hides the other one, and the line is drawn in the width of the configuration.  The
opacities of a surface and its style are checked one by one, and neither hides the other.

That a hint is ignored is seen by comparing resolvers: a drawing depends on a style through the
resolvers alone (`traces?_congr_style`).
-/

namespace Plotting

/-- The numbers among the hints. -/
inductive NumericHint where
  | width
  | nestedWidth
  | size
  | opacity
  | surfaceOpacity
deriving DecidableEq, Repr

/-- Whether a number is of use as a hint. -/
def NumericHint.isUsable : NumericHint → Float → Bool
  | .width | .nestedWidth | .size => isPositive
  | .opacity | .surfaceOpacity => Float.isFinite

namespace ElementStyle

/-- The width in the block of stroke hints. -/
def nestedWidth (s : ElementStyle) : Option Float :=
  s.line.bind StrokeHint.width

/-- The style without its flat width. -/
def withoutWidth (s : ElementStyle) : ElementStyle :=
  { s with width := none }

/-- The style without the width in its block of stroke hints. -/
def withoutNestedWidth (s : ElementStyle) : ElementStyle :=
  { s with line := s.line.map fun l => { l with width := none } }

end ElementStyle

namespace Geometry

/-- The opacity that a surface has of its own. -/
def opacity? : Geometry → Option Float
  | .surface s => s.opacity
  | _ => none

/-- The geometry without an opacity of its own. -/
def withoutOpacity : Geometry → Geometry
  | .surface s => .surface { s with opacity := none }
  | g => g

/-- Whether a line is part of the drawing. -/
def isStroked : Geometry → Bool
  | .curve _ | .line _ | .segment _ | .circle _ | .area _ | .polygon _ | .vector3d _ => true
  | .scatter _ | .point _ | .points _ | .surface _ | .unknown _ _ => false

end Geometry

/-- The width of the line that a trace has. -/
def Trace.lineWidth? : Trace → Option Float
  | .planar t => t.line.map LineStyle.width
  | .spatial t => t.line.map LineStyle.width
  | .surface _ => none

namespace Element

/-- The number that an element gives as a hint. -/
def hint? (e : Element) : NumericHint → Option Float
  | .width => e.style.width
  | .nestedWidth => e.style.nestedWidth
  | .size => e.style.size
  | .opacity => e.style.opacity
  | .surfaceOpacity => e.geometry.opacity?

/-- The element without a hint. -/
def without (e : Element) : NumericHint → Element
  | .width => { e with style := e.style.withoutWidth }
  | .nestedWidth => { e with style := e.style.withoutNestedWidth }
  | .size => { e with style.size := none }
  | .opacity => { e with style.opacity := none }
  | .surfaceOpacity => { e with geometry := e.geometry.withoutOpacity }

/-- The flat width hides a width behind it that would be used and differs from the default. -/
def HidesWidth (config : Config) (e : Element) : Prop :=
  e.geometry.isStroked = true ∧
    ∃ w, e.style.nestedWidth = some w ∧ isPositive w = true ∧ w ≠ config.lineWidth

/-! ## Drawings and resolvers -/

variable {config : Config} {e : Element} {g : Geometry} {s t : ElementStyle}

/-- Styles that resolve alike make one drawing; the width of lines counts only where there are
lines. -/
theorem traces?_congr_style (hcolor : s.strokeColor = t.strokeColor)
    (hwidth : g.isStroked = true →
      s.strokeWidth.getD config.lineWidth = t.strokeWidth.getD config.lineWidth)
    (hdash : s.strokeDash = t.strokeDash) (hsize : s.markerSize = t.markerSize)
    (hfill : s.fillcolor = t.fillcolor) (hopacity : s.unitOpacity = t.unitOpacity)
    (htitle : s.title = t.title) :
    traces? config ⟨g, s⟩ = traces? config ⟨g, t⟩ := by
  have hcolorIn : s.colorIn config = t.colorIn config := by
    rw [ElementStyle.colorIn, hcolor, ElementStyle.colorIn]
  have hmarker : s.markerIn config = t.markerIn config := by
    funext size
    rw [ElementStyle.markerIn, hcolorIn, hsize, ElementStyle.markerIn]
  have hline : g.isStroked = true → s.lineIn config = t.lineIn config := by
    intro hg
    rw [ElementStyle.lineIn, hcolorIn, hwidth hg, hdash, ElementStyle.lineIn]
  have hstroke : g.isStroked = true → ∀ points label,
      strokeThrough points label s config = strokeThrough points label t config := by
    intro hg points label
    rw [strokeThrough, hline hg, strokeThrough]
  cases g with
  | curve p => simp only [traces?, Path.curve, hstroke rfl]
  | scatter p => simp only [traces?, Path.scatter, hmarker]
  | point m => simp only [traces?, Marker.trace, hmarker]
  | points m => simp only [traces?, Markers.trace, hmarker, htitle]
  | line l => simp only [traces?, Segment.trace, hstroke rfl]
  | segment l => simp only [traces?, Segment.trace, hstroke rfl]
  | circle c => simp only [traces?, Circle.trace, hstroke rfl]
  | area a => simp only [traces?, Area.traces, Area.filled, hstroke rfl, hfill]
  | polygon p => simp only [traces?, Polygon.trace, hstroke rfl, hfill]
  | surface u => simp only [traces?, Surface.trace, Surface.opacityIn, hopacity, htitle]
  | vector3d a => simp only [traces?, Arrow.trace, hline rfl, hmarker]
  | unknown kind data => rfl

/-- The last trace of an element with lines is drawn in the resolved width. -/
theorem lineWidth?_traces? (config : Config) (s : ElementStyle) (hg : g.isStroked = true) :
    (traces? config ⟨g, s⟩).bind (fun ts => ts.getLast?.bind Trace.lineWidth?) =
      some (s.strokeWidth.getD config.lineWidth) := by
  cases g <;> try cases hg
  case area a =>
    show (((a.traces s config).map Trace.planar).getLast?).bind Trace.lineWidth? = _
    unfold Area.traces
    split <;> rfl
  all_goals rfl

/-- Styles that resolve alike but for the width make one drawing if the widths agree or there are no
lines, and else two. -/
theorem traces?_eq_iff_width (hcolor : s.strokeColor = t.strokeColor)
    (hdash : s.strokeDash = t.strokeDash) (hsize : s.markerSize = t.markerSize)
    (hfill : s.fillcolor = t.fillcolor) (hopacity : s.unitOpacity = t.unitOpacity)
    (htitle : s.title = t.title) :
    traces? config ⟨g, s⟩ = traces? config ⟨g, t⟩ ↔
      (g.isStroked = true →
        s.strokeWidth.getD config.lineWidth = t.strokeWidth.getD config.lineWidth) := by
  refine ⟨fun h hg => ?_, fun h => traces?_congr_style hcolor h hdash hsize hfill hopacity htitle⟩
  have hwidth := lineWidth?_traces? config s hg
  rw [h, lineWidth?_traces? config t hg] at hwidth
  exact (Option.some.inj hwidth).symm

/-! ## Removing a hint -/

theorem strokeWidth_withoutWidth : s.withoutWidth.strokeWidth = s.nestedWidth.filter isPositive :=
  rfl

/-- The colour of strokes does not depend on their width. -/
theorem strokeColor_withoutNestedWidth : s.withoutNestedWidth.strokeColor = s.strokeColor := by
  unfold ElementStyle.strokeColor ElementStyle.withoutNestedWidth
  cases s.line <;> rfl

/-- Nor does their dash pattern. -/
theorem strokeDash_withoutNestedWidth : s.withoutNestedWidth.strokeDash = s.strokeDash := by
  unfold ElementStyle.strokeDash ElementStyle.withoutNestedWidth
  cases s.line <;> rfl

theorem strokeWidth_withoutNestedWidth :
    s.withoutNestedWidth.strokeWidth = s.width.filter isPositive := by
  unfold ElementStyle.strokeWidth ElementStyle.withoutNestedWidth
  cases s.line <;> cases s.width <;> rfl

variable {v : Float}

/-- A number that is checked and found unusable counts as none. -/
theorem filter_of_unusable {o : Option Float} {isUsable : Float → Bool} (hv : o = some v)
    (hunusable : isUsable v = false) : o.filter isUsable = none := by
  rw [hv, Option.filter_some, hunusable]
  rfl

/-- An unusable flat width wins and counts as none. -/
theorem strokeWidth_of_unusable (hv : s.width = some v) (hunusable : isPositive v = false) :
    s.strokeWidth = none :=
  filter_of_unusable (by rw [hv, Option.some_or]) hunusable

/-- With an unusable flat width an element is drawn as if it gave no width at all. -/
theorem traces?_of_unusable_width (hv : e.style.width = some v)
    (hunusable : isPositive v = false) :
    e.traces? config = ((e.without .width).without .nestedWidth).traces? config := by
  refine traces?_congr_style strokeColor_withoutNestedWidth.symm (fun _ => ?_)
    strokeDash_withoutNestedWidth.symm rfl rfl rfl rfl
  rw [strokeWidth_of_unusable hv hunusable, strokeWidth_withoutNestedWidth]
  rfl

/-- Without the unusable flat width it is drawn in the same way unless a width is hidden. -/
theorem traces?_without_width_iff (hv : e.style.width = some v)
    (hunusable : isPositive v = false) :
    (e.without .width).traces? config = e.traces? config ↔ ¬ e.HidesWidth config := by
  have hdrawn : (e.without .width).traces? config = e.traces? config ↔
      (e.geometry.isStroked = true →
        e.style.withoutWidth.strokeWidth.getD config.lineWidth =
          e.style.strokeWidth.getD config.lineWidth) :=
    traces?_eq_iff_width rfl rfl rfl rfl rfl rfl
  rw [hdrawn, strokeWidth_of_unusable hv hunusable, strokeWidth_withoutWidth, HidesWidth, not_and]
  refine forall_congr' fun _ => ?_
  cases hw : e.style.nestedWidth with
  | none => simp
  | some w => cases hpositive : isPositive w <;> simp [Option.filter_some, hpositive]

/-- Any other unusable number is ignored. -/
theorem traces?_without_of_ne_width {h : NumericHint} (hh : h ≠ .width) (hv : e.hint? h = some v)
    (hunusable : h.isUsable v = false) : (e.without h).traces? config = e.traces? config := by
  obtain ⟨g, s⟩ := e
  cases h with
  | width => exact absurd rfl hh
  | nestedWidth =>
    refine traces?_congr_style strokeColor_withoutNestedWidth (fun _ => ?_)
      strokeDash_withoutNestedWidth rfl rfl rfl rfl
    have hwidth : s.strokeWidth = s.width.filter isPositive := by
      unfold ElementStyle.strokeWidth
      cases s.width with
      | none => exact filter_of_unusable hv hunusable
      | some w => rfl
    rw [strokeWidth_withoutNestedWidth, hwidth]
  | size =>
    exact traces?_congr_style rfl (fun _ => rfl) rfl (filter_of_unusable hv hunusable).symm
      rfl rfl rfl
  | opacity =>
    refine traces?_congr_style rfl (fun _ => rfl) rfl rfl rfl ?_ rfl
    exact congrArg (Option.map clampUnit) (filter_of_unusable hv hunusable).symm
  | surfaceOpacity =>
    cases g <;> try cases hv
    case surface u =>
      have hnone : u.opacity.filter Float.isFinite = none := filter_of_unusable hv hunusable
      refine congrArg (fun o => some [Trace.surface { u.trace s config with opacity := o }]) ?_
      show Surface.opacityIn { u with opacity := none } s = u.opacityIn s
      rw [Surface.opacityIn, Surface.opacityIn, hnone]
      rfl

/-- **Unusable numbers are ignored, a flat width in front of a usable one excepted.**  An element
with an unusable number among its hints is drawn as the element without that hint, unless the hint
is the flat width and hides a usable width behind it.  In any case an unusable flat width leaves the
line to the default of the configuration. -/
theorem unusable_hints_are_ignored (config : Config) (e : Element) (h : NumericHint) {v : Float}
    (hv : e.hint? h = some v) (hunusable : h.isUsable v = false) :
    ((e.without h).traces? config = e.traces? config ↔ ¬ (h = .width ∧ e.HidesWidth config)) ∧
    (h = .width → e.traces? config = ((e.without .width).without .nestedWidth).traces? config) := by
  by_cases hh : h = .width
  · subst hh
    refine ⟨?_, fun _ => traces?_of_unusable_width hv hunusable⟩
    rw [traces?_without_width_iff hv hunusable, eq_self, true_and]
  · refine ⟨?_, fun hwidth => absurd hwidth hh⟩
    exact iff_of_true (traces?_without_of_ne_width hh hv hunusable) fun hhides => hh hhides.1

/-- A surface whose own opacity is no number takes that of its style, and a marker without a usable
size that of the configuration. -/
theorem unusable_hints_are_ignored_surface :
    let surface : Element := {
      geometry := .surface { x := [[0]], y := [[0]], z := [[1]], opacity := some (0 / 0) }
      style := { opacity := some 0.5 } }
    let point : Element := {
      geometry := .point { coords := some ⟨0, 0⟩ }
      style := { size := some (-1) } }
    (surface.without .surfaceOpacity).traces? {} = surface.traces? {} ∧
      (point.without .size).traces? {} = point.traces? {} := by
  intro surface point
  have hsurface := unusable_hints_are_ignored {} surface .surfaceOpacity rfl (by decide)
  have hpoint := unusable_hints_are_ignored {} point .size rfl (by decide)
  refine ⟨hsurface.1.mpr ?_, hpoint.1.mpr ?_⟩
  · rintro ⟨h, -⟩
    cases h
  · rintro ⟨h, -⟩
    cases h

/-- A width of minus one hides the width in the block of stroke hints, which would be used in its
place. -/
theorem negative_width_hides_nested_width :
    let e : Element := {
      geometry := .line { first := some ⟨0, 0⟩, last := some ⟨1, 1⟩ }
      style := { width := some (-1), line := some { width := some 3 } } }
    e.hint? .width = some (-1) ∧ NumericHint.width.isUsable (-1) = false ∧
      (e.without .width).traces? {} ≠ e.traces? {} := by
  intro e
  have hunusable : isPositive (-1) = false := by decide
  refine ⟨rfl, hunusable, fun heq => ?_⟩
  have hpositive : isPositive 3 = true := by decide
  have hother : (3 : Float) ≠ ({} : Config).lineWidth := by decide
  exact (traces?_without_width_iff rfl hunusable).mp heq ⟨rfl, 3, rfl, hpositive, hother⟩

end Element
end Plotting
