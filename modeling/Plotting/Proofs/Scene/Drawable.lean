import Plotting.Proofs.Element.Drawable
import Plotting.Scene.Basic

/-!
# Scenes that can be drawn

A scene can be drawn when each of its traces can, when the traces, the layout and the scene itself
say the same about its dimension, and when a spatial scene has no planar axes.  Scenes built from
elements meet this because the layout is chosen by the traces, scenes of graphs because all their
traces are planar and their points come from samples, which are finite.
-/

namespace Plotting
namespace Scene

/-- A scene without a fault. -/
structure Drawable (s : Scene) : Prop where
  traces : ∀ t ∈ s.traces, t.Drawable
  traceDimension : s.traces.any Trace.isSpatial = s.isSpatial
  layoutDimension : s.layout.isSpatial = s.isSpatial
  axes : s.isSpatial = true → s.layout.xAxis = none ∧ s.layout.yAxis = none

/-- The check of a scene passes exactly when the scene can be drawn. -/
theorem check_eq_ok_iff {s : Scene} : s.check = .ok () ↔ s.Drawable := by
  unfold check
  simp only [Check.bind_eq_ok_iff, Check.forM_list_eq_ok_iff, require_eq_ok_iff,
    Trace.check_eq_ok_iff, Bool.and_eq_true, beq_iff_eq, Bool.not_eq_true', Bool.and_eq_false_iff,
    Bool.or_eq_false_iff, Option.isSome_eq_false_iff, Option.isNone_iff_eq_none]
  constructor
  · rintro ⟨htraces, ⟨htrace, hlayout⟩, haxes⟩
    refine ⟨htraces, htrace, hlayout, fun hspatial => ?_⟩
    exact haxes.resolve_left fun hplanar => absurd (hspatial.symm.trans hplanar) (by decide)
  · rintro ⟨htraces, htrace, hlayout, haxes⟩
    refine ⟨htraces, ⟨htrace, hlayout⟩, ?_⟩
    cases hs : s.isSpatial with
    | false => exact Or.inl rfl
    | true => exact Or.inr (haxes hs)

/-! ## Scenes of elements -/

/-- The layout of traces is spatial exactly when one of them is. -/
theorem isSpatial_ofTraces (ts : List Trace) (title : Option String) (config : Config) :
    (Layout.ofTraces ts title config).isSpatial = ts.any Trace.isSpatial := by
  unfold Layout.ofTraces
  split
  · next h => rw [List.isEmpty_iff.mp h]; rfl
  · split
    · next h => rw [h]; rfl
    · next h => rw [Bool.not_eq_true] at h; rw [h]; rfl

/-- A spatial layout of traces has no planar axes. -/
theorem axes_ofTraces {ts : List Trace} {title : Option String} {config : Config}
    (h : (Layout.ofTraces ts title config).isSpatial = true) :
    (Layout.ofTraces ts title config).xAxis = none ∧
      (Layout.ofTraces ts title config).yAxis = none := by
  unfold Layout.ofTraces at h ⊢
  split
  · next hempty => rw [if_pos hempty] at h; cases h
  · next hempty =>
    rw [if_neg hempty] at h
    split
    · exact ⟨rfl, rfl⟩
    · next hplanar => rw [if_neg hplanar] at h; cases h

/-- The scene of any elements can be drawn. -/
theorem drawable_ofElements {config : Config} (hc : config.Usable) (es : List Element)
    (title : Option String) : (ofElements es title config).Drawable where
  traces _ ht := Element.drawable_of_mem_traces hc ht
  traceDimension := (isSpatial_ofTraces _ title config).symm
  layoutDimension := rfl
  axes := axes_ofTraces

/-! ## Scenes of graphs -/

/-- A curve is a planar trace. -/
theorem isSpatial_curve? {config : Config} {f : GraphFunction} {points : List Point2} {t : Trace}
    (h : curve? config f points = some t) : t.isSpatial = false := by
  unfold curve? at h
  split at h
  · cases h
  · obtain rfl := Option.some.inj h
    rfl

/-- A curve through finite points can be drawn. -/
theorem drawable_curve? {config : Config} (hc : config.Usable) {f : GraphFunction}
    {points : List Point2} (hpoints : ∀ p ∈ points, p.isFinite = true) {t : Trace}
    (h : curve? config f points = some t) : t.Drawable := by
  have hfinite : ∀ p ∈ points, p.x.isFinite = true ∧ p.y.isFinite = true := by
    intro p hp
    have hp' := hpoints p hp
    rwa [Point2.isFinite, Bool.and_eq_true] at hp'
  unfold curve? at h
  split at h
  · cases h
  · obtain rfl := Option.some.inj h
    refine PlanarTrace.drawable_of_lists ?_ rfl ?_ ?_ ?_ ?_
    · rw [List.length_map, List.length_map]
    · intro v hv
      obtain ⟨p, hp, rfl⟩ := List.mem_map.mp hv
      exact (hfinite p hp).1
    · intro v hv
      obtain ⟨p, hp, rfl⟩ := List.mem_map.mp hv
      exact (hfinite p hp).2
    · rintro l ⟨⟩
      exact hc.lineWidth
    · rintro m ⟨⟩

/-- Samples are finite, also those of a text that is no formula, which has none. -/
theorem isFinite_of_mem_sampleText {text : String} {range : AxisRange} {count : Nat} {p : Point2}
    (h : p ∈ Expr.sampleText text range count) : p.isFinite = true := by
  unfold Expr.sampleText at h
  split at h
  · exact Expr.isFinite_of_mem_sample h
  · exact absurd h List.not_mem_nil

/-- Curves through samples make a scene that can be drawn. -/
theorem drawable_ofCurves {config : Config} (hc : config.Usable) (g : Graph) {ts : List Trace}
    (hts : ∀ t ∈ ts, ∃ f text range count,
      curve? config f (Expr.sampleText text range count) = some t) :
    (ofCurves g config ts).Drawable where
  traces t ht := by
    obtain ⟨f, text, range, count, hcurve⟩ := hts t ht
    exact drawable_curve? hc (fun p => isFinite_of_mem_sampleText) hcurve
  traceDimension := by
    refine List.any_eq_false.mpr fun t ht => ?_
    obtain ⟨f, text, range, count, hcurve⟩ := hts t ht
    rw [isSpatial_curve? hcurve]
    exact Bool.false_ne_true
  layoutDimension := rfl
  axes h := by cases h

/-- The scene of any graph can be drawn. -/
theorem drawable_ofGraph {config : Config} (hc : config.Usable) (g : Graph) :
    (ofGraph g config).Drawable := by
  refine drawable_ofCurves hc g fun t ht => ?_
  obtain ⟨f, -, hcurve⟩ := List.mem_filterMap.mp ht
  exact ⟨f, f.expression, g.xRange, config.sampleCount, hcurve⟩

end Scene
end Plotting
