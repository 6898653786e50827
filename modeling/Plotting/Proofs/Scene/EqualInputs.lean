import Mathlib
import Plotting.Proofs.Element.EqualDrawings
import Plotting.Proofs.Expr.EqualRanges
import Plotting.Proofs.Scene.Drawable
import Plotting.View.Samples

/-!
# Equal inputs make equal scenes

A view that remembers scenes answers a request from a scene that was built for an equal one.  That
is right for lists of elements: their scenes are equal (`equal_elements_drawn_alike`).  The traces
are equal because each element is drawn alike, and the layout, which depends on how many traces
there are and whether one of them lies in space, is the same.

For graphs it is right with one exception.  A formula may divide by the place where it is evaluated,
and ranges that start at different zeros and run below zero have different first places.  All other
graphs that are equal have the same samples (`equal_graphs_drawn_alike`), and so have the keys under
which samples are remembered; `zeros_draw_apart` is an example of the exception.
-/

namespace Plotting

open Double

/-! ## Layouts -/

/-- Finite numbers are equal to themselves. -/
theorem list_beq_self {vs : List Float} (h : ∀ v ∈ vs, v.isFinite = true) : (vs == vs) = true := by
  refine list_beq_iff.mpr (List.forall₂_same.mpr fun v hv => ?_)
  exact beq_self_of_isFinite (h v hv)

namespace Layout

variable {l m : Layout}

/-- Layouts that are equal part by part. -/
theorem beq_of_parts (hrest : l = { m with
      legend := l.legend, xAxis := l.xAxis, yAxis := l.yAxis, spatial := l.spatial,
      annotations := l.annotations })
    (hlegend : (l.legend == m.legend) = true) (hx : (l.xAxis == m.xAxis) = true)
    (hy : (l.yAxis == m.yAxis) = true) (hspatial : (l.spatial == m.spatial) = true)
    (hnotes : (l.annotations == m.annotations) = true) : (l == m) = true := by
  rw [hrest]
  show (_ && (_ && (_ && (_ && (_ && (_ && (_ && _))))))) = true
  simp only [Bool.and_eq_true]
  exact ⟨beq_self_eq_true _, beq_self_eq_true _, hlegend, beq_self_eq_true _, hx, hy, hspatial,
    hnotes⟩

theorem legend_beq_self : (Legend.horizontalTop == Legend.horizontalTop) = true := by
  decide

theorem hidden_beq_self : (some PlanarAxis.hidden == some PlanarAxis.hidden) = true := by
  decide

theorem cartesian_beq_self (title : String) :
    (PlanarAxis.cartesian title == PlanarAxis.cartesian title) = true := by
  show (some title == some title && _) = true
  rw [beq_self_eq_true]
  decide

theorem anchored_beq_self :
    (some ((PlanarAxis.cartesian "y").anchoredTo "x" 1) ==
      some ((PlanarAxis.cartesian "y").anchoredTo "x" 1)) = true := by
  decide

theorem centered_beq_self (text : String) :
    ([ Annotation.centered text] == [ Annotation.centered text]) = true := by
  show ((text == text && _) && true) = true
  rw [beq_self_eq_true]
  decide

/-- The layout of traces is equal to itself: its only free number is the place of the camera. -/
theorem ofTraces_beq_self {config : Config} (hc : config.Usable) (ts : List Trace)
    (title : Option String) : (ofTraces ts title config == ofTraces ts title config) = true := by
  unfold ofTraces
  split
  · exact beq_of_parts rfl legend_beq_self hidden_beq_self hidden_beq_self rfl
      (centered_beq_self _)
  split
  · refine beq_of_parts rfl legend_beq_self rfl rfl ?_ rfl
    have heye := hc.cameraEye
    simp only [Point3.isFinite, Bool.and_eq_true] at heye
    obtain ⟨⟨hx, hy⟩, hz⟩ := heye
    exact Point3.beq_iff.mpr
      ⟨beq_self_of_isFinite hx, beq_self_of_isFinite hy, beq_self_of_isFinite hz⟩
  · exact beq_of_parts rfl legend_beq_self (cartesian_beq_self "x") anchored_beq_self rfl rfl

/-- Equal ranges on one axis. -/
theorem withRange_congr {a : PlanarAxis} (ha : (a == a) = true) {r r' : AxisRange}
    (h : (r == r') = true) : (some (a.withRange r) == some (a.withRange r')) = true := by
  change (_ && (_ && (_ && (_ && (_ && (_ && (_ && (_ && (_ && _))))))))) = true at ha
  show (_ && (_ && (_ && (_ && (_ && (_ && (_ && (_ && (_ && _))))))))) = true
  simp only [Bool.and_eq_true] at ha ⊢
  obtain ⟨h₁, h₂, h₃, h₄, h₅, h₆, h₇, -, h₈⟩ := ha
  exact ⟨h₁, h₂, h₃, h₄, h₅, h₆, h₇, h, h₈⟩

end Layout

namespace Scene

/-! ## Scenes of elements -/

/-- Scenes that are equal part by part. -/
theorem beq_of_parts {s t : Scene} (htraces : List.Forall₂ (· == ·) s.traces t.traces)
    (hspatial : s.isSpatial = t.isSpatial) (hlayout : (s.layout == t.layout) = true) :
    (s == t) = true := by
  show (_ && (_ && _)) = true
  rw [Bool.and_eq_true, Bool.and_eq_true]
  exact ⟨list_beq_iff.mpr htraces, beq_iff_eq.mpr hspatial, hlayout⟩

/-- Equal traces both lie in space or both do not. -/
theorem isSpatial_eq_of_beq {t u : Trace} (h : (t == u) = true) : t.isSpatial = u.isSpatial := by
  cases t <;> cases u <;> first | rfl | cases h

/-- Equal traces have one layout. -/
theorem ofTraces_congr {ts us : List Trace} (h : List.Forall₂ (· == ·) ts us)
    (title : Option String) (config : Config) :
    Layout.ofTraces ts title config = Layout.ofTraces us title config := by
  have hspatial : ts.any Trace.isSpatial = us.any Trace.isSpatial := by
    induction h with
    | nil => rfl
    | cons htu _ ih => rw [List.any_cons, List.any_cons, isSpatial_eq_of_beq htu, ih]
  rw [Layout.ofTraces, Layout.ofTraces, isEmpty_eq_of_beq (list_beq_iff.mpr h), hspatial]

/-- **Equal elements are drawn alike.**  Under a usable configuration, equal lists of elements have
equal scenes, whatever their title. -/
theorem equal_elements_drawn_alike {config : Config} (hc : config.check = .ok ())
    (title : Option String) {es fs : List Element} (h : (es == fs) = true) :
    (ofElements es title config == ofElements fs title config) = true := by
  have husable : config.Usable := Config.check_eq_ok_iff.mp hc
  have htraces := Element.traces_congr husable h
  have hlayout := ofTraces_congr htraces title config
  refine beq_of_parts htraces (congrArg Layout.isSpatial hlayout) ?_
  show (Layout.ofTraces _ title config == Layout.ofTraces _ title config) = true
  rw [hlayout]
  exact Layout.ofTraces_beq_self husable _ title

/-- Zeros with either sign as a coordinate, a radius, a baseline, a width and an opacity. -/
theorem equal_elements_drawn_alike_zeros :
    let style : ElementStyle := { width := some 0, line := some { width := some (-0) } }
    let es : List Element := [
      { geometry := .circle { center := ⟨0, -0⟩, radius := some 0 }, style },
      { geometry := .area { points := [⟨1, 0⟩, ⟨-0, 1 / 0⟩], baseline := 0 } },
      { geometry := .surface { x := [[0]], y := [[0]], z := [[-0]], opacity := some (-0) } }]
    let fs : List Element := [
      { geometry := .circle { center := ⟨-0, -0⟩, radius := some (-0) }
        style := { style with width := some (-0) } },
      { geometry := .area { points := [⟨1, -0⟩, ⟨0, 1 / 0⟩], baseline := -0 } },
      { geometry := .surface { x := [[-0]], y := [[0]], z := [[0]], opacity := some 0 } }]
    ({} : Config).check = .ok () ∧ (es == fs) = true ∧
      (ofElements es (some "zeros") {} == ofElements fs (some "zeros") {}) = true := by
  intro style es fs
  have hcheck : ({} : Config).check = .ok () := rfl
  have hequal : (es == fs) = true := by decide
  exact ⟨hcheck, hequal, equal_elements_drawn_alike hcheck (some "zeros") hequal⟩

/-! ## Scenes of graphs -/

/-- Functions of a graph hold texts only. -/
theorem graphFunction_eq_of_beq {f f' : GraphFunction} (h : (f == f') = true) : f = f' := by
  change (_ && (_ && _)) = true at h
  simp only [Bool.and_eq_true, beq_iff_eq (α := String), beq_iff_eq (α := Option String)] at h
  obtain ⟨hexpression, hcolor, hlabel⟩ := h
  cases f
  cases f'
  cases hexpression
  cases hcolor
  cases hlabel
  rfl

theorem graph_parts_of_beq {g g' : Graph} (h : (g == g') = true) :
    g.title = g'.title ∧ g.functions = g'.functions ∧ (g.xRange == g'.xRange) = true ∧
      (g.yRange == g'.yRange) = true := by
  change (_ && (_ && (_ && _))) = true at h
  simp only [Bool.and_eq_true, beq_iff_eq (α := Option String)] at h
  obtain ⟨htitle, hfunctions, hx, hy⟩ := h
  refine ⟨htitle, List.forall₂_eq_eq_eq ▸ ?_, hx, hy⟩
  exact (list_beq_iff.mp hfunctions).imp fun _ _ => graphFunction_eq_of_beq

theorem agrees_of_beq {r r' : AxisRange} (h : (r == r') = true) : r.Agrees r' := by
  obtain ⟨hmin, hmax⟩ := Bool.and_eq_true_iff.mp h
  exact ⟨sameNumber_of_beq hmin, sameNumber_of_beq hmax⟩

/-- A curve through finite points is equal to itself. -/
theorem curve?_beq_self {config : Config} (hc : config.Usable) (f : GraphFunction)
    {points : List Point2} (hpoints : ∀ p ∈ points, p.isFinite = true) {t : Trace}
    (h : curve? config f points = some t) : (t == t) = true := by
  unfold curve? at h
  split at h
  · cases h
  · obtain rfl := Option.some.inj h
    have hlist : ∀ c : Point2 → Float, (∀ p, p.isFinite = true → (c p).isFinite = true) →
        (points.map c == points.map c) = true := by
      intro c hc
      refine list_beq_self fun v hv => ?_
      obtain ⟨p, hp, rfl⟩ := List.mem_map.mp hv
      exact hc p (hpoints p hp)
    have hline : ∀ color : String, ((⟨color, config.lineWidth, none⟩ : LineStyle) ==
        ⟨color, config.lineWidth, none⟩) = true :=
      fun _ => LineStyle.beq_iff.mpr ⟨rfl, beq_self_of_isPositive hc.lineWidth, rfl⟩
    rw [Trace.planar_beq_planar]
    exact PlanarTrace.beq_of_numbers rfl
      (hlist Point2.x fun _ => Point2.isFinite_x) (hlist Point2.y fun _ => Point2.isFinite_y)
      (hline _) rfl

/-- Graphs with the same functions and samples, seen through equal windows. -/
theorem ofGraph_congr {config : Config} (hc : config.Usable) {g g' : Graph}
    (h : (g == g') = true) (happart : ¬ g.xRange.StartsApart g'.xRange) :
    (ofGraph g config == ofGraph g' config) = true := by
  obtain ⟨htitle, hfunctions, hx, hy⟩ := graph_parts_of_beq h
  have hsamples : ∀ text, Expr.sampleText text g.xRange config.sampleCount =
      Expr.sampleText text g'.xRange config.sampleCount :=
    fun text => Expr.sampleText_congr text (agrees_of_beq hx) happart _
  simp only [ofGraph, hfunctions, hsamples]
  refine beq_of_parts (List.forall₂_same.mpr fun t ht => ?_) rfl ?_
  · obtain ⟨f, -, hcurve⟩ := List.mem_filterMap.mp ht
    exact curve?_beq_self hc f (fun p => isFinite_of_mem_sampleText) hcurve
  · refine Layout.beq_of_parts ?_ Layout.legend_beq_self
      (Layout.withRange_congr (Layout.cartesian_beq_self "x") hx)
      (Layout.withRange_congr (Layout.cartesian_beq_self "y") hy) rfl ?_
    · simp only [ofCurves, Layout.ofGraph, htitle]
    · simp only [ofCurves, Layout.ofGraph]
      split
      · rfl
      · exact Layout.centered_beq_self _

/-- **Equal graphs are drawn alike, with one exception.**  Under a usable configuration, graphs that
are equal have equal scenes, and keys that agree have equal series, unless their ranges start at
different zeros and run below zero. -/
theorem equal_graphs_drawn_alike {config : Config} (hc : config.check = .ok ()) :
    (∀ g g' : Graph, (g == g') = true → ¬ g.xRange.StartsApart g'.xRange →
      (ofGraph g config == ofGraph g' config) = true) ∧
    ∀ a b : SampleKey, a.agrees b = true → ¬ a.range.StartsApart b.range →
      (Expr.sampleText a.expression a.range a.count ==
        Expr.sampleText b.expression b.range b.count) = true := by
  refine ⟨fun g g' h happart => ?_, fun a b h happart => ?_⟩
  · exact ofGraph_congr (Config.check_eq_ok_iff.mp hc) h happart
  · simp only [SampleKey.agrees, Bool.and_eq_true, beq_iff_eq] at h
    obtain ⟨⟨⟨hexpression, hmin⟩, hmax⟩, hcount⟩ := h
    rw [hexpression, hcount, Expr.sampleText_congr _ ⟨hmin, hmax⟩ happart]
    refine list_beq_iff.mpr (List.forall₂_same.mpr fun p hp => ?_)
    have hfinite := isFinite_of_mem_sampleText hp
    exact Point2.beq_iff.mpr ⟨beq_self_of_isFinite (Point2.isFinite_x hfinite),
      beq_self_of_isFinite (Point2.isFinite_y hfinite)⟩

/-- A range from zero to one, whichever zero it starts at; the formula divides by the start. -/
theorem equal_graphs_drawn_alike_reciprocal :
    let g : Graph := { functions := [{ expression := "1/x" }], xRange := ⟨0, 1⟩, yRange := ⟨-1, 1⟩ }
    let g' : Graph := { g with xRange := ⟨-0, 1⟩ }
    ({} : Config).check = .ok () ∧ g.xRange.min ≠ g'.xRange.min ∧
      (ofGraph g {} == ofGraph g' {}) = true ∧
      (Expr.sampleText "1/x" ⟨0, 1⟩ 2 == Expr.sampleText "1/x" ⟨-0, 1⟩ 2) = true := by
  intro g g'
  have hcheck : ({} : Config).check = .ok () := rfl
  have hupwards : ∀ r r' : AxisRange, r.max = 1 → ¬ r.StartsApart r' := by
    rintro r r' hmax ⟨-, hend⟩
    rw [hmax] at hend
    exact absurd hend (by decide)
  obtain ⟨hgraphs, hkeys⟩ := equal_graphs_drawn_alike hcheck
  refine ⟨hcheck, ?_, hgraphs g g' ?_ (hupwards _ _ rfl), ?_⟩
  · decide
  · decide
  · exact hkeys ⟨"1/x", ⟨0, 1⟩, 2⟩ ⟨"1/x", ⟨-0, 1⟩, 2⟩ (by decide) (hupwards _ _ rfl)

/-- The exception: a formula that is zero on one side of zero and nowhere on the other. -/
theorem zeros_draw_apart :
    let formula := "1/(abs(1/x)-1/x)"
    let config : Config := { sampleCount := 2 }
    let g : Graph :=
      { functions := [{ expression := formula }], xRange := ⟨0, -1⟩, yRange := ⟨-1, 1⟩ }
    let g' : Graph := { g with xRange := ⟨-0, -1⟩ }
    config.check = .ok () ∧ (g == g') = true ∧
      (ofGraph g config == ofGraph g' config) = false ∧
      (⟨formula, ⟨0, -1⟩, 2⟩ : SampleKey).agrees ⟨formula, ⟨-0, -1⟩, 2⟩ = true ∧
      (Expr.sampleText formula ⟨0, -1⟩ 2 == Expr.sampleText formula ⟨-0, -1⟩ 2) = false := by
  intro formula config g g'
  refine ⟨show ({ sampleCount := 2 } : Config).check = .ok () from rfl, ?_, ?_, ?_, ?_⟩
  · decide
  · decide +kernel
  · decide
  · decide +kernel

end Scene
end Plotting
