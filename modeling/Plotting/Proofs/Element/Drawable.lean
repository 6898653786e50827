import Plotting.Element.Drawing
import Plotting.Proofs.Trace.Drawable

/-!
# Elements are drawn by traces that can be drawn

An element may hold anything: coordinates that are not finite, rows of different lengths, labels
without points, widths below zero.  Each kind has its own way of leaving out what cannot be drawn,
and `Element.drawable_of_mem_traces` says that what is left always can be: a renderer that checks its
traces never refuses one of these, as long as the configuration passes its own check.

Planar kinds all go through `finiteXs` and `finiteYs`, which keep the lists parallel and finite
whatever the points are; a surface that is kept has grids of one shape by `Surface.isConsistent`.
-/

namespace Plotting

/-! ## Configurations -/

/-- A configuration with enough samples and corners, positive sizes, and an eye in space. -/
structure Config.Usable (c : Config) : Prop where
  sampleCount : minSampleCount ≤ c.sampleCount
  circleSegments : 2 ≤ c.circleSegments
  lineWidth : isPositive c.lineWidth = true
  pointMarkerSize : isPositive c.pointMarkerSize = true
  scatterMarkerSize : isPositive c.scatterMarkerSize = true
  cameraEye : c.cameraEye.isFinite = true

/-- The check of a size passes exactly when the size is positive. -/
theorem Config.checkSize_eq_ok_iff {setting : SizeSetting} {value : Float} :
    checkSize setting value = .ok () ↔ isPositive value = true := by
  unfold checkSize
  split
  · next h => exact ⟨fun _ => h, fun _ => rfl⟩
  · next h => exact ⟨fun hok => (nomatch hok), fun hpos => absurd hpos h⟩

/-- The check of a configuration passes exactly when it is usable. -/
theorem Config.check_eq_ok_iff {c : Config} : c.check = .ok () ↔ c.Usable := by
  unfold check
  simp only [Check.guard_eq_ok_iff, Check.last_guard_eq_ok_iff, Check.bind_eq_ok_iff,
    checkSize_eq_ok_iff, Nat.not_lt, Bool.not_eq_true', Bool.not_eq_false]
  constructor
  · rintro ⟨hsamples, hsegments, hline, hpoint, hscatter, heye⟩
    exact ⟨hsamples, hsegments, hline, hpoint, hscatter, heye⟩
  · rintro ⟨hsamples, hsegments, hline, hpoint, hscatter, heye⟩
    exact ⟨hsamples, hsegments, hline, hpoint, hscatter, heye⟩

/-! ## Styles -/

/-- A hint that is kept only if it is positive, over a positive default, is positive. -/
theorem isPositive_getD_filter {o : Option Float} {default : Float}
    (h : isPositive default = true) : isPositive ((o.filter isPositive).getD default) = true := by
  cases hf : o.filter isPositive with
  | none => exact h
  | some v => exact (Option.filter_eq_some_iff.mp hf).2

theorem ElementStyle.isPositive_lineIn {config : Config} (hc : config.Usable) (s : ElementStyle) :
    isPositive (s.lineIn config).width = true :=
  isPositive_getD_filter hc.lineWidth

theorem ElementStyle.isPositive_markerIn {size : Float} (hsize : isPositive size = true)
    (s : ElementStyle) (config : Config) : isPositive (s.markerIn config size).size = true :=
  isPositive_getD_filter hsize

/-! ## Points -/

theorem isFinite_of_mem_finiteXs {points : List Point2} {v : Float} (h : v ∈ finiteXs points) :
    v.isFinite = true := by
  obtain ⟨p, hp, rfl⟩ := List.mem_map.mp h
  have hfinite := (List.mem_filter.mp hp).2
  rw [Point2.isFinite, Bool.and_eq_true] at hfinite
  exact hfinite.1

theorem isFinite_of_mem_finiteYs {points : List Point2} {v : Float} (h : v ∈ finiteYs points) :
    v.isFinite = true := by
  obtain ⟨p, hp, rfl⟩ := List.mem_map.mp h
  have hfinite := (List.mem_filter.mp hp).2
  rw [Point2.isFinite, Bool.and_eq_true] at hfinite
  exact hfinite.2

/-- Two coordinate lists are finite if each is. -/
theorem forall_mem_pair {x y : List Float} (hx : ∀ v ∈ x, v.isFinite = true)
    (hy : ∀ v ∈ y, v.isFinite = true) : ∀ values ∈ [x, y], ∀ v ∈ values, v.isFinite = true := by
  intro values hvalues
  rcases List.mem_pair.mp hvalues with rfl | rfl
  · exact hx
  · exact hy

/-- A planar trace without labels, with parallel and finite lists, a drawable line or none and a
drawable marker or none. -/
theorem PlanarTrace.drawable_of_lists {t : PlanarTrace} (hlength : t.y.length = t.x.length)
    (htext : t.text = []) (hx : ∀ v ∈ t.x, v.isFinite = true) (hy : ∀ v ∈ t.y, v.isFinite = true)
    (hline : ∀ l ∈ t.line, isPositive l.width = true)
    (hmarker : ∀ m ∈ t.marker, isPositive m.size = true) : t.Drawable where
  parallel := hlength
  points := {
    labels := Or.inl (by rw [htext, List.length_nil])
    finite := forall_mem_pair hx hy
    line := hline
    marker := hmarker }

/-! ## Planar kinds -/

section Planar

variable {config : Config} (hc : config.Usable) (style : ElementStyle)
include hc

theorem drawable_strokeThrough (points : List Point2) (label : Option String) :
    (strokeThrough points label style config).Drawable := by
  refine PlanarTrace.drawable_of_lists (length_finiteYs points) rfl
    (fun v => isFinite_of_mem_finiteXs) (fun v => isFinite_of_mem_finiteYs) ?_
    (fun m hm => (nomatch hm))
  rintro l ⟨⟩
  exact style.isPositive_lineIn hc

theorem Path.drawable_scatter (p : Path) : (p.scatter style config).Drawable := by
  refine PlanarTrace.drawable_of_lists (length_finiteYs p.points) rfl
    (fun v => isFinite_of_mem_finiteXs) (fun v => isFinite_of_mem_finiteYs)
    (fun l hl => (nomatch hl)) ?_
  rintro m ⟨⟩
  exact style.isPositive_markerIn hc.scatterMarkerSize config

theorem Marker.drawable_trace (m : Marker) : (m.trace style config).Drawable := by
  have hmarker : ∀ k ∈ some (style.markerIn config config.pointMarkerSize),
      isPositive k.size = true := by
    rintro k ⟨⟩
    exact style.isPositive_markerIn hc.pointMarkerSize config
  have hline : ∀ l ∈ (none : Option LineStyle), isPositive l.width = true := by
    rintro l ⟨⟩
  unfold trace
  cases hp : m.coords.filter Point2.isFinite with
  | none =>
    exact PlanarTrace.drawable_of_lists rfl rfl (fun v hv => absurd hv List.not_mem_nil)
      (fun v hv => absurd hv List.not_mem_nil) hline hmarker
  | some p =>
    have hfinite := (Option.filter_eq_some_iff.mp hp).2
    rw [Point2.isFinite, Bool.and_eq_true] at hfinite
    refine ⟨rfl, Or.inr rfl, forall_mem_pair ?_ ?_, hline, hmarker⟩
    · exact fun v hv => List.mem_singleton.mp hv ▸ hfinite.1
    · exact fun v hv => List.mem_singleton.mp hv ▸ hfinite.2

omit hc in
/-- The points that are drawn are the finite ones, in order. -/
theorem Markers.map_fst_drawn (m : Markers) :
    m.drawn.map Prod.fst = m.coords.filter Point2.isFinite := by
  have hzip : m.coords.zipIdx.map Prod.fst = m.coords := List.zipIdx_map_fst 0 m.coords
  conv_rhs => rw [← hzip, List.filter_map]
  rfl

omit hc in
theorem Markers.length_drawn (m : Markers) : m.drawn.length = (finiteXs m.coords).length := by
  rw [← List.length_map Prod.fst, m.map_fst_drawn, finiteXs, List.length_map]

theorem Markers.drawable_trace (m : Markers) : (m.trace style config).Drawable := by
  refine ⟨length_finiteYs m.coords, ?_, forall_mem_pair (fun v => isFinite_of_mem_finiteXs)
    (fun v => isFinite_of_mem_finiteYs), fun l hl => (nomatch hl), ?_⟩
  · show m.text.length = 0 ∨ m.text.length = (finiteXs m.coords).length
    unfold Markers.text
    split
    · exact Or.inl rfl
    · exact Or.inr (by rw [List.length_map, m.length_drawn])
  · rintro k ⟨⟩
    exact style.isPositive_markerIn hc.pointMarkerSize config

theorem Area.drawable_filled (a : Area) (fill : Fill) :
    (a.filled fill style config).Drawable :=
  have h := drawable_strokeThrough hc style a.points a.label
  ⟨h.parallel, h.points⟩

omit hc in
/-- The baseline of an area is finite, whatever was given. -/
theorem Area.isFinite_base (a : Area) : a.base.isFinite = true := by
  unfold base
  split
  · next h => exact h
  · decide

omit hc in
theorem Area.drawable_baselineTrace (a : Area) : a.baselineTrace.Drawable := by
  refine PlanarTrace.drawable_of_lists List.length_replicate rfl
    (fun v => isFinite_of_mem_finiteXs) ?_ ?_ (fun m hm => (nomatch hm))
  · intro v hv
    rw [List.eq_of_mem_replicate hv]
    exact a.isFinite_base
  · rintro l ⟨⟩
    decide

theorem Area.drawable_of_mem_traces {a : Area} {t : PlanarTrace}
    (h : t ∈ a.traces style config) : t.Drawable := by
  unfold traces at h
  split at h
  · rw [List.mem_singleton.mp h]
    exact a.drawable_filled hc style .toZeroY
  · rcases List.mem_pair.mp h with rfl | rfl
    · exact a.drawable_baselineTrace
    · exact a.drawable_filled hc style .toNextY

omit hc in
/-- Closing a path adds a point that it has. -/
theorem Polygon.mem_close {l : List Float} {v : Float} (h : v ∈ close l) : v ∈ l := by
  cases l with
  | nil => exact h
  | cons a as =>
    rcases List.mem_append.mp h with h | h
    · exact h
    · rw [List.mem_singleton.mp h]
      exact List.mem_cons_self

omit hc in
/-- Paths of one length are closed to paths of one length. -/
theorem Polygon.length_close_congr {x y : List Float} (h : y.length = x.length) :
    (close y).length = (close x).length := by
  cases x with
  | nil => rw [List.length_eq_zero_iff.mp h]
  | cons a as =>
    cases y with
    | nil => cases h
    | cons b bs =>
      unfold close
      rw [List.length_append, List.length_append, h, List.length_singleton, List.length_singleton]

theorem Polygon.drawable_trace (p : Polygon) : (p.trace style config).Drawable := by
  have h := drawable_strokeThrough hc style p.vertices p.label
  exact PlanarTrace.drawable_of_lists (length_close_congr h.parallel) rfl
    (fun v hv => isFinite_of_mem_finiteXs (mem_close hv))
    (fun v hv => isFinite_of_mem_finiteYs (mem_close hv)) h.points.line h.points.marker

end Planar

/-! ## Spatial kinds -/

/-- The shape of a grid that has one. -/
theorem Grid.hasShape_of_shape? {g : Grid} {rows columns : Nat}
    (h : Grid.shape? g = some (rows, columns)) : Grid.hasShape g rows columns = true := by
  unfold shape? at h
  split at h
  · next hshape =>
    obtain ⟨rfl, rfl⟩ := Prod.mk.inj (Option.some.inj h)
    exact hshape
  · cases h

/-- Consistent grids have the shape of the heights. -/
theorem Surface.shape?_of_isConsistent {s : Surface} (h : s.isConsistent = true) :
    ∀ g ∈ [s.x, s.y, s.z],
      Grid.hasShape g s.z.length (Grid.columns s.z) = true := by
  simp only [isConsistent, Bool.and_eq_true, beq_iff_eq] at h
  obtain ⟨⟨hsome, hx⟩, hy⟩ := h
  have hz : Grid.shape? s.z = some (s.z.length, Grid.columns s.z) := by
    unfold Grid.shape? at hsome ⊢
    split
    · rfl
    · next hnone => rw [if_neg hnone] at hsome; cases hsome
  intro g hg
  simp only [List.mem_cons, List.not_mem_nil, or_false] at hg
  rcases hg with rfl | rfl | rfl
  · exact Grid.hasShape_of_shape? (hx.trans hz)
  · exact Grid.hasShape_of_shape? (hy.trans hz)
  · exact Grid.hasShape_of_shape? hz

/-- A finite double from zero to one. -/
def InUnit (x : Float) : Prop :=
  x.isFinite = true ∧ 0 ≤ x ∧ x ≤ 1

/-- An opacity that is kept only if it is finite is brought between zero and one. -/
theorem inUnit_of_mem_clamped {o : Option Float} {x : Float}
    (h : x ∈ (o.filter Float.isFinite).map clampUnit) : InUnit x := by
  obtain ⟨v, hv, rfl⟩ := Option.map_eq_some_iff.mp h
  exact Double.clampUnit_mem_unit (Option.filter_eq_some_iff.mp hv).2

theorem Surface.inUnit_opacityIn (s : Surface) (style : ElementStyle) :
    InUnit (s.opacityIn style) := by
  unfold opacityIn
  cases hown : (s.opacity.filter Float.isFinite).map clampUnit with
  | some x => exact inUnit_of_mem_clamped hown
  | none =>
    cases hstyle : style.unitOpacity with
    | some x => exact inUnit_of_mem_clamped hstyle
    | none => exact show InUnit 1 by unfold InUnit; decide

theorem Surface.drawable_trace (s : Surface) (style : ElementStyle) (config : Config) :
    (s.trace style config).Drawable := by
  have hopacity := s.inUnit_opacityIn style
  by_cases h : s.isConsistent = true
  · have hshape := Surface.shape?_of_isConsistent h
    constructor
    all_goals simp only [trace, if_pos h]
    · exact hshape _ (by simp)
    · exact hshape _ (by simp)
    · exact hshape _ (by simp)
    · exact hopacity
  · constructor
    all_goals simp only [trace, if_neg h]
    · rfl
    · rfl
    · rfl
    · exact hopacity

/-- Both ends of an arrow are finite, if it has ends. -/
theorem Arrow.isFinite_of_mem_ends {a : Arrow} {p : Point3} (h : p ∈ a.ends) :
    p.x.isFinite = true ∧ p.y.isFinite = true ∧ p.z.isFinite = true := by
  have hfinite : p.isFinite = true := by
    unfold ends at h
    split at h
    · split at h
      · next hboth =>
        rw [Bool.and_eq_true] at hboth
        rcases List.mem_pair.mp h with rfl | rfl
        · exact hboth.1
        · exact hboth.2
      · exact absurd h List.not_mem_nil
    · exact absurd h List.not_mem_nil
  rw [Point3.isFinite, Bool.and_eq_true, Bool.and_eq_true, and_assoc] at hfinite
  exact hfinite

theorem Arrow.drawable_trace {config : Config} (hc : config.Usable) (a : Arrow)
    (style : ElementStyle) : (a.trace style config).Drawable := by
  have hmap : ∀ f g : Point3 → Float, (a.ends.map f).length = (a.ends.map g).length := by
    intro f g
    rw [List.length_map, List.length_map]
  refine ⟨hmap _ _, hmap _ _, Or.inl rfl, ?_, ?_, ?_⟩
  · intro values hvalues v hv
    simp only [trace, List.mem_cons, List.not_mem_nil, or_false] at hvalues
    rcases hvalues with rfl | rfl | rfl
    all_goals
      obtain ⟨p, hp, rfl⟩ := List.mem_map.mp hv
      obtain ⟨hx, hy, hz⟩ := Arrow.isFinite_of_mem_ends hp
    · exact hx
    · exact hy
    · exact hz
  · rintro l ⟨⟩
    exact style.isPositive_lineIn hc
  · rintro m ⟨⟩
    exact style.isPositive_markerIn hc.scatterMarkerSize config

/-! ## Elements -/

namespace Element

/-- **What draws an element can be drawn.** -/
theorem drawable_of_mem_traces? {config : Config} (hc : config.Usable) {e : Element}
    {ts : List Trace} (h : e.traces? config = some ts) : ∀ t ∈ ts, t.Drawable := by
  obtain ⟨geometry, style⟩ := e
  unfold traces? at h
  cases geometry with
  | curve p =>
    obtain rfl := Option.some.inj h
    exact List.forall_mem_singleton.mpr (drawable_strokeThrough hc style p.points p.label)
  | scatter p =>
    obtain rfl := Option.some.inj h
    exact List.forall_mem_singleton.mpr (p.drawable_scatter hc style)
  | point m =>
    obtain rfl := Option.some.inj h
    exact List.forall_mem_singleton.mpr (m.drawable_trace hc style)
  | points m =>
    obtain rfl := Option.some.inj h
    exact List.forall_mem_singleton.mpr (m.drawable_trace hc style)
  | line s | segment s =>
    obtain rfl := Option.some.inj h
    exact List.forall_mem_singleton.mpr (drawable_strokeThrough hc style s.ends s.label)
  | circle c =>
    obtain rfl := Option.some.inj h
    exact List.forall_mem_singleton.mpr (drawable_strokeThrough hc style _ c.label)
  | area a =>
    obtain rfl := Option.some.inj h
    intro t ht
    obtain ⟨u, hu, rfl⟩ := List.mem_map.mp ht
    exact Area.drawable_of_mem_traces hc style hu
  | polygon p =>
    obtain rfl := Option.some.inj h
    exact List.forall_mem_singleton.mpr (p.drawable_trace hc style)
  | surface s =>
    obtain rfl := Option.some.inj h
    exact List.forall_mem_singleton.mpr (s.drawable_trace style config)
  | vector3d a =>
    obtain rfl := Option.some.inj h
    exact List.forall_mem_singleton.mpr (a.drawable_trace hc style)
  | unknown kind data => cases h

/-- What draws a list of elements can be drawn. -/
theorem drawable_of_mem_traces {config : Config} (hc : config.Usable) {es : List Element}
    {t : Trace} (h : t ∈ traces config es) : t.Drawable := by
  obtain ⟨e, -, ht⟩ := List.mem_flatMap.mp h
  cases hts : e.traces? config with
  | none =>
    rw [hts] at ht
    exact absurd ht List.not_mem_nil
  | some ts =>
    rw [hts] at ht
    exact drawable_of_mem_traces? hc hts t ht

end Element
end Plotting
