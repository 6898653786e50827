import Mathlib
import Plotting.Proofs.Element.Drawable
import Plotting.Proofs.Element.Equality

/-!
# Equal elements are drawn alike

What is drawn of an element does not depend on the signs of its zeros beyond the signs of zeros in
what is drawn.  The guards see numbers only: whether a coordinate is finite, a radius below zero, a
width positive, a baseline zero.  What is kept is copied, with two exceptions, the opacity, which
is clamped, and the corners of a circle, which are computed.  The angles of the corners depend on
the number of segments alone, so a corner is a sum and a product of the same numbers with the same
cosine.

Copied numbers are equal because they were so in the elements, and therefore numbers.  Computed
ones are only the same numbers, both of them perhaps none; the filter for finite points comes
after, and what passes it is equal again.  Hence lists of points are compared by `Point2.Agrees`,
which both copied and computed points meet.
-/

namespace Plotting

open Double

/-! ## Traces -/

theorem LineStyle.beq_iff {l m : LineStyle} :
    (l == m) = true ↔ l.color = m.color ∧ (l.width == m.width) = true ∧ l.dash = m.dash := by
  show (_ && (_ && _)) = true ↔ _
  simp only [Bool.and_eq_true, beq_iff_eq (α := String), beq_iff_eq (α := Option String)]

theorem MarkerStyle.beq_iff {m n : MarkerStyle} :
    (m == n) = true ↔ m.color = n.color ∧ (m.size == n.size) = true := by
  show (_ && _) = true ↔ _
  rw [Bool.and_eq_true, beq_iff_eq (α := String)]

theorem Trace.planar_beq_planar (t u : PlanarTrace) :
    (Trace.planar t == Trace.planar u) = (t == u) := rfl

/-- Planar traces that have all but numbers in common. -/
theorem PlanarTrace.beq_of_numbers {t u : PlanarTrace}
    (hrest : t = { u with x := t.x, y := t.y, line := t.line, marker := t.marker })
    (hx : (t.x == u.x) = true) (hy : (t.y == u.y) = true) (hline : (t.line == u.line) = true)
    (hmarker : (t.marker == u.marker) = true) : (t == u) = true := by
  rw [hrest]
  show (_ && (_ && (_ && (_ && (_ && (_ && (_ && (_ && (_ && (_ && _)))))))))) = true
  simp only [Bool.and_eq_true]
  exact ⟨beq_self_eq_true _, beq_self_eq_true _, hx, hy, beq_self_eq_true _, beq_self_eq_true _,
    hline, hmarker, beq_self_eq_true _, beq_self_eq_true _, beq_self_eq_true _⟩

/-- Traces in space that have all but numbers in common. -/
theorem SpatialTrace.beq_of_numbers {t u : SpatialTrace}
    (hrest : t = { u with x := t.x, y := t.y, z := t.z, line := t.line, marker := t.marker })
    (hx : (t.x == u.x) = true) (hy : (t.y == u.y) = true) (hz : (t.z == u.z) = true)
    (hline : (t.line == u.line) = true) (hmarker : (t.marker == u.marker) = true) :
    (t == u) = true := by
  rw [hrest]
  show (_ && (_ && (_ && (_ && (_ && (_ && (_ && _))))))) = true
  simp only [Bool.and_eq_true]
  exact ⟨beq_self_eq_true _, beq_self_eq_true _, hx, hy, hz, beq_self_eq_true _, hline, hmarker⟩

/-- Surfaces that have all but numbers in common. -/
theorem SurfaceTrace.beq_of_numbers {t u : SurfaceTrace}
    (hrest : t = { u with x := t.x, y := t.y, z := t.z, opacity := t.opacity })
    (hx : (t.x == u.x) = true) (hy : (t.y == u.y) = true) (hz : (t.z == u.z) = true)
    (hopacity : (t.opacity == u.opacity) = true) : (t == u) = true := by
  rw [hrest]
  show (_ && (_ && (_ && (_ && (_ && (_ && _)))))) = true
  simp only [Bool.and_eq_true]
  exact ⟨beq_self_eq_true _, hx, hy, hz, beq_self_eq_true _, hopacity, beq_self_eq_true _⟩

/-! ## Styles -/

section Styles

variable {config : Config} {s t : ElementStyle}

/-- A positive number equals itself. -/
theorem beq_self_of_isPositive {x : Float} (h : isPositive x = true) : (x == x) = true := by
  rw [isPositive, Bool.and_eq_true] at h
  exact beq_self_of_isFinite h.1

theorem isPositive_eq_of_beq (a b : Float) (h : (a == b) = true) : isPositive a = isPositive b :=
  isPositive_congr (sameNumber_of_beq h)

namespace ElementStyle

theorem strokeWidth_congr (h : (s == t) = true) : (s.strokeWidth == t.strokeWidth) = true := by
  obtain ⟨-, hwidth, -, -, -, -, -, hline⟩ := beq_iff.mp h
  have hblock : (s.line.bind StrokeHint.width == t.line.bind StrokeHint.width) = true :=
    beq_bind (fun _ _ h => (StrokeHint.beq_iff.mp h).2.1) hline
  exact beq_filter isPositive_eq_of_beq (beq_or hwidth hblock)

theorem colorIn_congr (h : (s == t) = true) (config : Config) :
    s.colorIn config = t.colorIn config := by
  obtain ⟨hcolor, -, -, -, -, -, -, hline⟩ := beq_iff.mp h
  have hblock : s.line.bind StrokeHint.color = t.line.bind StrokeHint.color :=
    eq_of_beq (beq_bind (fun _ _ h => beq_iff_eq.mpr (StrokeHint.beq_iff.mp h).1) hline)
  rw [colorIn, colorIn, strokeColor, strokeColor, hcolor, hblock]

theorem strokeDash_congr (h : (s == t) = true) : s.strokeDash = t.strokeDash := by
  obtain ⟨-, -, hdash, -, -, -, -, hline⟩ := beq_iff.mp h
  have hblock : s.line.bind StrokeHint.dash = t.line.bind StrokeHint.dash :=
    eq_of_beq (beq_bind (fun _ _ h => beq_iff_eq.mpr (StrokeHint.beq_iff.mp h).2.2) hline)
  rw [strokeDash, strokeDash, hdash, hblock]

theorem lineIn_congr (hc : config.Usable) (h : (s == t) = true) :
    (s.lineIn config == t.lineIn config) = true :=
  LineStyle.beq_iff.mpr ⟨colorIn_congr h config,
    beq_getD (strokeWidth_congr h) (beq_self_of_isPositive hc.lineWidth), strokeDash_congr h⟩

theorem markerIn_congr {size : Float} (hsize : isPositive size = true) (h : (s == t) = true)
    (config : Config) : (s.markerIn config size == t.markerIn config size) = true := by
  obtain ⟨-, -, -, hmarker, -, -, -, -⟩ := beq_iff.mp h
  exact MarkerStyle.beq_iff.mpr ⟨colorIn_congr h config,
    beq_getD (beq_filter isPositive_eq_of_beq hmarker) (beq_self_of_isPositive hsize)⟩

end ElementStyle

/-- Opacities that are equal, brought between zero and one, if finite. -/
theorem unitOpacity_congr {o o' : Option Float} (h : (o == o') = true) :
    ((o.filter Float.isFinite).map clampUnit ==
      (o'.filter Float.isFinite).map clampUnit) = true := by
  rcases option_beq_iff.mp h with ⟨rfl, rfl⟩ | ⟨a, b, rfl, rfl, h⟩
  · rfl
  · have hsame := sameNumber_of_beq h
    rw [Option.filter_some, Option.filter_some, ← isFinite_congr hsame]
    split
    · next hfinite =>
      exact beq_of_sameNumber (sameNumber_clampUnit hsame) (clampUnit_mem_unit hfinite).1
    · rfl

end Styles

/-! ## Points -/

theorem Point2.isFinite_x {p : Point2} (h : p.isFinite = true) : p.x.isFinite = true :=
  (Bool.and_eq_true_iff.mp h).1

theorem Point2.isFinite_y {p : Point2} (h : p.isFinite = true) : p.y.isFinite = true :=
  (Bool.and_eq_true_iff.mp h).2

/-- Points with the same numbers for coordinates. -/
structure Point2.Agrees (p q : Point2) : Prop where
  x : sameNumber p.x q.x = true
  y : sameNumber p.y q.y = true

namespace Point2.Agrees

variable {p q : Point2}

theorem of_beq (h : (p == q) = true) : p.Agrees q :=
  ⟨sameNumber_of_beq (beq_iff.mp h).1, sameNumber_of_beq (beq_iff.mp h).2⟩

theorem isFinite_eq (h : p.Agrees q) : p.isFinite = q.isFinite := by
  rw [isFinite, isFinite, isFinite_congr h.x, isFinite_congr h.y]

theorem beq_x (h : p.Agrees q) (hp : p.isFinite = true) : (p.x == q.x) = true :=
  beq_of_sameNumber h.x (isFinite_x hp)

theorem beq_y (h : p.Agrees q) (hp : p.isFinite = true) : (p.y == q.y) = true :=
  beq_of_sameNumber h.y (isFinite_y hp)

end Point2.Agrees

section Points

variable {ps qs : List Point2}

theorem forall₂_agrees_of_beq (h : (ps == qs) = true) : List.Forall₂ Point2.Agrees ps qs :=
  (list_beq_iff.mp h).imp fun _ _ => .of_beq

/-- A coordinate of the points that are kept. -/
theorem map_filter_isFinite_congr {coordinate : Point2 → Float}
    (hc : ∀ p q : Point2, p.Agrees q → p.isFinite = true →
      (coordinate p == coordinate q) = true) (h : List.Forall₂ Point2.Agrees ps qs) :
    ((ps.filter Point2.isFinite).map coordinate == (qs.filter Point2.isFinite).map coordinate) =
      true := by
  induction h with
  | nil => rfl
  | @cons p q ps qs hpq _ ih =>
    by_cases hp : p.isFinite = true
    · have hq : q.isFinite = true := hpq.isFinite_eq ▸ hp
      rw [List.filter_cons_of_pos hp, List.filter_cons_of_pos hq, List.map_cons, List.map_cons,
        List.cons_beq_cons, hc p q hpq hp, Bool.true_and]
      exact ih
    · have hq : ¬ q.isFinite = true := hpq.isFinite_eq ▸ hp
      rwa [List.filter_cons_of_neg hp, List.filter_cons_of_neg hq]

theorem finiteXs_congr (h : List.Forall₂ Point2.Agrees ps qs) :
    (finiteXs ps == finiteXs qs) = true :=
  map_filter_isFinite_congr (fun _ _ h => h.beq_x) h

theorem finiteYs_congr (h : List.Forall₂ Point2.Agrees ps qs) :
    (finiteYs ps == finiteYs qs) = true :=
  map_filter_isFinite_congr (fun _ _ h => h.beq_y) h

/-- The places of the points that are kept. -/
theorem drawn_places_congr (h : List.Forall₂ Point2.Agrees ps qs) (n : ℕ) :
    ((ps.zipIdx n).filter fun (p, _) => p.isFinite).map Prod.snd =
      ((qs.zipIdx n).filter fun (q, _) => q.isFinite).map Prod.snd := by
  induction h generalizing n with
  | nil => rfl
  | @cons p q ps qs hpq _ ih =>
    simp only [List.zipIdx_cons, List.filter_cons, hpq.isFinite_eq]
    split
    · rw [List.map_cons, List.map_cons, ih]
    · exact ih _

end Points

/-! ## Planar kinds -/

section Planar

variable {config : Config} {s t : ElementStyle}

theorem strokeThrough_congr (hc : config.Usable) {ps qs : List Point2}
    (h : List.Forall₂ Point2.Agrees ps qs) (label : Option String) (hstyle : (s == t) = true) :
    (strokeThrough ps label s config == strokeThrough qs label t config) = true :=
  PlanarTrace.beq_of_numbers rfl (finiteXs_congr h) (finiteYs_congr h)
    (ElementStyle.lineIn_congr hc hstyle) rfl

theorem Path.curve_congr (hc : config.Usable) {p q : Path} (h : (p == q) = true)
    (hstyle : (s == t) = true) : (p.curve s config == q.curve t config) = true := by
  obtain ⟨hpoints, hlabel⟩ := beq_iff.mp h
  rw [curve, curve, hlabel]
  exact strokeThrough_congr hc (forall₂_agrees_of_beq hpoints) _ hstyle

theorem Path.scatter_congr (hc : config.Usable) {p q : Path} (h : (p == q) = true)
    (hstyle : (s == t) = true) : (p.scatter s config == q.scatter t config) = true := by
  obtain ⟨hpoints, hlabel⟩ := beq_iff.mp h
  have hagree := forall₂_agrees_of_beq hpoints
  rw [scatter, scatter, hlabel]
  exact PlanarTrace.beq_of_numbers rfl (finiteXs_congr hagree) (finiteYs_congr hagree) rfl
    (ElementStyle.markerIn_congr hc.scatterMarkerSize hstyle config)

theorem Marker.trace_congr (hc : config.Usable) {m n : Marker} (h : (m == n) = true)
    (hstyle : (s == t) = true) : (m.trace s config == n.trace t config) = true := by
  obtain ⟨hcoords, hlabel⟩ := beq_iff.mp h
  have hmarker := ElementStyle.markerIn_congr hc.pointMarkerSize hstyle config
  have hkept : (m.coords.filter Point2.isFinite == n.coords.filter Point2.isFinite) = true :=
    beq_filter (fun _ _ h => (Point2.Agrees.of_beq h).isFinite_eq) hcoords
  unfold trace
  rcases option_beq_iff.mp hkept with ⟨hm, hn⟩ | ⟨p, q, hm, hn, h⟩
  · rw [hm, hn, hlabel]
    exact PlanarTrace.beq_of_numbers rfl rfl rfl rfl hmarker
  · rw [hm, hn, hlabel]
    obtain ⟨hx, hy⟩ := Point2.beq_iff.mp h
    have hone : ∀ a b : Float, (a == b) = true → ([a] == [b]) = true := by
      intro a b hab
      rw [List.cons_beq_cons, hab]
      rfl
    exact PlanarTrace.beq_of_numbers rfl (hone _ _ hx) (hone _ _ hy) rfl hmarker

theorem Markers.text_congr {m n : Markers} (h : (m == n) = true) : m.text = n.text := by
  obtain ⟨hcoords, hlabels⟩ := beq_iff.mp h
  have hplaces : m.drawn.map Prod.snd = n.drawn.map Prod.snd :=
    drawn_places_congr (forall₂_agrees_of_beq hcoords) 0
  have hat : m.labelAt = n.labelAt := by
    funext i
    rw [labelAt, labelAt, hlabels]
  have htext := congrArg (List.map n.labelAt) hplaces
  rw [List.map_map, List.map_map] at htext
  unfold text
  rw [hlabels, hat]
  split
  · rfl
  · exact htext

theorem Markers.trace_congr (hc : config.Usable) {m n : Markers} (h : (m == n) = true)
    (hstyle : (s == t) = true) : (m.trace s config == n.trace t config) = true := by
  obtain ⟨hcoords, hlabels⟩ := beq_iff.mp h
  obtain ⟨-, -, -, -, -, -, htitle, -⟩ := ElementStyle.beq_iff.mp hstyle
  have hagree := forall₂_agrees_of_beq hcoords
  rw [trace, trace, text_congr h, hlabels, htitle]
  exact PlanarTrace.beq_of_numbers rfl (finiteXs_congr hagree) (finiteYs_congr hagree) rfl
    (ElementStyle.markerIn_congr hc.pointMarkerSize hstyle config)

theorem Segment.ends_congr {a b : Segment} (h : (a == b) = true) :
    List.Forall₂ Point2.Agrees a.ends b.ends := by
  obtain ⟨hfirst, hlast, -⟩ := beq_iff.mp h
  unfold ends
  rcases option_beq_iff.mp hfirst with ⟨ha, hb⟩ | ⟨p, p', ha, hb, hp⟩
  · rw [ha, hb]
    exact .nil
  rcases option_beq_iff.mp hlast with ⟨ha', hb'⟩ | ⟨q, q', ha', hb', hq⟩
  · rw [ha, hb, ha', hb']
    exact .nil
  have hp' := Point2.Agrees.of_beq hp
  have hq' := Point2.Agrees.of_beq hq
  rw [ha, hb, ha', hb']
  simp only [hp'.isFinite_eq, hq'.isFinite_eq]
  split
  · exact .cons hp' (.cons hq' .nil)
  · exact .nil

theorem Segment.trace_congr (hc : config.Usable) {a b : Segment} (h : (a == b) = true)
    (hstyle : (s == t) = true) : (a.trace s config == b.trace t config) = true := by
  obtain ⟨-, -, hlabel⟩ := beq_iff.mp h
  rw [trace, trace, hlabel]
  exact strokeThrough_congr hc (ends_congr h) _ hstyle

namespace Circle

/-- The corners at one step have the same numbers for coordinates. -/
theorem agrees_corner {center center' : Point2} {radius radius' : Float}
    (hcenter : center.Agrees center') (hradius : sameNumber radius radius' = true)
    (last i : ℕ) : (corner center radius last i).Agrees (corner center' radius' last i) where
  x := sameNumber_add hcenter.x (sameNumber_mul hradius (sameNumber_refl _))
  y := sameNumber_add hcenter.y (sameNumber_mul hradius (sameNumber_refl _))

theorem corners_congr {center center' : Point2} {radius radius' : Float}
    (hcenter : center.Agrees center') (hradius : sameNumber radius radius' = true)
    (segments : ℕ) :
    List.Forall₂ Point2.Agrees (corners center radius segments)
      (corners center' radius' segments) := by
  unfold corners
  simp only [hcenter.isFinite_eq, isFinite_congr hradius, lt_congr_left hradius]
  split
  · refine List.forall₂_map_left_iff.mpr (List.forall₂_map_right_iff.mpr ?_)
    exact List.forall₂_same.mpr fun i _ => agrees_corner hcenter hradius _ i
  · exact .nil

theorem trace_congr (hc : config.Usable) {c d : Circle} (h : (c == d) = true)
    (hstyle : (s == t) = true) : (c.trace s config == d.trace t config) = true := by
  obtain ⟨hcenter, hradius, hlabel⟩ := beq_iff.mp h
  unfold trace
  rw [hlabel]
  refine strokeThrough_congr hc ?_ _ hstyle
  rcases option_beq_iff.mp hradius with ⟨hc, hd⟩ | ⟨r, r', hc, hd, hr⟩
  · rw [hc, hd]
    exact .nil
  · rw [hc, hd]
    exact corners_congr (.of_beq hcenter) (sameNumber_of_beq hr) _

end Circle

namespace Area

variable {a b : Area}

theorem base_congr (h : (a == b) = true) : (a.base == b.base) = true := by
  obtain ⟨-, hbaseline, -⟩ := beq_iff.mp h
  rw [base, base, isFinite_congr (sameNumber_of_beq hbaseline)]
  split
  · exact hbaseline
  · rfl

theorem filled_congr (hc : config.Usable) (h : (a == b) = true) (hstyle : (s == t) = true)
    (fill : Fill) : (a.filled fill s config == b.filled fill t config) = true := by
  obtain ⟨hpoints, -, hlabel⟩ := beq_iff.mp h
  obtain ⟨-, -, -, -, hfill, -, -, -⟩ := ElementStyle.beq_iff.mp hstyle
  have hagree := forall₂_agrees_of_beq hpoints
  rw [filled, filled, hlabel, hfill]
  exact PlanarTrace.beq_of_numbers rfl (finiteXs_congr hagree) (finiteYs_congr hagree)
    (ElementStyle.lineIn_congr hc hstyle) rfl

theorem baselineTrace_congr (h : (a == b) = true) :
    (a.baselineTrace == b.baselineTrace) = true := by
  obtain ⟨hpoints, -, hlabel⟩ := beq_iff.mp h
  have hxs := finiteXs_congr (forall₂_agrees_of_beq hpoints)
  rw [baselineTrace, baselineTrace, hlabel]
  refine PlanarTrace.beq_of_numbers rfl hxs ?_ rfl rfl
  rw [length_eq_of_beq hxs]
  refine list_beq_iff.mpr (List.forall₂_iff_get.mpr ⟨by simp, fun i hi hj => ?_⟩)
  simpa using base_congr h

theorem traces_congr (hc : config.Usable) (h : (a == b) = true) (hstyle : (s == t) = true) :
    List.Forall₂ (· == ·) (a.traces s config) (b.traces t config) := by
  obtain ⟨hpoints, -, -⟩ := beq_iff.mp h
  have hzero : (a.base == 0) = (b.base == 0) :=
    Bool.eq_iff_iff.mpr ⟨BEq.trans (BEq.symm (base_congr h)), BEq.trans (base_congr h)⟩
  have hempty : (finiteXs a.points).isEmpty = (finiteXs b.points).isEmpty :=
    isEmpty_eq_of_beq (finiteXs_congr (forall₂_agrees_of_beq hpoints))
  unfold traces
  rw [hzero, hempty]
  split
  · exact .cons (filled_congr hc h hstyle _) .nil
  · exact .cons (baselineTrace_congr h) (.cons (filled_congr hc h hstyle _) .nil)

end Area

namespace Polygon

theorem close_congr {vs ws : List Float} (h : (vs == ws) = true) :
    (close vs == close ws) = true := by
  cases list_beq_iff.mp h with
  | nil => rfl
  | cons hv hvs =>
    exact list_beq_iff.mpr (.cons hv (List.rel_append hvs (.cons hv .nil)))

theorem trace_congr (hc : config.Usable) {p q : Polygon} (h : (p == q) = true)
    (hstyle : (s == t) = true) : (p.trace s config == q.trace t config) = true := by
  obtain ⟨hvertices, hlabel⟩ := beq_iff.mp h
  obtain ⟨-, -, -, -, hfill, -, -, -⟩ := ElementStyle.beq_iff.mp hstyle
  have hagree := forall₂_agrees_of_beq hvertices
  rw [trace, trace, hlabel, hfill]
  exact PlanarTrace.beq_of_numbers rfl (close_congr (finiteXs_congr hagree))
    (close_congr (finiteYs_congr hagree)) (ElementStyle.lineIn_congr hc hstyle) rfl

end Polygon
end Planar

/-! ## Spatial kinds -/

section Spatial

variable {config : Config} {s t : ElementStyle}

theorem all_length_congr {g h : Grid} (hgh : List.Forall₂ (· == ·) g h) (n : ℕ) :
    (g.all fun row => row.length == n) = h.all fun row => row.length == n := by
  induction hgh with
  | nil => rfl
  | cons hrow _ ih => rw [List.all_cons, List.all_cons, length_eq_of_beq hrow, ih]

/-- Grids that are equal have one shape. -/
theorem Grid.shape?_congr {g h : Grid} (hgh : (g == h) = true) : Grid.shape? g = Grid.shape? h := by
  have hrows := list_beq_iff.mp hgh
  have hcolumns : Grid.columns g = Grid.columns h := by
    cases hrows with
    | nil => rfl
    | cons hrow _ => exact length_eq_of_beq hrow
  rw [shape?, shape?, hasShape, hasShape, hrows.length_eq, hcolumns, all_length_congr hrows]

namespace Surface

variable {a b : Surface}

theorem isConsistent_congr (h : (a == b) = true) : a.isConsistent = b.isConsistent := by
  obtain ⟨hx, hy, hz, -, -, -⟩ := beq_iff.mp h
  unfold isConsistent
  rw [Grid.shape?_congr hx, Grid.shape?_congr hy, Grid.shape?_congr hz]

theorem opacityIn_congr (h : (a == b) = true) (hstyle : (s == t) = true) :
    (a.opacityIn s == b.opacityIn t) = true := by
  obtain ⟨-, -, -, -, hopacity, -⟩ := beq_iff.mp h
  obtain ⟨-, -, -, -, -, hhint, -, -⟩ := ElementStyle.beq_iff.mp hstyle
  exact beq_getD (beq_or (unitOpacity_congr hopacity) (unitOpacity_congr hhint)) rfl

theorem trace_congr (h : (a == b) = true) (hstyle : (s == t) = true) :
    (a.trace s config == b.trace t config) = true := by
  obtain ⟨hx, hy, hz, hscale, -, hlabel⟩ := beq_iff.mp h
  obtain ⟨-, -, -, -, -, -, htitle, -⟩ := ElementStyle.beq_iff.mp hstyle
  have hkept : ∀ {g g' : Grid}, (g == g') = true →
      ((if b.isConsistent then g else []) == (if b.isConsistent then g' else [])) = true := by
    intro g g' hg
    split
    · exact hg
    · rfl
  unfold trace
  rw [isConsistent_congr h, hscale, hlabel, htitle]
  exact SurfaceTrace.beq_of_numbers rfl (hkept hx) (hkept hy) (hkept hz)
    (opacityIn_congr h hstyle)

end Surface

namespace Arrow

variable {a b : Arrow}

theorem ends_congr (h : (a == b) = true) : List.Forall₂ (· == ·) a.ends b.ends := by
  obtain ⟨htail, hhead, -⟩ := beq_iff.mp h
  have hfinite : ∀ {p q : Point3}, (p == q) = true → p.isFinite = q.isFinite := by
    intro p q hpq
    obtain ⟨hx, hy, hz⟩ := Point3.beq_iff.mp hpq
    rw [Point3.isFinite, Point3.isFinite, isFinite_congr (sameNumber_of_beq hx),
      isFinite_congr (sameNumber_of_beq hy), isFinite_congr (sameNumber_of_beq hz)]
  unfold ends
  rcases option_beq_iff.mp htail with ⟨ha, hb⟩ | ⟨p, p', ha, hb, hp⟩
  · rw [ha, hb]
    exact .nil
  rcases option_beq_iff.mp hhead with ⟨ha', hb'⟩ | ⟨q, q', ha', hb', hq⟩
  · rw [ha, hb, ha', hb']
    exact .nil
  rw [ha, hb, ha', hb']
  simp only [hfinite hp, hfinite hq]
  split
  · exact .cons hp (.cons hq .nil)
  · exact .nil

theorem trace_congr (hc : config.Usable) (h : (a == b) = true) (hstyle : (s == t) = true) :
    (a.trace s config == b.trace t config) = true := by
  obtain ⟨-, -, hlabel⟩ := beq_iff.mp h
  have hends : ∀ c : Point3 → Float, (∀ p q, (p == q) = true → (c p == c q) = true) →
      (a.ends.map c == b.ends.map c) = true := by
    intro c hc
    refine list_beq_iff.mpr (List.forall₂_map_left_iff.mpr (List.forall₂_map_right_iff.mpr ?_))
    exact (ends_congr h).imp hc
  rw [trace, trace, hlabel]
  exact SpatialTrace.beq_of_numbers rfl
    (hends Point3.x fun _ _ h => (Point3.beq_iff.mp h).1)
    (hends Point3.y fun _ _ h => (Point3.beq_iff.mp h).2.1)
    (hends Point3.z fun _ _ h => (Point3.beq_iff.mp h).2.2)
    (ElementStyle.lineIn_congr hc hstyle)
    (ElementStyle.markerIn_congr hc.scatterMarkerSize hstyle config)

end Arrow
end Spatial

/-! ## Elements -/

namespace Element

/-- Equal elements are drawn by equal traces, or neither is drawn. -/
theorem traces?_congr {config : Config} (hc : config.Usable) {e f : Element}
    (h : (e == f) = true) :
    List.Forall₂ (· == ·) ((e.traces? config).getD []) ((f.traces? config).getD []) := by
  obtain ⟨hgeometry, hstyle⟩ := beq_iff.mp h
  obtain ⟨g, s⟩ := e
  obtain ⟨g', t⟩ := f
  -- geometries of different kinds are not equal
  cases g <;> cases g' <;> try cases hgeometry
  case curve.curve => exact .cons (Path.curve_congr hc hgeometry hstyle) .nil
  case scatter.scatter => exact .cons (Path.scatter_congr hc hgeometry hstyle) .nil
  case point.point => exact .cons (Marker.trace_congr hc hgeometry hstyle) .nil
  case points.points => exact .cons (Markers.trace_congr hc hgeometry hstyle) .nil
  case line.line => exact .cons (Segment.trace_congr hc hgeometry hstyle) .nil
  case segment.segment => exact .cons (Segment.trace_congr hc hgeometry hstyle) .nil
  case circle.circle => exact .cons (Circle.trace_congr hc hgeometry hstyle) .nil
  case area.area =>
    refine List.forall₂_map_left_iff.mpr (List.forall₂_map_right_iff.mpr ?_)
    exact Area.traces_congr hc hgeometry hstyle
  case polygon.polygon => exact .cons (Polygon.trace_congr hc hgeometry hstyle) .nil
  case surface.surface => exact .cons (Surface.trace_congr hgeometry hstyle) .nil
  case vector3d.vector3d => exact .cons (Arrow.trace_congr hc hgeometry hstyle) .nil
  case unknown.unknown => exact .nil

/-- Equal lists of elements are drawn by equal lists of traces. -/
theorem traces_congr {config : Config} (hc : config.Usable) {es fs : List Element}
    (h : (es == fs) = true) : List.Forall₂ (· == ·) (traces config es) (traces config fs) :=
  List.rel_flatMap (list_beq_iff.mp h) fun _ _ h => traces?_congr hc h

end Element
end Plotting
