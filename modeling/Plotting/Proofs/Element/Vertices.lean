import Mathlib.Data.List.Forall2
import Mathlib.Data.List.Sort
import Plotting.Proofs.Element.Drawable

/-!
# The coordinates that an element is drawn with

Points that are not finite are left out, and those behind them move up.  Whatever runs beside the
points has to move with them: the labels, the point that closes a polygon, the baseline of an area.
So what is drawn is told by places.  The finite vertices of a list stand at certain places, in order
(`FinitePlaces`), a trace draws the vertices at such places one by one (`PlanarTrace.DrawsAt`), and
labels are those that stood at the same places.

`Geometry.DrawnBy` says for each kind what its traces hold of its coordinates, and
`Element.draws_usable_coordinates` that they do.
-/

namespace Plotting

/-! ## Places -/

/-- The places of the finite vertices: all of these, each of them once, and in order. -/
structure FinitePlaces (vertices : List Point2) (places : List ℕ) : Prop where
  increasing : places.Pairwise (· < ·)
  mem_iff : ∀ i, i ∈ places ↔ ∃ p, vertices[i]? = some p ∧ p.isFinite = true

/-- A list of vertices has only one such list of places. -/
theorem FinitePlaces.unique {vertices : List Point2} {places others : List ℕ}
    (h : FinitePlaces vertices places) (h' : FinitePlaces vertices others) : places = others :=
  h.increasing.eq_of_mem_iff h'.increasing fun i => (h.mem_iff i).trans (h'.mem_iff i).symm

/-- The trace has one point for each of the places, namely the vertex that stands there. -/
structure PlanarTrace.DrawsAt (t : PlanarTrace) (vertices : List Point2) (places : List ℕ) :
    Prop where
  parallel : t.y.length = t.x.length
  points : List.Forall₂ (fun i p => vertices[i]? = some p) places (List.zipWith Point2.mk t.x t.y)

namespace Markers

/-- The places of the points that are drawn. -/
def places (m : Markers) : List ℕ :=
  m.drawn.map Prod.snd

theorem finitePlaces (m : Markers) : FinitePlaces m.coords m.places where
  increasing := by
    have hall : (m.coords.zipIdx.map Prod.snd).Pairwise (· < ·) := by
      rw [List.zipIdx_map_snd]
      exact List.pairwise_lt_range'
    exact hall.sublist (List.filter_sublist.map Prod.snd)
  mem_iff := by
    intro i
    constructor
    · intro hi
      obtain ⟨⟨p, j⟩, hmem, rfl⟩ := List.mem_map.mp hi
      obtain ⟨hp, hfinite⟩ := List.mem_filter.mp hmem
      exact ⟨p, List.mem_zipIdx_iff_getElem?.mp hp, hfinite⟩
    · rintro ⟨p, hp, hfinite⟩
      exact List.mem_map.mpr
        ⟨(p, i), List.mem_filter.mpr ⟨List.mem_zipIdx_iff_getElem?.mpr hp, hfinite⟩, rfl⟩

/-- The finite points are those at their places. -/
theorem forall₂_places (m : Markers) :
    List.Forall₂ (fun i p => m.coords[i]? = some p) m.places
      (m.coords.filter Point2.isFinite) := by
  rw [← m.map_fst_drawn, places, List.forall₂_map_left_iff, List.forall₂_map_right_iff,
    List.forall₂_same]
  intro v hv
  exact List.mem_zipIdx_iff_getElem?.mp (List.mem_of_mem_filter hv)

theorem text_eq (m : Markers) :
    m.text = if m.labels = [] then [] else m.places.map fun i => (m.labels[i]?).getD "" := by
  rw [text, places, List.map_map]
  simp only [List.isEmpty_iff]
  rfl

/-- A label goes with its own vertex, and is empty where the labels have come to an end. -/
example : text ⟨[⟨0, 0⟩, ⟨1 / 0, 0⟩, ⟨1, 1⟩, ⟨2, 2⟩], ["a", "b", "c"]⟩ = ["a", "c", ""] := by
  decide

end Markers

/-! ## Planar kinds -/

/-- Coordinate lists of one list of points make up these points again. -/
theorem zipWith_coordinates (ps : List Point2) :
    List.zipWith Point2.mk (ps.map Point2.x) (ps.map Point2.y) = ps := by
  induction ps with
  | nil => rfl
  | cons p ps ih => rw [List.map_cons, List.map_cons, List.zipWith_cons_cons, ih]

/-- A path is closed by its first point. -/
theorem Polygon.zipWith_close (ps : List Point2) :
    List.zipWith Point2.mk (close (ps.map Point2.x)) (close (ps.map Point2.y)) =
      ps ++ ps.head?.toList := by
  cases ps with
  | nil => rfl
  | cons p ps =>
    have hopen := zipWith_coordinates (p :: ps)
    have hlength : ((p :: ps).map Point2.x).length = ((p :: ps).map Point2.y).length := by
      rw [List.length_map, List.length_map]
    exact (List.zipWith_append hlength).trans (congrArg (· ++ [p]) hopen)

/-- A trace through the finite vertices draws them. -/
theorem PlanarTrace.drawsAt_of_finite {t : PlanarTrace} (m : Markers) (hx : t.x = finiteXs m.coords)
    (hy : t.y = finiteYs m.coords) : t.DrawsAt m.coords m.places where
  parallel := by rw [hx, hy, length_finiteYs]
  points := by
    rw [hx, hy, finiteXs, finiteYs, zipWith_coordinates]
    exact m.forall₂_places

theorem forall₂_head? {α β : Type} {R : α → β → Prop} {as : List α} {bs : List β}
    (h : List.Forall₂ R as bs) : List.Forall₂ R as.head?.toList bs.head?.toList := by
  cases h with
  | nil => exact .nil
  | cons hfirst _ => exact .cons hfirst .nil

/-- A closed trace through the finite vertices draws them, and the first of them again. -/
theorem PlanarTrace.drawsAt_of_closed {t : PlanarTrace} (m : Markers)
    (hx : t.x = Polygon.close (finiteXs m.coords)) (hy : t.y = Polygon.close (finiteYs m.coords)) :
    t.DrawsAt m.coords (m.places ++ m.places.head?.toList) where
  parallel := by rw [hx, hy, Polygon.length_close_congr (length_finiteYs m.coords)]
  points := by
    rw [hx, hy, finiteXs, finiteYs, Polygon.zipWith_close]
    exact List.rel_append m.forall₂_places (forall₂_head? m.forall₂_places)

/-! ## Ends -/

/-- What is drawn of two ends: both, if both are given and usable, and nothing otherwise. -/
inductive BothOrNeither {α : Type} (usable : α → Bool) : Option α → Option α → List α → Prop
  | both {p q : α} (hp : usable p = true) (hq : usable q = true) :
      BothOrNeither usable (some p) (some q) [p, q]
  | neither {first last : Option α}
      (h : ¬ ∃ p q, first = some p ∧ last = some q ∧ usable p = true ∧ usable q = true) :
      BothOrNeither usable first last []

namespace BothOrNeither
variable {α : Type} {usable : α → Bool} {first last : Option α} {drawn : List α}

theorem of_eq (hboth : ∀ p q, first = some p → last = some q →
      drawn = if usable p && usable q then [p, q] else [])
    (hnone : first = none ∨ last = none → drawn = []) : BothOrNeither usable first last drawn := by
  cases first with
  | none =>
    obtain rfl := hnone (Or.inl rfl)
    refine neither ?_
    rintro ⟨p, q, h, -⟩
    cases h
  | some p =>
    cases last with
    | none =>
      obtain rfl := hnone (Or.inr rfl)
      refine neither ?_
      rintro ⟨p, q, -, h, -⟩
      cases h
    | some q =>
      obtain rfl := hboth p q rfl rfl
      split
      · next h => exact both (Bool.and_eq_true_iff.mp h).1 (Bool.and_eq_true_iff.mp h).2
      · next h =>
        refine neither ?_
        rintro ⟨p, q, ⟨⟩, ⟨⟩, hp, hq⟩
        exact h (Bool.and_eq_true_iff.mpr ⟨hp, hq⟩)

theorem filter_eq (h : BothOrNeither usable first last drawn) : drawn.filter usable = drawn := by
  cases h with
  | both hp hq => simp [hp, hq]
  | neither => rfl

end BothOrNeither

theorem Segment.bothOrNeither_ends (s : Segment) :
    BothOrNeither Point2.isFinite s.first s.last s.ends := by
  refine .of_eq ?_ ?_
  · intro p q hp hq
    simp only [ends, hp, hq]
  · rintro (h | h) <;> simp [ends, h]

theorem Arrow.bothOrNeither_ends (a : Arrow) :
    BothOrNeither Point3.isFinite a.tail a.head a.ends := by
  refine .of_eq ?_ ?_
  · intro p q hp hq
    simp only [ends, hp, hq]
  · rintro (h | h) <;> simp [ends, h]

/-! ## Grids -/

/-- The grid has so many rows, and so many columns in each of them. -/
def Grid.IsRectangle (g : Grid) (rows columns : ℕ) : Prop :=
  List.length g = rows ∧ ∀ row ∈ g, List.length row = columns

theorem Grid.hasShape_iff {g : Grid} {rows columns : ℕ} :
    Grid.hasShape g rows columns = true ↔ Grid.IsRectangle g rows columns := by
  simp [hasShape, IsRectangle]

/-- The shape of a rectangle.  Without rows there are no columns to count. -/
theorem Grid.shape?_of_isRectangle {g : Grid} {rows columns : ℕ}
    (h : Grid.IsRectangle g rows columns) :
    Grid.shape? g = some (rows, if rows = 0 then 0 else columns) := by
  obtain ⟨rfl, hcolumns⟩ := h
  cases g with
  | nil => rfl
  | cons row g =>
    have hfirst : Grid.columns (row :: g) = columns := hcolumns row List.mem_cons_self
    have hshape : Grid.hasShape (row :: g) (List.length (row :: g)) columns = true :=
      Grid.hasShape_iff.mpr ⟨rfl, hcolumns⟩
    have hrows : List.length (row :: g) ≠ 0 := Nat.succ_ne_zero _
    rw [shape?, hfirst, if_pos hshape, if_neg hrows]

/-- Grids are consistent when they are rectangles of one shape. -/
theorem Surface.isConsistent_iff {s : Surface} :
    s.isConsistent = true ↔
      ∃ rows columns, ∀ g ∈ [s.x, s.y, s.z], Grid.IsRectangle g rows columns := by
  constructor
  · intro h
    exact ⟨_, _, fun g hg => Grid.hasShape_iff.mp (Surface.shape?_of_isConsistent h g hg)⟩
  · rintro ⟨rows, columns, h⟩
    have hx := Grid.shape?_of_isRectangle (h s.x (by simp))
    have hy := Grid.shape?_of_isRectangle (h s.y (by simp))
    have hz := Grid.shape?_of_isRectangle (h s.z (by simp))
    simp [isConsistent, hx, hy, hz]

/-! ## Elements -/

/-- What the traces of a geometry hold of its coordinates.  Of the kinds that are not drawn from
their vertices or ends, nothing is said. -/
def Geometry.DrawnBy : Geometry → Option (List Trace) → Prop
  | .curve p, ts | .scatter p, ts => ∃ (t : PlanarTrace) (places : List ℕ),
      ts = some [.planar t] ∧ FinitePlaces p.points places ∧ t.DrawsAt p.points places
  | .points m, ts => ∃ (t : PlanarTrace) (places : List ℕ),
      ts = some [.planar t] ∧ FinitePlaces m.coords places ∧ t.DrawsAt m.coords places ∧
        t.text = if m.labels = [] then [] else places.map fun i => (m.labels[i]?).getD ""
  | .area a, ts => ∃ (baseline : List Trace) (t : PlanarTrace) (places : List ℕ),
      ts = some (baseline ++ [.planar t]) ∧ FinitePlaces a.points places ∧
        t.DrawsAt a.points places ∧
        ∀ u ∈ baseline, ∃ b : PlanarTrace, u = .planar b ∧ b.x = t.x ∧ b.y.length = t.x.length
  | .polygon p, ts => ∃ (t : PlanarTrace) (places : List ℕ),
      ts = some [.planar t] ∧ FinitePlaces p.vertices places ∧
        t.DrawsAt p.vertices (places ++ places.head?.toList)
  | .line s, ts | .segment s, ts => ∃ (t : PlanarTrace) (ends : List Point2),
      ts = some [.planar t] ∧ BothOrNeither Point2.isFinite s.first s.last ends ∧
        t.x = ends.map Point2.x ∧ t.y = ends.map Point2.y
  | .vector3d a, ts => ∃ (t : SpatialTrace) (ends : List Point3),
      ts = some [.spatial t] ∧ BothOrNeither Point3.isFinite a.tail a.head ends ∧
        t.x = ends.map Point3.x ∧ t.y = ends.map Point3.y ∧ t.z = ends.map Point3.z
  | .surface s, ts => ∃ t : SurfaceTrace, ts = some [.surface t] ∧
      ((∃ rows columns, ∀ g ∈ [s.x, s.y, s.z], Grid.IsRectangle g rows columns) →
        t.x = s.x ∧ t.y = s.y ∧ t.z = s.z) ∧
      ((¬ ∃ rows columns, ∀ g ∈ [s.x, s.y, s.z], Grid.IsRectangle g rows columns) →
        t.x = [] ∧ t.y = [] ∧ t.z = [])
  | .point _, _ | .circle _, _ | .unknown _ _, _ => True

section Kinds
variable (style : ElementStyle) (config : Config)

theorem Area.drawnBy_traces (a : Area) :
    (Geometry.area a).DrawnBy (some ((a.traces style config).map .planar)) := by
  let m : Markers := ⟨a.points, []⟩
  have hdraws : ∀ fill, (a.filled fill style config).DrawsAt a.points m.places :=
    fun fill => PlanarTrace.drawsAt_of_finite m rfl rfl
  unfold traces
  split
  · exact ⟨[], _, m.places, rfl, m.finitePlaces, hdraws .toZeroY, List.forall_mem_nil _⟩
  · refine ⟨[.planar a.baselineTrace], _, m.places, rfl, m.finitePlaces, hdraws .toNextY, ?_⟩
    exact List.forall_mem_singleton.mpr ⟨a.baselineTrace, rfl, rfl, List.length_replicate⟩

theorem Segment.drawnBy_trace (s : Segment) :
    (Geometry.segment s).DrawnBy (some [.planar (s.trace style config)]) := by
  have hfinite : s.ends.filter Point2.isFinite = s.ends := s.bothOrNeither_ends.filter_eq
  exact ⟨_, s.ends, rfl, s.bothOrNeither_ends, congrArg (List.map Point2.x) hfinite,
    congrArg (List.map Point2.y) hfinite⟩

theorem Arrow.drawnBy_trace (a : Arrow) :
    (Geometry.vector3d a).DrawnBy (some [.spatial (a.trace style config)]) :=
  ⟨_, a.ends, rfl, a.bothOrNeither_ends, rfl, rfl, rfl⟩

theorem Surface.drawnBy_trace (s : Surface) :
    (Geometry.surface s).DrawnBy (some [.surface (s.trace style config)]) := by
  refine ⟨_, rfl, ?_, ?_⟩
  · intro h
    have hconsistent := isConsistent_iff.mpr h
    exact ⟨if_pos hconsistent, if_pos hconsistent, if_pos hconsistent⟩
  · intro h
    have hconsistent := mt isConsistent_iff.mp h
    exact ⟨if_neg hconsistent, if_neg hconsistent, if_neg hconsistent⟩

end Kinds

/-- **An element is drawn with its usable coordinates, and with nothing else.** -/
theorem Element.draws_usable_coordinates (config : Config) (e : Element) :
    e.geometry.DrawnBy (e.traces? config) := by
  obtain ⟨geometry, style⟩ := e
  cases geometry with
  | curve p | scatter p =>
    let m : Markers := ⟨p.points, []⟩
    exact ⟨_, m.places, rfl, m.finitePlaces, PlanarTrace.drawsAt_of_finite m rfl rfl⟩
  | points m =>
    exact ⟨_, m.places, rfl, m.finitePlaces, PlanarTrace.drawsAt_of_finite m rfl rfl, m.text_eq⟩
  | area a => exact a.drawnBy_traces style config
  | polygon p =>
    let m : Markers := ⟨p.vertices, []⟩
    exact ⟨_, m.places, rfl, m.finitePlaces, PlanarTrace.drawsAt_of_closed m rfl rfl⟩
  | line s | segment s => exact s.drawnBy_trace style config
  | vector3d a => exact a.drawnBy_trace style config
  | surface s => exact s.drawnBy_trace style config
  | point | circle | unknown => trivial

end Plotting
