import Plotting.Config
import Plotting.Element.Basic
import Plotting.Trace.Basic

/-!
# Drawing plot elements

Each known kind of element is drawn by one trace, with one exception: an area
over a baseline other than zero needs the baseline too, as a trace of its own.
A filled trace is filled down to the trace before it, so the baseline comes
first, invisible and not in the legend.

Points that are not finite are left out, each with its label; a stroke or an
arrow with an end that is not finite is left out as a whole, and so is a surface
whose grids do not match.  What is left out leaves the trace in place, empty.
-/

namespace Plotting

/-- The place of a label beside its point. -/
def labelPosition : String := "top center"

/-- Points as parallel lists of coordinates. -/
def finiteXs (points : List Point2) : List Float :=
  (points.filter Point2.isFinite).map Point2.x

@[inherit_doc finiteXs]
def finiteYs (points : List Point2) : List Float :=
  (points.filter Point2.isFinite).map Point2.y

theorem length_finiteYs (points : List Point2) :
    (finiteYs points).length = (finiteXs points).length := by
  simp [finiteXs, finiteYs]

/-! ## What a style resolves to -/

namespace ElementStyle

/-- The colour of strokes and markers. -/
def colorIn (s : ElementStyle) (config : Config) : String :=
  s.strokeColor.getD config.defaultColor

/-- The line of a stroke. -/
def lineIn (s : ElementStyle) (config : Config) : LineStyle where
  color := s.colorIn config
  width := s.strokeWidth.getD config.lineWidth
  dash := s.strokeDash

/-- A marker of the hinted size, or of the given one. -/
def markerIn (s : ElementStyle) (config : Config) (size : Float) : MarkerStyle where
  color := s.colorIn config
  size := s.markerSize.getD size

end ElementStyle

/-! ## Planar kinds -/

/-- A line through the given points. -/
def strokeThrough (points : List Point2) (label : Option String) (style : ElementStyle)
    (config : Config) : PlanarTrace where
  name := label.getD ""
  mode := .lines
  x := finiteXs points
  y := finiteYs points
  line := some (style.lineIn config)

/-- The path as a line. -/
def Path.curve (p : Path) (style : ElementStyle) (config : Config) : PlanarTrace :=
  strokeThrough p.points p.label style config

/-- The path as a set of markers. -/
def Path.scatter (p : Path) (style : ElementStyle) (config : Config) : PlanarTrace where
  name := p.label.getD ""
  mode := .markers
  x := finiteXs p.points
  y := finiteYs p.points
  marker := some (style.markerIn config config.scatterMarkerSize)

/-- A marked point with its label beside it; without a point, no label either. -/
def Marker.trace (m : Marker) (style : ElementStyle) (config : Config) : PlanarTrace :=
  let label := m.label.getD ""
  let empty : PlanarTrace := {
    name := label
    mode := .markersText
    marker := some (style.markerIn config config.pointMarkerSize) }
  match m.coords.filter Point2.isFinite with
  | some p =>
    { empty with x := [p.x], y := [p.y], text := [label], textPosition := some labelPosition }
  | none => empty

namespace Markers

/-- The points that are drawn, each with its place in the list. -/
def drawn (m : Markers) : List (Point2 × Nat) :=
  m.coords.zipIdx.filter fun (p, _) => p.isFinite

/-- The label of the point at a place; beyond the labels it is empty. -/
def labelAt (m : Markers) (i : Nat) : String :=
  m.labels[i]?.getD ""

/-- The labels of the drawn points, if there are labels at all. -/
def text (m : Markers) : List String :=
  if m.labels.isEmpty then [] else m.drawn.map fun (_, i) => m.labelAt i

/-- The marked points, with their labels beside them. -/
def trace (m : Markers) (style : ElementStyle) (config : Config) : PlanarTrace where
  name := style.title.getD ""
  mode := .markersText
  x := finiteXs m.coords
  y := finiteYs m.coords
  text := m.text
  textPosition := if m.labels.isEmpty then none else some labelPosition
  marker := some (style.markerIn config config.pointMarkerSize)

end Markers

/-- Both ends of a segment, or neither. -/
def Segment.ends (s : Segment) : List Point2 :=
  match s.first, s.last with
  | some p, some q => if p.isFinite && q.isFinite then [p, q] else []
  | _, _ => []

/-- The segment as a line between its ends. -/
def Segment.trace (s : Segment) (style : ElementStyle) (config : Config) : PlanarTrace :=
  strokeThrough s.ends s.label style config

namespace Circle

/-- The full turn. -/
def turn : Float := 6.283185307179586

/-- The corner at step `i` when `last` steps make a full turn. -/
def corner (center : Point2) (radius : Float) (last i : Nat) : Point2 :=
  let angle := turn * Float.ofNat i / Float.ofNat last
  ⟨center.x + radius * angle.cos, center.y + radius * angle.sin⟩

/-- The corners of a polygon drawn for a circle, the first of them again at the
end; a circle that is no circle has none. -/
def corners (center : Point2) (radius : Float) (segments : Nat) : List Point2 :=
  if center.isFinite && radius.isFinite && !(radius < 0) then
    let segments := max segments 2
    (List.range segments).map (corner center radius (segments - 1))
  else
    []

/-- The circle as a line through its corners; without a radius there are none. -/
def trace (c : Circle) (style : ElementStyle) (config : Config) : PlanarTrace :=
  let points := match c.radius with
    | some radius => corners c.center radius config.circleSegments
    | none => []
  strokeThrough points c.label style config

end Circle

namespace Area

/-- The baseline, which is zero unless it is finite. -/
def base (a : Area) : Float :=
  if a.baseline.isFinite then a.baseline else 0

/-- The name under which the baseline of an area is drawn. -/
def baselineName (label : String) : String :=
  if label = "" then "baseline" else label ++ " baseline"

/-- The baseline below the points of a path. -/
def baselineTrace (a : Area) : PlanarTrace where
  name := baselineName (a.label.getD "")
  mode := .lines
  x := finiteXs a.points
  y := List.replicate (finiteXs a.points).length a.base
  line := some { color := "rgba(0, 0, 0, 0)", width := 1 }
  showLegend := false

/-- The path of an area with its region filled. -/
def filled (a : Area) (fill : Fill) (style : ElementStyle) (config : Config) : PlanarTrace :=
  { strokeThrough a.points a.label style config with
    fill := fill
    fillColor := some (style.fillcolor.getD config.areaFillColor) }

/-- The path filled down to zero, or the baseline and the path filled down to
it. -/
def traces (a : Area) (style : ElementStyle) (config : Config) : List PlanarTrace :=
  if a.base == 0 || (finiteXs a.points).isEmpty then [a.filled .toZeroY style config]
  else [a.baselineTrace, a.filled .toNextY style config]

end Area

namespace Polygon

/-- A path that returns to where it started. -/
def close : List Float → List Float
  | [] => []
  | v :: vs => v :: vs ++ [v]

/-- The polygon as a closed line with its inside filled. -/
def trace (p : Polygon) (style : ElementStyle) (config : Config) : PlanarTrace :=
  { strokeThrough p.vertices p.label style config with
    x := close (finiteXs p.vertices)
    y := close (finiteYs p.vertices)
    fill := .toSelf
    fillColor := some (style.fillcolor.getD config.polygonFillColor) }

end Polygon

/-! ## Spatial kinds -/

/-- The rows and columns of a grid whose rows are all as long as the first. -/
def Grid.shape? (g : Grid) : Option (Nat × Nat) :=
  if Grid.hasShape g g.length (Grid.columns g) then some (g.length, Grid.columns g) else none

namespace Surface

/-- Whether the three grids are rectangles of one shape. -/
def isConsistent (s : Surface) : Bool :=
  let shape := Grid.shape? s.z
  shape.isSome && Grid.shape? s.x == shape && Grid.shape? s.y == shape

/-- The opacity of the surface itself, else that of its style, else full. -/
def opacityIn (s : Surface) (style : ElementStyle) : Float :=
  (((s.opacity.filter Float.isFinite).map clampUnit).or style.unitOpacity).getD 1

/-- The surface as it is drawn; grids that do not match are left out. -/
def trace (s : Surface) (style : ElementStyle) (config : Config) : SurfaceTrace where
  name := (s.label.or style.title).getD ""
  x := if s.isConsistent then s.x else []
  y := if s.isConsistent then s.y else []
  z := if s.isConsistent then s.z else []
  colorscale := s.colorscale.getD config.surfaceColorscale
  opacity := s.opacityIn style

end Surface

/-- Both ends of an arrow, or neither. -/
def Arrow.ends (a : Arrow) : List Point3 :=
  match a.tail, a.head with
  | some p, some q => if p.isFinite && q.isFinite then [p, q] else []
  | _, _ => []

/-- The arrow as a line whose ends are marked. -/
def Arrow.trace (a : Arrow) (style : ElementStyle) (config : Config) : SpatialTrace where
  name := a.label.getD ""
  mode := .linesMarkers
  x := a.ends.map Point3.x
  y := a.ends.map Point3.y
  z := a.ends.map Point3.z
  line := some (style.lineIn config)
  marker := some (style.markerIn config config.scatterMarkerSize)

/-! ## Elements -/

namespace Element

/-- The traces that draw an element; of an unknown kind there are none to be
had. -/
def traces? (config : Config) (e : Element) : Option (List Trace) :=
  match e.geometry with
  | .curve p => some [.planar (p.curve e.style config)]
  | .scatter p => some [.planar (p.scatter e.style config)]
  | .point m => some [.planar (m.trace e.style config)]
  | .points m => some [.planar (m.trace e.style config)]
  | .line s | .segment s => some [.planar (s.trace e.style config)]
  | .circle c => some [.planar (c.trace e.style config)]
  | .area a => some ((a.traces e.style config).map .planar)
  | .polygon p => some [.planar (p.trace e.style config)]
  | .surface s => some [.surface (s.trace e.style config)]
  | .vector3d a => some [.spatial (a.trace e.style config)]
  | .unknown _ _ => none

/-- The traces that draw a list of elements, in order; elements of unknown kind
are passed over. -/
def traces (config : Config) (elements : List Element) : List Trace :=
  elements.flatMap fun e => (e.traces? config).getD []

theorem isSome_traces? (config : Config) (e : Element) :
    (e.traces? config).isSome = e.kind.isKnown := by
  rcases e with ⟨_ | _ | _ | _ | _ | _ | _ | _ | _ | _ | _ | _, style⟩ <;> rfl

@[simp] theorem traces_append (config : Config) (es fs : List Element) :
    traces config (es ++ fs) = traces config es ++ traces config fs := by
  simp [traces]

end Element
end Plotting
