import Plotting.Element.Geometry
import Plotting.Element.Style
import Plotting.Error

/-!
# Traces

A trace is what a renderer draws: a planar line, marker set or filled region, a
line or marker set in space, or a surface.  Coordinates are parallel lists.
Nothing forces them to be parallel or finite, since a trace may have been read
from anywhere; `Trace.check` says whether a trace can be drawn, and why not.

The holes of a surface are the exception: its coordinates need not be finite,
and a renderer leaves a hole where they are not.
-/

namespace Plotting

/-- How the points of a trace are drawn. -/
inductive TraceMode where
  | lines
  | markers
  | markersText
  | linesMarkers
deriving DecidableEq, Repr

/-- Whether the points are marked. -/
def TraceMode.hasMarkers : TraceMode → Bool
  | .lines => false
  | _ => true

/-- What the region of a planar trace is. -/
inductive Fill where
  | none
  /-- Between the trace and zero. -/
  | toZeroY
  /-- Between the trace and the trace before it. -/
  | toNextY
  /-- Inside the trace. -/
  | toSelf
deriving DecidableEq, Repr

/-- How a line is drawn. -/
structure LineStyle where
  color : String
  width : Float
  dash : Option String := none
deriving BEq, Repr

/-- How a marker is drawn. -/
structure MarkerStyle where
  color : String
  size : Float
deriving BEq, Repr

/-- A line, marker set or region in the plane. -/
structure PlanarTrace where
  name : String
  mode : TraceMode
  x : List Float := []
  y : List Float := []
  text : List String := []
  textPosition : Option String := none
  line : Option LineStyle := none
  marker : Option MarkerStyle := none
  fill : Fill := .none
  fillColor : Option String := none
  showLegend : Bool := true
deriving BEq, Repr

/-- A line or marker set in space. -/
structure SpatialTrace where
  name : String
  mode : TraceMode
  x : List Float := []
  y : List Float := []
  z : List Float := []
  text : List String := []
  line : Option LineStyle := none
  marker : Option MarkerStyle := none
deriving BEq, Repr

/-- A surface in space, by the coordinates of its grid points. -/
structure SurfaceTrace where
  name : String
  x : Grid
  y : Grid
  z : Grid
  colorscale : String
  opacity : Float
  showScale : Bool := false
deriving BEq, Repr

/-- Something that a renderer draws. -/
inductive Trace where
  | planar (t : PlanarTrace)
  | spatial (t : SpatialTrace)
  | surface (t : SurfaceTrace)
deriving BEq, Repr

/-! ## Whether a trace can be drawn -/

/-- Goes on if a condition holds, and fails for the given reason otherwise. -/
def require (condition : Bool) (reason : DataError) : Except DataError Unit :=
  if condition then .ok () else .error reason

@[simp] theorem require_eq_ok_iff {condition : Bool} {reason : DataError} {u : Unit} :
    require condition reason = .ok u ↔ condition = true := by
  unfold require
  split <;> simp [*]

/-- A line needs a positive width. -/
def LineStyle.check (l : LineStyle) : Except DataError Unit :=
  require (isPositive l.width) .lineWidth

/-- A marker needs a positive size. -/
def MarkerStyle.check (m : MarkerStyle) : Except DataError Unit :=
  require (isPositive m.size) .markerSize

/-- The checks that planar and spatial traces share, for the given coordinate
lists of one length: no label or one for each point, finite coordinates, and
styles that can be drawn. -/
def checkPoints (name : String) (coordinates : List (List Float)) (labels points : Nat)
    (line : Option LineStyle) (marker : Option MarkerStyle) : Except DataError Unit := do
  require (labels == 0 || labels == points) (.labelCount name labels points)
  require (coordinates.all fun values => values.all Float.isFinite) (.coordinates name)
  line.forM LineStyle.check
  marker.forM MarkerStyle.check

namespace PlanarTrace

/-- The number of points. -/
def length (t : PlanarTrace) : Nat := t.x.length

/-- The first fault of the trace, if any; its coordinate lists have to be of one length. -/
def check (t : PlanarTrace) : Except DataError Unit := do
  require (t.x.length == t.y.length) (.planarLengths t.name t.x.length t.y.length)
  checkPoints t.name [t.x, t.y] t.text.length t.x.length t.line t.marker

end PlanarTrace

namespace SpatialTrace

/-- The first fault of the trace, if any; its coordinate lists have to be of one length. -/
def check (t : SpatialTrace) : Except DataError Unit := do
  require (t.x.length == t.y.length && t.x.length == t.z.length)
    (.spatialLengths t.name t.x.length t.y.length t.z.length)
  checkPoints t.name [t.x, t.y, t.z] t.text.length t.x.length t.line t.marker

end SpatialTrace

/-- Whether a grid has as many rows, all as long, as asked for. -/
def Grid.hasShape (g : Grid) (rows columns : Nat) : Bool :=
  g.length == rows && g.all fun row => row.length == columns

/-- The number of columns of a grid, as its first row has them. -/
def Grid.columns (g : Grid) : Nat :=
  (g.head?.map List.length).getD 0

namespace SurfaceTrace

/-- The rows and columns of the heights, which the other grids have to match. -/
def shape (t : SurfaceTrace) : Nat × Nat :=
  (t.z.length, Grid.columns t.z)

/-- The first fault of the surface, if any: a grid of another shape than the heights, or an
opacity outside the unit interval. -/
def check (t : SurfaceTrace) : Except DataError Unit := do
  let (rows, columns) := t.shape
  require (Grid.hasShape t.x rows columns) (.gridShape t.name .x rows columns)
  require (Grid.hasShape t.y rows columns) (.gridShape t.name .y rows columns)
  require (Grid.hasShape t.z rows columns) (.gridShape t.name .z rows columns)
  require (t.opacity.isFinite && 0 ≤ t.opacity && t.opacity ≤ 1) (.opacity t.name)

end SurfaceTrace

namespace Trace

/-- The name of the trace. -/
def name : Trace → String
  | .planar t => t.name
  | .spatial t => t.name
  | .surface t => t.name

/-- Whether the trace lies in space. -/
def isSpatial : Trace → Bool
  | .planar _ => false
  | _ => true

/-- The first fault of the trace, if any. -/
def check : Trace → Except DataError Unit
  | .planar t => t.check
  | .spatial t => t.check
  | .surface t => t.check

end Trace
end Plotting
