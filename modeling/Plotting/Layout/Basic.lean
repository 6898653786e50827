import Plotting.Point.Basic

/-!
# Layouts

What surrounds the traces: title, legend, margins, axes, camera and notes.  A
layout carries either the planar axes or the block of a spatial scene.  A note in
the middle of the drawing is how a layout says that there is nothing to see.
-/

namespace Plotting

/-- The direction in which a legend runs. -/
inductive Orientation where
  | horizontal
  | vertical
deriving DecidableEq, Repr

/-- The place of a legend, in units of the drawing area. -/
structure Legend where
  orientation : Orientation
  x : Float
  xAnchor : String
  y : Float
  yAnchor : String
deriving BEq, Repr

/-- A strip just above the drawing area. -/
def Legend.horizontalTop : Legend where
  orientation := .horizontal
  x := 0
  xAnchor := "left"
  y := 1.02
  yAnchor := "bottom"

/-- The widths of the margins in pixels. -/
structure Margin where
  left : UInt32 := 48
  right : UInt32 := 24
  top : UInt32 := 48
  bottom : UInt32 := 40
deriving DecidableEq, Repr

/-- An axis of the plane. -/
structure PlanarAxis where
  title : Option String
  visible : Bool
  zeroLine : Bool
  zeroLineColor : String
  zeroLineWidth : Float
  showGrid : Bool
  gridColor : String
  range : Option AxisRange := none
  scaleAnchor : Option String := none
  scaleRatio : Option Float := none
deriving BEq, Repr

namespace PlanarAxis

/-- A visible axis with a grid and a strong zero line. -/
def cartesian (title : String) : PlanarAxis where
  title := some title
  visible := true
  zeroLine := true
  zeroLineColor := "#64748b"
  zeroLineWidth := 1.5
  showGrid := true
  gridColor := "#e5e7eb"

/-- An axis of which nothing is seen. -/
def hidden : PlanarAxis :=
  { cartesian "" with title := none, visible := false, zeroLine := false, showGrid := false }

/-- The axis showing a fixed range. -/
def withRange (a : PlanarAxis) (range : AxisRange) : PlanarAxis :=
  { a with range := some range }

/-- The axis with its unit as long as `ratio` units of another axis. -/
def anchoredTo (a : PlanarAxis) (anchor : String) (ratio : Float) : PlanarAxis :=
  { a with scaleAnchor := some anchor, scaleRatio := some ratio }

end PlanarAxis

/-- How the sides of a spatial scene are proportioned. -/
inductive AspectMode where
  | auto
  | cube
  | data
deriving DecidableEq, Repr

/-- The block of a spatial scene: the titles of its axes, its proportions, and
the point from which it is seen. -/
structure SpatialBlock where
  xTitle : String
  yTitle : String
  zTitle : String
  aspectMode : AspectMode
  eye : Point3
deriving BEq, Repr

/-- A note at a place of the drawing. -/
structure Annotation where
  text : String
  xRef : String
  yRef : String
  x : Float
  y : Float
  showArrow : Bool
deriving BEq, Repr

/-- A note in the middle of the drawing area. -/
def Annotation.centered (text : String) : Annotation where
  text := text
  xRef := "paper"
  yRef := "paper"
  x := 0.5
  y := 0.5
  showArrow := false

/-- What surrounds the traces of a scene. -/
structure Layout where
  title : Option String
  showLegend : Bool
  legend : Legend := .horizontalTop
  margin : Margin := {}
  xAxis : Option PlanarAxis := none
  yAxis : Option PlanarAxis := none
  spatial : Option SpatialBlock := none
  annotations : List Annotation := []
deriving BEq, Repr

namespace Layout

/-- Whether the layout is that of a spatial scene. -/
def isSpatial (l : Layout) : Bool := l.spatial.isSome

/-- Whether the layout says that there is nothing to see. -/
def isPlaceholder (l : Layout) : Bool := !l.annotations.isEmpty

end Layout
end Plotting
