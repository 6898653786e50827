import Plotting.Element.Kind
import Plotting.Point.Basic

/-!
# Geometries

One structure for each shape of payload, and one constructor of `Geometry` for
each kind of element.  The fields that may be missing are optional, so every
structure has an empty value, which draws nothing.
-/

namespace Plotting

/-- A path through points of the plane. -/
structure Path where
  points : List Point2 := []
  label : Option String := none
deriving BEq, Repr

/-- A single marked point. -/
structure Marker where
  coords : Option Point2 := none
  label : Option String := none
deriving BEq, Repr

/-- Several marked points with labels beside them, as far as there are any. -/
structure Markers where
  coords : List Point2 := []
  labels : List String := []
deriving BEq, Repr

/-- A straight stroke between two points. -/
structure Segment where
  first : Option Point2 := none
  last : Option Point2 := none
  label : Option String := none
deriving BEq, Repr

/-- A circle; its centre is the origin unless given. -/
structure Circle where
  center : Point2 := ⟨0, 0⟩
  radius : Option Float := none
  label : Option String := none
deriving BEq, Repr

/-- The region between a path and a horizontal baseline. -/
structure Area where
  points : List Point2 := []
  baseline : Float := 0
  label : Option String := none
deriving BEq, Repr

/-- A closed region given by its corners. -/
structure Polygon where
  vertices : List Point2 := []
  label : Option String := none
deriving BEq, Repr

/-- A rectangle of numbers, row by row; nothing forces the rows to agree. -/
abbrev Grid := List (List Float)

/-- A surface in space, given by the coordinates of its grid points. -/
structure Surface where
  x : Grid := []
  y : Grid := []
  z : Grid := []
  colorscale : Option String := none
  opacity : Option Float := none
  label : Option String := none
deriving BEq, Repr

/-- An arrow in space. -/
structure Arrow where
  tail : Option Point3 := none
  head : Option Point3 := none
  label : Option String := none
deriving BEq, Repr

/-- What a plot element shows. -/
inductive Geometry where
  | curve (path : Path)
  | scatter (path : Path)
  | point (marker : Marker)
  | points (markers : Markers)
  | line (segment : Segment)
  | segment (segment : Segment)
  | circle (circle : Circle)
  | area (area : Area)
  | polygon (polygon : Polygon)
  | surface (surface : Surface)
  | vector3d (arrow : Arrow)
  | unknown (kind : String) (data : Json)
deriving BEq, Repr

/-- The kind of element that shows a geometry. -/
def Geometry.kind : Geometry → ElementKind
  | .curve _ => .curve
  | .scatter _ => .scatter
  | .point _ => .point
  | .points _ => .points
  | .line _ => .line
  | .segment _ => .segment
  | .circle _ => .circle
  | .area _ => .area
  | .polygon _ => .polygon
  | .surface _ => .surface
  | .vector3d _ => .vector3d
  | .unknown kind _ => .unknown kind

end Plotting
