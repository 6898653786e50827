import Plotting.Element.Geometry
import Plotting.Point.Json

/-!
# Geometries in JSON

A geometry is read from free-form JSON in the light of its kind, and reading it
never fails: what does not fit is the empty geometry.  Within a payload the
coordinates have to fit, while labels, colours, opacities and baselines count
only if they do; a bad one is as good as none and harms nothing else.

Payloads are written as free-form JSON, with their members in alphabetical
order.  A label is written even when empty, a list of labels only when not.
-/

namespace Plotting

open Document (str? float?)

/-- A string that may be missing or bad. -/
def Document.Record.lenientText (r : Document.Record) (field : String) : Option String :=
  r.lenient field none fun d => d.str?.map some

namespace Path

/-- The JSON form of a path. -/
def toJson (p : Path) : Json :=
  .obj (Json.optional "label" .str p.label ++ [("points", Json.list Point2.toJson p.points)])

/-- The path that a document describes, if it describes any. -/
def decode? (d : Document) : Option Path := do
  let r ← d.record? ["points", "label"]
  return {
    points := ← r.withDefault "points" [] (Document.list? Point2.decode?)
    label := r.lenientText "label" }

end Path

namespace Marker

/-- The JSON form of a marked point. -/
def toJson (m : Marker) : Json :=
  .obj (Json.optional "coords" Point2.toJson m.coords ++ Json.optional "label" .str m.label)

/-- The marked point that a document describes, if it describes any. -/
def decode? (d : Document) : Option Marker := do
  let r ← d.record? ["coords", "label"]
  return {
    coords := ← r.optional "coords" Point2.decode?
    label := r.lenientText "label" }

end Marker

namespace Markers

/-- The JSON form of marked points. -/
def toJson (m : Markers) : Json :=
  .obj ([("coords", Json.list Point2.toJson m.coords)] ++ Json.nonempty "labels" .str m.labels)

/-- The marked points that a document describes, if it describes any. -/
def decode? (d : Document) : Option Markers := do
  let r ← d.record? ["coords", "labels"]
  return {
    coords := ← r.withDefault "coords" [] (Document.list? Point2.decode?)
    labels := r.lenient "labels" [] (Document.list? str?) }

end Markers

namespace Segment

/-- The JSON form of a segment. -/
def toJson (s : Segment) : Json :=
  .obj (Json.optional "from" Point2.toJson s.first ++ Json.optional "label" .str s.label ++
    Json.optional "to" Point2.toJson s.last)

/-- The segment that a document describes, if it describes any. -/
def decode? (d : Document) : Option Segment := do
  let r ← d.record? ["from", "to", "label"]
  return {
    first := ← r.optional "from" Point2.decode?
    last := ← r.optional "to" Point2.decode?
    label := r.lenientText "label" }

end Segment

namespace Circle

/-- The JSON form of a circle. -/
def toJson (c : Circle) : Json :=
  .obj ([("center", c.center.toJson)] ++ Json.optional "label" .str c.label ++
    Json.optional "radius" .ofFloat c.radius)

/-- The circle that a document describes, if it describes any. -/
def decode? (d : Document) : Option Circle := do
  let r ← d.record? ["center", "radius", "label"]
  return {
    center := ← r.withDefault "center" ⟨0, 0⟩ Point2.decode?
    radius := ← r.optional "radius" float?
    label := r.lenientText "label" }

end Circle

namespace Area

/-- The JSON form of an area. -/
def toJson (a : Area) : Json :=
  .obj ([("baseline", .ofFloat a.baseline)] ++ Json.optional "label" .str a.label ++
    [("points", Json.list Point2.toJson a.points)])

/-- The area that a document describes, if it describes any. -/
def decode? (d : Document) : Option Area := do
  let r ← d.record? ["points", "baseline", "label"]
  return {
    points := ← r.withDefault "points" [] (Document.list? Point2.decode?)
    baseline := r.lenient "baseline" 0 float?
    label := r.lenientText "label" }

end Area

namespace Polygon

/-- The JSON form of a polygon. -/
def toJson (p : Polygon) : Json :=
  .obj (Json.optional "label" .str p.label ++
    [("vertices", Json.list Point2.toJson p.vertices)])

/-- The polygon that a document describes, if it describes any. -/
def decode? (d : Document) : Option Polygon := do
  let r ← d.record? ["vertices", "label"]
  return {
    vertices := ← r.withDefault "vertices" [] (Document.list? Point2.decode?)
    label := r.lenientText "label" }

end Polygon

namespace Grid

/-- The JSON form of a grid, row by row. -/
def toJson (g : Grid) : Json :=
  Json.list (Json.list .ofFloat) g

/-- The grid that a document describes, if it describes any. -/
def decode? (d : Document) : Option Grid :=
  d.list? (Document.list? float?)

end Grid

namespace Surface

/-- The JSON form of a surface. -/
def toJson (s : Surface) : Json :=
  .obj (Json.optional "colorscale" .str s.colorscale ++ Json.optional "label" .str s.label ++
    Json.optional "opacity" .ofFloat s.opacity ++
    [("x", Grid.toJson s.x), ("y", Grid.toJson s.y), ("z", Grid.toJson s.z)])

/-- The surface that a document describes, if it describes any. -/
def decode? (d : Document) : Option Surface := do
  let r ← d.record? ["x", "y", "z", "colorscale", "opacity", "label"]
  return {
    x := ← r.withDefault "x" [] Grid.decode?
    y := ← r.withDefault "y" [] Grid.decode?
    z := ← r.withDefault "z" [] Grid.decode?
    colorscale := r.lenientText "colorscale"
    opacity := r.lenient "opacity" none fun d => d.float?.map some
    label := r.lenientText "label" }

end Surface

namespace Arrow

/-- The JSON form of an arrow. -/
def toJson (a : Arrow) : Json :=
  .obj (Json.optional "end" Point3.toJson a.head ++ Json.optional "label" .str a.label ++
    Json.optional "start" Point3.toJson a.tail)

/-- The arrow that a document describes, if it describes any. -/
def decode? (d : Document) : Option Arrow := do
  let r ← d.record? ["start", "end", "label"]
  return {
    tail := ← r.optional "start" Point3.decode?
    head := ← r.optional "end" Point3.decode?
    label := r.lenientText "label" }

end Arrow

namespace Geometry

/-- The payload of a geometry. -/
def toJson : Geometry → Json
  | .curve p | .scatter p => p.toJson
  | .point m => m.toJson
  | .points m => m.toJson
  | .line s | .segment s => s.toJson
  | .circle c => c.toJson
  | .area a => a.toJson
  | .polygon p => p.toJson
  | .surface s => s.toJson
  | .vector3d a => a.toJson
  | .unknown _ data => data

/-- The geometry of a kind that a payload describes; a payload that does not fit
describes the empty one. -/
def ofJson (kind : ElementKind) (data : Json) : Geometry :=
  let d := Document.ofJson data
  match kind with
  | .curve => .curve ((Path.decode? d).getD {})
  | .scatter => .scatter ((Path.decode? d).getD {})
  | .point => .point ((Marker.decode? d).getD {})
  | .points => .points ((Markers.decode? d).getD {})
  | .line => .line ((Segment.decode? d).getD {})
  | .segment => .segment ((Segment.decode? d).getD {})
  | .circle => .circle ((Circle.decode? d).getD {})
  | .area => .area ((Area.decode? d).getD {})
  | .polygon => .polygon ((Polygon.decode? d).getD {})
  | .surface => .surface ((Surface.decode? d).getD {})
  | .vector3d => .vector3d ((Arrow.decode? d).getD {})
  | .unknown name => .unknown name data

end Geometry
end Plotting
