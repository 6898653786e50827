import Plotting.Json.Record
import Plotting.Layout.Basic
import Plotting.Point.Json

/-!
# Layouts in JSON

Every part of a layout is a record of its own.  A missing margin is the usual
one; axes, block and notes are written only if there are any.
-/

namespace Plotting

/-- The words of a list of choices, with the choice that each stands for. -/
def Document.oneOf? {α : Type} (choices : List (String × α)) (d : Document) : Option α :=
  d.choice?.bind fun s => choices.lookup s

/-- A point of space as a record of its coordinates. -/
def Point3.toRecord (p : Point3) : Json :=
  .obj [("x", .ofFloat p.x), ("y", .ofFloat p.y), ("z", .ofFloat p.z)]

/-- The point of space that a record describes. -/
def Point3.decodeRecord? (d : Document) : Option Point3 := do
  let r ← d.record? ["x", "y", "z"]
  return {
    x := ← r.required "x" Document.float?
    y := ← r.required "y" Document.float?
    z := ← r.required "z" Document.float? }

namespace Legend

/-- The letter for an orientation. -/
def orientationName : Orientation → String
  | .horizontal => "h"
  | .vertical => "v"

/-- The JSON form of a legend. -/
def toJson (l : Legend) : Json :=
  .obj [("orientation", .str (orientationName l.orientation)), ("x", .ofFloat l.x),
    ("xanchor", .str l.xAnchor), ("y", .ofFloat l.y), ("yanchor", .str l.yAnchor)]

/-- The legend that a document describes, if it describes any. -/
def decode? (d : Document) : Option Legend := do
  let r ← d.record? ["orientation", "x", "xanchor", "y", "yanchor"]
  return {
    orientation := ← r.required "orientation"
      (Document.oneOf? [("h", .horizontal), ("v", .vertical)])
    x := ← r.required "x" Document.float?
    xAnchor := ← r.required "xanchor" Document.str?
    y := ← r.required "y" Document.float?
    yAnchor := ← r.required "yanchor" Document.str? }

end Legend

namespace Margin

/-- The JSON form of margins. -/
def toJson (m : Margin) : Json :=
  .obj [("l", .ofNat m.left.toNat), ("r", .ofNat m.right.toNat), ("t", .ofNat m.top.toNat),
    ("b", .ofNat m.bottom.toNat)]

/-- The margins that a document describes, if it describes any. -/
def decode? (d : Document) : Option Margin := do
  let r ← d.record? ["l", "r", "t", "b"]
  return {
    left := ← r.required "l" Document.word?
    right := ← r.required "r" Document.word?
    top := ← r.required "t" Document.word?
    bottom := ← r.required "b" Document.word? }

end Margin

namespace PlanarAxis

/-- The JSON form of a planar axis. -/
def toJson (a : PlanarAxis) : Json :=
  .obj (Json.optional "title" .str a.title ++
    [("visible", .bool a.visible), ("zeroline", .bool a.zeroLine),
      ("zerolinecolor", .str a.zeroLineColor), ("zerolinewidth", .ofFloat a.zeroLineWidth),
      ("showgrid", .bool a.showGrid), ("gridcolor", .str a.gridColor)] ++
    Json.optional "range" AxisRange.toJson a.range ++
    Json.optional "scaleanchor" .str a.scaleAnchor ++
    Json.optional "scaleratio" .ofFloat a.scaleRatio)

/-- The planar axis that a document describes, if it describes any. -/
def decode? (d : Document) : Option PlanarAxis := do
  let r ← d.record? ["title", "visible", "zeroline", "zerolinecolor", "zerolinewidth", "showgrid",
    "gridcolor", "range", "scaleanchor", "scaleratio"]
  return {
    title := ← r.optional "title" Document.str?
    visible := ← r.required "visible" Document.bool?
    zeroLine := ← r.required "zeroline" Document.bool?
    zeroLineColor := ← r.required "zerolinecolor" Document.str?
    zeroLineWidth := ← r.required "zerolinewidth" Document.float?
    showGrid := ← r.required "showgrid" Document.bool?
    gridColor := ← r.required "gridcolor" Document.str?
    range := ← r.optional "range" AxisRange.decode?
    scaleAnchor := ← r.optional "scaleanchor" Document.str?
    scaleRatio := ← r.optional "scaleratio" Document.float? }

end PlanarAxis

namespace SpatialBlock

/-- The word for an aspect mode. -/
def aspectName : AspectMode → String
  | .auto => "auto"
  | .cube => "cube"
  | .data => "data"

/-- An axis of space, of which only the title is said. -/
def axisJson (title : String) : Json :=
  .obj [("title", .str title)]

/-- The title of an axis of space. -/
def decodeAxis? (d : Document) : Option String := do
  let r ← d.record? ["title"]
  r.required "title" Document.str?

/-- The eye of a camera. -/
def decodeEye? (d : Document) : Option Point3 := do
  let r ← d.record? ["eye"]
  r.required "eye" Point3.decodeRecord?

/-- The JSON form of the block of a spatial scene. -/
def toJson (b : SpatialBlock) : Json :=
  .obj [("xaxis", axisJson b.xTitle), ("yaxis", axisJson b.yTitle), ("zaxis", axisJson b.zTitle),
    ("aspectmode", .str (aspectName b.aspectMode)), ("camera", .obj [("eye", b.eye.toRecord)])]

/-- The block of a spatial scene that a document describes, if it describes any. -/
def decode? (d : Document) : Option SpatialBlock := do
  let r ← d.record? ["xaxis", "yaxis", "zaxis", "aspectmode", "camera"]
  return {
    xTitle := ← r.required "xaxis" decodeAxis?
    yTitle := ← r.required "yaxis" decodeAxis?
    zTitle := ← r.required "zaxis" decodeAxis?
    aspectMode := ← r.required "aspectmode"
      (Document.oneOf? [("auto", .auto), ("cube", .cube), ("data", .data)])
    eye := ← r.required "camera" decodeEye? }

end SpatialBlock

namespace Annotation

/-- The JSON form of a note. -/
def toJson (a : Annotation) : Json :=
  .obj [("text", .str a.text), ("xref", .str a.xRef), ("yref", .str a.yRef), ("x", .ofFloat a.x),
    ("y", .ofFloat a.y), ("showarrow", .bool a.showArrow)]

/-- The note that a document describes, if it describes any. -/
def decode? (d : Document) : Option Annotation := do
  let r ← d.record? ["text", "xref", "yref", "x", "y", "showarrow"]
  return {
    text := ← r.required "text" Document.str?
    xRef := ← r.required "xref" Document.str?
    yRef := ← r.required "yref" Document.str?
    x := ← r.required "x" Document.float?
    y := ← r.required "y" Document.float?
    showArrow := ← r.required "showarrow" Document.bool? }

end Annotation

namespace Layout

/-- The JSON form of a layout. -/
def toJson (l : Layout) : Json :=
  .obj (Json.optional "title" .str l.title ++
    [("showlegend", .bool l.showLegend), ("legend", l.legend.toJson),
      ("margin", l.margin.toJson)] ++
    Json.optional "xaxis" PlanarAxis.toJson l.xAxis ++
    Json.optional "yaxis" PlanarAxis.toJson l.yAxis ++
    Json.optional "scene" SpatialBlock.toJson l.spatial ++
    Json.nonempty "annotations" Annotation.toJson l.annotations)

/-- The layout that a document describes, if it describes any. -/
def decode? (d : Document) : Option Layout := do
  let r ← d.record?
    ["title", "showlegend", "legend", "margin", "xaxis", "yaxis", "scene", "annotations"]
  return {
    title := ← r.optional "title" Document.str?
    showLegend := ← r.required "showlegend" Document.bool?
    legend := ← r.required "legend" Legend.decode?
    margin := ← r.withDefault "margin" {} Margin.decode?
    xAxis := ← r.optional "xaxis" PlanarAxis.decode?
    yAxis := ← r.optional "yaxis" PlanarAxis.decode?
    spatial := ← r.optional "scene" SpatialBlock.decode?
    annotations := ← r.withDefault "annotations" [] (Document.list? Annotation.decode?) }

end Layout
end Plotting
