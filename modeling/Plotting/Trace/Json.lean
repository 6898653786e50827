import Plotting.Json.Record
import Plotting.Trace.Basic
import Plotting.Element.Json

/-!
# Traces in JSON

A trace is a record that begins with the type of the trace.  Because the type
may stand anywhere in an object, a trace is taken in as a whole before it is
decoded: all of it has to be readable and within the nesting limit, also members
that no trace has.  Repeated members are told apart only afterwards.

A choice inside a trace may be spelled as the key of an object with null, like
every choice, or with an empty object.
-/

namespace Plotting

/-- The name of a choice inside a trace. -/
def Document.traceChoice? : Document → Option String
  | .obj [(s, .obj [])] => some s
  | d => d.choice?

namespace TraceMode

/-- The word for a mode. -/
def name : TraceMode → String
  | .lines => "lines"
  | .markers => "markers"
  | .markersText => "markers+text"
  | .linesMarkers => "lines+markers"

/-- The mode that a word stands for. -/
def named? : String → Option TraceMode
  | "lines" => some .lines
  | "markers" => some .markers
  | "markers+text" => some .markersText
  | "lines+markers" => some .linesMarkers
  | _ => none

@[simp] theorem named?_name (m : TraceMode) : named? m.name = some m := by
  cases m <;> rfl

/-- The JSON form of a mode, its name. -/
def toJson (m : TraceMode) : Json := .str m.name

/-- The mode that a document describes, if it describes any. -/
def decode? (d : Document) : Option TraceMode :=
  d.traceChoice?.bind named?

end TraceMode

namespace Fill

/-- The word for a fill. -/
def name : Fill → String
  | .none => "none"
  | .toZeroY => "tozeroy"
  | .toNextY => "tonexty"
  | .toSelf => "toself"

/-- The fill that a word stands for. -/
def named? : String → Option Fill
  | "none" => some .none
  | "tozeroy" => some .toZeroY
  | "tonexty" => some .toNextY
  | "toself" => some .toSelf
  | _ => Option.none

@[simp] theorem named?_name (f : Fill) : named? f.name = some f := by
  cases f <;> rfl

/-- The member that says how a trace is filled, if it is. -/
def members (f : Fill) : List (String × Json) :=
  if f = .none then [] else [("fill", .str f.name)]

/-- The fill that a document describes, if it describes any. -/
def decode? (d : Document) : Option Fill :=
  d.traceChoice?.bind named?

end Fill

namespace LineStyle

/-- The JSON form of a line style. -/
def toJson (l : LineStyle) : Json :=
  .obj ([("color", .str l.color), ("width", .ofFloat l.width)] ++
    Json.optional "dash" .str l.dash)

/-- The line style that a document describes, if it describes any. -/
def decode? (d : Document) : Option LineStyle := do
  let r ← d.record? ["color", "width", "dash"]
  return {
    color := ← r.required "color" Document.str?
    width := ← r.required "width" Document.float?
    dash := ← r.optional "dash" Document.str? }

end LineStyle

namespace MarkerStyle

/-- The JSON form of a marker style. -/
def toJson (m : MarkerStyle) : Json :=
  .obj [("color", .str m.color), ("size", .ofFloat m.size)]

/-- The marker style that a document describes, if it describes any. -/
def decode? (d : Document) : Option MarkerStyle := do
  let r ← d.record? ["color", "size"]
  return {
    color := ← r.required "color" Document.str?
    size := ← r.required "size" Document.float? }

end MarkerStyle

/-- A list of numbers. -/
def Document.floats? (d : Document) : Option (List Float) :=
  d.list? Document.float?

/-- A list of strings. -/
def Document.strings? (d : Document) : Option (List String) :=
  d.list? Document.str?

namespace PlanarTrace

/-- The type under which the trace is written. -/
def typeName : String := "scatter"

/-- The members of the trace after its type. -/
def members (t : PlanarTrace) : List (String × Json) :=
  [("name", .str t.name), ("mode", t.mode.toJson), ("x", Json.list .ofFloat t.x),
    ("y", Json.list .ofFloat t.y)] ++
  Json.nonempty "text" .str t.text ++ Json.optional "textposition" .str t.textPosition ++
  Json.optional "line" LineStyle.toJson t.line ++
  Json.optional "marker" MarkerStyle.toJson t.marker ++ t.fill.members ++
  Json.optional "fillcolor" .str t.fillColor ++ [("showlegend", .bool t.showLegend)]

/-- The planar trace that a document describes, if it describes any. -/
def decode? (d : Document) : Option PlanarTrace := do
  let r ← d.record? ["name", "mode", "x", "y", "text", "textposition", "line", "marker", "fill",
    "fillcolor", "showlegend"]
  return {
    name := ← r.required "name" Document.str?
    mode := ← r.required "mode" TraceMode.decode?
    x := ← r.required "x" Document.floats?
    y := ← r.required "y" Document.floats?
    text := ← r.withDefault "text" [] Document.strings?
    textPosition := ← r.optional "textposition" Document.str?
    line := ← r.optional "line" LineStyle.decode?
    marker := ← r.optional "marker" MarkerStyle.decode?
    fill := ← r.withDefault "fill" .none Fill.decode?
    fillColor := ← r.optional "fillcolor" Document.str?
    showLegend := ← r.withDefault "showlegend" true Document.bool? }

end PlanarTrace

namespace SpatialTrace

/-- The type under which the trace is written. -/
def typeName : String := "scatter3d"

/-- The members of the trace after its type. -/
def members (t : SpatialTrace) : List (String × Json) :=
  [("name", .str t.name), ("mode", t.mode.toJson), ("x", Json.list .ofFloat t.x),
    ("y", Json.list .ofFloat t.y), ("z", Json.list .ofFloat t.z)] ++
  Json.nonempty "text" .str t.text ++ Json.optional "line" LineStyle.toJson t.line ++
  Json.optional "marker" MarkerStyle.toJson t.marker

/-- The spatial trace that a document describes, if it describes any. -/
def decode? (d : Document) : Option SpatialTrace := do
  let r ← d.record? ["name", "mode", "x", "y", "z", "text", "line", "marker"]
  return {
    name := ← r.required "name" Document.str?
    mode := ← r.required "mode" TraceMode.decode?
    x := ← r.required "x" Document.floats?
    y := ← r.required "y" Document.floats?
    z := ← r.required "z" Document.floats?
    text := ← r.withDefault "text" [] Document.strings?
    line := ← r.optional "line" LineStyle.decode?
    marker := ← r.optional "marker" MarkerStyle.decode? }

end SpatialTrace

namespace SurfaceTrace

/-- The type under which the trace is written. -/
def typeName : String := "surface"

/-- The members of the trace after its type. -/
def members (t : SurfaceTrace) : List (String × Json) :=
  [("name", .str t.name), ("x", Grid.toJson t.x), ("y", Grid.toJson t.y),
    ("z", Grid.toJson t.z), ("colorscale", .str t.colorscale), ("opacity", .ofFloat t.opacity),
    ("showscale", .bool t.showScale)]

/-- The surface trace that a document describes, if it describes any. -/
def decode? (d : Document) : Option SurfaceTrace := do
  let r ← d.record? ["name", "x", "y", "z", "colorscale", "opacity", "showscale"]
  return {
    name := ← r.required "name" Document.str?
    x := ← r.required "x" Grid.decode?
    y := ← r.required "y" Grid.decode?
    z := ← r.required "z" Grid.decode?
    colorscale := ← r.required "colorscale" Document.str?
    opacity := ← r.required "opacity" Document.float?
    showScale := ← r.withDefault "showscale" false Document.bool? }

end SurfaceTrace

namespace Trace

/-- The JSON form, its type first. -/
def toJson : Trace → Json
  | .planar t => .obj (("type", .str PlanarTrace.typeName) :: t.members)
  | .spatial t => .obj (("type", .str SpatialTrace.typeName) :: t.members)
  | .surface t => .obj (("type", .str SurfaceTrace.typeName) :: t.members)

/-- The type of a trace and the record without it.  An object has the type under
its own key, once; an array has it in front. -/
def splitType? : Document → Option (Document × Document)
  | .obj members =>
    match members.filter fun m => m.1 = "type" with
    | [(_, type)] => some (type, .obj (members.filter fun m => m.1 ≠ "type"))
    | _ => none
  | .arr (type :: items) => some (type, .arr items)
  | _ => none

/-- The trace of a given type that a record describes. -/
def ofRecord? (type : String) (d : Document) : Option Trace :=
  if type = PlanarTrace.typeName then (PlanarTrace.decode? d).map .planar
  else if type = SpatialTrace.typeName then (SpatialTrace.decode? d).map .spatial
  else if type = SurfaceTrace.typeName then (SurfaceTrace.decode? d).map .surface
  else none

/-- The trace that a document describes, where `levels` containers may be
nested. -/
def decode? (levels : Nat) (d : Document) : Option Trace := do
  let _ ← d.toJson? levels
  let (type, record) ← splitType? d
  ofRecord? (← type.str?) record

end Trace
end Plotting
