import Plotting.Element.Style
import Plotting.Error
import Plotting.Expr.Sampling
import Plotting.Json.Printer
import Plotting.Json.Reader
import Plotting.Layout.Json

/-!
# Configuration

What a drawing falls back on where an element is silent, and how large the
caches of a view may grow.  Every setting has a default, so the empty record is
a configuration, and settings may be left out of a stored one.
-/

namespace Plotting

/-- The settings of a view. -/
structure Config where
  sampleCount : Nat := defaultSampleCount
  circleSegments : Nat := 100
  defaultColor : String := "#3b82f6"
  lineWidth : Float := 2
  pointMarkerSize : Float := 10
  scatterMarkerSize : Float := 6
  polygonFillColor : String := "rgba(59, 130, 246, 0.2)"
  areaFillColor : String := "rgba(59, 130, 246, 0.3)"
  surfaceColorscale : String := "Viridis"
  cameraEye : Point3 := ⟨1.5, 1.5, 1.5⟩
  placeholderText : String := "No data to display"
  sceneCacheCapacity : Nat := 64
  sampleCacheCapacity : Nat := 256
deriving BEq, Repr

namespace Config

/-! ## Whether a configuration can be used -/

/-- A size has to be positive. -/
def checkSize (setting : SizeSetting) (value : Float) : Except ConfigError Unit :=
  if isPositive value then .ok () else .error (.size setting value)

/-- The first fault of the configuration, if any. -/
def check (c : Config) : Except ConfigError Unit := do
  if c.sampleCount < minSampleCount then
    throw (.sampleCount c.sampleCount)
  if c.circleSegments < 2 then
    throw (.circleSegments c.circleSegments)
  checkSize .lineWidth c.lineWidth
  checkSize .pointMarker c.pointMarkerSize
  checkSize .scatterMarker c.scatterMarkerSize
  if !c.cameraEye.isFinite then
    throw .cameraEye

/-! ## JSON -/

/-- The JSON form of a configuration. -/
def toJson (c : Config) : Json :=
  .obj [("sample_count", .ofNat c.sampleCount), ("circle_segments", .ofNat c.circleSegments),
    ("default_color", .str c.defaultColor), (SizeSetting.lineWidth.name, .ofFloat c.lineWidth),
    (SizeSetting.pointMarker.name, .ofFloat c.pointMarkerSize),
    (SizeSetting.scatterMarker.name, .ofFloat c.scatterMarkerSize),
    ("polygon_fill_color", .str c.polygonFillColor), ("area_fill_color", .str c.areaFillColor),
    ("surface_colorscale", .str c.surfaceColorscale), ("camera_eye", c.cameraEye.toRecord),
    ("placeholder_text", .str c.placeholderText),
    ("scene_cache_capacity", .ofNat c.sceneCacheCapacity),
    ("sample_cache_capacity", .ofNat c.sampleCacheCapacity)]

/-- The fields of a stored configuration, in order. -/
def fields : List String :=
  ["sample_count", "circle_segments", "default_color", "line_width", "point_marker_size",
    "scatter_marker_size", "polygon_fill_color", "area_fill_color", "surface_colorscale",
    "camera_eye", "placeholder_text", "scene_cache_capacity", "sample_cache_capacity"]

/-- The configuration that a document describes, if it describes any. -/
def decode? (d : Document) : Option Config := do
  let r ← d.record? fields
  let default : Config := {}
  return {
    sampleCount := ← r.withDefault "sample_count" default.sampleCount Document.nat?
    circleSegments := ← r.withDefault "circle_segments" default.circleSegments Document.nat?
    defaultColor := ← r.withDefault "default_color" default.defaultColor Document.str?
    lineWidth := ← r.withDefault "line_width" default.lineWidth Document.float?
    pointMarkerSize :=
      ← r.withDefault "point_marker_size" default.pointMarkerSize Document.float?
    scatterMarkerSize :=
      ← r.withDefault "scatter_marker_size" default.scatterMarkerSize Document.float?
    polygonFillColor :=
      ← r.withDefault "polygon_fill_color" default.polygonFillColor Document.str?
    areaFillColor := ← r.withDefault "area_fill_color" default.areaFillColor Document.str?
    surfaceColorscale :=
      ← r.withDefault "surface_colorscale" default.surfaceColorscale Document.str?
    cameraEye := ← r.withDefault "camera_eye" default.cameraEye Point3.decodeRecord?
    placeholderText := ← r.withDefault "placeholder_text" default.placeholderText Document.str?
    sceneCacheCapacity :=
      ← r.withDefault "scene_cache_capacity" default.sceneCacheCapacity Document.nat?
    sampleCacheCapacity :=
      ← r.withDefault "sample_cache_capacity" default.sampleCacheCapacity Document.nat? }

/-- The indented text of a configuration. -/
def pretty (c : Config) : String :=
  c.toJson.pretty

/-- The configuration that a text describes. -/
def parse (text : String) (reader : NumberReader := .bestEffort) : Except PlotError Config :=
  match (Document.parse? text reader).bind decode? with
  | some c => .ok c
  | none => .error (.data (.unreadable .config))

end Config
end Plotting
