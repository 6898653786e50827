import Plotting.Expr.Sampling

/-!
# Errors

One constructor for each cause, with the values that its message shows.  A
message begins with the kind of error: an invalid configuration, invalid data, a
formula that cannot be read, or a renderer that refused a scene.
-/

namespace Plotting

/-- A size of the configuration that has to be positive. -/
inductive SizeSetting where
  | lineWidth
  | pointMarker
  | scatterMarker
deriving DecidableEq, Repr

/-- The name of the setting in messages and in JSON. -/
def SizeSetting.name : SizeSetting → String
  | .lineWidth => "line_width"
  | .pointMarker => "point_marker_size"
  | .scatterMarker => "scatter_marker_size"

/-- Why a configuration is refused. -/
inductive ConfigError where
  | sampleCount (count : Nat)
  | circleSegments (count : Nat)
  | size (setting : SizeSetting) (value : Float)
  | cameraEye
deriving DecidableEq, Repr

/-- The wording of a configuration error. -/
def ConfigError.message : ConfigError → String
  | .sampleCount n => s!"sample_count must be >= {minSampleCount}, got {n}"
  | .circleSegments n => s!"circle_segments must be >= 2, got {n}"
  | .size setting value => s!"{setting.name} must be finite and > 0, got {messageText value}"
  | .cameraEye => "camera_eye components must be finite"

/-- What a JSON text was read for. -/
inductive Subject where
  | element
  | elements
  | graph
  | config
  | computation
  | scene
deriving DecidableEq, Repr

/-- The words by which a message names the subject. -/
def Subject.text : Subject → String
  | .element => "plot element"
  | .elements => "plot elements"
  | .graph => "graph config"
  | .config => "view config"
  | .computation => "computation result"
  | .scene => "scene json payload"

/-- The axis of a grid. -/
inductive GridAxis where
  | x
  | y
  | z
deriving DecidableEq, Repr

/-- The letter of the axis. -/
def GridAxis.name : GridAxis → String
  | .x => "x"
  | .y => "y"
  | .z => "z"

/-- Why data are refused. -/
inductive DataError where
  | unreadable (subject : Subject)
  | schemaVersion (version : Nat)
  | nothingRendered
  | planarLengths (name : String) (x y : Nat)
  | spatialLengths (name : String) (x y z : Nat)
  | labelCount (name : String) (labels points : Nat)
  | coordinates (name : String)
  | lineWidth
  | markerSize
  | gridShape (name : String) (axis : GridAxis) (rows columns : Nat)
  | opacity (name : String)
  | dimension (scene traces layout : Bool)
  | planarAxes
deriving DecidableEq, Repr

open Text (quoted)

/-- The wording of a data error. -/
def DataError.message : DataError → String
  | .unreadable subject => s!"failed to parse {subject.text}"
  | .schemaVersion version => s!"unsupported scene schema version: {version}"
  | .nothingRendered => "no scene has been rendered yet"
  | .planarLengths name x y => s!"scatter trace {quoted name} has {x} x values but {y} y values"
  | .spatialLengths name x y z =>
    s!"scatter3d trace {quoted name} coordinate arrays differ in length ({x}, {y}, {z})"
  | .labelCount name labels points =>
    s!"trace {quoted name} has {labels} labels for {points} points"
  | .coordinates name => s!"trace {quoted name} coordinates must be finite"
  | .lineWidth => "line width must be finite and > 0"
  | .markerSize => "marker size must be finite and > 0"
  | .gridShape name axis rows columns =>
    s!"surface {quoted name} grid {quoted axis.name} does not match the {rows}x{columns} z grid"
  | .opacity name => s!"surface {quoted name} opacity must be finite and in [0, 1]"
  | .dimension scene traces layout =>
    s!"scene dimensionality mismatch: is_3d={scene}, traces_3d={traces}, layout_3d={layout}"
  | .planarAxes => "3-D scene must not carry planar axes"

/-- Anything that can go wrong between an input and its drawing. -/
inductive PlotError where
  | config (e : ConfigError)
  | data (e : DataError)
  | expression (e : ExprError)
  /-- A renderer refused a scene, for the reason it gives. -/
  | render (reason : String)
deriving DecidableEq, Repr

/-- The wording of an error, kind first. -/
def PlotError.message : PlotError → String
  | .config e => "invalid config: " ++ e.message
  | .data e => "invalid data: " ++ e.message
  | .expression e => "expression error: " ++ e.message
  | .render reason => "render failed: " ++ reason

end Plotting
