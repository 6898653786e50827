import Plotting.Layout.Assembly
import Plotting.Element.Drawing

/-!
# Scenes

A scene is all that a renderer needs for one drawing: the traces, their layout,
and whether they lie in space.  The last follows from each of the other two, so
a scene that was put together by hand may contradict itself; `Scene.check` tells.
-/

namespace Plotting

/-- Traces with the layout around them. -/
structure Scene where
  traces : List Trace
  isSpatial : Bool
  layout : Layout
deriving BEq, Repr

namespace Scene

/-- Whether nothing is drawn. -/
def isEmpty (s : Scene) : Bool := s.traces.isEmpty

/-- The first fault of the scene, if any: that of a trace, a contradiction about
its dimension, or planar axes around a spatial scene. -/
def check (s : Scene) : Except DataError Unit := do
  s.traces.forM Trace.check
  let spatialTraces := s.traces.any Trace.isSpatial
  require (spatialTraces == s.isSpatial && s.layout.isSpatial == s.isSpatial)
    (.dimension s.isSpatial spatialTraces s.layout.isSpatial)
  require (!(s.isSpatial && (s.layout.xAxis.isSome || s.layout.yAxis.isSome))) .planarAxes

/-- The scene of a list of elements. -/
def ofElements (elements : List Element) (title : Option String) (config : Config) : Scene :=
  let traces := Element.traces config elements
  let layout := Layout.ofTraces traces title config
  { traces, isSpatial := layout.isSpatial, layout }

/-- The curve of a function through its samples, if there are any. -/
def curve? (config : Config) (f : GraphFunction) (samples : List Point2) : Option Trace :=
  if samples.isEmpty then none
  else some (.planar {
    name := f.label.getD f.expression
    mode := .lines
    x := samples.map Point2.x
    y := samples.map Point2.y
    line := some { color := f.color.getD config.defaultColor, width := config.lineWidth } })

/-- The scene of a graph whose functions are drawn as given. -/
def ofCurves (graph : Graph) (config : Config) (traces : List Trace) : Scene :=
  { traces, isSpatial := false, layout := Layout.ofGraph graph (!traces.isEmpty) config }

/-- The scene of a graph. -/
def ofGraph (graph : Graph) (config : Config) : Scene :=
  ofCurves graph config (graph.functions.filterMap fun f =>
    curve? config f (Expr.sampleText f.expression graph.xRange config.sampleCount))

end Scene
end Plotting
