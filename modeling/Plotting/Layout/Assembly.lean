import Plotting.Config
import Plotting.Graph
import Plotting.Layout.Basic
import Plotting.Trace.Basic

/-!
# Assembling layouts

The layout of a list of traces follows from the traces alone: a note where there
are none, the block of a spatial scene where one of them lies in space, and the
planar axes, drawn to one scale, otherwise.  The layout of a graph is fixed by
its window, and the axes keep scales of their own.
-/

namespace Plotting
namespace Layout

/-- Hidden axes and a note that there is nothing to see. -/
def placeholder (title : Option String) (config : Config) : Layout where
  title := title
  showLegend := false
  xAxis := some .hidden
  yAxis := some .hidden
  annotations := [.centered config.placeholderText]

/-- The block of a spatial scene, seen from the configured point. -/
def ofSpace (title : Option String) (config : Config) : Layout where
  title := title
  showLegend := true
  spatial := some {
    xTitle := "X"
    yTitle := "Y"
    zTitle := "Z"
    aspectMode := .cube
    eye := config.cameraEye }

/-- Planar axes with one unit of length. -/
def ofPlane (title : Option String) : Layout where
  title := title
  showLegend := true
  xAxis := some (.cartesian "x")
  yAxis := some ((PlanarAxis.cartesian "y").anchoredTo "x" 1)

/-- The layout of a list of traces. -/
def ofTraces (traces : List Trace) (title : Option String) (config : Config) : Layout :=
  if traces.isEmpty then placeholder title config
  else if traces.any Trace.isSpatial then ofSpace title config
  else ofPlane title

/-- The layout of a graph of which something is drawn or not. -/
def ofGraph (graph : Graph) (hasTraces : Bool) (config : Config) : Layout where
  title := graph.title
  showLegend := hasTraces
  xAxis := some ((PlanarAxis.cartesian "x").withRange graph.xRange)
  yAxis := some ((PlanarAxis.cartesian "y").withRange graph.yRange)
  annotations := if hasTraces then [] else [.centered config.placeholderText]

end Layout
end Plotting
