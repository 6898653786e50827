import Plotting.Error
import Plotting.Json.Printer
import Plotting.Json.Reader
import Plotting.Point.Json

/-!
# Graphs

A graph shows functions, each given by a formula, through a fixed window.  The
formulas are kept as texts: a text that is no formula is still a function of the
graph, one of which nothing is drawn.
-/

namespace Plotting

/-- A function of a graph. -/
structure GraphFunction where
  expression : String
  color : Option String := none
  label : Option String := none
deriving BEq, Repr

/-- Functions and the window through which they are seen. -/
structure Graph where
  title : Option String := none
  functions : List GraphFunction := []
  xRange : AxisRange
  yRange : AxisRange
deriving BEq, Repr

namespace GraphFunction

/-- The JSON form of a function of a graph. -/
def toJson (f : GraphFunction) : Json :=
  .obj ([("expression", .str f.expression)] ++ Json.optional "color" .str f.color ++
    Json.optional "label" .str f.label)

/-- The function of a graph that a document describes, if it describes any. -/
def decode? (d : Document) : Option GraphFunction := do
  let r ← d.record? ["expression", "color", "label"]
  return {
    expression := ← r.required "expression" Document.str?
    color := ← r.optional "color" Document.str?
    label := ← r.optional "label" Document.str? }

end GraphFunction

namespace Graph

/-- The JSON form of a graph. -/
def toJson (g : Graph) : Json :=
  .obj (Json.optional "title" .str g.title ++
    [("functions", Json.list GraphFunction.toJson g.functions), ("xRange", g.xRange.toJson),
      ("yRange", g.yRange.toJson)])

/-- The graph that a document describes, if it describes any. -/
def decode? (d : Document) : Option Graph := do
  let r ← d.record? ["title", "functions", "xRange", "yRange"]
  return {
    title := ← r.optional "title" Document.str?
    functions := ← r.withDefault "functions" [] (Document.list? GraphFunction.decode?)
    xRange := ← r.required "xRange" AxisRange.decode?
    yRange := ← r.required "yRange" AxisRange.decode? }

/-- The indented text of a graph. -/
def pretty (g : Graph) : String :=
  g.toJson.pretty

/-- The graph that a text describes. -/
def parse (text : String) (reader : NumberReader := .bestEffort) : Except PlotError Graph :=
  match (Document.parse? text reader).bind decode? with
  | some g => .ok g
  | none => .error (.data (.unreadable .graph))

end Graph
end Plotting
