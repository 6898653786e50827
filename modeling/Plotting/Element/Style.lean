import Plotting.Json.Record

/-!
# Styles of plot elements

Hints on how an element should look.  All of them may be missing, and a stroke
hint may stand beside the others or in a block of its own; the one outside the
block wins.  The resolvers answer with the hint to be used.  A width or size
must be positive and an opacity finite to be of use, and the check comes after
the choice between the two places.
-/

namespace Plotting

/-- Whether a width or size can be drawn: a finite number above zero. -/
def isPositive (x : Float) : Bool :=
  x.isFinite && 0 < x

/-- The number nearest to `x` between zero and one. -/
def clampUnit (x : Float) : Float :=
  if x < 0 then 0 else if 1 < x then 1 else x

/-- Stroke hints in a block of their own. -/
structure StrokeHint where
  color : Option String := none
  width : Option Float := none
  dash : Option String := none
deriving BEq, Repr

/-- Style hints of an element. -/
structure ElementStyle where
  color : Option String := none
  width : Option Float := none
  dash : Option String := none
  size : Option Float := none
  fillcolor : Option String := none
  opacity : Option Float := none
  title : Option String := none
  line : Option StrokeHint := none
deriving BEq, Repr

namespace ElementStyle

/-! ## Resolvers -/

/-- The stroke colour. -/
def strokeColor (s : ElementStyle) : Option String :=
  s.color.or (s.line.bind StrokeHint.color)

/-- The stroke width, if the hint that wins is usable. -/
def strokeWidth (s : ElementStyle) : Option Float :=
  (s.width.or (s.line.bind StrokeHint.width)).filter isPositive

/-- The dash pattern of the stroke. -/
def strokeDash (s : ElementStyle) : Option String :=
  s.dash.or (s.line.bind StrokeHint.dash)

/-- The marker size, if usable. -/
def markerSize (s : ElementStyle) : Option Float :=
  s.size.filter isPositive

/-- The opacity brought between zero and one, if finite. -/
def unitOpacity (s : ElementStyle) : Option Float :=
  (s.opacity.filter Float.isFinite).map clampUnit

end ElementStyle

/-! ## JSON

Styles are written as free-form JSON, with their members in alphabetical order.
-/

namespace StrokeHint

/-- The JSON form of stroke hints. -/
def toJson (s : StrokeHint) : Json :=
  .obj (Json.optional "color" .str s.color ++ Json.optional "dash" .str s.dash ++
    Json.optional "width" .ofFloat s.width)

/-- The stroke hints that a document describes, if it describes any. -/
def decode? (d : Document) : Option StrokeHint := do
  let r ← d.record? ["color", "width", "dash"]
  return {
    color := ← r.optional "color" Document.str?
    width := ← r.optional "width" Document.float?
    dash := ← r.optional "dash" Document.str? }

end StrokeHint

namespace ElementStyle

/-- The JSON form of style hints. -/
def toJson (s : ElementStyle) : Json :=
  .obj (Json.optional "color" .str s.color ++ Json.optional "dash" .str s.dash ++
    Json.optional "fillcolor" .str s.fillcolor ++ Json.optional "line" StrokeHint.toJson s.line ++
    Json.optional "opacity" .ofFloat s.opacity ++ Json.optional "size" .ofFloat s.size ++
    Json.optional "title" .str s.title ++ Json.optional "width" .ofFloat s.width)

/-- The style hints that a document describes, if it describes any. -/
def decode? (d : Document) : Option ElementStyle := do
  let r ← d.record?
    ["color", "width", "dash", "size", "fillcolor", "opacity", "title", "line"]
  return {
    color := ← r.optional "color" Document.str?
    width := ← r.optional "width" Document.float?
    dash := ← r.optional "dash" Document.str?
    size := ← r.optional "size" Document.float?
    fillcolor := ← r.optional "fillcolor" Document.str?
    opacity := ← r.optional "opacity" Document.float?
    title := ← r.optional "title" Document.str?
    line := ← r.optional "line" StrokeHint.decode? }

end ElementStyle
end Plotting
