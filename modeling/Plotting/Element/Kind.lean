import Plotting.Json.Record

/-!
# Kinds of plot elements

The known kinds are fixed.  Any other name is kept, so that an element of a kind
that nobody knows can be written back as it was read.
-/

namespace Plotting

/-- The kind of a plot element. -/
inductive ElementKind where
  | curve | scatter | point | points | line | segment | circle | area | polygon | surface
  | vector3d
  | unknown (name : String)
deriving DecidableEq, Repr, Inhabited

namespace ElementKind

/-- The known kinds. -/
def known : List ElementKind :=
  [.curve, .scatter, .point, .points, .line, .segment, .circle, .area, .polygon, .surface,
    .vector3d]

/-- The name under which a kind is written. -/
def name : ElementKind → String
  | .curve => "curve"
  | .scatter => "scatter"
  | .point => "point"
  | .points => "points"
  | .line => "line"
  | .segment => "segment"
  | .circle => "circle"
  | .area => "area"
  | .polygon => "polygon"
  | .surface => "surface"
  | .vector3d => "vector3d"
  | .unknown name => name

/-- The kind of a given name; one of them has a second spelling. -/
def ofName : String → ElementKind
  | "curve" => .curve
  | "scatter" => .scatter
  | "point" => .point
  | "points" => .points
  | "line" => .line
  | "segment" => .segment
  | "circle" => .circle
  | "area" => .area
  | "polygon" => .polygon
  | "surface" => .surface
  | "vector3d" => .vector3d
  | "vector_3d" => .vector3d
  | name => .unknown name

/-- The kind of an element that names none. -/
def unnamed : ElementKind := .unknown ""

/-- Whether the kind is one of the known ones. -/
def isKnown : ElementKind → Bool
  | .unknown _ => false
  | _ => true

/-- Whether elements of the kind are drawn in space. -/
def isSpatial : ElementKind → Bool
  | .surface | .vector3d => true
  | _ => false

/-- The kind that a document describes, if it describes any. -/
def decode? (d : Document) : Option ElementKind :=
  d.str?.map ofName

/-- What is read from a name has that name, the second spelling apart. -/
theorem name_ofName {s : String} (h : s ≠ "vector_3d") : (ofName s).name = s := by
  unfold ofName
  split <;> first | rfl | exact absurd rfl h

end ElementKind
end Plotting
