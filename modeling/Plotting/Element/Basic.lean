import Plotting.Element.Json
import Plotting.Element.Style
import Plotting.Error
import Plotting.Json.Printer
import Plotting.Json.Reader

/-!
# Plot elements

An element is a geometry with a style.  In JSON it is a record of its kind, its
payload and its style.  Payload and style are read as free-form JSON first and
made sense of afterwards, so neither can make an element unreadable; only its
kind can, by not being a string.
-/

namespace Plotting

/-- One thing to be drawn. -/
structure Element where
  geometry : Geometry
  style : ElementStyle := {}
deriving BEq, Repr

namespace Element

/-- The kind of the element, which its geometry tells. -/
def kind (e : Element) : ElementKind := e.geometry.kind

/-- The style that a free-form value describes; null and misfits describe the
one without hints. -/
def styleOfJson (j : Json) : ElementStyle :=
  (ElementStyle.decode? (.ofJson j)).getD {}

/-! ## JSON -/

/-- The kind may be given under a second name. -/
def renameType (m : String × Document) : String × Document :=
  (if m.1 = "type" then "kind" else m.1, m.2)

/-- The document with the kind under its first name. -/
def withKind : Document → Document
  | .obj members => .obj (members.map renameType)
  | d => d

/-- The element that a document describes, where `levels` containers may be
nested, the element itself among them. -/
def decode? (levels : Nat) (d : Document) : Option Element := do
  let r ← (withKind d).record? ["kind", "data", "style"]
  let kind ← r.withDefault "kind" .unnamed ElementKind.decode?
  let data ← r.withDefault "data" .null (Document.toJson? (levels - 1))
  let style ← r.withDefault "style" .null (Document.toJson? (levels - 1))
  return ⟨.ofJson kind data, styleOfJson style⟩

/-- The JSON form; a style without hints is left out. -/
def toJson (e : Element) : Json :=
  .obj ([("kind", .str e.kind.name), ("data", e.geometry.toJson)] ++
    if e.style == {} then [] else [("style", e.style.toJson)])

/-- The indented text of an element. -/
def pretty (e : Element) : String :=
  e.toJson.pretty

/-- The element that a text describes. -/
def parse (text : String) (reader : NumberReader := .bestEffort) : Except PlotError Element :=
  match (Document.parse? text reader).bind (decode? Document.maxNesting) with
  | some e => .ok e
  | none => .error (.data (.unreadable .element))

/-- The elements that a text lists; one that does not fit spoils the list. -/
def parseList (text : String) (reader : NumberReader := .bestEffort) :
    Except PlotError (List Element) :=
  match (Document.parse? text reader).bind (Document.list? (decode? (Document.maxNesting - 1))) with
  | some es => .ok es
  | none => .error (.data (.unreadable .elements))

end Element
end Plotting
