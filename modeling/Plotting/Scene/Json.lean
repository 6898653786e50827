import Plotting.Json.Printer
import Plotting.Json.Reader
import Plotting.Scene.Basic
import Plotting.Trace.Json

/-!
# Scenes in JSON

A scene is stored bare or under a contract, which is a record of the version of
the format and the scene.  The reader takes both.  It tries the bare form first,
and since members of other names do not matter, whatever holds the members of a
scene is one.
-/

namespace Plotting

/-- The version of the stored form. -/
def schemaVersion : UInt32 := 1

namespace Scene

/-! ## Writing -/

/-- The JSON form of a scene. -/
def toJson (s : Scene) : Json :=
  .obj [("traces", Json.list Trace.toJson s.traces), ("is_3d", .bool s.isSpatial),
    ("layout", s.layout.toJson)]

/-- The scene under the contract of the current version. -/
def toContract (s : Scene) : Json :=
  .obj [("schema_version", .ofNat schemaVersion.toNat), ("scene", s.toJson)]

/-- The indented text of a scene. -/
def pretty (s : Scene) : String :=
  s.toJson.pretty

/-- The indented text of the scene under its contract. -/
def contractPretty (s : Scene) : String :=
  s.toContract.pretty

/-! ## Reading -/

/-- The scene that a document describes, where `levels` containers may be
nested; the traces stand two containers deep. -/
def decode? (levels : Nat) (d : Document) : Option Scene := do
  let r ← d.record? ["traces", "is_3d", "layout"]
  return {
    traces := ← r.required "traces" (Document.list? (Trace.decode? (levels - 2)))
    isSpatial := ← r.required "is_3d" Document.bool?
    layout := ← r.required "layout" Layout.decode? }

/-- The version and the scene of a contract. -/
def decodeContract? (d : Document) : Option (UInt32 × Scene) := do
  let r ← d.record? ["schema_version", "scene"]
  let version ← r.required "schema_version" Document.word?
  let scene ← r.required "scene" (decode? (Document.maxNesting - 1))
  return (version, scene)

/-- The scene that a document describes, bare or under a contract. -/
def ofDocument (d : Document) : Except PlotError Scene :=
  match decode? Document.maxNesting d with
  | some scene => .ok scene
  | none =>
    match decodeContract? d with
    | some (version, scene) =>
      if version = schemaVersion then .ok scene
      else .error (.data (.schemaVersion version.toNat))
    | none => .error (.data (.unreadable .scene))

/-- The scene that a text describes, bare or under a contract. -/
def parse (text : String) (reader : NumberReader := .bestEffort) : Except PlotError Scene :=
  match Document.parse? text reader with
  | some d => ofDocument d
  | none => .error (.data (.unreadable .scene))

end Scene
end Plotting
