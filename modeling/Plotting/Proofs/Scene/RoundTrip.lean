import Plotting.Proofs.Layout.RoundTrip
import Plotting.Proofs.Trace.RoundTrip
import Plotting.Scene.Json

/-!
# Scenes are read back

A scene with finite numbers is decoded from both of its stored forms.  The bare
form is tried first, and a contract never passes for it: the traces are a
required field, and a contract has no member of that name.
-/

namespace Plotting
namespace Scene
variable {s : Scene}

open Document (ofJson ofMembers)
open Document.Record (required_ofMembers)

/-- Every number of the scene is finite. -/
@[mk_iff]
structure IsFinite (s : Scene) : Prop where
  traces : ∀ t ∈ s.traces, t.IsFinite
  layout : s.layout.IsFinite

instance (s : Scene) : Decidable s.IsFinite :=
  decidable_of_iff' _ (isFinite_iff s)

/-- The members of a scene. -/
def members (s : Scene) : List (String × Json) :=
  [("traces", Json.list Trace.toJson s.traces), ("is_3d", .bool s.isSpatial),
    ("layout", s.layout.toJson)]

theorem toJson_eq (s : Scene) : s.toJson = .obj s.members := rfl

/-- A scene is decoded wherever its traces have room for three containers. -/
theorem decode?_toJson (h : s.IsFinite) (levels : Nat) :
    decode? (levels + 5) (ofJson s.toJson) = some s := by
  have htraces : s.members.lookup "traces" = some (Json.list Trace.toJson s.traces) := by
    simp [members]
  have hspatial : s.members.lookup "is_3d" = some (.bool s.isSpatial) := by
    simp [members, List.lookup_cons]
  have hlayout : s.members.lookup "layout" = some s.layout.toJson := by
    simp [members, List.lookup_cons]
  have hkeys : (Json.keys s.members).Nodup := by simp [members]
  have hread : Document.list? (Trace.decode? (levels + 5 - 2))
      (ofJson (Json.list Trace.toJson s.traces)) = some s.traces :=
    Document.list?_ofJson_list fun t ht => Trace.decode?_toJson (h.traces t ht) levels
  rw [toJson_eq, decode?, Document.record?_ofJson_obj hkeys]
  simp only [required_ofMembers htraces, required_ofMembers hspatial, required_ofMembers hlayout,
    hread, Document.bool?_ofJson, Layout.decode?_toJson h.layout, Option.bind_eq_bind,
    Option.bind_some, Option.pure_def]

/-! ## The contract -/

/-- The members of a contract of a version. -/
def contractMembers (version : UInt32) (s : Scene) : List (String × Json) :=
  [("schema_version", .ofNat version.toNat), ("scene", s.toJson)]

theorem toContract_eq (s : Scene) : s.toContract = .obj (s.contractMembers schemaVersion) := rfl

theorem nodup_contractKeys (version : UInt32) (s : Scene) :
    (Json.keys (s.contractMembers version)).Nodup := by
  simp [contractMembers]

/-- A contract is not a bare scene. -/
theorem decode?_contract (version : UInt32) (s : Scene) (levels : Nat) :
    decode? levels (ofJson (.obj (s.contractMembers version))) = none := by
  have htraces : (s.contractMembers version).lookup "traces" = none := by
    simp [contractMembers, List.lookup_cons]
  have hmissing : Document.Record.required (ofMembers (s.contractMembers version)) "traces"
      (Document.list? (Trace.decode? (levels - 2))) = none := by
    rw [Document.Record.required, Document.lookup_ofMembers, htraces, Option.map_none,
      Option.bind_none]
  rw [decode?, Document.record?_ofJson_obj (nodup_contractKeys version s)]
  simp only [hmissing, Option.bind_eq_bind, Option.bind_some, Option.bind_none]

/-- A contract is read as its version and the scene in it, or not at all. -/
theorem decodeContract?_contract (version : UInt32) (s : Scene) :
    decodeContract? (ofJson (.obj (s.contractMembers version))) =
      (decode? (Document.maxNesting - 1) (ofJson s.toJson)).map fun scene => (version, scene) := by
  have hversion : (s.contractMembers version).lookup "schema_version" =
      some (.ofNat version.toNat) := by simp [contractMembers]
  have hscene : (s.contractMembers version).lookup "scene" = some s.toJson := by
    simp [contractMembers, List.lookup_cons]
  rw [decodeContract?, Document.record?_ofJson_obj (nodup_contractKeys version s)]
  simp only [required_ofMembers hversion, required_ofMembers hscene, Document.word?_ofJson,
    Option.bind_eq_bind, Option.bind_some, Option.pure_def, Option.map_eq_bind]
  rfl

theorem decodeContract?_contract_of_isFinite (version : UInt32) (h : s.IsFinite) :
    decodeContract? (ofJson (.obj (s.contractMembers version))) = some (version, s) := by
  have hread : decode? (Document.maxNesting - 1) (ofJson s.toJson) = some s :=
    decode?_toJson h 121
  rw [decodeContract?_contract, hread, Option.map_some]

/-! ## Both stored forms -/

theorem ofDocument_toJson (h : s.IsFinite) : ofDocument (ofJson s.toJson) = .ok s := by
  have hread : decode? Document.maxNesting (ofJson s.toJson) = some s := decode?_toJson h 122
  rw [ofDocument, hread]

theorem ofDocument_toContract (h : s.IsFinite) : ofDocument (ofJson s.toContract) = .ok s := by
  rw [toContract_eq, ofDocument, decode?_contract, decodeContract?_contract_of_isFinite _ h]
  exact if_pos rfl

end Scene
end Plotting
