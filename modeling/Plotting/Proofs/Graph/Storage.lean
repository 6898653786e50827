import Plotting.Graph
import Plotting.Proofs.Scene.Storage

/-!
# Stored graphs are read back

A graph whose window has finite bounds is read back from its own text, by any reader that keeps these
bounds.  The title, and the colour and the label of each function, are written only if they are
there, and what is not written is read as missing: an empty text is a member of its own and stays
apart from none.
-/

namespace Plotting

open Document (ofJson)
open Document.Record (required_ofMembers optional_ofMembers withDefault_ofMembers)

/-! ## Functions -/

namespace GraphFunction
variable {f : GraphFunction}

/-- The members of a function of a graph. -/
def members (f : GraphFunction) : List (String × Json) :=
  [("expression", .str f.expression)] ++ Json.optional "color" .str f.color ++
    Json.optional "label" .str f.label

theorem toJson_eq (f : GraphFunction) : f.toJson = .obj f.members := rfl

theorem nodup_keys (f : GraphFunction) : (Json.keys f.members).Nodup := by
  have hnames : (Json.keys f.members).Sublist ["expression", "color", "label"] := by
    rw [members, Json.keys_append, Json.keys_append]
    exact (List.Sublist.append (List.Sublist.refl _) (Json.keys_optional _)).append
      (Json.keys_optional _)
  exact hnames.nodup (by decide)

theorem decode?_toJson (f : GraphFunction) : decode? (ofJson f.toJson) = some f := by
  have hexpression : f.members.lookup "expression" = some (.str f.expression) := by simp [members]
  have hcolor : f.members.lookup "color" = f.color.map .str := by
    simp [members, List.lookup_append, List.lookup_cons]
  have hlabel : f.members.lookup "label" = f.label.map .str := by
    simp [members, List.lookup_append, List.lookup_cons]
  have hcolor' : Document.Record.optional (Document.ofMembers f.members) "color" Document.str? =
      some f.color := optional_ofMembers rfl hcolor fun s _ => Document.str?_ofJson s
  have hlabel' : Document.Record.optional (Document.ofMembers f.members) "label" Document.str? =
      some f.label := optional_ofMembers rfl hlabel fun s _ => Document.str?_ofJson s
  rw [toJson_eq, decode?, Document.record?_ofJson_obj f.nodup_keys]
  simp only [required_ofMembers hexpression, Document.str?_ofJson, hcolor', hlabel',
    Option.bind_eq_bind, Option.bind_some, Option.pure_def]

@[simp] theorem isPrintable_toJson (f : GraphFunction) : f.toJson.IsPrintable := by
  simp [toJson]

end GraphFunction

/-! ## Graphs -/

namespace Graph
variable {g : Graph}

/-- The bounds of the window are numbers. -/
def IsFinite (g : Graph) : Prop :=
  g.xRange.IsFinite ∧ g.yRange.IsFinite

instance (g : Graph) : Decidable g.IsFinite :=
  inferInstanceAs (Decidable (_ ∧ _))

/-- The members of a graph. -/
def members (g : Graph) : List (String × Json) :=
  Json.optional "title" .str g.title ++
    [("functions", Json.list GraphFunction.toJson g.functions), ("xRange", g.xRange.toJson),
      ("yRange", g.yRange.toJson)]

theorem toJson_eq (g : Graph) : g.toJson = .obj g.members := rfl

theorem nodup_keys (g : Graph) : (Json.keys g.members).Nodup := by
  have hnames : (Json.keys g.members).Sublist ["title", "functions", "xRange", "yRange"] := by
    rw [members, Json.keys_append]
    exact (Json.keys_optional _).append (List.Sublist.refl _)
  exact hnames.nodup (by decide)

theorem decode?_toJson (h : g.IsFinite) : decode? (ofJson g.toJson) = some g := by
  have htitle : g.members.lookup "title" = g.title.map .str := by
    simp [members, List.lookup_append, List.lookup_cons]
  have hfunctions : g.members.lookup "functions" =
      some (Json.list GraphFunction.toJson g.functions) := by
    simp [members, List.lookup_append]
  have hx : g.members.lookup "xRange" = some g.xRange.toJson := by
    simp [members, List.lookup_append, List.lookup_cons]
  have hy : g.members.lookup "yRange" = some g.yRange.toJson := by
    simp [members, List.lookup_append, List.lookup_cons]
  have htitle' : Document.Record.optional (Document.ofMembers g.members) "title" Document.str? =
      some g.title := optional_ofMembers rfl htitle fun s _ => Document.str?_ofJson s
  have hread : Document.list? GraphFunction.decode?
      (ofJson (Json.list GraphFunction.toJson g.functions)) = some g.functions :=
    Document.list?_ofJson_list fun f _ => f.decode?_toJson
  rw [toJson_eq, decode?, Document.record?_ofJson_obj g.nodup_keys]
  simp only [htitle', withDefault_ofMembers hfunctions, hread, required_ofMembers hx,
    required_ofMembers hy, AxisRange.decode?_toJson h.1, AxisRange.decode?_toJson h.2,
    Option.bind_eq_bind, Option.bind_some, Option.pure_def]

theorem isPrintable_toJson (g : Graph) : g.toJson.IsPrintable := by
  simp [toJson]

theorem parse_pretty {reader : NumberReader} (h : g.IsFinite)
    (hkept : reader.KeepsAll g.toJson) : parse g.pretty reader = .ok g := by
  rw [parse, pretty, Document.parse?_pretty g.isPrintable_toJson hkept, Option.bind_some,
    decode?_toJson h]

end Graph
end Plotting
