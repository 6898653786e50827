import Plotting.Proofs.Json.Text
import Plotting.Proofs.Scene.RoundTrip

/-!
# Stored scenes are read back

The text of a scene is the text of its JSON form, and every part of that form is printable: doubles
that are not finite are written as null, and whole numbers have 32 bits.  So the text spells the
form, to a reader that keeps the numbers, and of a scene with finite numbers the form is decoded to
the scene, bare or under its contract.
-/

namespace Plotting

/-! ## Traces -/

@[simp] theorem TraceMode.isPrintable_toJson (m : TraceMode) : m.toJson.IsPrintable := by
  simp [TraceMode.toJson]

@[simp] theorem Fill.membersPrintable_members (f : Fill) : Json.MembersPrintable f.members := by
  rw [Fill.members]
  split <;> simp

@[simp] theorem LineStyle.isPrintable_toJson (l : LineStyle) : l.toJson.IsPrintable := by
  simp [LineStyle.toJson]

@[simp] theorem MarkerStyle.isPrintable_toJson (m : MarkerStyle) : m.toJson.IsPrintable := by
  simp [MarkerStyle.toJson]

@[simp] theorem Grid.isPrintable_toJson (g : Grid) : (Grid.toJson g).IsPrintable := by
  simp [Grid.toJson]

@[simp] theorem Trace.isPrintable_toJson (t : Trace) : t.toJson.IsPrintable := by
  cases t with
  | planar t => simp [Trace.toJson, PlanarTrace.members]
  | spatial t => simp [Trace.toJson, SpatialTrace.members]
  | surface t => simp [Trace.toJson, SurfaceTrace.members]

/-! ## Layouts -/

@[simp] theorem Point3.isPrintable_toRecord (p : Point3) : p.toRecord.IsPrintable := by
  simp [Point3.toRecord]

@[simp] theorem AxisRange.isPrintable_toJson (r : AxisRange) : r.toJson.IsPrintable := by
  simp [AxisRange.toJson]

@[simp] theorem Legend.isPrintable_toJson (l : Legend) : l.toJson.IsPrintable := by
  simp [Legend.toJson]

@[simp] theorem Margin.isPrintable_toJson (m : Margin) : m.toJson.IsPrintable := by
  simp [Margin.toJson]

@[simp] theorem PlanarAxis.isPrintable_toJson (a : PlanarAxis) : a.toJson.IsPrintable := by
  simp [PlanarAxis.toJson]

@[simp] theorem SpatialBlock.isPrintable_toJson (b : SpatialBlock) : b.toJson.IsPrintable := by
  simp [SpatialBlock.toJson, SpatialBlock.axisJson]

namespace Annotation

@[simp] theorem isPrintable_toJson (a : Annotation) : a.toJson.IsPrintable := by
  simp [toJson]

end Annotation

@[simp] theorem Layout.isPrintable_toJson (l : Layout) : l.toJson.IsPrintable := by
  simp [Layout.toJson]

/-! ## Scenes -/

namespace Scene
variable {s : Scene}

@[simp] theorem isPrintable_toJson (s : Scene) : s.toJson.IsPrintable := by
  simp [Scene.toJson]

@[simp] theorem isPrintable_toContract (s : Scene) : s.toContract.IsPrintable := by
  simp [Scene.toContract]

/-- The numbers of a contract are those of its scene. -/
theorem keepsAll_toContract {reader : NumberReader} :
    reader.KeepsAll s.toContract ↔ reader.KeepsAll s.toJson := by
  simp [Scene.toContract]

section Texts
variable {reader : NumberReader}

theorem parse_pretty (h : s.IsFinite) (hkept : reader.KeepsAll s.toJson) :
    parse s.pretty reader = .ok s := by
  rw [parse, pretty, Document.parse?_pretty s.isPrintable_toJson hkept]
  exact ofDocument_toJson h

theorem parse?_contractPretty (hkept : reader.KeepsAll s.toJson) :
    Document.parse? s.contractPretty reader = some (Document.ofJson s.toContract) :=
  Document.parse?_pretty s.isPrintable_toContract (keepsAll_toContract.mpr hkept)

theorem parse_contractPretty (h : s.IsFinite) (hkept : reader.KeepsAll s.toJson) :
    parse s.contractPretty reader = .ok s := by
  rw [parse, parse?_contractPretty hkept]
  exact ofDocument_toContract h

/-- A scene with finite numbers, which the reader of numbers keeps, is read back from both of its
stored texts, and the contract is not taken for a bare scene on the way. -/
theorem parse_stored_texts (h : s.IsFinite) (hkept : reader.KeepsAll s.toJson) :
    parse s.pretty reader = .ok s ∧ parse s.contractPretty reader = .ok s ∧
      (Document.parse? s.contractPretty reader).bind (decode? Document.maxNesting) = none := by
  refine ⟨parse_pretty h hkept, parse_contractPretty h hkept, ?_⟩
  rw [parse?_contractPretty hkept, Option.bind_some]
  exact decode?_contract schemaVersion s _

end Texts

/-- A scene that contradicts itself: a planar region and a surface in a layout with
one axis. -/
def patchwork : Scene where
  traces := [
    .surface { name := "s", x := [[0]], y := [[-0]], z := [[0.1]], colorscale := "", opacity := 2 },
    .planar { name := "\"p\"", mode := .markersText, x := [1e300, -5e-324], text := ["é", "\n"],
              marker := some ⟨"#000", 0⟩, fill := .toSelf, showLegend := false }]
  isSpatial := false
  layout := {
    title := none
    showLegend := true
    margin := { left := 0 }
    yAxis := some (PlanarAxis.hidden.withRange ⟨-1.5, 1e21⟩)
    annotations := [.centered "[]"] }

theorem isFinite_patchwork : patchwork.IsFinite := by
  decide +kernel

theorem keepsAll_patchwork : NumberReader.bestEffort.KeepsAll patchwork.toJson := by
  decide +kernel

theorem parse_stored_texts_patchwork :
    patchwork.IsFinite ∧ NumberReader.bestEffort.KeepsAll patchwork.toJson ∧
      parse patchwork.pretty = .ok patchwork ∧ parse patchwork.contractPretty = .ok patchwork ∧
      (Document.parse? patchwork.contractPretty).bind (decode? Document.maxNesting) = none :=
  ⟨isFinite_patchwork, keepsAll_patchwork, parse_stored_texts isFinite_patchwork keepsAll_patchwork⟩

end Scene
end Plotting
