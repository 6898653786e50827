import Mathlib.Tactic.MkIffOfInductiveProp
import Plotting.Layout.Json
import Plotting.Proofs.Json.Members

/-!
# Layouts are read back

A layout with finite numbers is decoded from its own JSON form, part by part.
-/

namespace Plotting

open Document (ofJson ofMembers)
open Document.Record (required_ofMembers optional_ofMembers withDefault_ofMembers
  withDefault_nonempty)

/-! ## Points and ranges -/

namespace Point3
variable {p : Point3}

/-- The members of a point written as a record. -/
def members (p : Point3) : List (String × Json) :=
  [("x", .ofFloat p.x), ("y", .ofFloat p.y), ("z", .ofFloat p.z)]

theorem toRecord_eq (p : Point3) : p.toRecord = .obj p.members := rfl

theorem decodeRecord?_toRecord (h : p.isFinite = true) :
    decodeRecord? (ofJson p.toRecord) = some p := by
  obtain ⟨⟨hx, hy⟩, hz⟩ : (p.x.isFinite = true ∧ p.y.isFinite = true) ∧ p.z.isFinite = true := by
    simpa [isFinite] using h
  have hx' : p.members.lookup "x" = some (.ofFloat p.x) := by simp [members]
  have hy' : p.members.lookup "y" = some (.ofFloat p.y) := by simp [members, List.lookup_cons]
  have hz' : p.members.lookup "z" = some (.ofFloat p.z) := by simp [members, List.lookup_cons]
  have hkeys : (Json.keys p.members).Nodup := by simp [members]
  rw [toRecord_eq, decodeRecord?, Document.record?_ofJson_obj hkeys]
  simp only [required_ofMembers hx', required_ofMembers hy', required_ofMembers hz',
    Document.float?_ofFloat hx, Document.float?_ofFloat hy, Document.float?_ofFloat hz,
    Option.bind_eq_bind, Option.bind_some, Option.pure_def]

end Point3

/-- Both ends are numbers. -/
def AxisRange.IsFinite (r : AxisRange) : Prop :=
  r.min.isFinite = true ∧ r.max.isFinite = true

instance AxisRange.decidableIsFinite (r : AxisRange) : Decidable r.IsFinite :=
  inferInstanceAs (Decidable (_ ∧ _))

theorem AxisRange.decode?_toJson {r : AxisRange} (h : r.IsFinite) :
    decode? (ofJson r.toJson) = some r := by
  have hmin : Document.float? (ofJson (.ofFloat r.min)) = some r.min :=
    Document.float?_ofFloat h.1
  have hmax : Document.float? (ofJson (.ofFloat r.max)) = some r.max :=
    Document.float?_ofFloat h.2
  have hjson : r.toJson = Json.list .ofFloat [r.min, r.max] := rfl
  have hends : Document.list? Document.float? (ofJson r.toJson) = some [r.min, r.max] := by
    rw [hjson]
    exact Document.list?_ofJson_list (by simp [hmin, hmax])
  simp only [decode?, Document.pair?, hends, Option.bind_eq_bind, Option.bind_some, Option.map_some]

/-! ## Legend and margins -/

namespace Legend
variable {l : Legend}

/-- The place of the legend is given by numbers. -/
def IsFinite (l : Legend) : Prop :=
  l.x.isFinite = true ∧ l.y.isFinite = true

instance (l : Legend) : Decidable l.IsFinite :=
  inferInstanceAs (Decidable (_ ∧ _))

/-- The members of a legend. -/
def members (l : Legend) : List (String × Json) :=
  [("orientation", .str (orientationName l.orientation)), ("x", .ofFloat l.x),
    ("xanchor", .str l.xAnchor), ("y", .ofFloat l.y), ("yanchor", .str l.yAnchor)]

theorem toJson_eq (l : Legend) : l.toJson = .obj l.members := rfl

theorem oneOf?_orientationName (o : Orientation) :
    Document.oneOf? [("h", Orientation.horizontal), ("v", Orientation.vertical)]
      (ofJson (.str (orientationName o))) = some o := by
  cases o <;> rfl

theorem decode?_toJson (h : l.IsFinite) : decode? (ofJson l.toJson) = some l := by
  have horientation : l.members.lookup "orientation" =
      some (.str (orientationName l.orientation)) := by simp [members]
  have hx : l.members.lookup "x" = some (.ofFloat l.x) := by simp [members, List.lookup_cons]
  have hxAnchor : l.members.lookup "xanchor" = some (.str l.xAnchor) := by
    simp [members, List.lookup_cons]
  have hy : l.members.lookup "y" = some (.ofFloat l.y) := by simp [members, List.lookup_cons]
  have hyAnchor : l.members.lookup "yanchor" = some (.str l.yAnchor) := by
    simp [members, List.lookup_cons]
  have hkeys : (Json.keys l.members).Nodup := by
    simp only [members, Json.keys_cons, Json.keys_nil]
    decide
  rw [toJson_eq, decode?, Document.record?_ofJson_obj hkeys]
  simp only [required_ofMembers horientation, required_ofMembers hx, required_ofMembers hxAnchor,
    required_ofMembers hy, required_ofMembers hyAnchor, oneOf?_orientationName,
    Document.float?_ofFloat h.1, Document.float?_ofFloat h.2, Document.str?_ofJson,
    Option.bind_eq_bind, Option.bind_some, Option.pure_def]

end Legend

/-- A natural number of 32 bits is within its own limit. -/
theorem Document.word?_ofJson (n : UInt32) :
    Document.word? (ofJson (.ofNat n.toNat)) = some n := by
  have hnat : Document.nat? (ofJson (.ofNat n.toNat)) = some n.toNat := rfl
  rw [word?, hnat]
  simp only [if_pos n.toNat_lt, UInt32.ofNat_toNat]

namespace Margin

/-- The members of margins. -/
def members (m : Margin) : List (String × Json) :=
  [("l", .ofNat m.left.toNat), ("r", .ofNat m.right.toNat), ("t", .ofNat m.top.toNat),
    ("b", .ofNat m.bottom.toNat)]

theorem toJson_eq (m : Margin) : m.toJson = .obj m.members := rfl

theorem decode?_toJson (m : Margin) : decode? (ofJson m.toJson) = some m := by
  have hleft : m.members.lookup "l" = some (.ofNat m.left.toNat) := by simp [members]
  have hright : m.members.lookup "r" = some (.ofNat m.right.toNat) := by
    simp [members, List.lookup_cons]
  have htop : m.members.lookup "t" = some (.ofNat m.top.toNat) := by
    simp [members, List.lookup_cons]
  have hbottom : m.members.lookup "b" = some (.ofNat m.bottom.toNat) := by
    simp [members, List.lookup_cons]
  have hkeys : (Json.keys m.members).Nodup := by simp [members]
  rw [toJson_eq, decode?, Document.record?_ofJson_obj hkeys]
  simp only [required_ofMembers hleft, required_ofMembers hright, required_ofMembers htop,
    required_ofMembers hbottom, Document.word?_ofJson, Option.bind_eq_bind, Option.bind_some,
    Option.pure_def]

end Margin

/-! ## Axes of the plane -/

namespace PlanarAxis
variable {a : PlanarAxis}

/-- The width of the zero line, the range and the ratio are numbers. -/
@[mk_iff]
structure IsFinite (a : PlanarAxis) : Prop where
  zeroLineWidth : a.zeroLineWidth.isFinite = true
  range : ∀ r ∈ a.range, r.IsFinite
  scaleRatio : ∀ v ∈ a.scaleRatio, v.isFinite = true

instance (a : PlanarAxis) : Decidable a.IsFinite :=
  decidable_of_iff' _ (isFinite_iff a)

/-- The members of a planar axis. -/
def members (a : PlanarAxis) : List (String × Json) :=
  Json.optional "title" .str a.title ++
    [("visible", .bool a.visible), ("zeroline", .bool a.zeroLine),
      ("zerolinecolor", .str a.zeroLineColor), ("zerolinewidth", .ofFloat a.zeroLineWidth),
      ("showgrid", .bool a.showGrid), ("gridcolor", .str a.gridColor)] ++
    Json.optional "range" AxisRange.toJson a.range ++
    Json.optional "scaleanchor" .str a.scaleAnchor ++
    Json.optional "scaleratio" .ofFloat a.scaleRatio

theorem toJson_eq (a : PlanarAxis) : a.toJson = .obj a.members := rfl

theorem nodup_keys (a : PlanarAxis) : (Json.keys a.members).Nodup := by
  have hkeys : (Json.keys a.members).Sublist (["title"] ++ ["visible", "zeroline",
      "zerolinecolor", "zerolinewidth", "showgrid", "gridcolor"] ++ ["range"] ++
      ["scaleanchor"] ++ ["scaleratio"]) := by
    simp only [members, Json.keys_append]
    exact ((((Json.keys_optional _).append (List.Sublist.refl _)).append
      (Json.keys_optional _)).append (Json.keys_optional _)).append (Json.keys_optional _)
  exact hkeys.nodup (by decide)

theorem decode?_toJson (h : a.IsFinite) : decode? (ofJson a.toJson) = some a := by
  have htitle : a.members.lookup "title" = a.title.map .str := by
    simp [members, List.lookup_append, List.lookup_cons]
  have hvisible : a.members.lookup "visible" = some (.bool a.visible) := by
    simp [members, List.lookup_append]
  have hzero : a.members.lookup "zeroline" = some (.bool a.zeroLine) := by
    simp [members, List.lookup_append, List.lookup_cons]
  have hcolor : a.members.lookup "zerolinecolor" = some (.str a.zeroLineColor) := by
    simp [members, List.lookup_append, List.lookup_cons]
  have hwidth : a.members.lookup "zerolinewidth" = some (.ofFloat a.zeroLineWidth) := by
    simp [members, List.lookup_append, List.lookup_cons]
  have hgrid : a.members.lookup "showgrid" = some (.bool a.showGrid) := by
    simp [members, List.lookup_append, List.lookup_cons]
  have hgridColor : a.members.lookup "gridcolor" = some (.str a.gridColor) := by
    simp [members, List.lookup_append, List.lookup_cons]
  have hrange : a.members.lookup "range" = a.range.map AxisRange.toJson := by
    simp [members, List.lookup_append, List.lookup_cons]
  have hanchor : a.members.lookup "scaleanchor" = a.scaleAnchor.map .str := by
    simp [members, List.lookup_append, List.lookup_cons]
  have hratio : a.members.lookup "scaleratio" = a.scaleRatio.map .ofFloat := by
    simp [members, List.lookup_append, List.lookup_cons]
  rw [toJson_eq, decode?, Document.record?_ofJson_obj a.nodup_keys]
  simp only [optional_ofMembers rfl htitle fun s _ => Document.str?_ofJson s,
    required_ofMembers hvisible, required_ofMembers hzero, required_ofMembers hcolor,
    required_ofMembers hwidth, required_ofMembers hgrid, required_ofMembers hgridColor,
    optional_ofMembers rfl hrange fun r hr => AxisRange.decode?_toJson (h.range r hr),
    optional_ofMembers rfl hanchor fun s _ => Document.str?_ofJson s,
    optional_ofMembers rfl hratio fun v hv => Document.float?_ofFloat (h.scaleRatio v hv),
    Document.float?_ofFloat h.zeroLineWidth, Document.str?_ofJson, Document.bool?_ofJson,
    Option.bind_eq_bind, Option.bind_some, Option.pure_def]

end PlanarAxis

/-! ## The block of a spatial scene -/

namespace SpatialBlock
variable {b : SpatialBlock}

theorem decodeAxis?_axisJson (title : String) :
    decodeAxis? (ofJson (axisJson title)) = some title := by
  have htitle : [("title", Json.str title)].lookup "title" = some (.str title) := by simp
  have hkeys : (Json.keys [("title", Json.str title)]).Nodup := by simp
  rw [axisJson, decodeAxis?, Document.record?_ofJson_obj hkeys]
  simp only [required_ofMembers htitle, Document.str?_ofJson, Option.bind_eq_bind,
    Option.bind_some]

theorem decodeEye?_ofJson {p : Point3} (h : p.isFinite = true) :
    decodeEye? (ofJson (.obj [("eye", p.toRecord)])) = some p := by
  have heye : [("eye", p.toRecord)].lookup "eye" = some p.toRecord := by simp
  have hkeys : (Json.keys [("eye", p.toRecord)]).Nodup := by simp
  rw [decodeEye?, Document.record?_ofJson_obj hkeys]
  simp only [required_ofMembers heye, Point3.decodeRecord?_toRecord h, Option.bind_eq_bind,
    Option.bind_some]

theorem oneOf?_aspectName (m : AspectMode) :
    Document.oneOf? [("auto", AspectMode.auto), ("cube", .cube), ("data", .data)]
      (ofJson (.str (aspectName m))) = some m := by
  cases m <;> rfl

/-- The members of the block. -/
def members (b : SpatialBlock) : List (String × Json) :=
  [("xaxis", axisJson b.xTitle), ("yaxis", axisJson b.yTitle), ("zaxis", axisJson b.zTitle),
    ("aspectmode", .str (aspectName b.aspectMode)), ("camera", .obj [("eye", b.eye.toRecord)])]

theorem toJson_eq (b : SpatialBlock) : b.toJson = .obj b.members := rfl

theorem decode?_toJson (h : b.eye.isFinite = true) : decode? (ofJson b.toJson) = some b := by
  have hx : b.members.lookup "xaxis" = some (axisJson b.xTitle) := by simp [members]
  have hy : b.members.lookup "yaxis" = some (axisJson b.yTitle) := by
    simp [members, List.lookup_cons]
  have hz : b.members.lookup "zaxis" = some (axisJson b.zTitle) := by
    simp [members, List.lookup_cons]
  have haspect : b.members.lookup "aspectmode" = some (.str (aspectName b.aspectMode)) := by
    simp [members, List.lookup_cons]
  have hcamera : b.members.lookup "camera" = some (.obj [("eye", b.eye.toRecord)]) := by
    simp [members, List.lookup_cons]
  have hkeys : (Json.keys b.members).Nodup := by
    simp only [members, Json.keys_cons, Json.keys_nil]
    decide
  rw [toJson_eq, decode?, Document.record?_ofJson_obj hkeys]
  simp only [required_ofMembers hx, required_ofMembers hy, required_ofMembers hz,
    required_ofMembers haspect, required_ofMembers hcamera, decodeAxis?_axisJson,
    oneOf?_aspectName, decodeEye?_ofJson h, Option.bind_eq_bind, Option.bind_some, Option.pure_def]

end SpatialBlock

/-! ## Notes -/

namespace Annotation
variable {a : Annotation}

/-- The place of the note is given by numbers. -/
def IsFinite (a : Annotation) : Prop :=
  a.x.isFinite = true ∧ a.y.isFinite = true

instance (a : Annotation) : Decidable a.IsFinite :=
  inferInstanceAs (Decidable (_ ∧ _))

/-- The members of a note. -/
def members (a : Annotation) : List (String × Json) :=
  [("text", .str a.text), ("xref", .str a.xRef), ("yref", .str a.yRef), ("x", .ofFloat a.x),
    ("y", .ofFloat a.y), ("showarrow", .bool a.showArrow)]

theorem toJson_eq (a : Annotation) : a.toJson = .obj a.members := rfl

theorem decode?_toJson (h : a.IsFinite) : decode? (ofJson a.toJson) = some a := by
  have htext : a.members.lookup "text" = some (.str a.text) := by simp [members]
  have hxRef : a.members.lookup "xref" = some (.str a.xRef) := by simp [members, List.lookup_cons]
  have hyRef : a.members.lookup "yref" = some (.str a.yRef) := by simp [members, List.lookup_cons]
  have hx : a.members.lookup "x" = some (.ofFloat a.x) := by simp [members, List.lookup_cons]
  have hy : a.members.lookup "y" = some (.ofFloat a.y) := by simp [members, List.lookup_cons]
  have harrow : a.members.lookup "showarrow" = some (.bool a.showArrow) := by
    simp [members, List.lookup_cons]
  have hkeys : (Json.keys a.members).Nodup := by
    simp only [members, Json.keys_cons, Json.keys_nil]
    decide
  rw [toJson_eq, decode?, Document.record?_ofJson_obj hkeys]
  simp only [required_ofMembers htext, required_ofMembers hxRef, required_ofMembers hyRef,
    required_ofMembers hx, required_ofMembers hy, required_ofMembers harrow,
    Document.float?_ofFloat h.1, Document.float?_ofFloat h.2, Document.str?_ofJson,
    Document.bool?_ofJson, Option.bind_eq_bind, Option.bind_some, Option.pure_def]

end Annotation

/-! ## Layouts -/

namespace Layout
variable {l : Layout}

/-- Every number of the layout is finite. -/
@[mk_iff]
structure IsFinite (l : Layout) : Prop where
  legend : l.legend.IsFinite
  xAxis : ∀ a ∈ l.xAxis, a.IsFinite
  yAxis : ∀ a ∈ l.yAxis, a.IsFinite
  spatial : ∀ b ∈ l.spatial, b.eye.isFinite = true
  annotations : ∀ a ∈ l.annotations, a.IsFinite

instance (l : Layout) : Decidable l.IsFinite :=
  decidable_of_iff' _ (isFinite_iff l)

/-- The members of a layout. -/
def members (l : Layout) : List (String × Json) :=
  Json.optional "title" .str l.title ++
    [("showlegend", .bool l.showLegend), ("legend", l.legend.toJson),
      ("margin", l.margin.toJson)] ++
    Json.optional "xaxis" PlanarAxis.toJson l.xAxis ++
    Json.optional "yaxis" PlanarAxis.toJson l.yAxis ++
    Json.optional "scene" SpatialBlock.toJson l.spatial ++
    Json.nonempty "annotations" Annotation.toJson l.annotations

theorem toJson_eq (l : Layout) : l.toJson = .obj l.members := rfl

theorem nodup_keys (l : Layout) : (Json.keys l.members).Nodup := by
  have hkeys : (Json.keys l.members).Sublist (["title"] ++ ["showlegend", "legend", "margin"] ++
      ["xaxis"] ++ ["yaxis"] ++ ["scene"] ++ ["annotations"]) := by
    simp only [members, Json.keys_append]
    exact (((((Json.keys_optional _).append (List.Sublist.refl _)).append
      (Json.keys_optional _)).append (Json.keys_optional _)).append
      (Json.keys_optional _)).append (Json.keys_nonempty _)
  exact hkeys.nodup (by decide)

theorem decode?_toJson (h : l.IsFinite) : decode? (ofJson l.toJson) = some l := by
  have htitle : l.members.lookup "title" = l.title.map .str := by
    simp [members, List.lookup_append, List.lookup_cons]
  have hshow : l.members.lookup "showlegend" = some (.bool l.showLegend) := by
    simp [members, List.lookup_append]
  have hlegend : l.members.lookup "legend" = some l.legend.toJson := by
    simp [members, List.lookup_append, List.lookup_cons]
  have hmargin : l.members.lookup "margin" = some l.margin.toJson := by
    simp [members, List.lookup_append, List.lookup_cons]
  have hx : l.members.lookup "xaxis" = l.xAxis.map PlanarAxis.toJson := by
    simp [members, List.lookup_append, List.lookup_cons]
  have hy : l.members.lookup "yaxis" = l.yAxis.map PlanarAxis.toJson := by
    simp [members, List.lookup_append, List.lookup_cons]
  have hspatial : l.members.lookup "scene" = l.spatial.map SpatialBlock.toJson := by
    simp [members, List.lookup_append, List.lookup_cons]
  have hnotes : l.members.lookup "annotations" =
      if l.annotations ≠ [] then some (Json.list Annotation.toJson l.annotations) else none := by
    simp [members, List.lookup_append, List.lookup_cons]
  rw [toJson_eq, decode?, Document.record?_ofJson_obj l.nodup_keys]
  simp only [optional_ofMembers rfl htitle fun s _ => Document.str?_ofJson s,
    required_ofMembers hshow, required_ofMembers hlegend, withDefault_ofMembers hmargin,
    optional_ofMembers rfl hx fun a ha => PlanarAxis.decode?_toJson (h.xAxis a ha),
    optional_ofMembers rfl hy fun a ha => PlanarAxis.decode?_toJson (h.yAxis a ha),
    optional_ofMembers rfl hspatial fun b hb => SpatialBlock.decode?_toJson (h.spatial b hb),
    withDefault_nonempty hnotes fun a ha => Annotation.decode?_toJson (h.annotations a ha),
    Legend.decode?_toJson h.legend, Margin.decode?_toJson, Document.bool?_ofJson,
    Option.bind_eq_bind, Option.bind_some, Option.pure_def]

end Layout
end Plotting
