import Mathlib.Tactic.MkIffOfInductiveProp
import Plotting.Proofs.Json.Members
import Plotting.Trace.Json

/-!
# Traces are read back

A trace with finite numbers is decoded from its own JSON form.  For each record
there is the list of its members, the names they may have, and where each field
is found among them; the decoder then has nothing left to decide.  A trace is
also taken in as a free-form value before it is decoded, which asks for three
nested containers: the trace, its grids, and their rows.
-/

namespace Plotting

open Document (ofJson ofMembers)
open Document.Record (required_ofMembers optional_ofMembers withDefault_ofMembers
  withDefault_nonempty)

/-! ## Styles -/

namespace LineStyle
variable {l : LineStyle}

/-- The width is a number. -/
def IsFinite (l : LineStyle) : Prop :=
  l.width.isFinite = true

instance (l : LineStyle) : Decidable l.IsFinite :=
  inferInstanceAs (Decidable (_ = true))

/-- The members of a line style. -/
def members (l : LineStyle) : List (String × Json) :=
  [("color", .str l.color), ("width", .ofFloat l.width)] ++ Json.optional "dash" .str l.dash

theorem toJson_eq (l : LineStyle) : l.toJson = .obj l.members := rfl

theorem nodup_keys (l : LineStyle) : (Json.keys l.members).Nodup := by
  have hkeys : (Json.keys l.members).Sublist (["color", "width"] ++ ["dash"]) := by
    rw [members, Json.keys_append]
    exact (List.Sublist.refl _).append (Json.keys_optional _)
  exact hkeys.nodup (by decide)

theorem decode?_toJson (h : l.IsFinite) : decode? (ofJson l.toJson) = some l := by
  have hcolor : l.members.lookup "color" = some (.str l.color) := by simp [members]
  have hwidth : l.members.lookup "width" = some (.ofFloat l.width) := by
    simp [members, List.lookup_cons]
  have hdash : l.members.lookup "dash" = l.dash.map .str := by
    simp [members, List.lookup_cons]
  have hfinite : Document.float? (ofJson (.ofFloat l.width)) = some l.width :=
    Document.float?_ofFloat h
  have hrecord := Document.record?_ofJson_obj l.nodup_keys ["color", "width", "dash"]
  rw [toJson_eq, decode?]
  simp only [hrecord, required_ofMembers hcolor, required_ofMembers hwidth, hfinite,
    optional_ofMembers rfl hdash fun b _ => Document.str?_ofJson b, Document.str?_ofJson,
    Option.bind_eq_bind, Option.bind_some, Option.pure_def]

end LineStyle

namespace MarkerStyle
variable {m : MarkerStyle}

/-- The size is a number. -/
def IsFinite (m : MarkerStyle) : Prop :=
  m.size.isFinite = true

instance (m : MarkerStyle) : Decidable m.IsFinite :=
  inferInstanceAs (Decidable (_ = true))

/-- The members of a marker style. -/
def members (m : MarkerStyle) : List (String × Json) :=
  [("color", .str m.color), ("size", .ofFloat m.size)]

theorem toJson_eq (m : MarkerStyle) : m.toJson = .obj m.members := rfl

theorem decode?_toJson (h : m.IsFinite) : decode? (ofJson m.toJson) = some m := by
  have hcolor : m.members.lookup "color" = some (.str m.color) := by simp [members]
  have hsize : m.members.lookup "size" = some (.ofFloat m.size) := by
    simp [members, List.lookup_cons]
  have hfinite : Document.float? (ofJson (.ofFloat m.size)) = some m.size :=
    Document.float?_ofFloat h
  have hkeys : (Json.keys m.members).Nodup := by simp [members]
  rw [toJson_eq, decode?, Document.record?_ofJson_obj hkeys]
  simp only [required_ofMembers hcolor, required_ofMembers hsize, Document.str?_ofJson, hfinite,
    Option.bind_eq_bind, Option.bind_some, Option.pure_def]

end MarkerStyle

/-! ## Choices and lists -/

theorem TraceMode.decode?_toJson (m : TraceMode) : decode? (ofJson m.toJson) = some m :=
  named?_name m

theorem Fill.decode?_name (f : Fill) : decode? (ofJson (.str f.name)) = some f :=
  named?_name f

theorem Fill.keys_members (f : Fill) : (Json.keys f.members).Sublist ["fill"] := by
  unfold members
  split
  · exact List.nil_sublist _
  · exact List.Sublist.refl _

/-- A fill is written unless there is none. -/
@[simp] theorem Fill.lookup_members (f : Fill) (field : String) :
    f.members.lookup field =
      if field = "fill" ∧ f ≠ .none then some (Json.str f.name) else Option.none := by
  unfold members
  by_cases hf : f = .none
  · simp [hf]
  · by_cases hfield : field = "fill"
    · simp [hf, hfield]
    · simp only [hf, hfield, if_false, false_and, List.lookup_cons, beq_eq_false_iff_ne.mpr hfield,
        List.lookup_nil]

theorem Document.floats?_ofJson {values : List Float} (h : ∀ v ∈ values, v.isFinite = true) :
    Document.floats? (ofJson (Json.list .ofFloat values)) = some values :=
  list?_ofJson_list fun v hv => float?_ofFloat (h v hv)

/-! ## Traces in the plane -/

namespace PlanarTrace
variable {t : PlanarTrace}

/-- The coordinates, the width and the size are numbers. -/
@[mk_iff]
structure IsFinite (t : PlanarTrace) : Prop where
  x : ∀ v ∈ t.x, v.isFinite = true
  y : ∀ v ∈ t.y, v.isFinite = true
  line : ∀ l ∈ t.line, l.IsFinite
  marker : ∀ m ∈ t.marker, m.IsFinite

instance (t : PlanarTrace) : Decidable t.IsFinite :=
  decidable_of_iff' _ (isFinite_iff t)

theorem keys_members (t : PlanarTrace) :
    (Json.keys t.members).Sublist ["name", "mode", "x", "y", "text", "textposition", "line",
      "marker", "fill", "fillcolor", "showlegend"] := by
  simp only [members, Json.keys_append]
  exact ((((((List.Sublist.refl _).append (Json.keys_nonempty _)).append
    (Json.keys_optional _)).append (Json.keys_optional _)).append
    (Json.keys_optional _)).append (Fill.keys_members _)).append
    (Json.keys_optional _) |>.append (List.Sublist.refl _)

theorem withDefault_fill (t : PlanarTrace) :
    Document.Record.withDefault (ofMembers t.members) "fill" .none Fill.decode? =
      some t.fill := by
  have hlookup : t.members.lookup "fill" =
      if t.fill ≠ .none then some (.str t.fill.name) else none := by
    simp [members, List.lookup_append, List.lookup_cons]
  by_cases hfill : t.fill = .none
  · rw [if_neg fun h => h hfill] at hlookup
    rw [Document.Record.withDefault_ofMembers_of_none hlookup, hfill]
  · rw [if_pos hfill] at hlookup
    rw [withDefault_ofMembers hlookup, Fill.decode?_name]

theorem decode?_toJson (h : t.IsFinite) : decode? (ofJson (.obj t.members)) = some t := by
  have hname : t.members.lookup "name" = some (.str t.name) := by simp [members]
  have hmode : t.members.lookup "mode" = some t.mode.toJson := by
    simp [members, List.lookup_cons]
  have hx : t.members.lookup "x" = some (Json.list .ofFloat t.x) := by
    simp [members, List.lookup_cons]
  have hy : t.members.lookup "y" = some (Json.list .ofFloat t.y) := by
    simp [members, List.lookup_cons]
  have htext : t.members.lookup "text" =
      if t.text ≠ [] then some (Json.list .str t.text) else none := by
    simp [members, List.lookup_append, List.lookup_cons]
  have hposition : t.members.lookup "textposition" = t.textPosition.map .str := by
    simp [members, List.lookup_append, List.lookup_cons]
  have hline : t.members.lookup "line" = t.line.map LineStyle.toJson := by
    simp [members, List.lookup_append, List.lookup_cons]
  have hmarker : t.members.lookup "marker" = t.marker.map MarkerStyle.toJson := by
    simp [members, List.lookup_append, List.lookup_cons]
  have hcolor : t.members.lookup "fillcolor" = t.fillColor.map .str := by
    simp [members, List.lookup_append, List.lookup_cons]
  have hlegend : t.members.lookup "showlegend" = some (.bool t.showLegend) := by
    simp [members, List.lookup_append, List.lookup_cons]
  have htext' : Document.Record.withDefault (ofMembers t.members) "text" [] Document.strings? =
      some t.text :=
    withDefault_nonempty htext fun s _ => Document.str?_ofJson s
  have hkeys : (Json.keys t.members).Nodup := t.keys_members.nodup (by decide)
  rw [decode?, Document.record?_ofJson_obj hkeys]
  simp only [required_ofMembers hname, required_ofMembers hmode, required_ofMembers hx,
    required_ofMembers hy, htext',
    optional_ofMembers rfl hposition fun s _ => Document.str?_ofJson s,
    optional_ofMembers rfl hline fun l hl => LineStyle.decode?_toJson (h.line l hl),
    optional_ofMembers rfl hmarker fun m hm => MarkerStyle.decode?_toJson (h.marker m hm),
    withDefault_fill, optional_ofMembers rfl hcolor fun s _ => Document.str?_ofJson s,
    withDefault_ofMembers hlegend, Document.str?_ofJson, Document.bool?_ofJson,
    TraceMode.decode?_toJson, Document.floats?_ofJson h.x, Document.floats?_ofJson h.y,
    Option.bind_eq_bind, Option.bind_some, Option.pure_def]

end PlanarTrace

/-! ## Traces in space -/

namespace SpatialTrace
variable {t : SpatialTrace}

/-- The coordinates, the width and the size are numbers. -/
@[mk_iff]
structure IsFinite (t : SpatialTrace) : Prop where
  x : ∀ v ∈ t.x, v.isFinite = true
  y : ∀ v ∈ t.y, v.isFinite = true
  z : ∀ v ∈ t.z, v.isFinite = true
  line : ∀ l ∈ t.line, l.IsFinite
  marker : ∀ m ∈ t.marker, m.IsFinite

instance (t : SpatialTrace) : Decidable t.IsFinite :=
  decidable_of_iff' _ (isFinite_iff t)

theorem keys_members (t : SpatialTrace) :
    (Json.keys t.members).Sublist ["name", "mode", "x", "y", "z", "text", "line", "marker"] := by
  simp only [members, Json.keys_append]
  exact (((List.Sublist.refl _).append (Json.keys_nonempty _)).append
    (Json.keys_optional _)).append (Json.keys_optional _)

theorem decode?_toJson (h : t.IsFinite) : decode? (ofJson (.obj t.members)) = some t := by
  have hname : t.members.lookup "name" = some (.str t.name) := by simp [members]
  have hmode : t.members.lookup "mode" = some t.mode.toJson := by
    simp [members, List.lookup_cons]
  have hx : t.members.lookup "x" = some (Json.list .ofFloat t.x) := by
    simp [members, List.lookup_cons]
  have hy : t.members.lookup "y" = some (Json.list .ofFloat t.y) := by
    simp [members, List.lookup_cons]
  have hz : t.members.lookup "z" = some (Json.list .ofFloat t.z) := by
    simp [members, List.lookup_cons]
  have htext : t.members.lookup "text" =
      if t.text ≠ [] then some (Json.list .str t.text) else none := by
    simp [members, List.lookup_append, List.lookup_cons]
  have hline : t.members.lookup "line" = t.line.map LineStyle.toJson := by
    simp [members, List.lookup_append, List.lookup_cons]
  have hmarker : t.members.lookup "marker" = t.marker.map MarkerStyle.toJson := by
    simp [members, List.lookup_append, List.lookup_cons]
  have htext' : Document.Record.withDefault (ofMembers t.members) "text" [] Document.strings? =
      some t.text :=
    withDefault_nonempty htext fun s _ => Document.str?_ofJson s
  have hkeys : (Json.keys t.members).Nodup := t.keys_members.nodup (by decide)
  rw [decode?, Document.record?_ofJson_obj hkeys]
  simp only [required_ofMembers hname, required_ofMembers hmode, required_ofMembers hx,
    required_ofMembers hy, required_ofMembers hz, htext',
    optional_ofMembers rfl hline fun l hl => LineStyle.decode?_toJson (h.line l hl),
    optional_ofMembers rfl hmarker fun m hm => MarkerStyle.decode?_toJson (h.marker m hm),
    Document.str?_ofJson, TraceMode.decode?_toJson, Document.floats?_ofJson h.x,
    Document.floats?_ofJson h.y, Document.floats?_ofJson h.z, Option.bind_eq_bind,
    Option.bind_some, Option.pure_def]

end SpatialTrace

/-! ## Surfaces -/

/-- Every cell is a number. -/
def Grid.IsFinite (g : Grid) : Prop :=
  ∀ row ∈ g, ∀ v ∈ row, v.isFinite = true

instance Grid.decidableIsFinite (g : Grid) : Decidable (Grid.IsFinite g) :=
  inferInstanceAs (Decidable (∀ row ∈ g, ∀ v ∈ row, v.isFinite = true))

theorem Grid.decode?_toJson {g : Grid} (h : Grid.IsFinite g) :
    Grid.decode? (ofJson (Grid.toJson g)) = some g :=
  Document.list?_ofJson_list fun row hrow => Document.floats?_ofJson (h row hrow)

namespace SurfaceTrace
variable {t : SurfaceTrace}

/-- The cells and the opacity are numbers. -/
@[mk_iff]
structure IsFinite (t : SurfaceTrace) : Prop where
  x : Grid.IsFinite t.x
  y : Grid.IsFinite t.y
  z : Grid.IsFinite t.z
  opacity : t.opacity.isFinite = true

instance (t : SurfaceTrace) : Decidable t.IsFinite :=
  decidable_of_iff' _ (isFinite_iff t)

theorem nodup_keys (t : SurfaceTrace) : (Json.keys t.members).Nodup := by
  simp only [members, Json.keys_cons, Json.keys_nil]
  decide

theorem decode?_toJson (h : t.IsFinite) : decode? (ofJson (.obj t.members)) = some t := by
  have hname : t.members.lookup "name" = some (.str t.name) := by simp [members]
  have hx : t.members.lookup "x" = some (Grid.toJson t.x) := by simp [members, List.lookup_cons]
  have hy : t.members.lookup "y" = some (Grid.toJson t.y) := by simp [members, List.lookup_cons]
  have hz : t.members.lookup "z" = some (Grid.toJson t.z) := by simp [members, List.lookup_cons]
  have hscale : t.members.lookup "colorscale" = some (.str t.colorscale) := by
    simp [members, List.lookup_cons]
  have hopacity : t.members.lookup "opacity" = some (.ofFloat t.opacity) := by
    simp [members, List.lookup_cons]
  have hshow : t.members.lookup "showscale" = some (.bool t.showScale) := by
    simp [members, List.lookup_cons]
  rw [decode?, Document.record?_ofJson_obj t.nodup_keys]
  simp only [required_ofMembers hname, required_ofMembers hx, required_ofMembers hy,
    required_ofMembers hz, required_ofMembers hscale, required_ofMembers hopacity,
    withDefault_ofMembers hshow, Document.str?_ofJson, Document.bool?_ofJson,
    Grid.decode?_toJson h.x, Grid.decode?_toJson h.y, Grid.decode?_toJson h.z,
    Document.float?_ofFloat h.opacity, Option.bind_eq_bind, Option.bind_some, Option.pure_def]

end SurfaceTrace

/-! ## Taking in a trace as a free-form value -/

namespace Document
variable {levels : Nat}

/-- A value with no more than `levels` nested containers can be taken in. -/
def Fits (levels : Nat) (j : Json) : Prop :=
  (toJson? levels (ofJson j)).isSome = true

theorem isSome_toItems? {items : List Json} (h : ∀ j ∈ items, Fits levels j) :
    (toItems? levels (ofItems items)).isSome = true := by
  induction items with
  | nil => simp [ofItems, toItems?]
  | cons j js ih =>
    obtain ⟨hj, hjs⟩ := List.forall_mem_cons.mp h
    obtain ⟨j', hj'⟩ := Option.isSome_iff_exists.mp hj
    obtain ⟨js', hjs'⟩ := Option.isSome_iff_exists.mp (ih hjs)
    simp only [ofItems, toItems?, hj', hjs', Option.isSome_some]

theorem isSome_toMembers? {members : List (String × Json)}
    (h : ∀ m ∈ members, Fits levels m.2) :
    (toMembers? levels (ofMembers members)).isSome = true := by
  induction members with
  | nil => simp [ofMembers, toMembers?]
  | cons m ms ih =>
    obtain ⟨hm, hms⟩ := List.forall_mem_cons.mp h
    obtain ⟨j, hj⟩ := Option.isSome_iff_exists.mp hm
    obtain ⟨js, hjs⟩ := Option.isSome_iff_exists.mp (ih hms)
    obtain ⟨k, v⟩ := m
    simp only [ofMembers, toMembers?, hj, hjs, Option.isSome_some]

theorem Fits.arr {items : List Json} (h : ∀ j ∈ items, Fits levels j) :
    Fits (levels + 1) (.arr items) := by
  rw [Fits, ofJson, toJson?, Option.isSome_map]
  exact isSome_toItems? h

theorem Fits.obj {members : List (String × Json)} (h : ∀ m ∈ members, Fits levels m.2) :
    Fits (levels + 1) (.obj members) := by
  rw [Fits, ofJson, toJson?, Option.isSome_map]
  exact isSome_toMembers? h

theorem Fits.list {α : Type} {encode : α → Json} {items : List α}
    (h : ∀ a ∈ items, Fits levels (encode a)) : Fits (levels + 1) (Json.list encode items) := by
  refine Fits.arr fun j hj => ?_
  obtain ⟨a, ha, rfl⟩ := List.mem_map.mp hj
  exact h a ha

/-! ### The values inside a trace -/

@[simp] theorem fits_str (s : String) : Fits levels (.str s) := by
  rw [Fits, ofJson, toJson?, Option.isSome_some]

@[simp] theorem fits_bool (b : Bool) : Fits levels (.bool b) := by
  rw [Fits, ofJson, toJson?, Option.isSome_some]

@[simp] theorem fits_ofFloat (x : Float) : Fits levels (.ofFloat x) := by
  unfold Json.ofFloat
  split <;> rw [Fits, ofJson, toJson?, Option.isSome_some]

theorem fits_floats (values : List Float) : Fits (levels + 1) (Json.list .ofFloat values) :=
  Fits.list fun v _ => fits_ofFloat v

theorem fits_grid (g : Grid) : Fits (levels + 2) (Grid.toJson g) :=
  Fits.list fun row _ => fits_floats row

theorem fits_optional {α : Type} {key : String} {encode : α → Json} {a : Option α}
    (h : ∀ b ∈ a, Fits levels (encode b)) : ∀ m ∈ Json.optional key encode a, Fits levels m.2 := by
  cases a with
  | none => exact List.forall_mem_nil _
  | some b => exact fun m hm => List.mem_singleton.mp hm ▸ h b rfl

theorem fits_nonempty {key : String} (texts : List String) :
    ∀ m ∈ Json.nonempty key .str texts, Fits (levels + 1) m.2 := by
  cases texts with
  | nil => exact List.forall_mem_nil _
  | cons s texts =>
    exact fun m hm => List.mem_singleton.mp hm ▸ Fits.list fun s _ => fits_str s

end Document

open Document (Fits fits_optional fits_nonempty fits_floats fits_grid fits_str fits_bool
  fits_ofFloat)

theorem LineStyle.fits (l : LineStyle) (levels : Nat) : Fits (levels + 1) l.toJson := by
  refine Fits.obj fun m hm => ?_
  rcases List.mem_append.mp hm with hm | hm
  · simp only [List.mem_cons, List.not_mem_nil, or_false] at hm
    rcases hm with rfl | rfl
    · exact fits_str _
    · exact fits_ofFloat _
  · exact fits_optional (fun s _ => fits_str s) m hm

theorem MarkerStyle.fits (m : MarkerStyle) (levels : Nat) : Fits (levels + 1) m.toJson := by
  refine Fits.obj fun m hm => ?_
  simp only [List.mem_cons, List.not_mem_nil, or_false] at hm
  rcases hm with rfl | rfl
  · exact fits_str _
  · exact fits_ofFloat _

theorem Fill.fits_members (f : Fill) (levels : Nat) : ∀ m ∈ f.members, Fits levels m.2 := by
  unfold members
  split
  · exact List.forall_mem_nil _
  · exact fun m hm => List.mem_singleton.mp hm ▸ fits_str _

theorem PlanarTrace.fits_members (t : PlanarTrace) (levels : Nat) :
    ∀ m ∈ t.members, Fits (levels + 2) m.2 := by
  simp only [members, List.forall_mem_append, List.forall_mem_cons]
  exact ⟨⟨⟨⟨⟨⟨⟨⟨fits_str _, fits_str _, fits_floats _, fits_floats _, List.forall_mem_nil _⟩,
    fits_nonempty _⟩, fits_optional fun s _ => fits_str s⟩, fits_optional fun l _ => l.fits _⟩,
    fits_optional fun m _ => m.fits _⟩, t.fill.fits_members _⟩, fits_optional fun s _ => fits_str s⟩,
    fits_bool _, List.forall_mem_nil _⟩

theorem SpatialTrace.fits_members (t : SpatialTrace) (levels : Nat) :
    ∀ m ∈ t.members, Fits (levels + 2) m.2 := by
  simp only [members, List.forall_mem_append, List.forall_mem_cons]
  exact ⟨⟨⟨⟨fits_str _, fits_str _, fits_floats _, fits_floats _, fits_floats _,
    List.forall_mem_nil _⟩, fits_nonempty _⟩, fits_optional fun l _ => l.fits _⟩,
    fits_optional fun m _ => m.fits _⟩

theorem SurfaceTrace.fits_members (t : SurfaceTrace) (levels : Nat) :
    ∀ m ∈ t.members, Fits (levels + 2) m.2 := by
  simp only [members, List.forall_mem_cons]
  exact ⟨fits_str _, fits_grid _, fits_grid _, fits_grid _, fits_str _, fits_ofFloat _, fits_bool _,
    List.forall_mem_nil _⟩

/-! ## Traces -/

namespace Trace

/-- The members after the type. -/
def members : Trace → List (String × Json)
  | .planar t => t.members
  | .spatial t => t.members
  | .surface t => t.members

/-- The word for the type. -/
def typeName : Trace → String
  | .planar _ => PlanarTrace.typeName
  | .spatial _ => SpatialTrace.typeName
  | .surface _ => SurfaceTrace.typeName

/-- Every number of the trace is finite. -/
def IsFinite : Trace → Prop
  | .planar t => t.IsFinite
  | .spatial t => t.IsFinite
  | .surface t => t.IsFinite

instance : (t : Trace) → Decidable t.IsFinite
  | .planar t => inferInstanceAs (Decidable t.IsFinite)
  | .spatial t => inferInstanceAs (Decidable t.IsFinite)
  | .surface t => inferInstanceAs (Decidable t.IsFinite)

theorem toJson_eq (t : Trace) : t.toJson = .obj (("type", .str t.typeName) :: t.members) := by
  cases t <;> rfl

/-- The type is not repeated among the other members. -/
theorem type_notMem_keys (t : Trace) : "type" ∉ Json.keys t.members := by
  cases t with
  | planar t => exact fun h => absurd (t.keys_members.subset h) (by decide)
  | spatial t => exact fun h => absurd (t.keys_members.subset h) (by decide)
  | surface t =>
    simp only [members, SurfaceTrace.members, Json.keys_cons, Json.keys_nil]
    decide

theorem fits (t : Trace) (levels : Nat) : Fits (levels + 3) t.toJson := by
  rw [toJson_eq]
  refine Fits.obj (List.forall_mem_cons.mpr ⟨fits_str _, ?_⟩)
  cases t with
  | planar t => exact t.fits_members levels
  | spatial t => exact t.fits_members levels
  | surface t => exact t.fits_members levels

/-- A type in front of other members is taken off them. -/
theorem splitType?_ofJson {type : Json} {members : List (String × Json)}
    (h : "type" ∉ Json.keys members) :
    splitType? (ofJson (.obj (("type", type) :: members))) =
      some (ofJson type, ofJson (.obj members)) := by
  have hne : ∀ m ∈ ofMembers members, m.1 ≠ "type" := by
    intro m hm hname
    refine h ?_
    rw [← Document.map_fst_ofMembers, ← hname]
    exact List.mem_map_of_mem hm
  have hothers : (ofMembers members).filter (fun m => m.1 = "type") = [] :=
    List.filter_eq_nil_iff.mpr fun m hm => by simp [hne m hm]
  have hrest : (ofMembers members).filter (fun m => m.1 ≠ "type") = ofMembers members :=
    List.filter_eq_self.mpr fun m hm => by simp [hne m hm]
  simp only [ofJson, ofMembers, splitType?]
  rw [List.filter_cons_of_pos (by simp), hothers, List.filter_cons_of_neg (by simp), hrest]

theorem ofRecord?_ofJson {t : Trace} (h : t.IsFinite) :
    ofRecord? t.typeName (ofJson (.obj t.members)) = some t := by
  cases t with
  | planar t => rw [ofRecord?, typeName, if_pos rfl, members, t.decode?_toJson h, Option.map_some]
  | spatial t =>
    rw [ofRecord?, typeName, if_neg (by decide), if_pos rfl, members, t.decode?_toJson h,
      Option.map_some]
  | surface t =>
    rw [ofRecord?, typeName, if_neg (by decide), if_neg (by decide), if_pos rfl, members,
      t.decode?_toJson h, Option.map_some]

theorem decode?_toJson {t : Trace} (h : t.IsFinite) (levels : Nat) :
    decode? (levels + 3) (ofJson t.toJson) = some t := by
  obtain ⟨j, hj⟩ := Option.isSome_iff_exists.mp (t.fits levels)
  have hsplit : splitType? (ofJson (.obj (("type", .str t.typeName) :: t.members))) =
      some (ofJson (.str t.typeName), ofJson (.obj t.members)) :=
    splitType?_ofJson t.type_notMem_keys
  rw [decode?, hj, Option.bind_eq_bind, Option.bind_some, toJson_eq, hsplit]
  simp only [Option.bind_eq_bind, Option.bind_some, Document.str?_ofJson, ofRecord?_ofJson h]

end Trace
end Plotting
