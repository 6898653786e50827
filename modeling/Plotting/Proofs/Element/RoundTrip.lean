import Mathlib
import Plotting.Element.Basic
import Plotting.Proofs.Element.Equality
import Plotting.Proofs.Json.FreeForm
import Plotting.Proofs.Json.Readable
import Plotting.Proofs.Trace.RoundTrip

/-!
# Payloads and styles are read back

The payload of an element is a record that is written as a free-form value and decoded from one,
and so is its style.  `Document.Stores` collects what the way there and back needs of such a
record: with finite numbers it is read back from its own form, its form is free-form, and what is
decoded from a readable document has finite numbers.  Three levels of containers are room enough
for all of them: the record, its list of points or rows, and the coordinates.

Every record is written with its members in the order of their names, which is why its form is
free-form as it stands: taking it in as a free-form value sorts nothing.
-/

namespace Plotting

open Document (ofJson ofMembers Yields)
open Document.Record (withDefault_ofMembers optional_ofMembers lenient_ofMembers
  lenient_ofMembers_of_none withDefault_yields optional_yields lenient_yields)

namespace Document

/-! ## Texts and numbers that may be missing -/

namespace Record
variable {members : List (String × Json)} {field : String}

/-- A text that is left out when there is none. -/
theorem optional_text {s : Option String} (h : members.lookup field = s.map .str) :
    Record.optional (ofMembers members) field str? = some s :=
  optional_ofMembers rfl h fun s _ => str?_ofJson s

/-- A number that is left out when there is none. -/
theorem optional_number {x : Option Float} (h : members.lookup field = x.map .ofFloat)
    (hx : ∀ y ∈ x, y.isFinite = true) :
    Record.optional (ofMembers members) field float? = some x :=
  optional_ofMembers rfl h fun y hy => float?_ofFloat (hx y hy)

/-- A text that counts only if it is one. -/
theorem lenientText_ofMembers {s : Option String} (h : members.lookup field = s.map .str) :
    Record.lenientText (ofMembers members) field = s := by
  cases s with
  | none => exact lenient_ofMembers_of_none h
  | some s => exact lenient_ofMembers h rfl

end Record

/-! ## Records that can be stored -/

/-- A record that can be stored: with finite numbers it is read back from its form, its form is
free-form, and whatever is decoded from a readable document has finite numbers.  So has the empty
record, which stands for what cannot be decoded. -/
structure Stores {α : Type} (encode : α → Json) (decode : Document → Option α) (empty : α)
    (IsFinite : α → Prop) : Prop where
  readBack : ∀ {a}, IsFinite a → decode (ofJson (encode a)) = some a
  freeForm : ∀ a, (encode a).IsFreeForm 3
  yields : Yields decode IsFinite
  isFinite_empty : IsFinite empty

namespace Stores
variable {α : Type} {encode : α → Json} {decode : Document → Option α} {empty a : α}
  {IsFinite : α → Prop}

theorem getD_readBack (h : Stores encode decode empty IsFinite) (ha : IsFinite a) :
    (decode (ofJson (encode a))).getD empty = a := by
  rw [h.readBack ha, Option.getD_some]

/-- Whatever a free-form value is taken for has finite numbers. -/
theorem isFinite_getD (h : Stores encode decode empty IsFinite) {j : Json} (hj : j.IsPrintable) :
    IsFinite ((decode (ofJson j)).getD empty) := by
  cases hread : decode (ofJson j) with
  | none => exact h.isFinite_empty
  | some a => exact h.yields _ (isReadable_ofJson hj) a hread

end Stores
end Document

open Document (Stores isReadable_of_record?)
open Document.Record (optional_text optional_number lenientText_ofMembers)

/-! ## Points -/

theorem isFinite_zero : (0 : Float).isFinite = true := by
  decide

namespace Point2

theorem isFreeForm_toJson (p : Point2) (levels : ℕ) : p.toJson.IsFreeForm (levels + 1) :=
  Json.isFreeForm_floats [p.x, p.y]

theorem yields_decode? : Yields decode? fun p => p.isFinite = true := by
  intro d hd p h
  obtain ⟨⟨x, y⟩, hpair, rfl⟩ := Option.map_eq_some_iff.mp h
  obtain ⟨values, hvalues, h⟩ := Option.bind_eq_some_iff.mp hpair
  have hfinite := Yields.float?.list? d hd values hvalues
  split at h
  · cases h
    rw [isFinite, Bool.and_eq_true]
    exact ⟨hfinite _ (by simp), hfinite _ (by simp)⟩
  · cases h

/-- Every point is finite. -/
def AllFinite (ps : List Point2) : Prop :=
  ∀ p ∈ ps, p.isFinite = true

theorem list?_toJson {ps : List Point2} (h : AllFinite ps) :
    Document.list? decode? (ofJson (Json.list toJson ps)) = some ps :=
  Document.list?_ofJson_list fun p hp => decode?_toJson (h p hp)

theorem isFreeForm_list (ps : List Point2) (levels : ℕ) :
    (Json.list toJson ps).IsFreeForm (levels + 2) :=
  Json.isFreeForm_list fun p _ => p.isFreeForm_toJson levels

end Point2

namespace Point3

theorem decode?_toJson {p : Point3} (h : p.isFinite = true) :
    decode? (ofJson p.toJson) = some p := by
  simp only [isFinite, Bool.and_eq_true] at h
  obtain ⟨⟨hx, hy⟩, hz⟩ := h
  have hfloats : Document.list? Document.float? (ofJson p.toJson) = some [p.x, p.y, p.z] :=
    Document.floats?_ofJson (show ∀ v ∈ [p.x, p.y, p.z], v.isFinite = true by simp [hx, hy, hz])
  rw [decode?, hfloats]
  rfl

theorem isFreeForm_toJson (p : Point3) (levels : ℕ) : p.toJson.IsFreeForm (levels + 1) :=
  Json.isFreeForm_floats [p.x, p.y, p.z]

theorem yields_decode? : Yields decode? fun p => p.isFinite = true := by
  intro d hd p h
  obtain ⟨values, hvalues, h⟩ := Option.bind_eq_some_iff.mp h
  have hfinite := Yields.float?.list? d hd values hvalues
  simp only [isFinite, Bool.and_eq_true]
  split at h
  · cases h
    exact ⟨⟨hfinite _ (by simp), hfinite _ (by simp)⟩, isFinite_zero⟩
  · cases h
    exact ⟨⟨hfinite _ (by simp), hfinite _ (by simp)⟩, hfinite _ (by simp)⟩
  · cases h

end Point3

/-! ## Planar payloads -/

namespace Path

/-- Every point is finite. -/
def IsFinite (p : Path) : Prop :=
  Point2.AllFinite p.points

/-- The members of a path. -/
def members (p : Path) : List (String × Json) :=
  Json.optional "label" .str p.label ++ [("points", Json.list Point2.toJson p.points)]

theorem toJson_eq (p : Path) : p.toJson = .obj p.members := rfl

theorem ordered_members (p : Path) : Json.Ordered p.members := by
  refine .of_sublist (["label"] ++ ["points"]) ?_ (by decide)
  rw [members, Json.keys_append]
  exact (Json.keys_optional _).append (List.Sublist.refl _)

theorem stores : Stores toJson decode? {} IsFinite where
  readBack {p} h := by
    have hpoints : p.members.lookup "points" = some (Json.list Point2.toJson p.points) := by
      simp [members, List.lookup_append]
    have hlabel : p.members.lookup "label" = p.label.map .str := by
      simp [members, List.lookup_append, List.lookup_cons]
    rw [toJson_eq, decode?, Document.record?_ofJson_obj p.ordered_members.nodup_keys]
    simp only [withDefault_ofMembers hpoints, Point2.list?_toJson h, lenientText_ofMembers hlabel,
      Option.bind_eq_bind, Option.bind_some, Option.pure_def]
  freeForm p := by
    refine Json.isFreeForm_obj p.ordered_members ?_
    simp only [List.forall_mem_append, List.forall_mem_singleton]
    exact ⟨Json.isFreeForm_text _, Point2.isFreeForm_list _ _⟩
  yields := by
    intro d hd p h
    obtain ⟨r, hr, h⟩ := Option.bind_eq_some_iff.mp h
    obtain ⟨points, hpoints, h⟩ := Option.bind_eq_some_iff.mp h
    obtain rfl := Option.some.inj h
    exact withDefault_yields (P := Point2.AllFinite) (isReadable_of_record? hd hr)
      (List.forall_mem_nil _) Point2.yields_decode?.list? hpoints
  isFinite_empty := List.forall_mem_nil _

end Path

namespace Marker

/-- The point is finite, if there is one. -/
def IsFinite (m : Marker) : Prop :=
  ∀ p ∈ m.coords, p.isFinite = true

/-- The members of a marked point. -/
def members (m : Marker) : List (String × Json) :=
  Json.optional "coords" Point2.toJson m.coords ++ Json.optional "label" .str m.label

theorem toJson_eq (m : Marker) : m.toJson = .obj m.members := rfl

theorem ordered_members (m : Marker) : Json.Ordered m.members := by
  refine .of_sublist (["coords"] ++ ["label"]) ?_ (by decide)
  rw [members, Json.keys_append]
  exact (Json.keys_optional _).append (Json.keys_optional _)

theorem stores : Stores toJson decode? {} IsFinite where
  readBack {m} h := by
    have hcoords : m.members.lookup "coords" = m.coords.map Point2.toJson := by
      simp [members, List.lookup_append]
    have hlabel : m.members.lookup "label" = m.label.map .str := by
      simp [members, List.lookup_append]
    rw [toJson_eq, decode?, Document.record?_ofJson_obj m.ordered_members.nodup_keys]
    simp only [optional_ofMembers rfl hcoords fun p hp => Point2.decode?_toJson (h p hp),
      lenientText_ofMembers hlabel, Option.bind_eq_bind, Option.bind_some, Option.pure_def]
  freeForm m := by
    refine Json.isFreeForm_obj m.ordered_members ?_
    simp only [List.forall_mem_append]
    exact ⟨Json.isFreeForm_optional fun p _ => p.isFreeForm_toJson _, Json.isFreeForm_text _⟩
  yields := by
    intro d hd m h
    obtain ⟨r, hr, h⟩ := Option.bind_eq_some_iff.mp h
    obtain ⟨coords, hcoords, h⟩ := Option.bind_eq_some_iff.mp h
    obtain rfl := Option.some.inj h
    exact optional_yields (isReadable_of_record? hd hr) Point2.yields_decode? hcoords
  isFinite_empty := fun _ h => nomatch h

end Marker

namespace Markers

/-- Every point is finite. -/
def IsFinite (m : Markers) : Prop :=
  Point2.AllFinite m.coords

/-- The members of marked points. -/
def members (m : Markers) : List (String × Json) :=
  [("coords", Json.list Point2.toJson m.coords)] ++ Json.nonempty "labels" .str m.labels

theorem toJson_eq (m : Markers) : m.toJson = .obj m.members := rfl

theorem ordered_members (m : Markers) : Json.Ordered m.members := by
  refine .of_sublist (["coords"] ++ ["labels"]) ?_ (by decide)
  rw [members, Json.keys_append]
  exact (List.Sublist.refl _).append (Json.keys_nonempty _)

/-- An empty list of labels is left out, and it is empty when left out. -/
theorem lenient_labels (m : Markers) :
    Document.Record.lenient (ofMembers m.members) "labels" [] (Document.list? Document.str?) =
      m.labels := by
  have hlookup : m.members.lookup "labels" =
      if m.labels ≠ [] then some (Json.list .str m.labels) else none := by
    simp [members, List.lookup_cons]
  by_cases hlabels : m.labels = []
  · rw [if_neg fun h => h hlabels] at hlookup
    rw [lenient_ofMembers_of_none hlookup, hlabels]
  · rw [if_pos hlabels] at hlookup
    exact lenient_ofMembers hlookup
      (Document.list?_ofJson_list fun s _ => Document.str?_ofJson s)

theorem stores : Stores toJson decode? {} IsFinite where
  readBack {m} h := by
    have hcoords : m.members.lookup "coords" = some (Json.list Point2.toJson m.coords) := by
      simp [members]
    rw [toJson_eq, decode?, Document.record?_ofJson_obj m.ordered_members.nodup_keys]
    simp only [withDefault_ofMembers hcoords, Point2.list?_toJson h, lenient_labels,
      Option.bind_eq_bind, Option.bind_some, Option.pure_def]
  freeForm m := by
    refine Json.isFreeForm_obj m.ordered_members ?_
    simp only [List.forall_mem_append, List.forall_mem_singleton]
    refine ⟨Point2.isFreeForm_list _ _, Json.isFreeForm_nonempty fun s _ => ?_⟩
    exact Json.isFreeForm_str s
  yields := by
    intro d hd m h
    obtain ⟨r, hr, h⟩ := Option.bind_eq_some_iff.mp h
    obtain ⟨coords, hcoords, h⟩ := Option.bind_eq_some_iff.mp h
    obtain rfl := Option.some.inj h
    exact withDefault_yields (P := Point2.AllFinite) (isReadable_of_record? hd hr)
      (List.forall_mem_nil _) Point2.yields_decode?.list? hcoords
  isFinite_empty := List.forall_mem_nil _

end Markers

namespace Segment

/-- The ends are finite, as far as there are any. -/
structure IsFinite (s : Segment) : Prop where
  first : ∀ p ∈ s.first, p.isFinite = true
  last : ∀ p ∈ s.last, p.isFinite = true

/-- The members of a segment. -/
def members (s : Segment) : List (String × Json) :=
  Json.optional "from" Point2.toJson s.first ++ Json.optional "label" .str s.label ++
    Json.optional "to" Point2.toJson s.last

theorem toJson_eq (s : Segment) : s.toJson = .obj s.members := rfl

theorem ordered_members (s : Segment) : Json.Ordered s.members := by
  refine .of_sublist (["from"] ++ ["label"] ++ ["to"]) ?_ (by decide)
  simp only [members, Json.keys_append]
  exact ((Json.keys_optional _).append (Json.keys_optional _)).append (Json.keys_optional _)

theorem stores : Stores toJson decode? {} IsFinite where
  readBack {s} h := by
    have hfirst : s.members.lookup "from" = s.first.map Point2.toJson := by
      simp [members, List.lookup_append]
    have hlast : s.members.lookup "to" = s.last.map Point2.toJson := by
      simp [members, List.lookup_append]
    have hlabel : s.members.lookup "label" = s.label.map .str := by
      simp [members, List.lookup_append]
    rw [toJson_eq, decode?, Document.record?_ofJson_obj s.ordered_members.nodup_keys]
    simp only [optional_ofMembers rfl hfirst fun p hp => Point2.decode?_toJson (h.first p hp),
      optional_ofMembers rfl hlast fun p hp => Point2.decode?_toJson (h.last p hp),
      lenientText_ofMembers hlabel, Option.bind_eq_bind, Option.bind_some, Option.pure_def]
  freeForm s := by
    refine Json.isFreeForm_obj s.ordered_members ?_
    simp only [List.forall_mem_append]
    exact ⟨⟨Json.isFreeForm_optional fun p _ => p.isFreeForm_toJson _, Json.isFreeForm_text _⟩,
      Json.isFreeForm_optional fun p _ => p.isFreeForm_toJson _⟩
  yields := by
    intro d hd s h
    obtain ⟨r, hr, h⟩ := Option.bind_eq_some_iff.mp h
    obtain ⟨first, hfirst, h⟩ := Option.bind_eq_some_iff.mp h
    obtain ⟨last, hlast, h⟩ := Option.bind_eq_some_iff.mp h
    obtain rfl := Option.some.inj h
    have hr' := isReadable_of_record? hd hr
    exact ⟨optional_yields hr' Point2.yields_decode? hfirst,
      optional_yields hr' Point2.yields_decode? hlast⟩
  isFinite_empty := ⟨fun _ h => (nomatch h), fun _ h => (nomatch h)⟩

end Segment

namespace Circle

/-- The centre is finite, and so is the radius, if there is one. -/
structure IsFinite (c : Circle) : Prop where
  center : c.center.isFinite = true
  radius : ∀ x ∈ c.radius, x.isFinite = true

/-- The members of a circle. -/
def members (c : Circle) : List (String × Json) :=
  [("center", c.center.toJson)] ++ Json.optional "label" .str c.label ++
    Json.optional "radius" .ofFloat c.radius

theorem toJson_eq (c : Circle) : c.toJson = .obj c.members := rfl

theorem ordered_members (c : Circle) : Json.Ordered c.members := by
  refine .of_sublist (["center"] ++ ["label"] ++ ["radius"]) ?_ (by decide)
  simp only [members, Json.keys_append]
  exact ((List.Sublist.refl _).append (Json.keys_optional _)).append (Json.keys_optional _)

theorem stores : Stores toJson decode? {} IsFinite where
  readBack {c} h := by
    have hcenter : c.members.lookup "center" = some c.center.toJson := by simp [members]
    have hradius : c.members.lookup "radius" = c.radius.map .ofFloat := by
      simp [members, List.lookup_append, List.lookup_cons]
    have hlabel : c.members.lookup "label" = c.label.map .str := by
      simp [members, List.lookup_append, List.lookup_cons]
    rw [toJson_eq, decode?, Document.record?_ofJson_obj c.ordered_members.nodup_keys]
    simp only [withDefault_ofMembers hcenter, Point2.decode?_toJson h.center,
      optional_number hradius h.radius, lenientText_ofMembers hlabel, Option.bind_eq_bind,
      Option.bind_some, Option.pure_def]
  freeForm c := by
    refine Json.isFreeForm_obj c.ordered_members ?_
    simp only [List.forall_mem_append, List.forall_mem_singleton]
    exact ⟨⟨c.center.isFreeForm_toJson _, Json.isFreeForm_text _⟩, Json.isFreeForm_number _⟩
  yields := by
    intro d hd c h
    obtain ⟨r, hr, h⟩ := Option.bind_eq_some_iff.mp h
    obtain ⟨center, hcenter, h⟩ := Option.bind_eq_some_iff.mp h
    obtain ⟨radius, hradius, h⟩ := Option.bind_eq_some_iff.mp h
    obtain rfl := Option.some.inj h
    have hr' := isReadable_of_record? hd hr
    exact ⟨withDefault_yields (P := fun p => p.isFinite = true) hr' (by decide)
      Point2.yields_decode? hcenter, optional_yields hr' .float? hradius⟩
  isFinite_empty := ⟨by decide, fun _ h => nomatch h⟩

end Circle

namespace Area

/-- Every point is finite, and so is the baseline. -/
structure IsFinite (a : Area) : Prop where
  points : Point2.AllFinite a.points
  baseline : a.baseline.isFinite = true

/-- The members of an area. -/
def members (a : Area) : List (String × Json) :=
  [("baseline", .ofFloat a.baseline)] ++ Json.optional "label" .str a.label ++
    [("points", Json.list Point2.toJson a.points)]

theorem toJson_eq (a : Area) : a.toJson = .obj a.members := rfl

theorem ordered_members (a : Area) : Json.Ordered a.members := by
  refine .of_sublist (["baseline"] ++ ["label"] ++ ["points"]) ?_ (by decide)
  simp only [members, Json.keys_append]
  exact ((List.Sublist.refl _).append (Json.keys_optional _)).append (List.Sublist.refl _)

theorem stores : Stores toJson decode? {} IsFinite where
  readBack {a} h := by
    have hpoints : a.members.lookup "points" = some (Json.list Point2.toJson a.points) := by
      simp [members, List.lookup_append, List.lookup_cons]
    have hbaseline : a.members.lookup "baseline" = some (.ofFloat a.baseline) := by
      simp [members]
    have hlabel : a.members.lookup "label" = a.label.map .str := by
      simp [members, List.lookup_append, List.lookup_cons]
    rw [toJson_eq, decode?, Document.record?_ofJson_obj a.ordered_members.nodup_keys]
    simp only [withDefault_ofMembers hpoints, Point2.list?_toJson h.points,
      lenient_ofMembers hbaseline (Document.float?_ofFloat h.baseline),
      lenientText_ofMembers hlabel, Option.bind_eq_bind, Option.bind_some, Option.pure_def]
  freeForm a := by
    refine Json.isFreeForm_obj a.ordered_members ?_
    simp only [List.forall_mem_append, List.forall_mem_singleton]
    exact ⟨⟨Json.isFreeForm_ofFloat _, Json.isFreeForm_text _⟩, Point2.isFreeForm_list _ _⟩
  yields := by
    intro d hd a h
    obtain ⟨r, hr, h⟩ := Option.bind_eq_some_iff.mp h
    obtain ⟨points, hpoints, h⟩ := Option.bind_eq_some_iff.mp h
    obtain rfl := Option.some.inj h
    have hr' := isReadable_of_record? hd hr
    exact ⟨withDefault_yields (P := Point2.AllFinite) hr' (List.forall_mem_nil _)
      Point2.yields_decode?.list? hpoints,
      lenient_yields (P := fun x : Float => x.isFinite = true) hr' isFinite_zero .float?⟩
  isFinite_empty := ⟨List.forall_mem_nil _, isFinite_zero⟩

end Area

namespace Polygon

/-- Every corner is finite. -/
def IsFinite (p : Polygon) : Prop :=
  Point2.AllFinite p.vertices

/-- The members of a polygon. -/
def members (p : Polygon) : List (String × Json) :=
  Json.optional "label" .str p.label ++ [("vertices", Json.list Point2.toJson p.vertices)]

theorem toJson_eq (p : Polygon) : p.toJson = .obj p.members := rfl

theorem ordered_members (p : Polygon) : Json.Ordered p.members := by
  refine .of_sublist (["label"] ++ ["vertices"]) ?_ (by decide)
  rw [members, Json.keys_append]
  exact (Json.keys_optional _).append (List.Sublist.refl _)

theorem stores : Stores toJson decode? {} IsFinite where
  readBack {p} h := by
    have hvertices : p.members.lookup "vertices" = some (Json.list Point2.toJson p.vertices) := by
      simp [members, List.lookup_append]
    have hlabel : p.members.lookup "label" = p.label.map .str := by
      simp [members, List.lookup_append, List.lookup_cons]
    rw [toJson_eq, decode?, Document.record?_ofJson_obj p.ordered_members.nodup_keys]
    simp only [withDefault_ofMembers hvertices, Point2.list?_toJson h,
      lenientText_ofMembers hlabel, Option.bind_eq_bind, Option.bind_some, Option.pure_def]
  freeForm p := by
    refine Json.isFreeForm_obj p.ordered_members ?_
    simp only [List.forall_mem_append, List.forall_mem_singleton]
    exact ⟨Json.isFreeForm_text _, Point2.isFreeForm_list _ _⟩
  yields := by
    intro d hd p h
    obtain ⟨r, hr, h⟩ := Option.bind_eq_some_iff.mp h
    obtain ⟨vertices, hvertices, h⟩ := Option.bind_eq_some_iff.mp h
    obtain rfl := Option.some.inj h
    exact withDefault_yields (P := Point2.AllFinite) (isReadable_of_record? hd hr)
      (List.forall_mem_nil _) Point2.yields_decode?.list? hvertices
  isFinite_empty := List.forall_mem_nil _

end Polygon

/-! ## Spatial payloads -/

theorem Grid.isFreeForm_toJson (g : Grid) (levels : ℕ) : (Grid.toJson g).IsFreeForm (levels + 2) :=
  Json.isFreeForm_list fun row _ => Json.isFreeForm_floats row

theorem Grid.yields_decode? : Yields Grid.decode? Grid.IsFinite :=
  Yields.float?.list?.list?

namespace Surface

/-- Every cell is finite, and so is the opacity, if there is one. -/
structure IsFinite (s : Surface) : Prop where
  x : Grid.IsFinite s.x
  y : Grid.IsFinite s.y
  z : Grid.IsFinite s.z
  opacity : ∀ o ∈ s.opacity, o.isFinite = true

/-- The members of a surface. -/
def members (s : Surface) : List (String × Json) :=
  Json.optional "colorscale" .str s.colorscale ++ Json.optional "label" .str s.label ++
    Json.optional "opacity" .ofFloat s.opacity ++
    [("x", Grid.toJson s.x), ("y", Grid.toJson s.y), ("z", Grid.toJson s.z)]

theorem toJson_eq (s : Surface) : s.toJson = .obj s.members := rfl

theorem ordered_members (s : Surface) : Json.Ordered s.members := by
  refine .of_sublist (["colorscale"] ++ ["label"] ++ ["opacity"] ++ ["x", "y", "z"]) ?_
    (by decide)
  simp only [members, Json.keys_append]
  exact (((Json.keys_optional _).append (Json.keys_optional _)).append
    (Json.keys_optional _)).append (List.Sublist.refl _)

/-- An opacity is left out when there is none. -/
theorem lenient_opacity {s : Surface} (h : ∀ o ∈ s.opacity, o.isFinite = true) :
    Document.Record.lenient (ofMembers s.members) "opacity" none
      (fun d => d.float?.map some) = s.opacity := by
  have hlookup : s.members.lookup "opacity" = s.opacity.map .ofFloat := by
    simp [members, List.lookup_append, List.lookup_cons]
  cases hopacity : s.opacity with
  | none =>
    rw [hopacity] at hlookup
    exact lenient_ofMembers_of_none hlookup
  | some o =>
    rw [hopacity] at hlookup
    refine lenient_ofMembers hlookup ?_
    rw [Document.float?_ofFloat (h o hopacity), Option.map_some]

theorem stores : Stores toJson decode? {} IsFinite where
  readBack {s} h := by
    have hx : s.members.lookup "x" = some (Grid.toJson s.x) := by
      simp [members, List.lookup_append]
    have hy : s.members.lookup "y" = some (Grid.toJson s.y) := by
      simp [members, List.lookup_append, List.lookup_cons]
    have hz : s.members.lookup "z" = some (Grid.toJson s.z) := by
      simp [members, List.lookup_append, List.lookup_cons]
    have hscale : s.members.lookup "colorscale" = s.colorscale.map .str := by
      simp [members, List.lookup_append, List.lookup_cons]
    have hlabel : s.members.lookup "label" = s.label.map .str := by
      simp [members, List.lookup_append, List.lookup_cons]
    rw [toJson_eq, decode?, Document.record?_ofJson_obj s.ordered_members.nodup_keys]
    simp only [withDefault_ofMembers hx, withDefault_ofMembers hy, withDefault_ofMembers hz,
      Grid.decode?_toJson h.x, Grid.decode?_toJson h.y, Grid.decode?_toJson h.z,
      lenientText_ofMembers hscale, lenient_opacity h.opacity, lenientText_ofMembers hlabel,
      Option.bind_eq_bind, Option.bind_some, Option.pure_def]
  freeForm s := by
    refine Json.isFreeForm_obj s.ordered_members ?_
    simp only [List.forall_mem_append, List.forall_mem_cons]
    exact ⟨⟨⟨Json.isFreeForm_text _, Json.isFreeForm_text _⟩,
      Json.isFreeForm_number _⟩,
      Grid.isFreeForm_toJson _ _, Grid.isFreeForm_toJson _ _, Grid.isFreeForm_toJson _ _,
      List.forall_mem_nil _⟩
  yields := by
    intro d hd s h
    obtain ⟨r, hr, h⟩ := Option.bind_eq_some_iff.mp h
    obtain ⟨x, hx, h⟩ := Option.bind_eq_some_iff.mp h
    obtain ⟨y, hy, h⟩ := Option.bind_eq_some_iff.mp h
    obtain ⟨z, hz, h⟩ := Option.bind_eq_some_iff.mp h
    obtain rfl := Option.some.inj h
    have hr' := isReadable_of_record? hd hr
    have hempty : Grid.IsFinite [] := List.forall_mem_nil _
    have hopacity : Yields (fun d => d.float?.map some)
        fun o : Option Float => ∀ x : Float, x ∈ o → x.isFinite = true :=
      Yields.float?.map fun x hx => by
        rintro _ ⟨⟩
        exact hx
    exact ⟨withDefault_yields hr' hempty Grid.yields_decode? hx,
      withDefault_yields hr' hempty Grid.yields_decode? hy,
      withDefault_yields hr' hempty Grid.yields_decode? hz,
      lenient_yields hr' (fun _ h => nomatch h) hopacity⟩
  isFinite_empty := ⟨List.forall_mem_nil _, List.forall_mem_nil _, List.forall_mem_nil _,
    fun _ h => nomatch h⟩

end Surface

namespace Arrow

/-- The ends are finite, as far as there are any. -/
structure IsFinite (a : Arrow) : Prop where
  tail : ∀ p ∈ a.tail, p.isFinite = true
  head : ∀ p ∈ a.head, p.isFinite = true

/-- The members of an arrow. -/
def members (a : Arrow) : List (String × Json) :=
  Json.optional "end" Point3.toJson a.head ++ Json.optional "label" .str a.label ++
    Json.optional "start" Point3.toJson a.tail

theorem toJson_eq (a : Arrow) : a.toJson = .obj a.members := rfl

theorem ordered_members (a : Arrow) : Json.Ordered a.members := by
  refine .of_sublist (["end"] ++ ["label"] ++ ["start"]) ?_ (by decide)
  simp only [members, Json.keys_append]
  exact ((Json.keys_optional _).append (Json.keys_optional _)).append (Json.keys_optional _)

theorem stores : Stores toJson decode? {} IsFinite where
  readBack {a} h := by
    have htail : a.members.lookup "start" = a.tail.map Point3.toJson := by
      simp [members, List.lookup_append]
    have hhead : a.members.lookup "end" = a.head.map Point3.toJson := by
      simp [members, List.lookup_append]
    have hlabel : a.members.lookup "label" = a.label.map .str := by
      simp [members, List.lookup_append]
    rw [toJson_eq, decode?, Document.record?_ofJson_obj a.ordered_members.nodup_keys]
    simp only [optional_ofMembers rfl htail fun p hp => Point3.decode?_toJson (h.tail p hp),
      optional_ofMembers rfl hhead fun p hp => Point3.decode?_toJson (h.head p hp),
      lenientText_ofMembers hlabel, Option.bind_eq_bind, Option.bind_some, Option.pure_def]
  freeForm a := by
    refine Json.isFreeForm_obj a.ordered_members ?_
    simp only [List.forall_mem_append]
    exact ⟨⟨Json.isFreeForm_optional fun p _ => p.isFreeForm_toJson _, Json.isFreeForm_text _⟩,
      Json.isFreeForm_optional fun p _ => p.isFreeForm_toJson _⟩
  yields := by
    intro d hd a h
    obtain ⟨r, hr, h⟩ := Option.bind_eq_some_iff.mp h
    obtain ⟨tail, htail, h⟩ := Option.bind_eq_some_iff.mp h
    obtain ⟨head, hhead, h⟩ := Option.bind_eq_some_iff.mp h
    obtain rfl := Option.some.inj h
    have hr' := isReadable_of_record? hd hr
    exact ⟨optional_yields hr' Point3.yields_decode? htail,
      optional_yields hr' Point3.yields_decode? hhead⟩
  isFinite_empty := ⟨fun _ h => (nomatch h), fun _ h => (nomatch h)⟩

end Arrow

/-! ## Styles -/

namespace StrokeHint

/-- The width is finite, if there is one. -/
def IsFinite (s : StrokeHint) : Prop :=
  ∀ x ∈ s.width, x.isFinite = true

/-- The members of stroke hints. -/
def members (s : StrokeHint) : List (String × Json) :=
  Json.optional "color" .str s.color ++ Json.optional "dash" .str s.dash ++
    Json.optional "width" .ofFloat s.width

theorem toJson_eq (s : StrokeHint) : s.toJson = .obj s.members := rfl

theorem ordered_members (s : StrokeHint) : Json.Ordered s.members := by
  refine .of_sublist (["color"] ++ ["dash"] ++ ["width"]) ?_ (by decide)
  simp only [members, Json.keys_append]
  exact ((Json.keys_optional _).append (Json.keys_optional _)).append (Json.keys_optional _)

theorem isFreeForm_toJson (s : StrokeHint) (levels : ℕ) : s.toJson.IsFreeForm (levels + 1) := by
  refine Json.isFreeForm_obj s.ordered_members ?_
  simp only [List.forall_mem_append]
  exact ⟨⟨Json.isFreeForm_text _, Json.isFreeForm_text _⟩, Json.isFreeForm_number _⟩

theorem stores : Stores toJson decode? {} IsFinite where
  readBack {s} h := by
    have hcolor : s.members.lookup "color" = s.color.map .str := by
      simp [members, List.lookup_append]
    have hdash : s.members.lookup "dash" = s.dash.map .str := by
      simp [members, List.lookup_append]
    have hwidth : s.members.lookup "width" = s.width.map .ofFloat := by
      simp [members, List.lookup_append]
    rw [toJson_eq, decode?, Document.record?_ofJson_obj s.ordered_members.nodup_keys]
    simp only [optional_text hcolor, optional_number hwidth h, optional_text hdash,
      Option.bind_eq_bind, Option.bind_some, Option.pure_def]
  freeForm s := s.isFreeForm_toJson 2
  yields := by
    intro d hd s h
    obtain ⟨r, hr, h⟩ := Option.bind_eq_some_iff.mp h
    obtain ⟨color, -, h⟩ := Option.bind_eq_some_iff.mp h
    obtain ⟨width, hwidth, h⟩ := Option.bind_eq_some_iff.mp h
    obtain ⟨dash, -, h⟩ := Option.bind_eq_some_iff.mp h
    obtain rfl := Option.some.inj h
    exact optional_yields (isReadable_of_record? hd hr) .float? hwidth
  isFinite_empty := fun _ h => nomatch h

end StrokeHint

namespace ElementStyle

/-- The numbers are finite, as far as there are any. -/
structure IsFinite (s : ElementStyle) : Prop where
  width : ∀ x ∈ s.width, x.isFinite = true
  size : ∀ x ∈ s.size, x.isFinite = true
  opacity : ∀ x ∈ s.opacity, x.isFinite = true
  line : ∀ l ∈ s.line, l.IsFinite

theorem isFinite_empty : IsFinite {} where
  width _ h := nomatch h
  size _ h := nomatch h
  opacity _ h := nomatch h
  line _ h := nomatch h

/-- A style that equals the one without hints has none. -/
theorem eq_empty_of_beq {s : ElementStyle} (h : (s == {}) = true) : s = {} := by
  obtain ⟨hcolor, hwidth, hdash, hsize, hfill, hopacity, htitle, hline⟩ := beq_iff.mp h
  obtain ⟨color, width, dash, size, fillcolor, opacity, title, line⟩ := s
  simp only [Option.beq_none, Option.isNone_iff_eq_none] at *
  rw [hcolor, hwidth, hdash, hsize, hfill, hopacity, htitle, hline]

/-- The members of style hints. -/
def members (s : ElementStyle) : List (String × Json) :=
  Json.optional "color" .str s.color ++ Json.optional "dash" .str s.dash ++
    Json.optional "fillcolor" .str s.fillcolor ++ Json.optional "line" StrokeHint.toJson s.line ++
    Json.optional "opacity" .ofFloat s.opacity ++ Json.optional "size" .ofFloat s.size ++
    Json.optional "title" .str s.title ++ Json.optional "width" .ofFloat s.width

theorem toJson_eq (s : ElementStyle) : s.toJson = .obj s.members := rfl

theorem ordered_members (s : ElementStyle) : Json.Ordered s.members := by
  refine .of_sublist (["color"] ++ ["dash"] ++ ["fillcolor"] ++ ["line"] ++ ["opacity"] ++
    ["size"] ++ ["title"] ++ ["width"]) ?_ (by decide)
  simp only [members, Json.keys_append]
  exact (((((((Json.keys_optional _).append (Json.keys_optional _)).append
    (Json.keys_optional _)).append (Json.keys_optional _)).append (Json.keys_optional _)).append
    (Json.keys_optional _)).append (Json.keys_optional _)).append (Json.keys_optional _)

theorem stores : Stores toJson decode? {} IsFinite where
  readBack {s} h := by
    have hcolor : s.members.lookup "color" = s.color.map .str := by
      simp [members, List.lookup_append]
    have hwidth : s.members.lookup "width" = s.width.map .ofFloat := by
      simp [members, List.lookup_append]
    have hdash : s.members.lookup "dash" = s.dash.map .str := by
      simp [members, List.lookup_append]
    have hsize : s.members.lookup "size" = s.size.map .ofFloat := by
      simp [members, List.lookup_append]
    have hfill : s.members.lookup "fillcolor" = s.fillcolor.map .str := by
      simp [members, List.lookup_append]
    have hopacity : s.members.lookup "opacity" = s.opacity.map .ofFloat := by
      simp [members, List.lookup_append]
    have htitle : s.members.lookup "title" = s.title.map .str := by
      simp [members, List.lookup_append]
    have hline : s.members.lookup "line" = s.line.map StrokeHint.toJson := by
      simp [members, List.lookup_append]
    rw [toJson_eq, decode?, Document.record?_ofJson_obj s.ordered_members.nodup_keys]
    simp only [optional_text hcolor, optional_number hwidth h.width, optional_text hdash,
      optional_number hsize h.size, optional_text hfill, optional_number hopacity h.opacity,
      optional_text htitle,
      optional_ofMembers rfl hline fun l hl => StrokeHint.stores.readBack (h.line l hl),
      Option.bind_eq_bind, Option.bind_some, Option.pure_def]
  freeForm s := by
    refine Json.isFreeForm_obj s.ordered_members ?_
    simp only [List.forall_mem_append]
    exact ⟨⟨⟨⟨⟨⟨⟨Json.isFreeForm_text _, Json.isFreeForm_text _⟩, Json.isFreeForm_text _⟩,
      Json.isFreeForm_optional fun l _ => l.isFreeForm_toJson _⟩, Json.isFreeForm_number _⟩,
      Json.isFreeForm_number _⟩, Json.isFreeForm_text _⟩, Json.isFreeForm_number _⟩
  yields := by
    intro d hd s h
    obtain ⟨r, hr, h⟩ := Option.bind_eq_some_iff.mp h
    obtain ⟨color, -, h⟩ := Option.bind_eq_some_iff.mp h
    obtain ⟨width, hwidth, h⟩ := Option.bind_eq_some_iff.mp h
    obtain ⟨dash, -, h⟩ := Option.bind_eq_some_iff.mp h
    obtain ⟨size, hsize, h⟩ := Option.bind_eq_some_iff.mp h
    obtain ⟨fillcolor, -, h⟩ := Option.bind_eq_some_iff.mp h
    obtain ⟨opacity, hopacity, h⟩ := Option.bind_eq_some_iff.mp h
    obtain ⟨title, -, h⟩ := Option.bind_eq_some_iff.mp h
    obtain ⟨line, hline, h⟩ := Option.bind_eq_some_iff.mp h
    obtain rfl := Option.some.inj h
    have hr' := isReadable_of_record? hd hr
    exact ⟨optional_yields hr' .float? hwidth, optional_yields hr' .float? hsize,
      optional_yields hr' .float? hopacity, optional_yields hr' StrokeHint.stores.yields hline⟩
  isFinite_empty := isFinite_empty

end ElementStyle

end Plotting
