import Mathlib.Data.List.Nodup
import Plotting.Element.Json
import Plotting.Proofs.Json.NewMember

/-!
# Fields that harm nothing else

Some fields of a payload are lenient: a value of the right type counts, and any other value is as
good as none.  Each kind has its own (`ElementKind.lenientFields`).  To set one in an object has the
effect that it should have and no other (`lenient_fields_harm_nothing`): the geometry is the one
that the object describes without the field, with the value in its place if the value has the type
of the field.  An object that describes no geometry without the field describes none with it, and
one that describes a geometry does so whatever stands in the field, or in all lenient fields at
once.

There is one lemma for each lenient field of each payload, and all are proved in one way: the other
fields are read as before, by the frame lemmas of `Document.Record.Inserts`.
-/

namespace Plotting

open Document (str? float? list?)
open Document.Record (lenientText)

/-! ## Payloads -/

section Payloads

variable {d : Document} {r r' : Document.Record}

theorem Path.decode?_label (h : r.Inserts "label" d r') :
    decode? (.obj r') = (decode? (.obj r)).map fun p => { p with label := d.str?.or p.label } := by
  refine h.record?_bind ?_
  simp (disch := decide) only [h.withDefault, lenientText, h.lenient_key_some,
    Option.bind_eq_bind, Option.map_bind, Function.comp_def, Option.pure_def, Option.map_some]

theorem Marker.decode?_label (h : r.Inserts "label" d r') :
    decode? (.obj r') = (decode? (.obj r)).map fun m => { m with label := d.str?.or m.label } := by
  refine h.record?_bind ?_
  simp (disch := decide) only [h.optional, lenientText, h.lenient_key_some, Option.bind_eq_bind,
    Option.map_bind, Function.comp_def, Option.pure_def, Option.map_some]

theorem Markers.decode?_labels (h : r.Inserts "labels" d r') :
    decode? (.obj r') =
      (decode? (.obj r)).map fun m => { m with labels := (d.list? str?).getD m.labels } := by
  refine h.record?_bind ?_
  simp (disch := decide) only [h.withDefault, h.lenient_key, Option.bind_eq_bind, Option.map_bind,
    Function.comp_def, Option.pure_def, Option.map_some]

theorem Segment.decode?_label (h : r.Inserts "label" d r') :
    decode? (.obj r') = (decode? (.obj r)).map fun s => { s with label := d.str?.or s.label } := by
  refine h.record?_bind ?_
  simp (disch := decide) only [h.optional, lenientText, h.lenient_key_some, Option.bind_eq_bind,
    Option.map_bind, Function.comp_def, Option.pure_def, Option.map_some]

theorem Circle.decode?_label (h : r.Inserts "label" d r') :
    decode? (.obj r') = (decode? (.obj r)).map fun c => { c with label := d.str?.or c.label } := by
  refine h.record?_bind ?_
  simp (disch := decide) only [h.withDefault, h.optional, lenientText, h.lenient_key_some,
    Option.bind_eq_bind, Option.map_bind, Function.comp_def, Option.pure_def, Option.map_some]

theorem Area.decode?_baseline (h : r.Inserts "baseline" d r') :
    decode? (.obj r') =
      (decode? (.obj r)).map fun a => { a with baseline := d.float?.getD a.baseline } := by
  refine h.record?_bind ?_
  simp (disch := decide) only [h.withDefault, lenientText, h.lenient, h.lenient_key,
    Option.bind_eq_bind, Option.map_bind, Function.comp_def, Option.pure_def, Option.map_some]

theorem Area.decode?_label (h : r.Inserts "label" d r') :
    decode? (.obj r') = (decode? (.obj r)).map fun a => { a with label := d.str?.or a.label } := by
  refine h.record?_bind ?_
  simp (disch := decide) only [h.withDefault, h.lenient, lenientText, h.lenient_key_some,
    Option.bind_eq_bind, Option.map_bind, Function.comp_def, Option.pure_def, Option.map_some]

theorem Polygon.decode?_label (h : r.Inserts "label" d r') :
    decode? (.obj r') = (decode? (.obj r)).map fun p => { p with label := d.str?.or p.label } := by
  refine h.record?_bind ?_
  simp (disch := decide) only [h.withDefault, lenientText, h.lenient_key_some,
    Option.bind_eq_bind, Option.map_bind, Function.comp_def, Option.pure_def, Option.map_some]

theorem Surface.decode?_colorscale (h : r.Inserts "colorscale" d r') :
    decode? (.obj r') =
      (decode? (.obj r)).map fun s => { s with colorscale := d.str?.or s.colorscale } := by
  refine h.record?_bind ?_
  simp (disch := decide) only [h.withDefault, lenientText, h.lenient, h.lenient_key_some,
    Option.bind_eq_bind, Option.map_bind, Function.comp_def, Option.pure_def, Option.map_some]

theorem Surface.decode?_opacity (h : r.Inserts "opacity" d r') :
    decode? (.obj r') =
      (decode? (.obj r)).map fun s => { s with opacity := d.float?.or s.opacity } := by
  refine h.record?_bind ?_
  simp (disch := decide) only [h.withDefault, lenientText, h.lenient, h.lenient_key_some,
    Option.bind_eq_bind, Option.map_bind, Function.comp_def, Option.pure_def, Option.map_some]

theorem Surface.decode?_label (h : r.Inserts "label" d r') :
    decode? (.obj r') = (decode? (.obj r)).map fun s => { s with label := d.str?.or s.label } := by
  refine h.record?_bind ?_
  simp (disch := decide) only [h.withDefault, lenientText, h.lenient, h.lenient_key_some,
    Option.bind_eq_bind, Option.map_bind, Function.comp_def, Option.pure_def, Option.map_some]

theorem Arrow.decode?_label (h : r.Inserts "label" d r') :
    decode? (.obj r') = (decode? (.obj r)).map fun a => { a with label := d.str?.or a.label } := by
  refine h.record?_bind ?_
  simp (disch := decide) only [h.optional, lenientText, h.lenient_key_some, Option.bind_eq_bind,
    Option.map_bind, Function.comp_def, Option.pure_def, Option.map_some]

end Payloads

/-! ## Lenient fields -/

/-- The fields of payloads that are lenient. -/
inductive LenientField where
  | label
  | labels
  | baseline
  | colorscale
  | opacity
deriving DecidableEq, Repr

/-- The name of a lenient field. -/
def LenientField.key : LenientField → String
  | .label => "label"
  | .labels => "labels"
  | .baseline => "baseline"
  | .colorscale => "colorscale"
  | .opacity => "opacity"

/-- The lenient fields of a kind. -/
def ElementKind.lenientFields : ElementKind → List LenientField
  | .curve | .scatter | .point | .line | .segment | .circle | .polygon | .vector3d => [.label]
  | .points => [.labels]
  | .area => [.baseline, .label]
  | .surface => [.colorscale, .opacity, .label]
  | .unknown _ => []

namespace Json

/-- A string. -/
def text? : Json → Option String
  | .str s => some s
  | _ => none

/-- A number as a double. -/
def number? : Json → Option Float
  | .int n => some (Float.ofInt n)
  | .float x => some x
  | _ => none

/-- A list of strings. -/
def texts? : Json → Option (List String)
  | .arr items => items.mapM text?
  | _ => none

end Json

namespace Geometry

/-- The geometry with another label. -/
def setLabel (s : String) : Geometry → Geometry
  | .curve p => .curve { p with label := some s }
  | .scatter p => .scatter { p with label := some s }
  | .point m => .point { m with label := some s }
  | .line l => .line { l with label := some s }
  | .segment l => .segment { l with label := some s }
  | .circle c => .circle { c with label := some s }
  | .area a => .area { a with label := some s }
  | .polygon p => .polygon { p with label := some s }
  | .surface u => .surface { u with label := some s }
  | .vector3d a => .vector3d { a with label := some s }
  | g => g

/-- The points with other labels. -/
def setLabels (ss : List String) : Geometry → Geometry
  | .points m => .points { m with labels := ss }
  | g => g

/-- The area over another baseline. -/
def setBaseline (x : Float) : Geometry → Geometry
  | .area a => .area { a with baseline := x }
  | g => g

/-- The surface in another colour scale. -/
def setColorscale (s : String) : Geometry → Geometry
  | .surface u => .surface { u with colorscale := some s }
  | g => g

/-- The surface with another opacity of its own. -/
def setOpacity (x : Float) : Geometry → Geometry
  | .surface u => .surface { u with opacity := some x }
  | g => g

/-- The geometry of a kind that a payload describes, if it describes any. -/
def decode? (kind : ElementKind) (data : Json) : Option Geometry :=
  let d := Document.ofJson data
  match kind with
  | .curve => (Path.decode? d).map .curve
  | .scatter => (Path.decode? d).map .scatter
  | .point => (Marker.decode? d).map .point
  | .points => (Markers.decode? d).map .points
  | .line => (Segment.decode? d).map .line
  | .segment => (Segment.decode? d).map .segment
  | .circle => (Circle.decode? d).map .circle
  | .area => (Area.decode? d).map .area
  | .polygon => (Polygon.decode? d).map .polygon
  | .surface => (Surface.decode? d).map .surface
  | .vector3d => (Arrow.decode? d).map .vector3d
  | .unknown name => some (.unknown name data)

/-- The geometry of a kind that draws nothing. -/
def empty : ElementKind → Geometry
  | .curve => .curve {}
  | .scatter => .scatter {}
  | .point => .point {}
  | .points => .points {}
  | .line => .line {}
  | .segment => .segment {}
  | .circle => .circle {}
  | .area => .area {}
  | .polygon => .polygon {}
  | .surface => .surface {}
  | .vector3d => .vector3d {}
  | .unknown name => .unknown name .null

/-- What a value does to a geometry in a lenient field, if it has the type of the field. -/
def setter? (v : Json) : LenientField → Option (Geometry → Geometry)
  | .label => v.text?.map setLabel
  | .labels => v.texts?.map setLabels
  | .baseline => v.number?.map setBaseline
  | .colorscale => v.text?.map setColorscale
  | .opacity => v.number?.map setOpacity

/-- The geometry with a value in a lenient field; a value of another type changes nothing. -/
def set (v : Json) (f : LenientField) : Geometry → Geometry :=
  (setter? v f).getD id

/-! ## Setting a field -/

variable {kind : ElementKind} {f : LenientField} {before after members : List (String × Json)}
  {v : Json}

/-- What describes no geometry is taken for the empty one. -/
theorem ofJson_eq_getD (kind : ElementKind) (data : Json) :
    ofJson kind data = (decode? kind data).getD (empty kind) := by
  cases kind with
  | unknown name => rfl
  | _ => exact (Option.getD_map _ _ _).symm

theorem str?_ofJson_eq (v : Json) : str? (.ofJson v) = v.text? := by
  cases v <;> rfl

theorem float?_ofJson_eq (v : Json) : float? (.ofJson v) = v.number? := by
  cases v <;> rfl

theorem list?_str?_ofJson_eq (v : Json) : (Document.ofJson v).list? str? = v.texts? := by
  cases v with
  | arr items =>
    have hitem : str? ∘ Document.ofJson = Json.text? := funext str?_ofJson_eq
    rw [Document.ofJson, Document.ofItems_eq_map, list?, List.mapM_map, hitem]
    rfl
  | _ => rfl

/-- The member of a lenient field is new where no other has its name. -/
theorem inserts_ofMembers {key : String} (hbefore : key ∉ Json.keys before)
    (hafter : key ∉ Json.keys after) (v : Json) :
    Document.Record.Inserts key (.ofJson v) (Document.ofMembers (before ++ after))
      (Document.ofMembers (before ++ (key, v) :: after)) := by
  rw [← Document.map_fst_ofMembers] at hbefore hafter
  have hinserts := Document.Record.inserts_append hbefore hafter (.ofJson v)
  have hwith : Document.ofMembers (before ++ (key, v) :: after) =
      Document.ofMembers before ++ (key, .ofJson v) :: Document.ofMembers after := by
    simp only [Document.ofMembers_eq_map, List.map_append, List.map_cons]
  have hwithout : Document.ofMembers (before ++ after) =
      Document.ofMembers before ++ Document.ofMembers after := by
    simp only [Document.ofMembers_eq_map, List.map_append]
  rwa [hwith, hwithout]

/-- What changes a payload changes the geometry made of it. -/
theorem map_of_change {α : Type} {payload payload' : Option α} {make : α → Geometry}
    {change : α → α} {F : Geometry → Geometry} (h : payload' = payload.map change)
    (hmake : ∀ a, make (change a) = F (make a)) :
    payload'.map make = (payload.map make).map F := by
  rw [h, Option.map_map, Option.map_map]
  exact congrArg (fun g => payload.map g) (funext hmake)

/-- To set a lenient field is to set it in the geometry, if there is one. -/
theorem decode?_insert (hf : f ∈ kind.lenientFields) (hbefore : f.key ∉ Json.keys before)
    (hafter : f.key ∉ Json.keys after) (v : Json) :
    decode? kind (.obj (before ++ (f.key, v) :: after)) =
      (decode? kind (.obj (before ++ after))).map (set v f) := by
  have h := inserts_ofMembers hbefore hafter v
  unfold decode? set setter?
  simp only [Document.ofJson] at h ⊢
  rw [← str?_ofJson_eq, ← float?_ofJson_eq, ← list?_str?_ofJson_eq]
  generalize Document.ofJson v = d at h ⊢
  cases kind with
  | curve =>
    obtain rfl := List.mem_singleton.mp hf
    exact map_of_change (Path.decode?_label h) fun p => by cases str? d <;> rfl
  | scatter =>
    obtain rfl := List.mem_singleton.mp hf
    exact map_of_change (Path.decode?_label h) fun p => by cases str? d <;> rfl
  | point =>
    obtain rfl := List.mem_singleton.mp hf
    exact map_of_change (Marker.decode?_label h) fun m => by cases str? d <;> rfl
  | points =>
    obtain rfl := List.mem_singleton.mp hf
    exact map_of_change (Markers.decode?_labels h) fun m => by cases d.list? str? <;> rfl
  | line =>
    obtain rfl := List.mem_singleton.mp hf
    exact map_of_change (Segment.decode?_label h) fun s => by cases str? d <;> rfl
  | segment =>
    obtain rfl := List.mem_singleton.mp hf
    exact map_of_change (Segment.decode?_label h) fun s => by cases str? d <;> rfl
  | circle =>
    obtain rfl := List.mem_singleton.mp hf
    exact map_of_change (Circle.decode?_label h) fun c => by cases str? d <;> rfl
  | area =>
    simp only [ElementKind.lenientFields, List.mem_cons, List.not_mem_nil, or_false] at hf
    rcases hf with rfl | rfl
    · exact map_of_change (Area.decode?_baseline h) fun a => by cases float? d <;> rfl
    · exact map_of_change (Area.decode?_label h) fun a => by cases str? d <;> rfl
  | polygon =>
    obtain rfl := List.mem_singleton.mp hf
    exact map_of_change (Polygon.decode?_label h) fun p => by cases str? d <;> rfl
  | surface =>
    simp only [ElementKind.lenientFields, List.mem_cons, List.not_mem_nil, or_false] at hf
    rcases hf with rfl | rfl | rfl
    · exact map_of_change (Surface.decode?_colorscale h) fun s => by cases str? d <;> rfl
    · exact map_of_change (Surface.decode?_opacity h) fun s => by cases float? d <;> rfl
    · exact map_of_change (Surface.decode?_label h) fun s => by cases str? d <;> rfl
  | vector3d =>
    obtain rfl := List.mem_singleton.mp hf
    exact map_of_change (Arrow.decode?_label h) fun a => by cases str? d <;> rfl
  | unknown name => cases hf

/-- Null is a value of no field. -/
theorem set_null (f : LenientField) (g : Geometry) : set .null f g = g := by
  cases f <;> rfl

/-! ## All lenient fields at once -/

/-- The members of an object that do not stand in lenient fields. -/
def strictMembers (kind : ElementKind) (members : List (String × Json)) : List (String × Json) :=
  members.filter fun m => m.1 ∉ kind.lenientFields.map LenientField.key

/-- Lenient fields may be dropped one by one, with any members in front of them. -/
theorem isSome_decode?_append_strictMembers (front : List (String × Json))
    (h : (Json.keys (front ++ members)).Nodup) :
    (decode? kind (.obj (front ++ members))).isSome =
      (decode? kind (.obj (front ++ strictMembers kind members))).isSome := by
  induction members generalizing front with
  | nil => rfl
  | cons m ms ih =>
    obtain ⟨key, v⟩ := m
    by_cases hkey : key ∈ kind.lenientFields.map LenientField.key
    · have hdropped : strictMembers kind ((key, v) :: ms) = strictMembers kind ms :=
        List.filter_cons_of_neg (by simpa using hkey)
      obtain ⟨f, hf, rfl⟩ := List.mem_map.mp hkey
      rw [Json.keys_append, Json.keys_cons, List.nodup_middle, List.nodup_cons, List.mem_append,
        not_or] at h
      obtain ⟨⟨hfront, hms⟩, hrest⟩ := h
      rw [hdropped, decode?_insert hf hfront hms, Option.isSome_map]
      exact ih front (by rwa [Json.keys_append])
    · have hkept : strictMembers kind ((key, v) :: ms) = (key, v) :: strictMembers kind ms :=
        List.filter_cons_of_pos (by simpa using hkey)
      rw [hkept, List.append_cons front _ ms, List.append_cons front _ (strictMembers kind ms)]
      exact ih (front ++ [(key, v)]) (by rwa [List.append_assoc])

/-- **Bad lenient fields harm nothing else.**  What is made of a payload is the geometry that it
describes, or the empty one if it describes none.  For each lenient field of a kind, an object with
a value in the field describes what the object without the field describes, with the value set in it
if it has the type of the field, and nothing if that describes nothing; null sets nothing.  Whether
an object describes a geometry does not depend on its lenient fields at all. -/
theorem lenient_fields_harm_nothing (kind : ElementKind) :
    (∀ data, ofJson kind data = (decode? kind data).getD (empty kind)) ∧
    (∀ f ∈ kind.lenientFields, ∀ before after,
      f.key ∉ Json.keys before → f.key ∉ Json.keys after → ∀ v,
        decode? kind (.obj (before ++ (f.key, v) :: after)) =
          (decode? kind (.obj (before ++ after))).map (set v f)) ∧
    (∀ f g, set .null f g = g) ∧
    ∀ members, (Json.keys members).Nodup →
      (decode? kind (.obj members)).isSome =
        (decode? kind (.obj (strictMembers kind members))).isSome :=
  ⟨ofJson_eq_getD kind, fun _ hf _ _ hbefore hafter => decode?_insert hf hbefore hafter, set_null,
    fun _ h => isSome_decode?_append_strictMembers [] h⟩

/-- An area over a baseline that is a text, under a label that is one, and points whose labels are
a number. -/
theorem lenient_fields_harm_nothing_area :
    let points : String × Json := ("points", .arr [.arr [.float 1, .float 2]])
    decode? .area (.obj [("baseline", .str "low"), ("label", .str "region"), points]) =
        some (.area { points := [⟨1, 2⟩], label := some "region" }) ∧
      (decode? .points (.obj [("coords", .arr []), ("labels", .float 1)])).isSome = true := by
  intro points
  obtain ⟨-, hset, -, -⟩ := lenient_fields_harm_nothing .area
  obtain ⟨-, -, -, hsome⟩ := lenient_fields_harm_nothing .points
  have hbaseline := hset .baseline (by decide) [] [("label", .str "region"), points] (by decide)
    (by decide) (.str "low")
  exact ⟨hbaseline.trans rfl, (hsome _ (by decide)).trans rfl⟩

end Geometry
end Plotting
