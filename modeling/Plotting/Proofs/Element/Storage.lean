import Mathlib
import Plotting.Proofs.Element.RoundTrip
import Plotting.Proofs.Json.Text

/-!
# Stored elements are read back

A payload that does not fit its kind is taken for the empty one, so a payload that drifted on its
way through a text would come back as an empty drawing and not as an error.  What can be stored
without loss is said by `Element.IsStorable`: a known payload has finite numbers, and so has the
style; the payload of an unknown kind is free-form, with one container to spare for the element
around it, and its kind is not the name of a known one, for then it would come back as that.

Storable elements are exactly what is ever read.  Such an element is decoded from its own form,
because nothing is lost when payload and style are taken in as free-form values first.  And
whatever is decoded from a text is storable, because the kind of an element is made from a name,
and free-form values come out of readable documents.
-/

namespace Plotting

open Document (ofJson ofMembers Yields isReadable_of_record?)
open Document.Record (withDefault_ofMembers withDefault_ofMembers_of_none withDefault_yields)

/-! ## Kinds -/

namespace ElementKind

/-- The kind is the one that its own name stands for. -/
def IsNamed (k : ElementKind) : Prop :=
  ofName k.name = k

theorem isNamed_ofName (s : String) : (ofName s).IsNamed := by
  by_cases h : s = "vector_3d"
  · subst h
    rfl
  · rw [IsNamed, name_ofName h]

theorem isNamed_unnamed : unnamed.IsNamed := rfl

theorem yields_decode? : Yields decode? IsNamed := by
  intro d _ k h
  obtain ⟨s, -, rfl⟩ := Option.map_eq_some_iff.mp h
  exact isNamed_ofName s

end ElementKind

/-! ## Geometries -/

namespace Geometry

/-- The geometry can be stored: the numbers of a known payload are finite, and an unknown kind has a
free-form payload and a name of its own. -/
def IsStorable : Geometry → Prop
  | .curve p | .scatter p => p.IsFinite
  | .point m => m.IsFinite
  | .points m => m.IsFinite
  | .line s | .segment s => s.IsFinite
  | .circle c => c.IsFinite
  | .area a => a.IsFinite
  | .polygon p => p.IsFinite
  | .surface s => s.IsFinite
  | .vector3d a => a.IsFinite
  | .unknown kind data =>
    ElementKind.ofName kind = .unknown kind ∧ data.IsFreeForm (Document.maxNesting - 1)

variable {g : Geometry}

theorem IsStorable.isNamed_kind (h : g.IsStorable) : g.kind.IsNamed := by
  cases g with
  | unknown kind data => exact h.1
  | _ => rfl

/-- A payload is made sense of under its kind as what it was. -/
theorem ofJson_toJson (h : g.IsStorable) : ofJson g.kind g.toJson = g := by
  cases g with
  | curve p => exact congrArg curve (Path.stores.getD_readBack h)
  | scatter p => exact congrArg scatter (Path.stores.getD_readBack h)
  | point m => exact congrArg point (Marker.stores.getD_readBack h)
  | points m => exact congrArg points (Markers.stores.getD_readBack h)
  | line s => exact congrArg line (Segment.stores.getD_readBack h)
  | segment s => exact congrArg segment (Segment.stores.getD_readBack h)
  | circle c => exact congrArg circle (Circle.stores.getD_readBack h)
  | area a => exact congrArg area (Area.stores.getD_readBack h)
  | polygon p => exact congrArg polygon (Polygon.stores.getD_readBack h)
  | surface s => exact congrArg surface (Surface.stores.getD_readBack h)
  | vector3d a => exact congrArg vector3d (Arrow.stores.getD_readBack h)
  | unknown kind data => rfl

/-- There is room for the payload: an unknown one is free-form with so many containers nested, and a
known one never has more than three. -/
def HasRoom (levels : ℕ) : Geometry → Prop
  | .unknown _ data => data.IsFreeForm levels
  | _ => True

theorem HasRoom.isFreeForm_toJson {levels : ℕ} (h : g.HasRoom levels) (hlevels : 3 ≤ levels) :
    g.toJson.IsFreeForm levels := by
  cases g with
  | curve p | scatter p => exact (Path.stores.freeForm p).mono hlevels
  | point m => exact (Marker.stores.freeForm m).mono hlevels
  | points m => exact (Markers.stores.freeForm m).mono hlevels
  | line s | segment s => exact (Segment.stores.freeForm s).mono hlevels
  | circle c => exact (Circle.stores.freeForm c).mono hlevels
  | area a => exact (Area.stores.freeForm a).mono hlevels
  | polygon p => exact (Polygon.stores.freeForm p).mono hlevels
  | surface s => exact (Surface.stores.freeForm s).mono hlevels
  | vector3d a => exact (Arrow.stores.freeForm a).mono hlevels
  | unknown kind data => exact h

theorem IsStorable.hasRoom (h : g.IsStorable) : g.HasRoom (Document.maxNesting - 1) := by
  cases g with
  | unknown kind data => exact h.2
  | _ => trivial

theorem isFreeForm_toJson (h : g.IsStorable) : g.toJson.IsFreeForm (Document.maxNesting - 1) :=
  h.hasRoom.isFreeForm_toJson (by decide)

theorem hasRoom_ofJson {levels : ℕ} {kind : ElementKind} {data : Json}
    (h : data.IsFreeForm levels) : (ofJson kind data).HasRoom levels := by
  cases kind with
  | unknown name => exact h
  | _ => trivial

/-- Whatever is made of a free-form payload can be stored again. -/
theorem isStorable_ofJson {kind : ElementKind} {data : Json} (hkind : kind.IsNamed)
    (hdata : data.IsFreeForm (Document.maxNesting - 1)) : (ofJson kind data).IsStorable := by
  have hprintable := hdata.isPrintable
  cases kind with
  | curve | scatter => exact Path.stores.isFinite_getD hprintable
  | point => exact Marker.stores.isFinite_getD hprintable
  | points => exact Markers.stores.isFinite_getD hprintable
  | line | segment => exact Segment.stores.isFinite_getD hprintable
  | circle => exact Circle.stores.isFinite_getD hprintable
  | area => exact Area.stores.isFinite_getD hprintable
  | polygon => exact Polygon.stores.isFinite_getD hprintable
  | surface => exact Surface.stores.isFinite_getD hprintable
  | vector3d => exact Arrow.stores.isFinite_getD hprintable
  | unknown name => exact ⟨hkind, hdata⟩

end Geometry

/-! ## Elements -/

namespace Element

/-- The element can be stored: its geometry can, and the numbers of its style are finite. -/
structure IsStorable (e : Element) : Prop where
  geometry : e.geometry.IsStorable
  style : e.style.IsFinite

variable {e : Element}

/-- The member that holds the style, if there is a hint. -/
def styleMembers (s : ElementStyle) : List (String × Json) :=
  if s == {} then [] else [("style", s.toJson)]

theorem keys_styleMembers (s : ElementStyle) : (Json.keys (styleMembers s)).Sublist ["style"] := by
  unfold styleMembers
  split
  · exact List.nil_sublist _
  · exact List.Sublist.refl _

/-- The members of an element. -/
def members (e : Element) : List (String × Json) :=
  [("kind", .str e.kind.name), ("data", e.geometry.toJson)] ++ styleMembers e.style

theorem toJson_eq (e : Element) : e.toJson = .obj e.members := rfl

theorem keys_members (e : Element) : (Json.keys e.members).Sublist ["kind", "data", "style"] := by
  rw [members, Json.keys_append]
  exact (List.Sublist.refl ["kind", "data"]).append (keys_styleMembers e.style)

/-! ### Reading back -/

/-- Without a kind under its second name nothing is renamed. -/
theorem withKind_ofJson {members : List (String × Json)} (h : "type" ∉ Json.keys members) :
    withKind (ofJson (.obj members)) = ofJson (.obj members) := by
  have hsame : ∀ m ∈ ofMembers members, renameType m = m := by
    intro m hm
    have hname : m.1 ≠ "type" := by
      rintro hm'
      rw [← Document.map_fst_ofMembers] at h
      exact h (hm' ▸ List.mem_map_of_mem hm)
    rw [renameType, if_neg hname]
  rw [Document.ofJson, withKind, List.map_congr_left hsame, List.map_id']

/-- A style without hints is left out, and null describes it. -/
theorem exists_style {members : List (String × Json)} {levels : ℕ} (hlevels : 3 ≤ levels)
    (h : e.style.IsFinite)
    (hlookup : members.lookup "style" = (styleMembers e.style).lookup "style") :
    ∃ j, Document.Record.withDefault (ofMembers members) "style" .null
      (Document.toJson? levels) = some j ∧ styleOfJson j = e.style := by
  rw [styleMembers] at hlookup
  by_cases hstyle : (e.style == {}) = true
  · rw [if_pos hstyle] at hlookup
    refine ⟨.null, withDefault_ofMembers_of_none hlookup, ?_⟩
    rw [ElementStyle.eq_empty_of_beq hstyle]
    rfl
  · rw [if_neg hstyle] at hlookup
    refine ⟨e.style.toJson, ?_, ElementStyle.stores.getD_readBack h⟩
    rw [withDefault_ofMembers hlookup,
      Document.toJson?_ofJson ((ElementStyle.stores.freeForm e.style).mono hlevels)]

/-- An element is decoded from its members in any order, wherever there is room for them. -/
theorem decode?_ofJson_obj (h : e.IsStorable) {levels : ℕ} (hlevels : 3 ≤ levels)
    (hroom : e.geometry.HasRoom levels) {members : List (String × Json)}
    (hkeys : (Json.keys members).Nodup) (htype : "type" ∉ Json.keys members)
    (hkind : members.lookup "kind" = some (.str e.kind.name))
    (hdata : members.lookup "data" = some e.geometry.toJson)
    (hstyle : members.lookup "style" = (styleMembers e.style).lookup "style") :
    decode? (levels + 1) (ofJson (.obj members)) = some e := by
  have hnamed : ElementKind.decode? (ofJson (.str e.kind.name)) = some e.kind :=
    congrArg some h.geometry.isNamed_kind
  have hpayload : Document.toJson? levels (ofJson e.geometry.toJson) = some e.geometry.toJson :=
    Document.toJson?_ofJson (hroom.isFreeForm_toJson hlevels)
  obtain ⟨j, hread, hstyle'⟩ := exists_style hlevels h.style hstyle
  rw [decode?, withKind_ofJson htype, Document.record?_ofJson_obj hkeys]
  simp only [withDefault_ofMembers hkind, hnamed, withDefault_ofMembers hdata,
    Nat.add_sub_cancel, hpayload, hread, hstyle', Option.bind_eq_bind, Option.bind_some,
    Option.pure_def]
  rw [kind, Geometry.ofJson_toJson h.geometry]

theorem nodup_keys (e : Element) : (Json.keys e.members).Nodup :=
  e.keys_members.nodup (by decide)

theorem type_notMem_keys (e : Element) : "type" ∉ Json.keys e.members :=
  fun hmem => absurd (e.keys_members.subset hmem) (by decide)

theorem decode?_toJson (h : e.IsStorable) :
    decode? Document.maxNesting (ofJson e.toJson) = some e := by
  have hkind : e.members.lookup "kind" = some (.str e.kind.name) := by simp [members]
  have hdata : e.members.lookup "data" = some e.geometry.toJson := by
    simp [members, List.lookup_cons]
  have hstyle : e.members.lookup "style" = (styleMembers e.style).lookup "style" := by
    simp [members, List.lookup_cons]
  exact decode?_ofJson_obj h (by decide) h.geometry.hasRoom e.nodup_keys e.type_notMem_keys hkind
    hdata hstyle

/-! ### As a free-form value -/

/-- The data of an element come before its kind when its members are in order. -/
theorem sorted_members (e : Element) :
    Json.sorted e.members =
      [("data", e.geometry.toJson), ("kind", .str e.kind.name)] ++ styleMembers e.style := by
  have hkind : ¬ "kind" < "data" := by decide
  have hdata : "data" < "style" := by decide
  have hstyle : "kind" < "style" := by decide
  rw [members, styleMembers]
  split <;> simp only [List.cons_append, List.nil_append, Json.sorted_cons, Json.sorted_nil,
    Json.place, if_neg hkind, if_pos hdata, if_pos hstyle, if_false, String.reduceEq]

theorem membersFreeForm_members {levels : ℕ} (hlevels : 3 ≤ levels)
    (hroom : e.geometry.HasRoom levels) : Json.MembersFreeForm levels e.members := by
  refine Json.membersFreeForm_iff.mpr ?_
  rw [members, List.forall_mem_append]
  refine ⟨List.forall_mem_cons.mpr ⟨Json.isFreeForm_str _, List.forall_mem_singleton.mpr
    (hroom.isFreeForm_toJson hlevels)⟩, ?_⟩
  unfold styleMembers
  split
  · exact List.forall_mem_nil _
  · exact List.forall_mem_singleton.mpr ((ElementStyle.stores.freeForm e.style).mono hlevels)

/-- An element is taken in as its members in order. -/
theorem toJson?_ofJson_toJson {levels : ℕ} (hlevels : 3 ≤ levels)
    (hroom : e.geometry.HasRoom levels) :
    Document.toJson? (levels + 1) (ofJson e.toJson) = some (.obj (Json.sorted e.members)) := by
  rw [toJson_eq, Document.ofJson, Document.toJson?,
    Document.toMembers?_ofMembers (membersFreeForm_members hlevels hroom), Option.map_some]

/-- An element that was taken in as a free-form value is decoded as what it was. -/
theorem decode?_sorted (h : e.IsStorable) {levels : ℕ} (hlevels : 3 ≤ levels)
    (hroom : e.geometry.HasRoom levels) :
    decode? (levels + 1) (ofJson (.obj (Json.sorted e.members))) = some e := by
  have hsub : (Json.keys (Json.sorted e.members)).Sublist ["data", "kind", "style"] := by
    rw [sorted_members, Json.keys_append]
    exact (List.Sublist.refl ["data", "kind"]).append (keys_styleMembers e.style)
  have hkind : (Json.sorted e.members).lookup "kind" = some (.str e.kind.name) := by
    simp [sorted_members, List.lookup_cons]
  have hdata : (Json.sorted e.members).lookup "data" = some e.geometry.toJson := by
    simp [sorted_members]
  have hstyle : (Json.sorted e.members).lookup "style" =
      (styleMembers e.style).lookup "style" := by
    simp [sorted_members, List.lookup_cons]
  exact decode?_ofJson_obj h hlevels hroom (hsub.nodup (by decide))
    (fun hmem => absurd (hsub.subset hmem) (by decide)) hkind hdata hstyle

/-! ### Writing -/

theorem isPrintable_toJson (h : e.IsStorable) : e.toJson.IsPrintable := by
  have hstyle : Json.MembersPrintable (styleMembers e.style) := by
    unfold styleMembers
    split
    · trivial
    · exact ⟨(ElementStyle.stores.freeForm e.style).isPrintable, trivial⟩
  rw [toJson_eq, Json.IsPrintable, members, Json.membersPrintable_append]
  exact ⟨⟨trivial, (Geometry.isFreeForm_toJson h.geometry).isPrintable, trivial⟩, hstyle⟩

theorem parse_pretty {reader : NumberReader} (h : e.IsStorable)
    (hkept : reader.KeepsAll e.toJson) : parse e.pretty reader = .ok e := by
  rw [parse, pretty, Document.parse?_pretty (isPrintable_toJson h) hkept, Option.bind_some,
    decode?_toJson h]

/-! ### What is read -/

theorem isReadable_withKind {d : Document} (h : d.IsReadable) : (withKind d).IsReadable := by
  cases d with
  | obj members =>
    rw [Document.IsReadable] at h
    rw [withKind, Document.IsReadable]
    refine Document.membersReadable_iff.mpr fun m hm => ?_
    obtain ⟨n, hn, rfl⟩ := List.mem_map.mp hm
    exact Document.membersReadable_iff.mp h n hn
  | _ => exact h

/-- What is decoded from a readable document comes from a named kind and free-form values. -/
theorem exists_of_decode? {levels : ℕ} {d : Document} (hd : d.IsReadable)
    (h : decode? levels d = some e) :
    ∃ kind data style, kind.IsNamed ∧ data.IsFreeForm (levels - 1) ∧
      style.IsFreeForm (levels - 1) ∧ e = ⟨.ofJson kind data, styleOfJson style⟩ := by
  obtain ⟨r, hr, h⟩ := Option.bind_eq_some_iff.mp h
  obtain ⟨kind, hkind, h⟩ := Option.bind_eq_some_iff.mp h
  obtain ⟨data, hdata, h⟩ := Option.bind_eq_some_iff.mp h
  obtain ⟨style, hstyle, h⟩ := Option.bind_eq_some_iff.mp h
  have hr' := isReadable_of_record? (isReadable_withKind hd) hr
  exact ⟨kind, data, style,
    withDefault_yields hr' ElementKind.isNamed_unnamed ElementKind.yields_decode? hkind,
    withDefault_yields hr' Json.isFreeForm_null (Yields.toJson? _) hdata,
    withDefault_yields hr' Json.isFreeForm_null (Yields.toJson? _) hstyle, (Option.some.inj h).symm⟩

/-- Whatever is decoded can be stored, as long as no more containers were nested in one another
than an element may have. -/
theorem yields_decode? {levels : ℕ} (hlevels : levels ≤ Document.maxNesting) :
    Yields (decode? levels) IsStorable := by
  intro d hd e h
  obtain ⟨kind, data, style, hkind, hdata, hstyle, rfl⟩ := exists_of_decode? hd h
  have hroom : levels - 1 ≤ Document.maxNesting - 1 := Nat.sub_le_sub_right hlevels 1
  exact ⟨Geometry.isStorable_ofJson hkind (hdata.mono hroom),
    ElementStyle.stores.isFinite_getD hstyle.isPrintable⟩

/-- Where an element was decoded there is room for its payload. -/
theorem yields_hasRoom (levels : ℕ) :
    Yields (decode? levels) fun e => e.geometry.HasRoom (levels - 1) := by
  intro d hd e h
  obtain ⟨kind, data, style, -, hdata, -, rfl⟩ := exists_of_decode? hd h
  exact Geometry.hasRoom_ofJson hdata

section Texts
variable {reader : NumberReader} {text : String}

theorem isStorable_of_parse (h : parse text reader = .ok e) : e.IsStorable := by
  unfold parse at h
  split at h
  · next e' hread =>
    cases h
    obtain ⟨d, hd, hdecode⟩ := Option.bind_eq_some_iff.mp hread
    exact yields_decode? le_rfl d (Document.isReadable_of_parse? hd) e hdecode
  · cases h

theorem isStorable_of_parseList {es : List Element} (h : parseList text reader = .ok es) :
    ∀ e ∈ es, e.IsStorable := by
  unfold parseList at h
  split at h
  · next es' hread =>
    cases h
    obtain ⟨d, hd, hdecode⟩ := Option.bind_eq_some_iff.mp hread
    exact (yields_decode? (Nat.sub_le _ 1)).list? d (Document.isReadable_of_parse? hd) es hdecode
  · cases h

end Texts

/-- An element with finite numbers, whose kind, if it is unknown, is not the name of a known one, is
read back from its text as it was, by any reader that keeps its numbers.  Such is every element that
a text describes or lists. -/
theorem parse_stored_text (reader : NumberReader) :
    (∀ e : Element, e.IsStorable → reader.KeepsAll e.toJson → parse e.pretty reader = .ok e) ∧
      (∀ text e, parse text reader = .ok e →
        e.IsStorable ∧ (reader.KeepsAll e.toJson → parse e.pretty reader = .ok e)) ∧
      ∀ text es, parseList text reader = .ok es → ∀ e ∈ es,
        e.IsStorable ∧ (reader.KeepsAll e.toJson → parse e.pretty reader = .ok e) := by
  refine ⟨fun e h hkept => parse_pretty h hkept, fun text e h => ?_, fun text es h e he => ?_⟩
  · have hstorable := isStorable_of_parse h
    exact ⟨hstorable, parse_pretty hstorable⟩
  · have hstorable := isStorable_of_parseList h e he
    exact ⟨hstorable, parse_pretty hstorable⟩

/-- An element whose kind is almost a known one, with data of every sort, and with a style whose
only hints are an empty title and lines without hints. -/
def stranger : Element where
  geometry := .unknown "Curve" (.obj [("", .arr [.null, .obj [], .float (-0)]), ("a", .int (-3)),
    ("kind", .float 1e300)])
  style := { title := some "", line := some {} }

theorem isStorable_stranger : stranger.IsStorable where
  geometry := by
    have hzero : (-0 : Float).isFinite = true := by decide
    have hlarge : (1e300 : Float).isFinite = true := by decide +kernel
    refine ⟨rfl, Json.IsFreeForm.mono (show 3 ≤ Document.maxNesting - 1 by decide) ?_⟩
    refine Json.isFreeForm_obj (Json.ordered_iff.mpr (by decide)) ?_
    simp [Json.IsFreeForm, Json.ItemsFreeForm, Json.MembersFreeForm, Json.Ordered, hzero, hlarge]
  style := by
    refine ⟨?_, ?_, ?_, ?_⟩ <;> simp [stranger, StrokeHint.IsFinite]

/-- A list of two elements: an arrow under the second spelling of its kind, with a style that does
not fit, and one that is written as an array, with its data out of order. -/
def listing : String :=
  "[\x7b\"type\":\"vector_3d\",\"data\":\x7b\"end\":[1,2.5]\x7d,\"style\":7\x7d," ++
    "[\"Curve\",\x7b\"b\":[-0.0],\"a\":null\x7d]]"

theorem keepsAll_stranger : NumberReader.bestEffort.KeepsAll stranger.toJson := by
  decide +kernel

theorem parse_stored_text_stranger :
    stranger.IsStorable ∧ NumberReader.bestEffort.KeepsAll stranger.toJson ∧
      parse stranger.pretty = .ok stranger ∧
      ∃ es, parseList listing = .ok es ∧ es.map kind = [.vector3d, .unknown "Curve"] ∧
        ∀ e ∈ es, e.IsStorable ∧ parse e.pretty = .ok e := by
  obtain ⟨hstored, htext, hlisted⟩ := parse_stored_text .bestEffort
  have hread : parse stranger.pretty = .ok stranger :=
    hstored _ isStorable_stranger keepsAll_stranger
  have hkinds : (parseList listing).toOption.map (List.map kind) =
      some [.vector3d, .unknown "Curve"] := by decide +kernel
  have hkept : (parseList listing).toOption.all fun es =>
      ∀ e ∈ es, NumberReader.bestEffort.KeepsAll e.toJson := by decide +kernel
  refine ⟨(htext _ _ hread).1, keepsAll_stranger, hread, ?_⟩
  cases hlist : parseList listing with
  | error e =>
    rw [hlist] at hkinds
    cases hkinds
  | ok es =>
    rw [hlist] at hkinds hkept
    refine ⟨es, rfl, Option.some.inj hkinds, fun e he => ?_⟩
    obtain ⟨hstorable, hreadBack⟩ := hlisted _ _ hlist e he
    exact ⟨hstorable, hreadBack (of_decide_eq_true hkept e he)⟩

end Element
end Plotting
