import Plotting.Proofs.Element.Storage
import Plotting.Proofs.Json.Spelling

/-!
# Elements of texts and elements of values

An element may be decoded from a text, or from a value that was taken in before.  The routes have
rules of their own.  A text may repeat a member, which is an error for the members of an element and
none for others, while of a value the last of them is all that is left; a value has its members in
another order; and there may be more levels on one route than on the other.  The routes agree all the
same: what is decoded from a document is decoded from the value that it spells
(`Element.decode?_of_toJson?`).  The converse fails where a member of the element is repeated: then
the text is refused, and the value is not.

So a value describes an element by itself (`Element.ofValue?`), on whichever level it stands.
-/

namespace Plotting
namespace Element

open Document (ofJson ofMembers ofItems namesOnce Spelled Record)

/-- The names under which the parts of an element stand. -/
def fields : List String :=
  ["kind", "data", "style"]

variable {levels more : ℕ} {e : Element}

/-! ## Records -/

/-- The name of a member after renaming. -/
theorem fst_renameType (m : String × Document) :
    (renameType m).1 = if m.1 = "type" then "kind" else m.1 := rfl

theorem withKind_arr (items : List Document) : withKind (.arr items) = .arr items := rfl

theorem withKind_obj (members : Record) :
    withKind (.obj members) = .obj (members.map renameType) := rfl

section Sorted
variable {ms : List (String × Json)}

/-- Sorting the members of a value does not touch a field that stands there once at most. -/
theorem filter_rename_sorted {field : String}
    (h : ((ofMembers ms).map renameType).countP (fun m => m.1 = field) ≤ 1) :
    ((ofMembers (Json.sorted ms)).map renameType).filter (fun m => m.1 = field) =
      ((ofMembers ms).map renameType).filter fun m => m.1 = field := by
  let p : String → Bool := fun k => (if k = "type" then "kind" else k) = field
  have hname : ∀ members : List (String × Json),
      ((ofMembers members).map renameType).filter (fun m => m.1 = field) =
        (members.filter fun m => p m.1).map fun m => renameType (m.1, ofJson m.2) := by
    intro members
    rw [Document.ofMembers_eq_map, List.map_map, List.filter_map]
    rfl
  have hcount : ms.countP (fun m => p m.1) ≤ 1 := by
    rw [Document.ofMembers_eq_map, List.map_map, List.countP_map] at h
    exact h
  rw [hname, hname, Json.filter_sorted hcount]

/-- Members that name each field of an element once at most do so when they are sorted, and the
fields are the same. -/
theorem namesOnce_rename_sorted (h : namesOnce fields ((ofMembers ms).map renameType) = true) :
    namesOnce fields ((ofMembers (Json.sorted ms)).map renameType) = true ∧
      ∀ field ∈ fields, ((ofMembers (Json.sorted ms)).map renameType).lookup field =
        ((ofMembers ms).map renameType).lookup field := by
  have hfilter : ∀ field ∈ fields,
      ((ofMembers (Json.sorted ms)).map renameType).filter (fun m => m.1 = field) =
        ((ofMembers ms).map renameType).filter fun m => m.1 = field :=
    fun field hfield =>
      filter_rename_sorted (of_decide_eq_true (List.all_eq_true.mp h field hfield))
  constructor
  · refine List.all_eq_true.mpr fun field hfield => ?_
    rw [List.countP_eq_length_filter, hfilter field hfield, ← List.countP_eq_length_filter]
    exact List.all_eq_true.mp h field hfield
  · intro field hfield
    have hname : decide (field = field) = true := decide_eq_true rfl
    have hfind := fun r : Record => Record.lookup_filter r (p := fun k => decide (k = field)) hname
    rw [← hfind, hfilter field hfield, hfind]

end Sorted

/-- What is a record of an element is one as a value too, and the fields correspond. -/
theorem exists_record?_of_toJson? {d : Document} {j : Json} {r : Record} (hd : d.IsReadable)
    (hj : d.toJson? (levels + 1) = some j) (hr : (withKind d).record? fields = some r) :
    ∃ r', (withKind (ofJson j)).record? fields = some r' ∧
      ∀ field ∈ fields, Option.Rel (Spelled levels) (r.lookup field) (r'.lookup field) := by
  cases d with
  | arr items =>
    rw [Document.toJson?] at hj
    rw [Document.IsReadable] at hd
    obtain ⟨js, hjs, rfl⟩ := Option.map_eq_some_iff.mp hj
    have hspelled := Document.spelled_of_toItems? hd hjs
    rw [withKind_arr, Document.record?] at hr
    split at hr
    · next hlength =>
      obtain rfl := Option.some.inj hr
      rw [hspelled.length_eq] at hlength
      refine ⟨fields.zip (ofItems js), ?_, fun field _ => ?_⟩
      · rw [ofJson, withKind_arr, Document.record?, if_pos hlength]
      · exact Record.rel_lookup (Record.forall₂_zip hspelled fields) field
    · cases hr
  | obj members =>
    rw [Document.toJson?] at hj
    rw [Document.IsReadable] at hd
    obtain ⟨ms, hms, rfl⟩ := Option.map_eq_some_iff.mp hj
    rw [withKind_obj, Document.record?] at hr
    split at hr
    · next hnames =>
      obtain rfl := Option.some.inj hr
      have hspelled : List.Forall₂ (fun m n => m.1 = n.1 ∧ Spelled levels m.2 n.2)
          (members.map renameType) ((ofMembers ms).map renameType) := by
        rw [List.forall₂_map_left_iff, List.forall₂_map_right_iff]
        refine (Record.spelled_of_toMembers? hd hms).imp fun m n hmn => ⟨?_, hmn.2⟩
        rw [fst_renameType, fst_renameType, hmn.1]
      have hnames' : namesOnce fields ((ofMembers ms).map renameType) = true := by
        rwa [Record.namesOnce_congr (Record.map_fst_eq hspelled)] at hnames
      obtain ⟨hsorted, hlookup⟩ := namesOnce_rename_sorted hnames'
      refine ⟨(ofMembers (Json.sorted ms)).map renameType, ?_, fun field hfield => ?_⟩
      · rw [ofJson, withKind_obj, Document.record?, if_pos hsorted]
      · rw [hlookup field hfield]
        exact Record.rel_lookup hspelled field
    · cases hr
  | _ => cases hr

/-! ## Both routes -/

/-- What is decoded from a document is decoded from the value that it spells, too. -/
theorem decode?_of_toJson? {any : ℕ} {d : Document} {j : Json} (hd : d.IsReadable)
    (hj : d.toJson? levels = some j) (hle : levels ≤ more) (h : decode? any d = some e) :
    decode? more (ofJson j) = some e := by
  obtain ⟨r, hr, h⟩ := Option.bind_eq_some_iff.mp h
  obtain ⟨kind, hkind, h⟩ := Option.bind_eq_some_iff.mp h
  obtain ⟨data, hdata, h⟩ := Option.bind_eq_some_iff.mp h
  obtain ⟨style, hstyle, h⟩ := Option.bind_eq_some_iff.mp h
  obtain rfl := Option.some.inj h
  -- a record is a container, so one level is used up
  obtain ⟨inner, rfl⟩ : ∃ inner, levels = inner + 1 := by
    cases levels with
    | zero =>
      cases d with
      | arr items => rw [Document.toJson?] at hj; cases hj
      | obj members => rw [Document.toJson?] at hj; cases hj
      | _ => cases hr
    | succ inner => exact ⟨inner, rfl⟩
  obtain ⟨r', hr', hrel⟩ := exists_record?_of_toJson? hd hj hr
  have hroom : inner ≤ more - 1 := Nat.le_sub_one_of_lt hle
  have hkind' : r'.withDefault "kind" .unnamed ElementKind.decode? = some kind := by
    refine Record.withDefault_of_rel (hrel "kind" (by decide)) (fun d d' hdd' hk => ?_) hkind
    obtain ⟨s, hs, rfl⟩ := Option.map_eq_some_iff.mp hk
    rw [ElementKind.decode?, hdd'.str? hs, Option.map_some]
  have hdata' : r'.withDefault "data" .null (Document.toJson? (more - 1)) = some data :=
    Record.withDefault_of_rel (hrel "data" (by decide)) (fun d d' hdd' => hdd'.toJson? hroom) hdata
  have hstyle' : r'.withDefault "style" .null (Document.toJson? (more - 1)) = some style :=
    Record.withDefault_of_rel (hrel "style" (by decide)) (fun d d' hdd' => hdd'.toJson? hroom)
      hstyle
  rw [fields] at hr'
  simp only [decode?, hr', hkind', hdata', hstyle', Option.bind_eq_bind, Option.bind_some,
    Option.pure_def]

variable {j : Json}

/-- A value describes the same element on every level where there is room for it. -/
theorem decode?_ofJson_congr {any : ℕ} (h : j.IsFreeForm levels) (hany : levels ≤ any)
    (hmore : levels ≤ more) : decode? any (ofJson j) = decode? more (ofJson j) := by
  have hd : (ofJson j).IsReadable := Document.isReadable_ofJson h.isPrintable
  have hj : (ofJson j).toJson? levels = some j := Document.toJson?_ofJson h
  refine Option.ext fun e => ⟨fun he => ?_, fun he => ?_⟩
  · exact decode?_of_toJson? hd hj hmore he
  · exact decode?_of_toJson? hd hj hany he

/-- The element that a value describes by itself. -/
def ofValue? (j : Json) : Option Element :=
  decode? Document.maxNesting (ofJson j)

theorem ofValue?_eq (h : j.IsFreeForm levels) (hlevels : levels ≤ Document.maxNesting) :
    ofValue? j = decode? levels (ofJson j) :=
  decode?_ofJson_congr h hlevels le_rfl

theorem toOption_parse (text : String) (reader : NumberReader) :
    (parse text reader).toOption =
      (Document.parse? text reader).bind (decode? Document.maxNesting) := by
  unfold parse
  split
  · next e h => exact h.symm
  · next h => exact h.symm

/-- A text that spells the value, with no member twice, is read as what the value describes. -/
theorem toOption_parse_of_spells {text : String} {reader : NumberReader}
    (htext : Document.parse? text reader = some (ofJson j)) :
    (parse text reader).toOption = ofValue? j := by
  rw [toOption_parse, htext, Option.bind_some, ofValue?]

/-- What is decoded from a document is what the value that it spells describes by itself. -/
theorem ofValue?_of_decode? {any : ℕ} {d : Document} (hd : d.IsReadable)
    (hj : d.toJson? levels = some j) (hlevels : levels ≤ Document.maxNesting)
    (h : decode? any d = some e) : ofValue? j = some e := by
  rw [ofValue?_eq (Document.isFreeForm_of_toJson? hd hj) hlevels]
  exact decode?_of_toJson? hd hj le_rfl h

/-! ## Lists -/

/-- A list that is decoded from documents consists of what their values describe by themselves. -/
theorem filterMap_ofValue?_of_mapM {any levels : ℕ} (hlevels : levels ≤ Document.maxNesting)
    {ds : List Document} (hds : ∀ d ∈ ds, d.IsReadable) {es : List Element}
    (hes : ds.mapM (decode? any) = some es) {js : List Json}
    (hjs : ds.mapM (Document.toJson? levels) = some js) : js.filterMap ofValue? = es := by
  have hentries := Document.forall₂_of_mapM hes
  clear hes
  induction hentries generalizing js with
  | nil =>
    obtain rfl := Option.some.inj hjs
    rfl
  | @cons d e ds es he _ ih =>
    rw [List.mapM_cons] at hjs
    obtain ⟨j, hj, hjs⟩ := Option.bind_eq_some_iff.mp hjs
    obtain ⟨js', hjs', hjs⟩ := Option.bind_eq_some_iff.mp hjs
    obtain rfl := Option.some.inj hjs
    obtain ⟨hd, hds'⟩ := List.forall_mem_cons.mp hds
    rw [List.filterMap_cons_some (ofValue?_of_decode? hd hj hlevels he), ih hds' hjs']

theorem eq_of_parseList {levels : ℕ} (hlevels : levels ≤ Document.maxNesting) {text : String}
    {reader : NumberReader} {d : Document} {js : List Json} {es : List Element}
    (htext : Document.parse? text reader = some d) (hd : d.Lists levels js)
    (h : parseList text reader = .ok es) : es = js.filterMap ofValue? := by
  have hreadable := Document.isReadable_of_parse? htext
  rw [parseList, htext, Option.bind_some] at h
  cases d with
  | arr ds =>
    rw [Document.IsReadable] at hreadable
    split at h
    · next es' hes =>
      cases h
      exact (filterMap_ofValue?_of_mapM hlevels (Document.itemsReadable_iff.mp hreadable) hes
        hd).symm
    · cases h
  | _ => cases hd

/-! ## Objects -/

section Objects
variable {members : List (String × Json)}

/-- The fields of an object are its members, with the kind under either name. -/
theorem exists_of_lookup_rename {field : String} {d : Document}
    (h : ((ofMembers members).map renameType).lookup field = some d) :
    ∃ m ∈ members, (if m.1 = "type" then "kind" else m.1) = field ∧ d = ofJson m.2 := by
  obtain ⟨before, after, hsplit, -⟩ := List.lookup_eq_some_iff.mp h
  have hmem : (field, d) ∈ (ofMembers members).map renameType := by
    rw [hsplit]
    exact List.mem_append_right before List.mem_cons_self
  rw [Document.ofMembers_eq_map, List.map_map] at hmem
  obtain ⟨m, hm, heq⟩ := List.mem_map.mp hmem
  obtain ⟨hname, hvalue⟩ := Prod.mk.inj heq
  exact ⟨m, hm, hname, hvalue.symm⟩

/-- With the kind under one name at most, no two members have one name afterwards. -/
theorem nodup_rename (hkeys : (Json.keys members).Nodup)
    (hone : ¬ ("kind" ∈ Json.keys members ∧ "type" ∈ Json.keys members)) :
    (((ofMembers members).map renameType).map Prod.fst).Nodup := by
  have hnames : ((ofMembers members).map renameType).map Prod.fst =
      (Json.keys members).map fun k => if k = "type" then "kind" else k := by
    rw [← Document.map_fst_ofMembers, List.map_map, List.map_map]
    rfl
  rw [hnames]
  refine List.Nodup.map_on (fun k hk l hl heq => ?_) hkeys
  split at heq
  · next hktype =>
    split at heq
    · next hltype => exact hktype.trans hltype.symm
    · exact absurd ⟨heq ▸ hl, hktype ▸ hk⟩ hone
  · split at heq
    · next hltype => exact absurd ⟨heq ▸ hk, hltype ▸ hl⟩ hone
    · exact heq

/-- An object describes an element whatever its data and its style are: it only has to have one kind
at most, and this has to be a string. -/
theorem exists_ofValue?_obj (h : (Json.obj members).IsFreeForm levels)
    (hlevels : levels ≤ Document.maxNesting)
    (hone : ¬ ("kind" ∈ Json.keys members ∧ "type" ∈ Json.keys members))
    (hkind : ∀ m ∈ members, m.1 = "kind" ∨ m.1 = "type" → ∃ s, m.2 = .str s) :
    ∃ e, ofValue? (.obj members) = some e := by
  rw [ofValue?_eq h hlevels]
  obtain ⟨inner, rfl⟩ : ∃ inner, levels = inner + 1 := by
    cases levels with
    | zero => rw [Json.IsFreeForm] at h; exact h.elim
    | succ inner => exact ⟨inner, rfl⟩
  rw [Json.IsFreeForm] at h
  obtain ⟨hordered, hfree⟩ := h
  have hrecord : (withKind (ofJson (.obj members))).record? ["kind", "data", "style"] =
      some ((ofMembers members).map renameType) := by
    rw [ofJson, withKind_obj, Document.record?,
      if_pos (Document.namesOnce_of_nodup (nodup_rename hordered.nodup_keys hone) _)]
  have hkindField : ∃ kind, Record.withDefault ((ofMembers members).map renameType) "kind"
      .unnamed ElementKind.decode? = some kind := by
    unfold Record.withDefault
    split
    · exact ⟨_, rfl⟩
    · next d hd =>
      obtain ⟨m, hm, hname, rfl⟩ := exists_of_lookup_rename hd
      have hnamed : m.1 = "kind" ∨ m.1 = "type" := by
        split at hname
        · next htype => exact Or.inr htype
        · exact Or.inl hname
      obtain ⟨s, hs⟩ := hkind m hm hnamed
      rw [hs]
      exact ⟨_, rfl⟩
  have hfield : ∀ field, ∃ j, Record.withDefault ((ofMembers members).map renameType) field
      .null (Document.toJson? inner) = some j := by
    intro field
    unfold Record.withDefault
    split
    · exact ⟨_, rfl⟩
    · next d hd =>
      obtain ⟨m, hm, -, rfl⟩ := exists_of_lookup_rename hd
      exact ⟨m.2, Document.toJson?_ofJson (Json.membersFreeForm_iff.mp hfree m hm)⟩
  obtain ⟨kind, hkind⟩ := hkindField
  obtain ⟨data, hdata⟩ := hfield "data"
  obtain ⟨style, hstyle⟩ := hfield "style"
  refine ⟨⟨.ofJson kind data, styleOfJson style⟩, ?_⟩
  simp only [decode?, hrecord, hkind, hdata, hstyle, Nat.add_sub_cancel, Option.bind_eq_bind,
    Option.bind_some, Option.pure_def]

end Objects

end Element
end Plotting
