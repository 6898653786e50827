import Mathlib.Data.List.Nodup
import Plotting.Proofs.Computation.Entries
import Plotting.Proofs.Element.Storage

/-!
# Results of computations are read back

Reading the result of a computation loses much: a status that nobody knows becomes one value, list
entries that are no elements are dropped, payloads that do not fit their kind are emptied, repeated
keys are merged.  But it loses it once.  What has been read is written in such a way that it is read
as the same result again.

`Computation.IsStorable` says what that takes.  The payload is free-form with room for the envelope
around it.  The elements can be stored, and there is room for their payloads where they stand: in an
element, in the list, in the envelope.  The formulas have different names.  The list of elements
makes a detour, since each entry is taken in as a free-form value first, which puts its members in
order, and is decoded from that (`Element.decode?_sorted`).
-/

namespace Plotting

open Document (ofJson ofMembers Yields isReadable_of_record?)
open Document.Record (withDefault_ofMembers withDefault_yields)

namespace Computation

/-- The result can be stored: its payload and those of its elements are free-form, with room for the
containers around them, its elements can be stored, and no formula has the name of another. -/
structure IsStorable (c : Computation) : Prop where
  payload : c.payload.IsFreeForm (Document.maxNesting - 1)
  elements : ∀ e ∈ c.plotElements, e.IsStorable
  room : ∀ e ∈ c.plotElements, e.geometry.HasRoom (Document.maxNesting - 3)
  latex : c.latex.keys.Nodup

variable {c : Computation}

/-! ## The elements -/

/-- Elements are read back from their list, each from its members in order. -/
theorem decodeElements?_ofJson {es : List Element} {levels : ℕ} (hlevels : 3 ≤ levels)
    (h : ∀ e ∈ es, e.IsStorable) (hroom : ∀ e ∈ es, e.geometry.HasRoom levels) :
    decodeElements? (levels + 1) (ofJson (Json.list Element.toJson es)) = some es := by
  have hitems : Document.list? (Document.toJson? (levels + 1))
      (ofJson (Json.list Element.toJson es)) =
        some (es.map fun e => .obj (Json.sorted e.members)) :=
    Document.list?_ofJson_map fun e he => Element.toJson?_ofJson_toJson hlevels (hroom e he)
  have hentries : elementsOfItems (levels + 1) (es.map fun e => .obj (Json.sorted e.members)) =
      es := by
    rw [elementsOfItems, List.filterMap_map]
    refine (List.filterMap_congr fun e he => ?_).trans List.filterMap_some
    exact Element.decode?_sorted (h e he) hlevels (hroom e he)
  rw [decodeElements?, Document.Record.nullable?_eq_some rfl hitems]
  exact congrArg some hentries

/-- Elements that are read can be stored, and there is room for their payloads where they stood. -/
theorem yields_decodeElements? {levels : ℕ} (hlevels : levels ≤ Document.maxNesting) :
    Yields (decodeElements? levels) fun es =>
      ∀ e ∈ es, e.IsStorable ∧ e.geometry.HasRoom (levels - 1) := by
  intro d hd es h e he
  obtain ⟨o, ho, h⟩ := Option.bind_eq_some_iff.mp h
  obtain rfl := Option.some.inj h
  obtain ⟨j, hj, hread⟩ := List.mem_filterMap.mp he
  cases o with
  | none => exact absurd hj List.not_mem_nil
  | some items =>
    have hitem := (Yields.toJson? levels).list?.nullable? d hd (some items) ho items rfl j hj
    have hreadable := Document.isReadable_ofJson hitem.isPrintable
    exact ⟨Element.yields_decode? hlevels _ hreadable e hread,
      Element.yields_hasRoom levels _ hreadable e hread⟩

/-! ## The envelope -/

/-- The members of the result of a computation. -/
def members (c : Computation) : List (String × Json) :=
  [("status", .str c.status.name), ("operation", .str c.operation), ("payload", c.payload),
    ("steps", Json.list .str c.steps), ("plot_elements", Json.list Element.toJson c.plotElements),
    ("latex", c.latex.toJson)]

theorem toJson_eq (c : Computation) : c.toJson = .obj c.members := rfl

theorem decode?_toJson (h : c.IsStorable) : decode? (ofJson c.toJson) = some c := by
  have hstatus : c.members.lookup "status" = some (.str c.status.name) := by simp [members]
  have hoperation : c.members.lookup "operation" = some (.str c.operation) := by
    simp [members, List.lookup_cons]
  have hpayload : c.members.lookup "payload" = some c.payload := by
    simp [members, List.lookup_cons]
  have hsteps : c.members.lookup "steps" = some (Json.list .str c.steps) := by
    simp [members, List.lookup_cons]
  have helements : c.members.lookup "plot_elements" =
      some (Json.list Element.toJson c.plotElements) := by simp [members, List.lookup_cons]
  have hlatex : c.members.lookup "latex" = some c.latex.toJson := by
    simp [members, List.lookup_cons]
  have hkeys : (Json.keys c.members).Nodup := by
    simp only [members, Json.keys_cons, Json.keys_nil]
    decide
  have hread : decodeElements? (Document.maxNesting - 2)
      (ofJson (Json.list Element.toJson c.plotElements)) = some c.plotElements :=
    decodeElements?_ofJson (by decide) h.elements h.room
  have htexts : Document.list? Document.str? (ofJson (Json.list .str c.steps)) = some c.steps :=
    Document.list?_ofJson_list fun s _ => Document.str?_ofJson s
  have hname : (Document.choice? (ofJson (.str c.status.name))).map Status.ofName =
      some c.status := congrArg some (Status.ofName_name c.status)
  rw [toJson_eq, decode?, Document.record?_ofJson_obj hkeys]
  simp only [withDefault_ofMembers hstatus, withDefault_ofMembers hoperation,
    withDefault_ofMembers hpayload, withDefault_ofMembers hsteps, withDefault_ofMembers helements,
    withDefault_ofMembers hlatex, hname, Document.str?_ofJson, Document.toJson?_ofJson h.payload,
    htexts, hread, Entries.decode?_toJson h.latex, Option.bind_eq_bind, Option.bind_some,
    Option.pure_def]

theorem isPrintable_toJson (h : c.IsStorable) : c.toJson.IsPrintable := by
  have hsteps : ∀ s ∈ c.steps, (Json.str s).IsPrintable := fun _ _ => trivial
  have helements : ∀ e ∈ c.plotElements, e.toJson.IsPrintable :=
    fun e he => Element.isPrintable_toJson (h.elements e he)
  rw [toJson_eq, Json.IsPrintable]
  exact ⟨trivial, trivial, h.payload.isPrintable, (Json.isPrintable_list _).mpr hsteps,
    (Json.isPrintable_list _).mpr helements, c.latex.isPrintable_toJson, trivial⟩

/-- What is decoded from a readable document can be stored. -/
theorem yields_decode? : Yields decode? IsStorable := by
  intro d hd c h
  obtain ⟨r, hr, h⟩ := Option.bind_eq_some_iff.mp h
  obtain ⟨status, -, h⟩ := Option.bind_eq_some_iff.mp h
  obtain ⟨operation, -, h⟩ := Option.bind_eq_some_iff.mp h
  obtain ⟨payload, hpayload, h⟩ := Option.bind_eq_some_iff.mp h
  obtain ⟨steps, -, h⟩ := Option.bind_eq_some_iff.mp h
  obtain ⟨elements, helements, h⟩ := Option.bind_eq_some_iff.mp h
  obtain ⟨latex, hlatex, h⟩ := Option.bind_eq_some_iff.mp h
  obtain rfl := Option.some.inj h
  have hr' := isReadable_of_record? hd hr
  have hentries : Yields Entries.decode? fun es => es.keys.Nodup :=
    fun d _ es h => Entries.nodup_keys_of_decode? h
  have helements' := withDefault_yields hr' (List.forall_mem_nil _)
    (yields_decodeElements? (by decide)) helements
  have hnone : (Entries.keys []).Nodup := List.nodup_nil
  have hlatex' := withDefault_yields (P := fun es : Entries => es.keys.Nodup) hr' hnone hentries
    hlatex
  exact ⟨withDefault_yields hr' Json.isFreeForm_null (Yields.toJson? _) hpayload,
    fun e he => (helements' e he).1, fun e he => (helements' e he).2, hlatex'⟩

/-! ## Texts -/

variable {reader : NumberReader} {text : String}

theorem isStorable_of_parse (h : parse text reader = .ok c) : c.IsStorable := by
  unfold parse at h
  split at h
  · next c' hread =>
    cases h
    obtain ⟨d, hd, hdecode⟩ := Option.bind_eq_some_iff.mp hread
    exact yields_decode? d (Document.isReadable_of_parse? hd) c hdecode
  · cases h

theorem parse_toJson (h : c.IsStorable) (hkept : reader.KeepsAll c.toJson) :
    parse c.toJson.compact reader = .ok c ∧ parse c.toJson.pretty reader = .ok c := by
  have hprintable := isPrintable_toJson h
  constructor
  · rw [parse, Document.parse?_compact hprintable hkept, Option.bind_some, decode?_toJson h]
  · rw [parse, Document.parse?_pretty hprintable hkept, Option.bind_some, decode?_toJson h]

/-- **Whatever is read is read back.**  The result that a text describes is storable, whatever was
lost on the way to it, and both of its own texts describe the same result, if the reader keeps its
numbers. -/
theorem parse_written_result (h : parse text reader = .ok c) :
    c.IsStorable ∧ (reader.KeepsAll c.toJson →
      parse c.toJson.compact reader = .ok c ∧ parse c.toJson.pretty reader = .ok c) := by
  have hstorable := isStorable_of_parse h
  exact ⟨hstorable, parse_toJson hstorable⟩

/-- A result that loses something in each of its fields: a status that nobody knows, a repeated key
in the payload and among the formulas, a kind under its second name and spelling, an entry that is
no element, and data that do not fit. -/
def lossy : String :=
  "\x7b\"status\":\"pending\",\"payload\":\x7b\"z\":1,\"a\":[null],\"z\":2.0\x7d," ++
    "\"plot_elements\":[\x7b\"type\":\"vector_3d\",\"data\":\x7b\"end\":[1,2.5]\x7d," ++
    "\"style\":7\x7d,3,[\"circle\",\x7b\"radius\":\"\"\x7d],[\"Curve\",\x7b\"b\":1\x7d]]," ++
    "\"latex\":\x7b\"f\":\"x\",\"e\":\"\",\"f\":\"x^2\"\x7d\x7d"

theorem parse_written_result_lossy :
    ∃ c, parse lossy = .ok c ∧ c.status = .unknown ∧
      c.plotElements.map Element.kind = [.vector3d, .circle, .unknown "Curve"] ∧
      c.latex = [("f", "x^2"), ("e", "")] ∧
      parse c.toJson.compact = .ok c ∧ parse c.toJson.pretty = .ok c := by
  have hfields : (parse lossy).toOption.map
      (fun c => (c.status, c.plotElements.map Element.kind, c.latex)) =
      some (.unknown, [.vector3d, .circle, .unknown "Curve"], [("f", "x^2"), ("e", "")]) := by
    decide +kernel
  have hkept : (parse lossy).toOption.all fun c =>
      NumberReader.bestEffort.KeepsAll c.toJson := by decide +kernel
  cases hparse : parse lossy with
  | error e =>
    rw [hparse] at hfields
    cases hfields
  | ok c =>
    rw [hparse] at hfields hkept
    obtain ⟨hstatus, hrest⟩ := Prod.mk.inj (Option.some.inj hfields)
    obtain ⟨hkinds, hlatex⟩ := Prod.mk.inj hrest
    obtain ⟨-, hreadBack⟩ := parse_written_result hparse
    exact ⟨c, rfl, hstatus, hkinds, hlatex, hreadBack (of_decide_eq_true hkept)⟩

end Computation
end Plotting
