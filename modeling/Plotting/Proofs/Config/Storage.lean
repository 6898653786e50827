import Mathlib.Data.Finset.Insert
import Plotting.Config
import Plotting.Proofs.Graph.Storage
import Plotting.Proofs.Json.Deletion

/-!
# Stored settings are restored field by field

Each setting stands under a name of its own in the text of a configuration, and has a default of its
own where the name is missing.  So of the text of a configuration any settings may be deleted, and
the others may stand in any order: what is read has the defaults in the place of what was deleted
and the stored values everywhere else.  `Config.restored` says what that is, setting by setting.
-/

namespace Plotting

open Document (ofJson ofMembers)
open Document.Record (Leaves leaves_ofMembers withDefault_ofMembers)

namespace Config
variable {c : Config}

/-- The configuration can be stored: its numbers are finite, and its counts are machine words. -/
@[mk_iff]
structure IsStorable (c : Config) : Prop where
  sampleCount : c.sampleCount < 2 ^ 64
  circleSegments : c.circleSegments < 2 ^ 64
  lineWidth : c.lineWidth.isFinite = true
  pointMarkerSize : c.pointMarkerSize.isFinite = true
  scatterMarkerSize : c.scatterMarkerSize.isFinite = true
  cameraEye : c.cameraEye.isFinite = true
  sceneCacheCapacity : c.sceneCacheCapacity < 2 ^ 64
  sampleCacheCapacity : c.sampleCacheCapacity < 2 ^ 64

instance (c : Config) : Decidable c.IsStorable :=
  decidable_of_iff' _ (isStorable_iff c)

/-! ## Deleted settings -/

/-- The configuration with the default of each deleted setting and its own value of each other. -/
def restored (c : Config) (deleted : Finset String) : Config :=
  let default : Config := {}
  { sampleCount := if "sample_count" ∈ deleted then default.sampleCount else c.sampleCount
    circleSegments :=
      if "circle_segments" ∈ deleted then default.circleSegments else c.circleSegments
    defaultColor := if "default_color" ∈ deleted then default.defaultColor else c.defaultColor
    lineWidth := if "line_width" ∈ deleted then default.lineWidth else c.lineWidth
    pointMarkerSize :=
      if "point_marker_size" ∈ deleted then default.pointMarkerSize else c.pointMarkerSize
    scatterMarkerSize :=
      if "scatter_marker_size" ∈ deleted then default.scatterMarkerSize else c.scatterMarkerSize
    polygonFillColor :=
      if "polygon_fill_color" ∈ deleted then default.polygonFillColor else c.polygonFillColor
    areaFillColor := if "area_fill_color" ∈ deleted then default.areaFillColor else c.areaFillColor
    surfaceColorscale :=
      if "surface_colorscale" ∈ deleted then default.surfaceColorscale else c.surfaceColorscale
    cameraEye := if "camera_eye" ∈ deleted then default.cameraEye else c.cameraEye
    placeholderText :=
      if "placeholder_text" ∈ deleted then default.placeholderText else c.placeholderText
    sceneCacheCapacity :=
      if "scene_cache_capacity" ∈ deleted then default.sceneCacheCapacity
      else c.sceneCacheCapacity
    sampleCacheCapacity :=
      if "sample_cache_capacity" ∈ deleted then default.sampleCacheCapacity
      else c.sampleCacheCapacity }

/-- Where nothing is deleted, everything is restored. -/
theorem restored_empty (c : Config) : c.restored ∅ = c := rfl

/-- Where all settings are deleted, all defaults are back. -/
theorem restored_fields (c : Config) : c.restored fields.toFinset = {} := rfl

/-! ## The written members -/

/-- The members of a configuration. -/
def members (c : Config) : List (String × Json) :=
  [("sample_count", .ofNat c.sampleCount), ("circle_segments", .ofNat c.circleSegments),
    ("default_color", .str c.defaultColor), ("line_width", .ofFloat c.lineWidth),
    ("point_marker_size", .ofFloat c.pointMarkerSize),
    ("scatter_marker_size", .ofFloat c.scatterMarkerSize),
    ("polygon_fill_color", .str c.polygonFillColor), ("area_fill_color", .str c.areaFillColor),
    ("surface_colorscale", .str c.surfaceColorscale), ("camera_eye", c.cameraEye.toRecord),
    ("placeholder_text", .str c.placeholderText),
    ("scene_cache_capacity", .ofNat c.sceneCacheCapacity),
    ("sample_cache_capacity", .ofNat c.sampleCacheCapacity)]

theorem toJson_eq (c : Config) : c.toJson = .obj c.members := rfl

/-- Every setting is written, under its own name. -/
theorem keys_members (c : Config) : Json.keys c.members = fields := rfl

theorem nodup_keys (c : Config) : ((ofMembers c.members).map Prod.fst).Nodup := by
  rw [Document.map_fst_ofMembers, keys_members]
  decide

/-- A setting whose member is deleted is read as its default, and any other as it was written. -/
theorem withDefault_of_leaves {α : Type} {deleted : Finset String} {r : Document.Record}
    {field : String} {j : Json} {decode : Document → Option α} {absent own : α}
    (h : Leaves deleted (ofMembers c.members) r) (hfield : c.members.lookup field = some j)
    (hread : decode (ofJson j) = some own) :
    r.withDefault field absent decode = some (if field ∈ deleted then absent else own) :=
  h.withDefault c.nodup_keys ((withDefault_ofMembers hfield).trans hread)

theorem decode?_of_leaves (hc : c.IsStorable) {deleted : Finset String}
    {kept : List (String × Json)} (h : kept.Perm (c.members.filter fun m => m.1 ∉ deleted)) :
    decode? (ofJson (.obj kept)) = some (c.restored deleted) := by
  have hleaves := leaves_ofMembers h
  have hwidth := Document.float?_ofFloat hc.lineWidth
  have hpoint := Document.float?_ofFloat hc.pointMarkerSize
  have hscatter := Document.float?_ofFloat hc.scatterMarkerSize
  have heye := Point3.decodeRecord?_toRecord hc.cameraEye
  have hkeys : (Json.keys kept).Nodup := by
    rw [← Document.map_fst_ofMembers]
    exact hleaves.nodup c.nodup_keys
  -- The fact that `decode?` needs of each setting: its member is found, and its reader is sound.
  have setting {α : Type} {field : String} {j : Json} {decode : Document → Option α}
      {absent own : α} (hfield : c.members.lookup field = some j)
      (hread : decode (ofJson j) = some own) :
      Document.Record.withDefault (ofMembers kept) field absent decode =
        some (if field ∈ deleted then absent else own) :=
    withDefault_of_leaves hleaves hfield hread
  rw [decode?, Document.record?_ofJson_obj hkeys]
  refine Option.bind_eq_some_iff.mpr ⟨_, rfl, ?_⟩
  refine Option.bind_eq_some_iff.mpr ⟨_, setting rfl rfl, ?_⟩
  refine Option.bind_eq_some_iff.mpr ⟨_, setting rfl rfl, ?_⟩
  refine Option.bind_eq_some_iff.mpr ⟨_, setting rfl (Document.str?_ofJson _), ?_⟩
  refine Option.bind_eq_some_iff.mpr ⟨_, setting rfl hwidth, ?_⟩
  refine Option.bind_eq_some_iff.mpr ⟨_, setting rfl hpoint, ?_⟩
  refine Option.bind_eq_some_iff.mpr ⟨_, setting rfl hscatter, ?_⟩
  refine Option.bind_eq_some_iff.mpr ⟨_, setting rfl (Document.str?_ofJson _), ?_⟩
  refine Option.bind_eq_some_iff.mpr ⟨_, setting rfl (Document.str?_ofJson _), ?_⟩
  refine Option.bind_eq_some_iff.mpr ⟨_, setting rfl (Document.str?_ofJson _), ?_⟩
  refine Option.bind_eq_some_iff.mpr ⟨_, setting rfl heye, ?_⟩
  refine Option.bind_eq_some_iff.mpr ⟨_, setting rfl (Document.str?_ofJson _), ?_⟩
  refine Option.bind_eq_some_iff.mpr ⟨_, setting rfl rfl, ?_⟩
  refine Option.bind_eq_some_iff.mpr ⟨_, setting rfl rfl, ?_⟩
  rfl

/-! ## Texts -/

theorem isPrintable_toJson (hc : c.IsStorable) : c.toJson.IsPrintable := by
  have count : ∀ n : ℕ, n < 2 ^ 64 → (Json.ofNat n).IsPrintable := by
    intro n hn
    rw [Json.ofNat, Json.IsPrintable]
    omega
  rw [toJson_eq, Json.IsPrintable, members]
  simp [count _ hc.sampleCount, count _ hc.circleSegments, count _ hc.sceneCacheCapacity,
    count _ hc.sampleCacheCapacity]

/-- What is left of a printable object is printable. -/
theorem isPrintable_kept (hc : c.IsStorable) {deleted : Finset String}
    {kept : List (String × Json)} (h : kept.Perm (c.members.filter fun m => m.1 ∉ deleted)) :
    (Json.obj kept).IsPrintable := by
  have hall := isPrintable_toJson hc
  rw [toJson_eq, Json.IsPrintable, Json.membersPrintable_iff] at hall
  rw [Json.IsPrintable, Json.membersPrintable_iff]
  exact fun m hm => hall m (List.mem_of_mem_filter (h.mem_iff.mp hm))

/-- What is left of an object has no other numbers. -/
theorem keepsAll_kept {reader : NumberReader} (h : reader.KeepsAll c.toJson)
    {deleted : Finset String} {kept : List (String × Json)}
    (hkept : kept.Perm (c.members.filter fun m => m.1 ∉ deleted)) :
    reader.KeepsAll (.obj kept) := by
  rw [toJson_eq, NumberReader.keepsAll_obj] at h
  rw [NumberReader.keepsAll_obj]
  exact fun m hm => h m (List.mem_of_mem_filter (hkept.mem_iff.mp hm))

theorem parse_of_spelled {reader : NumberReader} (hc : c.IsStorable) {deleted : Finset String}
    {kept : List (String × Json)} (h : kept.Perm (c.members.filter fun m => m.1 ∉ deleted))
    {text : String} (htext : Document.parse? text reader = some (ofJson (.obj kept))) :
    parse text reader = .ok (c.restored deleted) := by
  rw [parse, htext, Option.bind_some, decode?_of_leaves hc h]

/-- **Stored settings are restored field by field.**  The text of a configuration spells its
members.  Of these any may be deleted, and the others may stand in any order and be spelled in any
way: what is read has the default of each deleted setting and the stored value of each other.  The
text of a graph is read back as the same graph.  Only of the texts that are printed is it asked that
the reader keeps the numbers. -/
theorem stored_settings_restored (reader : NumberReader) :
    (∀ c : Config, c.IsStorable →
      (reader.KeepsAll c.toJson →
        Document.parse? c.pretty reader = some (ofJson (.obj c.members))) ∧
      ∀ (deleted : Finset String) (kept : List (String × Json)),
        kept.Perm (c.members.filter fun m => m.1 ∉ deleted) →
          (reader.KeepsAll c.toJson →
            parse (Json.obj kept).pretty reader = .ok (c.restored deleted) ∧
            parse (Json.obj kept).compact reader = .ok (c.restored deleted)) ∧
          ∀ text : String, Document.parse? text reader = some (ofJson (.obj kept)) →
            parse text reader = .ok (c.restored deleted)) ∧
    ∀ g : Graph, g.IsFinite → reader.KeepsAll g.toJson → Graph.parse g.pretty reader = .ok g := by
  refine ⟨fun c hc => ⟨Document.parse?_pretty (isPrintable_toJson hc), fun deleted kept h => ?_⟩,
    fun g => Graph.parse_pretty⟩
  refine ⟨fun hnumbers => ?_, fun _ => parse_of_spelled hc h⟩
  have hprintable := isPrintable_kept hc h
  have hkept := keepsAll_kept hnumbers h
  exact ⟨parse_of_spelled hc h (Document.parse?_pretty hprintable hkept),
    parse_of_spelled hc h (Document.parse?_compact hprintable hkept)⟩

/-- Settings far from their defaults: the largest count, a negative zero, the least of all sizes,
and texts that are empty or have to be escaped. -/
def unusual : Config where
  sampleCount := 2 ^ 64 - 1
  defaultColor := ""
  lineWidth := -0
  pointMarkerSize := 5e-324
  polygonFillColor := "\"\n"
  cameraEye := ⟨-1.25, 0, 1e300⟩
  placeholderText := "∅"
  sampleCacheCapacity := 0

/-- A graph with empty texts in the place of missing ones, and with a function twice. -/
def outline : Graph where
  title := some ""
  functions := [{ expression := "x", color := some "" }, { expression := "1 +", label := some "?" },
    { expression := "x", color := some "" }]
  xRange := ⟨1, -0⟩
  yRange := ⟨-1e-7, 0.1⟩

/-- Of the unusual settings three are deleted and the others written backwards. -/
theorem stored_settings_restored_unusual :
    unusual.IsStorable ∧ outline.IsFinite ∧
      NumberReader.bestEffort.KeepsAll unusual.toJson ∧
      NumberReader.bestEffort.KeepsAll outline.toJson ∧
      parse (Json.obj (unusual.members.filter fun m =>
        m.1 ∉ ({"line_width", "camera_eye", "placeholder_text"} : Finset String)).reverse).pretty =
          .ok { unusual with
            lineWidth := 2
            cameraEye := ⟨1.5, 1.5, 1.5⟩
            placeholderText := "No data to display" } ∧
      Graph.parse outline.pretty = .ok outline := by
  have hc : unusual.IsStorable := by decide +kernel
  have hg : outline.IsFinite := by decide
  have hsettings : NumberReader.bestEffort.KeepsAll unusual.toJson := by decide +kernel
  have hbounds : NumberReader.bestEffort.KeepsAll outline.toJson := by decide +kernel
  obtain ⟨hconfig, hgraph⟩ := stored_settings_restored .bestEffort
  obtain ⟨-, hrestored⟩ := hconfig unusual hc
  exact ⟨hc, hg, hsettings, hbounds, ((hrestored _ _ (List.reverse_perm _)).1 hsettings).1,
    hgraph outline hg hbounds⟩

end Config
end Plotting
