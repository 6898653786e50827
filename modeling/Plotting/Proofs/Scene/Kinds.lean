import Plotting.Proofs.Scene.Drawable

/-!
# Scenes follow from the kinds of their elements

Whether a scene is spatial is said three times: by the kinds of its elements, by its traces, and by
its layout.  Whether it is empty is said twice.  All of them come down to the kinds.  The reason is
that a known element is drawn by traces of its own dimension, of which there is always at least one,
however little of its geometry is left: a degraded surface is an empty surface trace, and it still
makes the scene spatial.

`Layout.ofKinds` is the layout read off the kinds, and `layout_ofElements` says that scenes have it.
-/

namespace Plotting

/-! ## The traces of one element -/

/-- An area is drawn by one trace or two. -/
theorem Area.traces_ne_nil (a : Area) (style : ElementStyle) (config : Config) :
    a.traces style config ≠ [] := by
  unfold traces
  split
  · exact List.cons_ne_nil _ _
  · exact List.cons_ne_nil _ _

/-- Only known kinds are drawn in space. -/
theorem ElementKind.isKnown_of_isSpatial {k : ElementKind} (h : k.isSpatial = true) :
    k.isKnown = true := by
  cases k <;> first | rfl | cases h

namespace Element

/-- One trace of the element's own dimension is a nonempty list of such traces. -/
theorem homogeneous_singleton {b : Bool} {t : Trace} (h : t.isSpatial = b) :
    [t] ≠ [] ∧ ∀ u ∈ [t], u.isSpatial = b :=
  ⟨List.cons_ne_nil _ _, List.forall_mem_singleton.mpr h⟩

/-- A known element is drawn by at least one trace, and all its traces have its dimension. -/
theorem homogeneous_traces? {config : Config} {e : Element} {ts : List Trace}
    (h : e.traces? config = some ts) : ts ≠ [] ∧ ∀ t ∈ ts, t.isSpatial = e.kind.isSpatial := by
  obtain ⟨geometry, style⟩ := e
  unfold traces? at h
  cases geometry with
  | area a =>
    obtain rfl := Option.some.inj h
    refine ⟨fun hnil => a.traces_ne_nil style config (List.map_eq_nil_iff.mp hnil), ?_⟩
    intro t ht
    obtain ⟨u, -, rfl⟩ := List.mem_map.mp ht
    rfl
  | unknown kind data => cases h
  | _ =>
    obtain rfl := Option.some.inj h
    exact homogeneous_singleton rfl

/-- An element is drawn by nothing exactly when its kind is unknown. -/
theorem getD_traces?_eq_nil_iff {config : Config} {e : Element} :
    (e.traces? config).getD [] = [] ↔ e.kind.isKnown = false := by
  rw [← isSome_traces? config e]
  cases h : e.traces? config with
  | none => exact iff_of_true rfl rfl
  | some ts => exact iff_of_false (homogeneous_traces? h).1 Bool.true_eq_false.mp

/-- An element has a trace in space exactly when it is of a spatial kind. -/
theorem any_isSpatial_getD_traces? (config : Config) (e : Element) :
    ((e.traces? config).getD []).any Trace.isSpatial = e.kind.isSpatial := by
  cases h : e.traces? config with
  | none =>
    have hunknown : e.kind.isKnown = false := by rw [← isSome_traces? config e, h]; rfl
    have hplanar : e.kind.isSpatial = false := by
      refine Bool.eq_false_iff.mpr fun hspatial => ?_
      exact Bool.eq_false_iff.mp hunknown (ElementKind.isKnown_of_isSpatial hspatial)
    rw [hplanar]
    rfl
  | some ts =>
    obtain ⟨hne, hall⟩ := homogeneous_traces? h
    obtain ⟨t, ht⟩ := List.exists_mem_of_ne_nil ts hne
    rw [Option.getD_some, Bool.eq_iff_iff, List.any_eq_true]
    constructor
    · rintro ⟨u, hu, hspatial⟩
      exact (hall u hu).symm.trans hspatial
    · intro hspatial
      exact ⟨t, ht, (hall t ht).trans hspatial⟩

/-! ## The traces of a list -/

/-- A list of elements is drawn by nothing exactly when no kind is known. -/
theorem traces_eq_nil_iff {config : Config} {es : List Element} :
    traces config es = [] ↔ ∀ e ∈ es, e.kind.isKnown = false := by
  unfold traces
  simp only [List.flatMap_eq_nil_iff, getD_traces?_eq_nil_iff]

/-- A list of elements has a trace in space exactly when one of the kinds is spatial. -/
theorem any_isSpatial_traces (config : Config) (es : List Element) :
    (traces config es).any Trace.isSpatial = es.any fun e => e.kind.isSpatial := by
  unfold traces
  simp only [List.any_flatMap, any_isSpatial_getD_traces?]

end Element

/-! ## The layout of kinds -/

namespace Layout

/-- The layout of elements of the given kinds. -/
def ofKinds (kinds : List ElementKind) (title : Option String) (config : Config) : Layout :=
  if kinds.any ElementKind.isKnown then
    if kinds.any ElementKind.isSpatial then ofSpace title config else ofPlane title
  else placeholder title config

/-- The three layouts of traces, each with the reason for it. -/
theorem ofTraces_cases (ts : List Trace) (title : Option String) (config : Config) :
    (ts = [] ∧ ofTraces ts title config = placeholder title config) ∨
    (ts ≠ [] ∧ ts.any Trace.isSpatial = true ∧ ofTraces ts title config = ofSpace title config) ∨
    (ts ≠ [] ∧ ts.any Trace.isSpatial = false ∧ ofTraces ts title config = ofPlane title) := by
  unfold ofTraces
  cases ts with
  | nil => exact Or.inl ⟨rfl, rfl⟩
  | cons t ts =>
    rw [if_neg (by rw [List.isEmpty_cons]; exact Bool.false_ne_true)]
    cases hspatial : (t :: ts).any Trace.isSpatial with
    | true => exact Or.inr (Or.inl ⟨List.cons_ne_nil _ _, rfl, rfl⟩)
    | false => exact Or.inr (Or.inr ⟨List.cons_ne_nil _ _, rfl, rfl⟩)

variable (ts : List Trace) (title : Option String) (config : Config)

/-- A layout of traces is a placeholder exactly when there are none. -/
theorem isPlaceholder_ofTraces : (ofTraces ts title config).isPlaceholder = true ↔ ts = [] := by
  obtain ⟨hnil, hlayout⟩ | ⟨hne, -, hlayout⟩ | ⟨hne, -, hlayout⟩ := ofTraces_cases ts title config
  · exact iff_of_true (by rw [hlayout]; rfl) hnil
  · exact iff_of_false (by rw [hlayout]; exact Bool.false_ne_true) hne
  · exact iff_of_false (by rw [hlayout]; exact Bool.false_ne_true) hne

/-- A layout of traces hides the legend exactly when there are none. -/
theorem showLegend_ofTraces : (ofTraces ts title config).showLegend = false ↔ ts = [] := by
  obtain ⟨hnil, hlayout⟩ | ⟨hne, -, hlayout⟩ | ⟨hne, -, hlayout⟩ := ofTraces_cases ts title config
  · exact iff_of_true (by rw [hlayout]; rfl) hnil
  · exact iff_of_false (by rw [hlayout]; exact Bool.true_eq_false.mp) hne
  · exact iff_of_false (by rw [hlayout]; exact Bool.true_eq_false.mp) hne

/-- A layout of traces has both planar axes or the spatial block, and nothing of the other. -/
theorem ofTraces_planar_or_spatial :
    ((ofTraces ts title config).isSpatial = false ∧
      (ofTraces ts title config).xAxis.isSome = true ∧
      (ofTraces ts title config).yAxis.isSome = true ∧
      (ofTraces ts title config).spatial = none) ∨
    ((ofTraces ts title config).isSpatial = true ∧
      (ofTraces ts title config).xAxis = none ∧
      (ofTraces ts title config).yAxis = none ∧
      (ofTraces ts title config).spatial.isSome = true) := by
  obtain ⟨-, hlayout⟩ | ⟨-, -, hlayout⟩ | ⟨-, -, hlayout⟩ := ofTraces_cases ts title config
  · rw [hlayout]
    exact Or.inl ⟨rfl, rfl, rfl, rfl⟩
  · rw [hlayout]
    exact Or.inr ⟨rfl, rfl, rfl, rfl⟩
  · rw [hlayout]
    exact Or.inl ⟨rfl, rfl, rfl, rfl⟩

end Layout

/-! ## Scenes of elements -/

namespace Scene

variable (es : List Element) (title : Option String) (config : Config)

/-- The layout of a scene of elements is the layout of their kinds. -/
theorem layout_ofElements :
    (ofElements es title config).layout = Layout.ofKinds (es.map Element.kind) title config := by
  have hspatial : (es.map Element.kind).any ElementKind.isSpatial =
      (Element.traces config es).any Trace.isSpatial := by
    rw [Element.any_isSpatial_traces, List.any_map]
    rfl
  have hknown : (es.map Element.kind).any ElementKind.isKnown = true ↔
      Element.traces config es ≠ [] := by
    rw [Ne, Element.traces_eq_nil_iff, List.any_map, List.any_eq_true]
    simp only [Function.comp_apply, not_forall, Bool.not_eq_false, exists_prop]
  change Layout.ofTraces (Element.traces config es) title config = _
  unfold Layout.ofKinds
  rw [hspatial]
  obtain ⟨hnil, hlayout⟩ | ⟨hne, hany, hlayout⟩ | ⟨hne, hany, hlayout⟩ :=
    Layout.ofTraces_cases (Element.traces config es) title config
  · rw [if_neg (fun h => hknown.mp h hnil), hlayout]
  · rw [if_pos (hknown.mpr hne), if_pos hany, hlayout]
  · rw [if_pos (hknown.mpr hne), if_neg (Bool.eq_false_iff.mp hany), hlayout]

/-- The traces of a scene of elements are those of its elements, one after the other. -/
theorem traces_ofElements :
    (ofElements es title config).traces =
      es.flatMap fun e => (ofElements [e] title config).traces := by
  change Element.traces config es = es.flatMap fun e => Element.traces config [e]
  unfold Element.traces
  simp only [List.flatMap_singleton]

/-- **Dimension, emptiness and layout of a scene follow from the kinds of its elements.**  The scene
is spatial exactly when one of the kinds is, even if nothing is left of that element's geometry.  It
is empty exactly when every kind is unknown, and exactly then its layout is a placeholder and hides
the legend.  Each known element is drawn, in the order of the list. -/
theorem ofElements_follows_kinds :
    ((ofElements es title config).isSpatial = true ↔ ∃ e ∈ es, e.kind.isSpatial = true) ∧
    ((ofElements es title config).traces = [] ↔ ∀ e ∈ es, e.kind.isKnown = false) ∧
    ((ofElements es title config).layout.isPlaceholder = true ↔
      (ofElements es title config).traces = []) ∧
    ((ofElements es title config).layout.showLegend = false ↔
      (ofElements es title config).traces = []) ∧
    (((ofElements es title config).isSpatial = false ∧
        (ofElements es title config).layout.xAxis.isSome = true ∧
        (ofElements es title config).layout.yAxis.isSome = true ∧
        (ofElements es title config).layout.spatial = none) ∨
      ((ofElements es title config).isSpatial = true ∧
        (ofElements es title config).layout.xAxis = none ∧
        (ofElements es title config).layout.yAxis = none ∧
        (ofElements es title config).layout.spatial.isSome = true)) ∧
    (ofElements es title config).layout =
      Layout.ofKinds (es.map Element.kind) title config ∧
    (∀ e, (ofElements [e] title config).traces = [] ↔ e.kind.isKnown = false) ∧
    (ofElements es title config).traces =
      (es.flatMap fun e => (ofElements [e] title config).traces) ∧
    (∀ fs, (ofElements (es ++ fs) title config).traces =
      (ofElements es title config).traces ++ (ofElements fs title config).traces) := by
  have hspatial : (ofElements es title config).isSpatial = true ↔
      ∃ e ∈ es, e.kind.isSpatial = true := by
    change (Layout.ofTraces (Element.traces config es) title config).isSpatial = true ↔ _
    rw [isSpatial_ofTraces, Element.any_isSpatial_traces, List.any_eq_true]
  have hknown : ∀ e, (ofElements [e] title config).traces = [] ↔ e.kind.isKnown = false :=
    fun e => Element.traces_eq_nil_iff.trans List.forall_mem_singleton
  exact ⟨hspatial, Element.traces_eq_nil_iff,
    Layout.isPlaceholder_ofTraces _ title config, Layout.showLegend_ofTraces _ title config,
    Layout.ofTraces_planar_or_spatial _ title config, layout_ofElements es title config,
    hknown, traces_ofElements es title config, Element.traces_append config es⟩

end Scene
end Plotting
