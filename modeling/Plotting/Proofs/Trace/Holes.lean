import Plotting.Proofs.Element.Drawable
import Plotting.Proofs.Trace.RoundTrip

/-!
# Surfaces with holes are not read back

A double that is not finite is written as null, and null is no number to the reader.  So whatever is
read back from its own JSON form was finite to begin with: number by number, row by row, grid by
grid.  Of all that can be drawn, only the cells of a surface need not be finite, and a cell that is
not is a hole.  A trace that can be drawn therefore has finite numbers exactly when it has no hole,
and one with a hole is written but never read.
-/

namespace Plotting

open Document (ofJson)
open Document.Record (required_ofMembers)

/-! ## What is read back was finite -/

namespace Document

/-- A number that is not finite is written as null, which is no number. -/
theorem isFinite_of_float?_ofFloat {x y : Float} (h : float? (ofJson (.ofFloat x)) = some y) :
    x.isFinite = true := by
  unfold Json.ofFloat at h
  split at h
  · assumption
  · cases h

/-- A list is read back only if each item is. -/
theorem forall_of_list?_ofJson {α : Type} {encode : α → Json} {decode : Document → Option α}
    {P : α → Prop} (hP : ∀ a b, decode (ofJson (encode a)) = some b → P a) {as bs : List α}
    (h : list? decode (ofJson (Json.list encode as)) = some bs) : ∀ a ∈ as, P a := by
  have hitems : (as.map fun a => ofJson (encode a)).mapM decode = some bs := by
    rwa [Json.list, ofJson, ofItems_eq_map, list?, List.map_map] at h
  clear h
  induction as generalizing bs with
  | nil => exact List.forall_mem_nil _
  | cons a as ih =>
    rw [List.map_cons, List.mapM_cons] at hitems
    obtain ⟨b, hb, hitems⟩ := Option.bind_eq_some_iff.mp hitems
    obtain ⟨bs', hbs, -⟩ := Option.bind_eq_some_iff.mp hitems
    exact List.forall_mem_cons.mpr ⟨hP a b hb, ih hbs⟩

end Document

/-- A grid is read back only if its cells are numbers. -/
theorem Grid.isFinite_of_decode? {g g' : Grid}
    (h : Grid.decode? (ofJson (Grid.toJson g)) = some g') : Grid.IsFinite g := by
  refine Document.forall_of_list?_ofJson (fun row row' hrow => ?_) h
  exact Document.forall_of_list?_ofJson (fun x y => Document.isFinite_of_float?_ofFloat) hrow

/-- A surface is read back only if its cells and its opacity are numbers. -/
theorem SurfaceTrace.isFinite_of_decode? {t t' : SurfaceTrace}
    (h : decode? (ofJson (.obj t.members)) = some t') : t.IsFinite := by
  have hx : t.members.lookup "x" = some (Grid.toJson t.x) := by simp [members, List.lookup_cons]
  have hy : t.members.lookup "y" = some (Grid.toJson t.y) := by simp [members, List.lookup_cons]
  have hz : t.members.lookup "z" = some (Grid.toJson t.z) := by simp [members, List.lookup_cons]
  have hopacity : t.members.lookup "opacity" = some (.ofFloat t.opacity) := by
    simp [members, List.lookup_cons]
  rw [decode?, Document.record?_ofJson_obj t.nodup_keys] at h
  simp only [required_ofMembers hx, required_ofMembers hy, required_ofMembers hz,
    required_ofMembers hopacity, Option.bind_eq_bind, Option.bind_some] at h
  obtain ⟨_, -, h⟩ := Option.bind_eq_some_iff.mp h
  obtain ⟨_, hxs, h⟩ := Option.bind_eq_some_iff.mp h
  obtain ⟨_, hys, h⟩ := Option.bind_eq_some_iff.mp h
  obtain ⟨_, hzs, h⟩ := Option.bind_eq_some_iff.mp h
  obtain ⟨_, -, h⟩ := Option.bind_eq_some_iff.mp h
  obtain ⟨_, ho, -⟩ := Option.bind_eq_some_iff.mp h
  exact ⟨Grid.isFinite_of_decode? hxs, Grid.isFinite_of_decode? hys, Grid.isFinite_of_decode? hzs,
    Document.isFinite_of_float?_ofFloat ho⟩

/-- A surface is read back as a trace only if its cells and its opacity are numbers. -/
theorem Trace.isFinite_of_decode?_surface {t : SurfaceTrace} {u : Trace} {levels : ℕ}
    (h : decode? levels (ofJson (toJson (.surface t))) = some u) : t.IsFinite := by
  have hsplit : splitType? (ofJson (toJson (.surface t))) =
      some (ofJson (.str SurfaceTrace.typeName), ofJson (.obj t.members)) :=
    splitType?_ofJson (Trace.surface t).type_notMem_keys
  unfold decode? at h
  obtain ⟨-, -, h⟩ := Option.bind_eq_some_iff.mp h
  rw [hsplit] at h
  simp only [Option.bind_eq_bind, Option.bind_some, Document.str?_ofJson] at h
  rw [ofRecord?, if_neg (by decide), if_neg (by decide), if_pos rfl] at h
  obtain ⟨t', ht', -⟩ := Option.map_eq_some_iff.mp h
  exact SurfaceTrace.isFinite_of_decode? ht'

/-! ## Holes -/

namespace Grid

/-- Some cell is not a number. -/
def HasHole (g : Grid) : Prop :=
  ∃ row ∈ g, ∃ v ∈ row, v.isFinite = false

instance decidableHasHole (g : Grid) : Decidable (HasHole g) :=
  inferInstanceAs (Decidable (∃ row ∈ g, ∃ v ∈ row, v.isFinite = false))

theorem isFinite_iff_not_hasHole {g : Grid} : IsFinite g ↔ ¬ HasHole g := by
  unfold IsFinite HasHole
  push Not
  simp only [Bool.not_eq_false]

theorem not_hasHole_nil : ¬ HasHole [] := by
  rintro ⟨row, hrow, -⟩
  exact List.not_mem_nil hrow

end Grid

/-- The surface is drawn with a hole in one of its grids. -/
def SurfaceTrace.HasHole (t : SurfaceTrace) : Prop :=
  Grid.HasHole t.x ∨ Grid.HasHole t.y ∨ Grid.HasHole t.z

/-- The surface is drawn, and with a hole. -/
def Surface.HasHole (s : Surface) : Prop :=
  s.isConsistent = true ∧ (Grid.HasHole s.x ∨ Grid.HasHole s.y ∨ Grid.HasHole s.z)

instance (s : Surface) : Decidable s.HasHole :=
  inferInstanceAs (Decidable (_ ∧ _))

/-- A surface has the holes of its trace; one whose grids do not match is drawn empty. -/
theorem Surface.hasHole_trace_iff {s : Surface} {style : ElementStyle} {config : Config} :
    (s.trace style config).HasHole ↔ s.HasHole := by
  unfold trace SurfaceTrace.HasHole HasHole
  by_cases hs : s.isConsistent = true
  · simp only [eq_true hs, if_true, true_and]
  · simp only [eq_false hs, if_false, false_and, or_self, Grid.not_hasHole_nil]

namespace Trace

/-- The trace is a surface with a hole. -/
def HasHole : Trace → Prop
  | .surface t => t.HasHole
  | _ => False

/-- Of what can be drawn, all but the cells of a surface is finite. -/
theorem Drawable.isFinite_iff_not_hasHole {t : Trace} (h : t.Drawable) :
    t.IsFinite ↔ ¬ t.HasHole := by
  have hpositive : ∀ {v : Float}, isPositive v = true → v.isFinite = true :=
    fun hv => (Bool.and_eq_true_iff.mp hv).1
  cases t with
  | planar t =>
    obtain ⟨hx, hy, -⟩ := List.forall_mem_cons.mp h.points.finite |>.imp_right
      List.forall_mem_cons.mp
    exact iff_of_true ⟨hx, hy, fun l hl => hpositive (h.points.line l hl),
      fun m hm => hpositive (h.points.marker m hm)⟩ not_false
  | spatial t =>
    obtain ⟨hx, hyz⟩ := List.forall_mem_cons.mp h.points.finite
    obtain ⟨hy, hz⟩ := List.forall_mem_cons.mp hyz
    exact iff_of_true ⟨hx, hy, List.forall_mem_singleton.mp hz,
      fun l hl => hpositive (h.points.line l hl),
      fun m hm => hpositive (h.points.marker m hm)⟩ not_false
  | surface t =>
    have hcells : t.IsFinite ↔ Grid.IsFinite t.x ∧ Grid.IsFinite t.y ∧ Grid.IsFinite t.z :=
      ⟨fun ht => ⟨ht.x, ht.y, ht.z⟩, fun ⟨hx, hy, hz⟩ => ⟨hx, hy, hz, h.opacity.1⟩⟩
    change t.IsFinite ↔ ¬ (_ ∨ _ ∨ _)
    rw [hcells, not_or, not_or, Grid.isFinite_iff_not_hasHole, Grid.isFinite_iff_not_hasHole,
      Grid.isFinite_iff_not_hasHole]

/-- A trace with a hole is not read back. -/
theorem HasHole.decode?_eq_none {t : Trace} (h : t.HasHole) (levels : ℕ) :
    decode? levels (ofJson t.toJson) = none := by
  cases t with
  | planar t => exact h.elim
  | spatial t => exact h.elim
  | surface t =>
    refine Option.eq_none_iff_forall_ne_some.mpr fun u hread => ?_
    have hfinite := isFinite_of_decode?_surface hread
    obtain hx | hy | hz := h
    · exact Grid.isFinite_iff_not_hasHole.mp hfinite.x hx
    · exact Grid.isFinite_iff_not_hasHole.mp hfinite.y hy
    · exact Grid.isFinite_iff_not_hasHole.mp hfinite.z hz

end Trace

/-! ## Elements that are drawn with holes -/

namespace Element

/-- The element is a surface that is drawn with a hole. -/
def HasHole (e : Element) : Prop :=
  match e.geometry with
  | .surface s => s.HasHole
  | _ => False

/-- An element is drawn with a hole exactly when it has one. -/
theorem exists_hasHole_traces?_iff {config : Config} {e : Element} :
    (∃ t ∈ (e.traces? config).getD [], t.HasHole) ↔ e.HasHole := by
  obtain ⟨geometry, style⟩ := e
  unfold traces?
  cases geometry with
  | surface s =>
    simp only [Option.getD_some, List.mem_singleton, exists_eq_left]
    exact Surface.hasHole_trace_iff
  | area a =>
    refine iff_of_false ?_ not_false
    rintro ⟨t, ht, hhole⟩
    obtain ⟨u, -, rfl⟩ := List.mem_map.mp ht
    exact hhole
  | unknown kind data => exact iff_of_false (fun ⟨t, ht, _⟩ => List.not_mem_nil ht) not_false
  | _ =>
    refine iff_of_false ?_ not_false
    rintro ⟨t, ht, hhole⟩
    obtain rfl := List.mem_singleton.mp ht
    exact hhole

/-- A list of elements is drawn with a hole exactly when one of them is. -/
theorem exists_hasHole_traces_iff {config : Config} {es : List Element} :
    (∃ t ∈ traces config es, t.HasHole) ↔ ∃ e ∈ es, e.HasHole := by
  unfold traces
  constructor
  · rintro ⟨t, ht, hhole⟩
    obtain ⟨e, he, ht⟩ := List.mem_flatMap.mp ht
    exact ⟨e, he, exists_hasHole_traces?_iff.mp ⟨t, ht, hhole⟩⟩
  · rintro ⟨e, he, hhole⟩
    obtain ⟨t, ht, hhole⟩ := exists_hasHole_traces?_iff.mpr hhole
    exact ⟨t, List.mem_flatMap.mpr ⟨e, he, ht⟩, hhole⟩

end Element
end Plotting
