import Plotting.Proofs.Scene.Kinds
import Plotting.Proofs.Scene.Storage
import Plotting.Proofs.Trace.Holes

/-!
# Scenes with holes are not read back

The scene of any elements can be drawn, and its layout has finite numbers.  So the only numbers of
such a scene that may not be finite are the holes of its surfaces.  They decide whether the scene is
read back from the text of its contract: without a hole it is, as itself, and with one the text is
refused, although the scene passes its own check.  The other numbers are those that the reader has
to keep.

There is no third case, since a contract that is refused has a scene in it that is no scene: the
version is the one that is asked for.
-/

namespace Plotting

open Document (ofJson ofMembers)
open Document.Record (required_ofMembers)

/-! ## Layouts of traces have finite numbers -/

namespace Layout

theorem isFinite_horizontalTop : Legend.horizontalTop.IsFinite := by
  decide

theorem isFinite_zeroLineWidth : (1.5 : Float).isFinite = true := by
  decide

theorem isFinite_one : (1 : Float).isFinite = true := by
  decide

theorem isFinite_centered (text : String) : Annotation.IsFinite ( Annotation.centered text) := by
  have hmiddle : (0.5 : Float).isFinite = true := by decide
  exact ⟨hmiddle, hmiddle⟩

theorem isFinite_hidden : PlanarAxis.hidden.IsFinite := by
  decide

theorem isFinite_cartesian (title : String) : (PlanarAxis.cartesian title).IsFinite where
  zeroLineWidth := isFinite_zeroLineWidth
  range := by rintro r ⟨⟩
  scaleRatio := by rintro v ⟨⟩

theorem isFinite_placeholder (title : Option String) (config : Config) :
    (placeholder title config).IsFinite where
  legend := isFinite_horizontalTop
  xAxis := by rintro a ⟨⟩; exact isFinite_hidden
  yAxis := by rintro a ⟨⟩; exact isFinite_hidden
  spatial := by rintro b ⟨⟩
  annotations := List.forall_mem_singleton.mpr (isFinite_centered _)

theorem isFinite_ofPlane (title : Option String) : (ofPlane title).IsFinite where
  legend := isFinite_horizontalTop
  xAxis := by rintro a ⟨⟩; exact isFinite_cartesian _
  yAxis := by
    rintro a ⟨⟩
    refine ⟨isFinite_zeroLineWidth, ?_, ?_⟩
    · rintro r ⟨⟩
    · rintro v ⟨⟩
      exact isFinite_one
  spatial := by rintro b ⟨⟩
  annotations := List.forall_mem_nil _

theorem isFinite_ofSpace {config : Config} (hc : config.Usable) (title : Option String) :
    (ofSpace title config).IsFinite where
  legend := isFinite_horizontalTop
  xAxis := by rintro a ⟨⟩
  yAxis := by rintro a ⟨⟩
  spatial := by rintro b ⟨⟩; exact hc.cameraEye
  annotations := List.forall_mem_nil _

/-- A layout of traces seen from a point of space has finite numbers. -/
theorem isFinite_ofTraces {config : Config} (hc : config.Usable) (ts : List Trace)
    (title : Option String) : (ofTraces ts title config).IsFinite := by
  obtain ⟨-, hlayout⟩ | ⟨-, -, hlayout⟩ | ⟨-, -, hlayout⟩ := ofTraces_cases ts title config
  · exact hlayout ▸ isFinite_placeholder title config
  · exact hlayout ▸ isFinite_ofSpace hc title
  · exact hlayout ▸ isFinite_ofPlane title

end Layout

/-! ## Reading a contract -/

namespace Scene

variable {s : Scene}

/-- A contract is read as the scene in it, or not at all. -/
theorem ofDocument_toContract_eq (s : Scene) :
    ofDocument (ofJson s.toContract) =
      match decode? (Document.maxNesting - 1) (ofJson s.toJson) with
      | some scene => .ok scene
      | none => .error (.data (.unreadable .scene)) := by
  rw [toContract_eq, ofDocument, decode?_contract, decodeContract?_contract]
  cases decode? (Document.maxNesting - 1) (ofJson s.toJson) with
  | none => rfl
  | some scene => exact if_pos rfl

/-- A scene with a hole is no scene to the reader. -/
theorem decode?_eq_none_of_hasHole {t : Trace} (ht : t ∈ s.traces) (hole : t.HasHole)
    (levels : ℕ) : decode? levels (ofJson s.toJson) = none := by
  have htraces : s.members.lookup "traces" = some (Json.list Trace.toJson s.traces) := by
    simp [members]
  have hkeys : (Json.keys s.members).Nodup := by simp [members]
  have hlist : Document.list? (Trace.decode? (levels - 2))
      (ofJson (Json.list Trace.toJson s.traces)) = none := by
    refine Option.eq_none_iff_forall_ne_some.mpr fun ts hread => ?_
    have hread' := Document.forall_of_list?_ofJson (P := fun t => ¬ t.HasHole)
      (fun u v hu hhole => Option.some_ne_none v (hu.symm.trans (hhole.decode?_eq_none _))) hread
    exact hread' t ht hole
  rw [toJson_eq, decode?, Document.record?_ofJson_obj hkeys]
  simp only [required_ofMembers htraces, hlist, Option.bind_eq_bind, Option.bind_some,
    Option.bind_none]

/-- The text of a contract around a scene with a hole is refused. -/
theorem parse_contractPretty_of_hasHole {reader : NumberReader} {t : Trace} (ht : t ∈ s.traces)
    (hole : t.HasHole) (hkept : reader.KeepsAll s.toJson) :
    parse s.contractPretty reader = .error (.data (.unreadable .scene)) := by
  rw [parse, parse?_contractPretty hkept]
  change ofDocument (ofJson s.toContract) = _
  rw [ofDocument_toContract_eq, decode?_eq_none_of_hasHole ht hole]

/-! ## Scenes of elements -/

/-- The scene of elements has finite numbers exactly when none of them is drawn with a hole. -/
theorem isFinite_ofElements_iff {config : Config} (hc : config.Usable) {es : List Element}
    {title : Option String} :
    (ofElements es title config).IsFinite ↔ ∀ e ∈ es, ¬ e.HasHole := by
  have htraces : (∀ t ∈ Element.traces config es, t.IsFinite) ↔
      ¬ ∃ t ∈ Element.traces config es, t.HasHole := by
    push Not
    exact forall₂_congr fun t ht =>
      (Element.drawable_of_mem_traces hc ht).isFinite_iff_not_hasHole
  rw [Element.exists_hasHole_traces_iff] at htraces
  push Not at htraces
  rw [← htraces]
  exact ⟨fun h => h.traces, fun h => ⟨h, Layout.isFinite_ofTraces hc _ title⟩⟩

/-- **A scene of elements is read back from its contract exactly when it has no hole.**  With a hole
in one of its surfaces, which the check of the scene lets pass, the text of the contract is refused,
whatever else is in the scene.  That holds for any reader that keeps the numbers of the scene; the
holes are not among them. -/
theorem parse_contractPretty_ofElements {reader : NumberReader} {config : Config}
    (hc : config.check = .ok ()) (es : List Element) (title : Option String)
    (hkept : reader.KeepsAll (ofElements es title config).toJson) :
    (ofElements es title config).check = .ok () ∧
    (parse (ofElements es title config).contractPretty reader = .ok (ofElements es title config) ↔
      ∀ e ∈ es, ¬ e.HasHole) ∧
    (parse (ofElements es title config).contractPretty reader =
        .error (.data (.unreadable .scene)) ↔
      ∃ e ∈ es, e.HasHole) := by
  have husable := Config.check_eq_ok_iff.mp hc
  have hread : (∀ e ∈ es, ¬ e.HasHole) →
      parse (ofElements es title config).contractPretty reader =
        .ok (ofElements es title config) :=
    fun h => parse_contractPretty ((isFinite_ofElements_iff husable).mpr h) hkept
  have hrefused : (∃ e ∈ es, e.HasHole) →
      parse (ofElements es title config).contractPretty reader =
        .error (.data (.unreadable .scene)) := by
    intro h
    obtain ⟨t, ht, hhole⟩ := Element.exists_hasHole_traces_iff.mpr h
    exact parse_contractPretty_of_hasHole ht hhole hkept
  refine ⟨check_eq_ok_iff.mpr (drawable_ofElements husable es title), ⟨fun h => ?_, hread⟩,
    ⟨fun h => ?_, hrefused⟩⟩
  · intro e he hhole
    rw [hrefused ⟨e, he, hhole⟩] at h
    cases h
  · by_contra hnone
    push Not at hnone
    rw [hread hnone] at h
    cases h

/-- A surface of one point, whose height is not a number. -/
def pierced : Element where
  geometry := .surface { x := [[0]], y := [[0]], z := [[0 / 0]] }

theorem hasHole_pierced : pierced.HasHole := by
  change Surface.HasHole _
  decide

/-- The same height over two points, so that the grids do not match. -/
def mismatched : Element where
  geometry := .surface { x := [[0, 1]], y := [[0]], z := [[0 / 0]] }

theorem not_hasHole_mismatched : ¬ mismatched.HasHole := by
  change ¬ Surface.HasHole _
  decide

/-- A hole makes the text unreadable, and a height that is left out does not. -/
theorem parse_contractPretty_ofElements_pierced :
    ({} : Config).check = .ok () ∧
    NumberReader.bestEffort.KeepsAll (ofElements [mismatched] none {}).toJson ∧
    parse (ofElements [mismatched] none {}).contractPretty = .ok (ofElements [mismatched] none {}) ∧
    NumberReader.bestEffort.KeepsAll (ofElements [mismatched, pierced] none {}).toJson ∧
    parse (ofElements [mismatched, pierced] none {}).contractPretty =
      .error (.data (.unreadable .scene)) := by
  have hcheck : ({} : Config).check = .ok () := rfl
  have hkept : NumberReader.bestEffort.KeepsAll (ofElements [mismatched] none {}).toJson := by
    decide
  have hkept' :
      NumberReader.bestEffort.KeepsAll (ofElements [mismatched, pierced] none {}).toJson := by
    decide
  obtain ⟨-, hread, -⟩ := parse_contractPretty_ofElements hcheck [mismatched] none hkept
  obtain ⟨-, -, hrefused⟩ :=
    parse_contractPretty_ofElements hcheck [mismatched, pierced] none hkept'
  refine ⟨hcheck, hkept, hread.mpr (List.forall_mem_singleton.mpr not_hasHole_mismatched), hkept',
    hrefused.mpr ⟨pierced, ?_, hasHole_pierced⟩⟩
  exact List.mem_cons_of_mem _ List.mem_cons_self

/-- A scene of elements that passes its check and is never read back. -/
theorem pierced_not_read_back :
    ({} : Config).check = .ok () ∧ (ofElements [pierced] none {}).check = .ok () ∧
      ¬ ∃ s, parse (ofElements [pierced] none {}).contractPretty = .ok s := by
  have husable : ({} : Config).Usable := Config.check_eq_ok_iff.mp rfl
  have hkept : NumberReader.bestEffort.KeepsAll (ofElements [pierced] none {}).toJson := by
    decide
  refine ⟨rfl, check_eq_ok_iff.mpr (drawable_ofElements husable [pierced] none), ?_⟩
  rintro ⟨s, hread⟩
  obtain ⟨t, ht, hhole⟩ := Element.exists_hasHole_traces_iff.mpr
    ⟨pierced, List.mem_singleton_self _, hasHole_pierced⟩
  rw [parse_contractPretty_of_hasHole ht hhole hkept] at hread
  cases hread

end Scene
end Plotting
