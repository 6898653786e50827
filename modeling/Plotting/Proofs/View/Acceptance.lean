import Plotting.Proofs.Scene.Drawable
import Plotting.Proofs.View.Scenes

/-!
# The checking renderer refuses nothing

The pure builders make scenes that pass their check, and a view in front of the checking renderer
is therefore never refused.  The second does not follow from the first alone.  A pass may be
answered with a scene remembered from another request, and a scene may be built from samples
remembered under another key, which is not the right one if a bound is the negative zero.  The
invariant `View.RemembersDrawable` asks for less than the right scene: whatever is remembered can be
drawn, and whatever series is remembered is the series of some key.
-/

namespace Plotting
namespace View

/-- Scenes built with the help of a faithful memory can be drawn, whatever its keys. -/
theorem drawable_build_fst {config : Config} (hc : config.Usable) {c : SampleCache}
    (h : c.Faithful fun _ => True) (q : Request) : (build config c q).1.Drawable := by
  cases q with
  | elements es title => exact Scene.drawable_ofElements hc es.value title
  | graph g =>
    refine Scene.drawable_ofCurves hc g.value fun t ht => ?_
    obtain ⟨f, -, key, hcurve⟩ := exists_points_of_mem_curves h (fun _ _ => trivial) ht
    exact ⟨f, key.expression, key.range, key.count, hcurve⟩

/-- Building keeps a memory faithful, whatever its keys. -/
theorem faithful_build_snd_of_trivial {config : Config} {c : SampleCache}
    (h : c.Faithful fun _ => True) (q : Request) :
    (build config c q).2.Faithful fun _ => True := by
  cases q with
  | elements es title => exact h
  | graph g => exact faithful_curves_snd h fun _ _ => trivial

/-- Each scene remembered can be drawn, and the samples are faithful. -/
structure RemembersDrawable {ρ : Type} (v : View ρ) : Prop where
  config : v.config.Usable
  scenes : ∀ q s, (q, s) ∈ v.scenes.entries → s.Drawable
  samples : v.samples.Faithful fun _ => True

namespace RemembersDrawable

variable {ρ : Type} {v : View ρ}

theorem create {state : ρ} {config : Config} (h : View.create state config = .ok v) :
    v.RemembersDrawable := by
  obtain ⟨hcheck, rfl⟩ := create_eq_ok_iff.mp h
  exact ⟨Config.check_eq_ok_iff.mp hcheck, fun _ _ h => absurd h List.not_mem_nil, .ofCapacity _⟩

/-- Whatever a request is answered with can be drawn. -/
theorem drawable_obtain_fst (h : v.RemembersDrawable) (q : Request) : (v.obtain q).1.Drawable := by
  cases hs : remembered? Request.agrees v.scenes.entries q with
  | some s =>
    obtain ⟨old, hmem, -⟩ := mem_of_remembered?_eq_some hs
    rw [obtain_of_hit hs]
    exact h.scenes old s hmem
  | none =>
    rw [obtain_of_miss hs]
    exact drawable_build_fst h.config h.samples q

theorem obtain_snd (h : v.RemembersDrawable) (q : Request) :
    (v.obtain q).2.RemembersDrawable := by
  cases hs : remembered? Request.agrees v.scenes.entries q with
  | some s =>
    rw [obtain_of_hit hs]
    exact ⟨h.config, h.scenes, h.samples⟩
  | none =>
    rw [obtain_of_miss hs]
    refine ⟨h.config, fun old s hmem => ?_, faithful_build_snd_of_trivial h.samples q⟩
    rcases mem_pushBounded hmem with hmem | hmem
    · exact h.scenes old s hmem
    · obtain ⟨rfl, rfl⟩ := Prod.mk.inj hmem
      exact drawable_build_fst h.config h.samples old

theorem present (h : v.RemembersDrawable) (r : Renderer ρ) (s : Scene) :
    (v.present r s).2.RemembersDrawable := by
  refine ⟨?_, ?_, ?_⟩
  · rw [config_present]
    exact h.config
  · rw [scenes_present]
    exact h.scenes
  · rw [samples_present]
    exact h.samples

/-- One command, whatever the renderer makes of it. -/
theorem step (h : v.RemembersDrawable) (r : Renderer ρ) (c : Command) :
    (v.step r c).RemembersDrawable := by
  cases c with
  | render q =>
    have hcomputing : View.RemembersDrawable { v with phase := .computing } :=
      ⟨h.config, h.scenes, h.samples⟩
    exact (hcomputing.obtain_snd q).present r _
  | clear => exact ⟨h.config, fun _ _ h => absurd h List.not_mem_nil, .clear⟩

/-- Several commands. -/
theorem run (h : v.RemembersDrawable) (r : Renderer ρ) (commands : List Command) :
    (v.run r commands).RemembersDrawable := by
  induction commands generalizing v with
  | nil => exact h
  | cons c cs ih => exact ih (h.step r c)

end RemembersDrawable

/-! ## Passes in front of the checking renderer -/

/-- The checking renderer accepts a scene that can be drawn and counts it. -/
theorem present_checking {v : View RenderTally} {s : Scene} (h : s.Drawable) :
    (v.present .checking s).1 = .ok s ∧
      (v.present .checking s).2.renderer.renderCount = v.renderer.renderCount + 1 := by
  have hcheck : s.check = .ok () := Scene.check_eq_ok_iff.mpr h
  have hrender : Renderer.checking.render v.renderer s = (.ok (), {
      renderCount := v.renderer.renderCount + 1
      lastTraceCount := s.traces.length
      lastIsSpatial := s.isSpatial }) := by
    simp only [Renderer.checking, hcheck]
  unfold View.present
  rw [hrender]
  exact ⟨rfl, rfl⟩

theorem render_checking {v : View RenderTally} (h : v.RemembersDrawable) (q : Request) :
    (∃ s, (v.render .checking q).1 = .ok s) ∧
      (v.render .checking q).2.renderer.renderCount = v.renderer.renderCount + 1 := by
  have hcomputing : View.RemembersDrawable { v with phase := .computing } :=
    ⟨h.config, h.scenes, h.samples⟩
  obtain ⟨hok, hcount⟩ := present_checking
    (v := ({ v with phase := .computing }.obtain q).2) (hcomputing.drawable_obtain_fst q)
  rw [renderer_obtain] at hcount
  exact ⟨⟨_, hok⟩, hcount⟩

/-- Whether a command asks for a scene. -/
def Command.isRender : Command → Bool
  | .render _ => true
  | .clear => false

/-- The tally of a run counts the passes of the run. -/
theorem renderCount_run {v : View RenderTally} (h : v.RemembersDrawable)
    (commands : List Command) :
    (v.run .checking commands).renderer.renderCount =
      v.renderer.renderCount + commands.countP Command.isRender := by
  induction commands generalizing v with
  | nil => rfl
  | cons c cs ih =>
    rw [run_cons, ih (h.step .checking c)]
    cases c with
    | render q =>
      have hcount : (v.step .checking (.render q)).renderer.renderCount =
          v.renderer.renderCount + 1 := (render_checking h q).2
      rw [hcount, List.countP_cons_of_pos (l := cs) rfl]
      omega
    | clear =>
      rw [List.countP_cons_of_neg (l := cs) Bool.false_ne_true]
      rfl

/-- **Every scene passes its check.**  Under a usable configuration the scene of any elements and of
any graph passes its check, and a view in front of the checking renderer answers every request of
every run with a scene and counts them all. -/
theorem every_scene_passes_check {config : Config} (hc : config.check = .ok ()) :
    (∀ es title, (Scene.ofElements es title config).check = .ok ()) ∧
    (∀ g, (Scene.ofGraph g config).check = .ok ()) ∧
    ∃ start, View.create ({} : RenderTally) config = .ok start ∧
      (∀ before q, ∃ s, ((start.run .checking before).render .checking q).1 = .ok s) ∧
      ∀ commands, (start.run .checking commands).renderer.renderCount =
        commands.countP Command.isRender := by
  have husable : config.Usable := Config.check_eq_ok_iff.mp hc
  have hcreate : View.create ({} : RenderTally) config = .ok { config, renderer := {} } :=
    create_eq_ok_iff.mpr ⟨hc, rfl⟩
  have hstart := RemembersDrawable.create hcreate
  refine ⟨fun es title => ?_, fun g => ?_, _, hcreate, fun before q => ?_, fun commands => ?_⟩
  · exact Scene.check_eq_ok_iff.mpr (Scene.drawable_ofElements husable es title)
  · exact Scene.check_eq_ok_iff.mpr (Scene.drawable_ofGraph husable g)
  · exact (render_checking (hstart.run .checking before) q).1
  · rw [renderCount_run hstart, Nat.zero_add]

/-- Labels without points, a ragged grid, a point that is no point, an area over a baseline, and
widths and opacities that mean nothing. -/
theorem every_scene_passes_check_malformed :
    let elements : List Element := [
      { geometry := .points { coords := [⟨0 / 0, 1⟩, ⟨1, 2⟩], labels := ["a", "b", "c"] } },
      { geometry := .surface { x := [[1], [2, 3]], z := [[1]], opacity := some (1 / 0) } },
      { geometry := .area { points := [⟨1, 1⟩, ⟨1, 1 / 0⟩], baseline := 2 }
        style := { width := some (-1), opacity := some (0 / 0) } }]
    ({} : Config).check = .ok () ∧ (Scene.ofElements elements none {}).check = .ok () ∧
      ∃ start, View.create ({} : RenderTally) {} = .ok start ∧
        ∃ s, (start.render .checking (.elements (.fresh elements) none)).1 = .ok s := by
  intro elements
  have hcheck : ({} : Config).check = .ok () := rfl
  obtain ⟨helements, -, start, hcreate, hrender, -⟩ :=
    every_scene_passes_check hcheck
  exact ⟨hcheck, helements elements none, start, hcreate,
    hrender [] (.elements (.fresh elements) none)⟩

end View
end Plotting
