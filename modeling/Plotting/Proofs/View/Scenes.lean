import Plotting.Proofs.View.Samples

/-!
# What a view hands to its renderer

A pass may be answered from three memories: one of scenes, one of sampled series, one of formulas.
Each is emptied all at once when it is full, may have no room at all, and is asked with a relation
coarser than identity.  The main statement, `handed_scene_eq_pure_scene`, says that none of this can
be seen in the scenes: whatever was rendered, refused, forgotten or cleared before, the renderer is
handed the scene that would be built without any memory, for the request of the pass itself or for
one rendered since the last clearing that matches it.  When the scene memory has no answer, it is
the scene of the request itself.

The proof is an invariant of the whole view, `View.Remembers`, which names the requests rendered
since the last clearing.  Rendering adds the request to them, clearing forgets them, and a refusal
changes neither memory.

What is handed over is observed from outside: `Renderer.recording` writes down every scene before
another renderer sees it, so that the statement is about what the renderer gets and not about what
the view believes it gave.
-/

namespace Plotting

/-- The renderer that writes down each scene it is handed and leaves the rest to another. -/
def Renderer.recording {ρ : Type} (r : Renderer ρ) : Renderer (List Scene × ρ) where
  render := fun (log, state) scene =>
    let (answer, state) := r.render state scene
    (answer, (log ++ [scene], state))

namespace Request

/-- The scene of a request, built without any memory. -/
def scene (config : Config) : Request → Scene
  | .elements es title => Scene.ofElements es.value title config
  | .graph g => Scene.ofGraph g.value config

/-- The request for a graph none of whose horizontal bounds is the negative zero, or for
elements. -/
def AvoidsNegativeZero : Request → Prop
  | .elements _ _ => True
  | .graph g => g.value.xRange.AvoidsNegativeZero

/-- Whether a pass for the second request may be answered with the scene of the first: it is the
input of the pass itself, or the scene memory takes one for the other. -/
def Matches (a b : Request) : Prop :=
  a = b ∨ a.agrees b = true

end Request

namespace View

variable {ρ : Type}

/-- A view comes into being with each configuration that passes its check, and empty. -/
theorem create_eq_ok_iff {state : ρ} {config : Config} {v : View ρ} :
    View.create state config = .ok v ↔
      config.check = .ok () ∧ v = { config, renderer := state } := by
  unfold View.create
  constructor
  · intro h
    split at h
    · next hcheck => exact ⟨hcheck, (Except.ok.inj h).symm⟩
    · cases h
  · rintro ⟨hcheck, rfl⟩
    rw [hcheck]

/-! ## The parts of a pass -/

@[simp] theorem config_present (r : Renderer ρ) (v : View ρ) (s : Scene) :
    (v.present r s).2.config = v.config := by
  unfold present
  split <;> rfl

@[simp] theorem scenes_present (r : Renderer ρ) (v : View ρ) (s : Scene) :
    (v.present r s).2.scenes = v.scenes := by
  unfold present
  split <;> rfl

@[simp] theorem samples_present (r : Renderer ρ) (v : View ρ) (s : Scene) :
    (v.present r s).2.samples = v.samples := by
  unfold present
  split <;> rfl

/-- Presenting a scene is one call of the renderer. -/
theorem renderer_present (r : Renderer ρ) (v : View ρ) (s : Scene) :
    (v.present r s).2.renderer = (r.render v.renderer s).2 := by
  unfold present
  split <;> next h => rw [h]

/-- A scene that is remembered is the answer. -/
theorem obtain_of_hit {v : View ρ} {q : Request} {s : Scene}
    (h : remembered? Request.agrees v.scenes.entries q = some s) :
    v.obtain q = (s, { v with scenes := v.scenes.hit }) := by
  unfold View.obtain
  rw [h]

/-- Otherwise the scene is built, with the help of the samples, and learnt. -/
theorem obtain_of_miss {v : View ρ} {q : Request}
    (h : remembered? Request.agrees v.scenes.entries q = none) :
    v.obtain q =
      let built := build v.config v.samples q
      (built.1, { v with scenes := v.scenes.learn q built.1, samples := built.2 }) := by
  unfold View.obtain
  rw [h]

@[simp] theorem config_obtain (v : View ρ) (q : Request) : (v.obtain q).2.config = v.config := by
  unfold View.obtain
  split <;> rfl

@[simp] theorem renderer_obtain (v : View ρ) (q : Request) :
    (v.obtain q).2.renderer = v.renderer := by
  unfold View.obtain
  split <;> rfl

/-- The phase of a view has no part in what scene it answers with. -/
theorem obtain_fst_phase (v : View ρ) (p : Phase) (q : Request) :
    ({ v with phase := p }.obtain q).1 = (v.obtain q).1 := by
  unfold View.obtain
  simp only
  split <;> rfl

/-- The renderer of a recorded pass has written down the scene of the pass. -/
theorem log_render (r : Renderer ρ) (v : View (List Scene × ρ)) (q : Request) :
    (v.render r.recording q).2.renderer.1 = v.renderer.1 ++ [(v.obtain q).1] := by
  unfold render
  simp only [renderer_present, renderer_obtain, obtain_fst_phase]
  rfl

/-! ## Building with a faithful memory -/

/-- Building a scene keeps the samples faithful. -/
theorem faithful_build_snd {config : Config} {c : SampleCache} {q : Request}
    (h : c.Faithful SampleKey.AvoidsNegativeZero) (hq : q.AvoidsNegativeZero) :
    (build config c q).2.Faithful SampleKey.AvoidsNegativeZero := by
  cases q with
  | elements es title => exact h
  | graph g => exact faithful_curves_snd h fun _ _ => hq

/-- The scene built is the one built without any memory. -/
theorem build_fst_eq {config : Config} {c : SampleCache} {q : Request}
    (h : c.Faithful SampleKey.AvoidsNegativeZero) (hq : q.AvoidsNegativeZero) :
    (build config c q).1 = q.scene config := by
  cases q with
  | elements es title => rfl
  | graph g =>
    calc (build config c (.graph g)).1
        = Scene.ofCurves g.value config
            (curves config g.value.xRange g.value.functions c).1 := rfl
      _ = Scene.ofGraph g.value config := by rw [curves_fst_eq hq h]; rfl

/-! ## The invariant -/

/-- The requests rendered since the last clearing, after one more command. -/
def Command.recent (requests : List Request) : Command → List Request
  | .render q => requests ++ [q]
  | .clear => []

/-- The requests rendered since the last clearing, after several commands. -/
def recent (commands : List Command) : List Request :=
  commands.foldl Command.recent []

/-- A command that renders no graph with a negative zero as a horizontal bound. -/
def Command.AvoidsNegativeZero : Command → Prop
  | .render q => q.AvoidsNegativeZero
  | .clear => True

/-- Each scene remembered is the pure scene of its own request, one of the given requests, and the
samples are faithful. -/
structure Remembers (v : View ρ) (requests : List Request) : Prop where
  scenes : ∀ q s, (q, s) ∈ v.scenes.entries → q ∈ requests ∧ s = q.scene v.config
  samples : v.samples.Faithful SampleKey.AvoidsNegativeZero

namespace Remembers

variable {v : View ρ} {requests : List Request} {q : Request}

/-- A new view remembers nothing. -/
theorem create {state : ρ} {config : Config} (h : View.create state config = .ok v) :
    v.Remembers [] := by
  obtain ⟨-, rfl⟩ := create_eq_ok_iff.mp h
  exact ⟨fun _ _ h => absurd h List.not_mem_nil, .ofCapacity _⟩

/-- The answer to a request is the pure scene of a request that matches it. -/
theorem obtain_fst (h : v.Remembers requests) (hq : q.AvoidsNegativeZero) :
    ∃ source ∈ requests ++ [q], source.Matches q ∧ (v.obtain q).1 = source.scene v.config := by
  cases hs : remembered? Request.agrees v.scenes.entries q with
  | some s =>
    obtain ⟨old, hmem, hold⟩ := mem_of_remembered?_eq_some hs
    obtain ⟨hrecent, hpure⟩ := h.scenes old s hmem
    refine ⟨old, List.mem_append_left _ hrecent, Or.inr hold, ?_⟩
    rw [obtain_of_hit hs, hpure]
  | none =>
    refine ⟨q, List.mem_append_right _ (List.mem_singleton.mpr rfl), Or.inl rfl, ?_⟩
    rw [obtain_of_miss hs]
    exact build_fst_eq h.samples hq

/-- A request without a remembered scene is answered with its own pure scene. -/
theorem obtain_fst_of_miss (h : v.Remembers requests) (hq : q.AvoidsNegativeZero)
    (hs : remembered? Request.agrees v.scenes.entries q = none) :
    (v.obtain q).1 = q.scene v.config := by
  rw [obtain_of_miss hs]
  exact build_fst_eq h.samples hq

theorem obtain_snd (h : v.Remembers requests) (hq : q.AvoidsNegativeZero) :
    (v.obtain q).2.Remembers (requests ++ [q]) := by
  cases hs : remembered? Request.agrees v.scenes.entries q with
  | some s =>
    rw [obtain_of_hit hs]
    refine ⟨fun old s' hmem => ?_, h.samples⟩
    obtain ⟨hrecent, hpure⟩ := h.scenes old s' hmem
    exact ⟨List.mem_append_left _ hrecent, hpure⟩
  | none =>
    rw [obtain_of_miss hs]
    refine ⟨fun old s' hmem => ?_, faithful_build_snd h.samples hq⟩
    rcases mem_pushBounded hmem with hmem | hmem
    · obtain ⟨hrecent, hpure⟩ := h.scenes old s' hmem
      exact ⟨List.mem_append_left _ hrecent, hpure⟩
    · obtain ⟨rfl, rfl⟩ := Prod.mk.inj hmem
      exact ⟨List.mem_append_right _ (List.mem_singleton.mpr rfl), build_fst_eq h.samples hq⟩

/-- What the renderer makes of a scene is not remembered. -/
theorem present (h : v.Remembers requests) (r : Renderer ρ) (s : Scene) :
    (v.present r s).2.Remembers requests := by
  refine ⟨?_, ?_⟩
  · rw [scenes_present, config_present]
    exact h.scenes
  · rw [samples_present]
    exact h.samples

/-- One command. -/
theorem step (h : v.Remembers requests) (r : Renderer ρ) {c : Command}
    (hc : c.AvoidsNegativeZero) : (v.step r c).Remembers (c.recent requests) := by
  cases c with
  | render q =>
    have hcomputing : View.Remembers { v with phase := .computing } requests :=
      ⟨h.scenes, h.samples⟩
    exact (hcomputing.obtain_snd hc).present r _
  | clear => exact ⟨fun _ _ h => absurd h List.not_mem_nil, .clear⟩

/-- Several commands. -/
theorem run (h : v.Remembers requests) (r : Renderer ρ) {commands : List Command}
    (hz : ∀ c ∈ commands, c.AvoidsNegativeZero) :
    (v.run r commands).Remembers (commands.foldl Command.recent requests) := by
  induction commands generalizing v requests with
  | nil => exact h
  | cons c cs ih =>
    have hc := h.step r (hz c List.mem_cons_self)
    exact ih hc fun c' hc' => hz c' (List.mem_cons_of_mem c hc')

end Remembers

/-! ## The scenes of a run -/

@[simp] theorem config_step (r : Renderer ρ) (v : View ρ) (c : Command) :
    (v.step r c).config = v.config := by
  cases c with
  | render q => simp only [step, render, config_present, config_obtain]
  | clear => rfl

@[simp] theorem config_run (r : Renderer ρ) (v : View ρ) (commands : List Command) :
    (v.run r commands).config = v.config := by
  induction commands generalizing v with
  | nil => rfl
  | cons c cs ih => rw [run_cons, ih, config_step]

theorem config_create {state : ρ} {config : Config} {v : View ρ}
    (h : View.create state config = .ok v) : v.config = config := by
  obtain ⟨-, rfl⟩ := create_eq_ok_iff.mp h
  rfl

theorem recent_append_render (before : List Command) (q : Request) :
    recent (before ++ [.render q]) = recent before ++ [q] := by
  unfold recent
  rw [List.foldl_append]
  rfl

/-- **Memories never show.**  After any commands, a pass hands its renderer the pure scene of a
request that was rendered since the last clearing, this one included, and that matches the request
of the pass.  If no scene was remembered for it, it is the pure scene of the request itself. -/
theorem handed_scene_eq_pure_scene (r : Renderer ρ) {state : ρ} {config : Config}
    {start : View (List Scene × ρ)} (hstart : View.create ([], state) config = .ok start)
    (before : List Command) (q : Request)
    (hzero : ∀ c ∈ before ++ [.render q], c.AvoidsNegativeZero) :
    let v := start.run r.recording before
    ∃ s, (v.render r.recording q).2.renderer.1 = v.renderer.1 ++ [s] ∧
      (∃ source ∈ recent (before ++ [.render q]),
        source.Matches q ∧ s = source.scene config) ∧
      (remembered? Request.agrees v.scenes.entries q = none → s = q.scene config) := by
  intro v
  have hq : q.AvoidsNegativeZero :=
    hzero (.render q) (List.mem_append_right _ (List.mem_singleton.mpr rfl))
  have hv : v.Remembers (recent before) :=
    (Remembers.create hstart).run r.recording fun c hc => hzero c (List.mem_append_left _ hc)
  have hconfig : v.config = config := by rw [config_run, config_create hstart]
  refine ⟨(v.obtain q).1, log_render r v q, ?_, fun hmiss => ?_⟩
  · rw [recent_append_render, ← hconfig]
    exact hv.obtain_fst hq
  · rw [← hconfig]
    exact hv.obtain_fst_of_miss hq hmiss

/-- A run with room for one scene and one series, a formula that does not read, a refusal and a
clearing. -/
theorem handed_scene_eq_pure_scene_reciprocal :
    let config : Config := { sceneCacheCapacity := 1, sampleCacheCapacity := 1 }
    let curves (max : Float) : Request := .graph (.fresh {
      functions := [{ expression := "1/x" }, { expression := "x +*" }, { expression := "x" }]
      xRange := ⟨-1, max⟩
      yRange := ⟨0, 1⟩ })
    let before : List Command :=
      [.render (curves 1), .clear, .render (curves 0), .render (curves 0), .render (curves 2)]
    let r : Renderer (Nat × RenderTally) := .refusing [1] .checking
    let state : List Scene × Nat × RenderTally := ([], 0, {})
    ∃ start, View.create state config = .ok start ∧
      ∃ s, ((start.run r.recording before).render r.recording (curves 0)).2.renderer.1 =
          (start.run r.recording before).renderer.1 ++ [s] ∧
        ∃ source ∈ recent (before ++ [.render (curves 0)]),
          source.Matches (curves 0) ∧ s = source.scene config := by
  intro config curves before r state
  have hzero : ∀ c ∈ before ++ [.render (curves 0)], c.AvoidsNegativeZero := by
    have havoids : ∀ max : Float, max ≠ -0 → (curves max).AvoidsNegativeZero :=
      fun max hmax => ⟨show (-1 : Float) ≠ -0 by decide, hmax⟩
    intro c hc
    simp only [before, List.cons_append, List.nil_append, List.mem_cons, List.not_mem_nil,
      or_false] at hc
    rcases hc with rfl | rfl | rfl | rfl | rfl | rfl
    case inr.inl => exact trivial
    all_goals exact havoids _ (by decide)
  have hcheck : config.check = .ok () :=
    show ({ sceneCacheCapacity := 1, sampleCacheCapacity := 1 } : Config).check = .ok () from rfl
  have hstart : View.create state config = .ok { config, renderer := state } :=
    create_eq_ok_iff.mpr ⟨hcheck, rfl⟩
  obtain ⟨s, hlog, hsource, -⟩ := handed_scene_eq_pure_scene r
    hstart before (curves 0) hzero
  exact ⟨_, hstart, s, hlog, hsource⟩

end View
end Plotting
