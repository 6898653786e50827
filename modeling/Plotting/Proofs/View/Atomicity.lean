import Plotting.Proofs.View.Scenes

/-!
# Passes are all or nothing

A pass changes the fields of a view at different moments: its phase at the start, the memories when
the scene is built, the last scene only after the renderer has been asked.  What can be seen between
two commands is simpler.  A pass hands over one scene.  If the renderer accepts it, the pass answers
with it and it becomes the last scene; if not, the pass answers with the renderer's own error, and
the last scene is what it was.

So a view between commands can be told from the answers that its passes gave.  The last scene is the
last of the scenes among them, and the view counts as rendered exactly when the last answer is a
scene.  `View.Reflects` says so of a view, each command keeps it, and `passes_are_atomic` collects
the consequences.  Where scenes come from, memories included, plays no part: the only fact about
`View.obtain` that is used is that it leaves the renderer and the last scene alone.
-/

namespace Plotting
namespace View

variable {ρ : Type}

/-! ## One pass -/

@[simp] theorem last_obtain (v : View ρ) (q : Request) : (v.obtain q).2.last = v.last := by
  unfold View.obtain
  split <;> rfl

/-- A pass presents the scene that was remembered or built. -/
theorem render_eq_present (r : Renderer ρ) (v : View ρ) (q : Request) :
    v.render r q = ({ v with phase := .computing }.obtain q).2.present r (v.obtain q).1 := by
  rw [← obtain_fst_phase v .computing q]
  rfl

/-- A pass calls the renderer once, with that scene. -/
theorem renderer_render (r : Renderer ρ) (v : View ρ) (q : Request) :
    (v.render r q).2.renderer = (r.render v.renderer (v.obtain q).1).2 := by
  rw [render_eq_present, renderer_present, renderer_obtain]

theorem present_of_accepted {r : Renderer ρ} {v : View ρ} {s : Scene}
    (h : (r.render v.renderer s).1 = .ok ()) :
    v.present r s = (.ok s, { v with
      renderer := (r.render v.renderer s).2, last := some s, phase := .rendered }) := by
  unfold present
  split
  · next heq => rw [heq]
  · next heq =>
    rw [heq] at h
    cases h

theorem present_of_refused {r : Renderer ρ} {v : View ρ} {s : Scene} {e : PlotError}
    (h : (r.render v.renderer s).1 = .error e) :
    v.present r s =
      (.error e, { v with renderer := (r.render v.renderer s).2, phase := .idle }) := by
  unfold present
  split
  · next heq =>
    rw [heq] at h
    cases h
  · next heq =>
    rw [heq] at h ⊢
    cases h
    rfl

/-- A scene that the renderer accepts is the answer of the pass and the last scene. -/
theorem render_of_accepted {r : Renderer ρ} {v : View ρ} {q : Request}
    (h : (r.render v.renderer (v.obtain q).1).1 = .ok ()) :
    (v.render r q).1 = .ok (v.obtain q).1 ∧ (v.render r q).2.phase = .rendered ∧
      (v.render r q).2.last = some (v.obtain q).1 := by
  have hpresent := present_of_accepted
    (v := ({ v with phase := .computing }.obtain q).2) (by rwa [renderer_obtain])
  rw [render_eq_present, hpresent]
  exact ⟨rfl, rfl, rfl⟩

/-- The error of a renderer that refuses is the answer of the pass, and the last scene stays. -/
theorem render_of_refused {r : Renderer ρ} {v : View ρ} {q : Request} {e : PlotError}
    (h : (r.render v.renderer (v.obtain q).1).1 = .error e) :
    (v.render r q).1 = .error e ∧ (v.render r q).2.phase = .idle ∧
      (v.render r q).2.last = v.last := by
  have hpresent := present_of_refused
    (v := ({ v with phase := .computing }.obtain q).2) (by rwa [renderer_obtain])
  rw [render_eq_present, hpresent]
  exact ⟨rfl, rfl, last_obtain _ q⟩

/-- The export of the last scene depends on nothing else. -/
theorem contract_congr {v w : View ρ} (h : v.last = w.last) : v.contract = w.contract := by
  unfold contract
  rw [h]

/-! ## What the answers tell -/

/-- The answers of a list of commands given to a view; clearing has none. -/
def answers (r : Renderer ρ) (v : View ρ) : List Command → List (Except PlotError Scene)
  | [] => []
  | .render q :: cs => (v.render r q).1 :: answers r (v.step r (.render q)) cs
  | .clear :: cs => answers r (v.step r .clear) cs

/-- The last scene among some answers. -/
def lastScene (given : List (Except PlotError Scene)) : Option Scene :=
  (given.filterMap Except.toOption).getLast?

/-- The phase in which the last of some answers leaves a view. -/
def restingPhase (given : List (Except PlotError Scene)) : Phase :=
  match given.getLast? with
  | some (.ok _) => .rendered
  | _ => .idle

@[simp] theorem lastScene_concat_ok (given : List (Except PlotError Scene)) (s : Scene) :
    lastScene (given ++ [.ok s]) = some s := by
  simp [lastScene, Except.toOption]

@[simp] theorem lastScene_concat_error (given : List (Except PlotError Scene)) (e : PlotError) :
    lastScene (given ++ [.error e]) = lastScene given := by
  simp [lastScene, Except.toOption]

@[simp] theorem restingPhase_concat_ok (given : List (Except PlotError Scene)) (s : Scene) :
    restingPhase (given ++ [.ok s]) = .rendered := by
  simp [restingPhase]

@[simp] theorem restingPhase_concat_error (given : List (Except PlotError Scene)) (e : PlotError) :
    restingPhase (given ++ [.error e]) = .idle := by
  simp [restingPhase]

theorem restingPhase_ne_computing (given : List (Except PlotError Scene)) :
    restingPhase given ≠ .computing := by
  unfold restingPhase
  split <;> decide

theorem restingPhase_eq_rendered_iff {given : List (Except PlotError Scene)} :
    restingPhase given = .rendered ↔ ∃ s, given.getLast? = some (.ok s) := by
  unfold restingPhase
  constructor
  · intro h
    split at h
    · next s hlast => exact ⟨s, hlast⟩
    · cases h
  · rintro ⟨s, hlast⟩
    rw [hlast]

/-! ## The invariant -/

/-- The view is in the phase and has the last scene that its answers so far tell. -/
structure Reflects (v : View ρ) (given : List (Except PlotError Scene)) : Prop where
  last : v.last = lastScene given
  phase : v.phase = restingPhase given

namespace Reflects

variable {v : View ρ} {given : List (Except PlotError Scene)}

/-- A new view has given no answer. -/
theorem create {state : ρ} {config : Config} (h : View.create state config = .ok v) :
    v.Reflects [] := by
  obtain ⟨-, rfl⟩ := create_eq_ok_iff.mp h
  exact ⟨rfl, rfl⟩

/-- A pass adds its answer. -/
theorem render (h : v.Reflects given) (r : Renderer ρ) (q : Request) :
    (v.render r q).2.Reflects (given ++ [(v.render r q).1]) := by
  cases hr : (r.render v.renderer (v.obtain q).1).1 with
  | ok u =>
    obtain ⟨hanswer, hphase, hlast⟩ := render_of_accepted hr
    rw [hanswer]
    exact ⟨by rw [hlast, lastScene_concat_ok], by rw [hphase, restingPhase_concat_ok]⟩
  | error e =>
    obtain ⟨hanswer, hphase, hlast⟩ := render_of_refused hr
    rw [hanswer]
    exact ⟨by rw [hlast, lastScene_concat_error, h.last],
      by rw [hphase, restingPhase_concat_error]⟩

theorem clearCaches (h : v.Reflects given) : v.clearCaches.Reflects given :=
  ⟨h.last, h.phase⟩

/-- Several commands add their answers. -/
theorem run (h : v.Reflects given) (r : Renderer ρ) (commands : List Command) :
    (v.run r commands).Reflects (given ++ v.answers r commands) := by
  induction commands generalizing v given with
  | nil =>
    rw [run_nil, answers, List.append_nil]
    exact h
  | cons c cs ih =>
    rw [run_cons]
    cases c with
    | render q =>
      have hcs := ih (h.render r q)
      rwa [List.append_assoc, List.singleton_append] at hcs
    | clear => exact ih h.clearCaches

end Reflects

/-! ## Runs -/

/-- **Passes are all or nothing.**  After any commands, a pass hands the renderer exactly one scene,
and as the renderer accepts or refuses it, it is answered with and kept, or the renderer's error is
the answer and the last scene and its export stay; clearing changes neither phase nor last scene.
Hence the last scene of a view is the last one that a pass answered with, its export fails exactly
when there was none, and the view is never found computing, and rendered exactly when the latest
pass was answered with a scene. -/
theorem passes_are_atomic (r : Renderer ρ) {state : ρ} {config : Config}
    {start : View (List Scene × ρ)} (hstart : View.create ([], state) config = .ok start)
    (before : List Command) :
    let v := start.run r.recording before
    let given := start.answers r.recording before
    (∀ q, ∃ s, (v.render r.recording q).2.renderer =
        (v.renderer.1 ++ [s], (r.render v.renderer.2 s).2) ∧
      match (r.render v.renderer.2 s).1 with
      | .ok () => (v.render r.recording q).1 = .ok s ∧
          (v.render r.recording q).2.phase = .rendered ∧
          (v.render r.recording q).2.last = some s
      | .error e => (v.render r.recording q).1 = .error e ∧
          (v.render r.recording q).2.phase = .idle ∧
          (v.render r.recording q).2.last = v.last ∧
          (v.render r.recording q).2.contract = v.contract) ∧
    v.clearCaches.phase = v.phase ∧ v.clearCaches.last = v.last ∧
    v.phase ≠ .computing ∧ v.last = lastScene given ∧
    (∀ s, lastScene given = some s → v.contract = .ok s.contractPretty) ∧
    (lastScene given = none ↔ v.contract = .error (.data .nothingRendered)) ∧
    (v.phase = .rendered ↔ ∃ s, given.getLast? = some (.ok s)) := by
  intro v given
  have hv : v.Reflects given := (Reflects.create hstart).run r.recording before
  refine ⟨fun q => ⟨(v.obtain q).1, renderer_render r.recording v q, ?_⟩, rfl, rfl, ?_, hv.last,
    fun s hs => ?_, ?_, ?_⟩
  · cases hr : (r.render v.renderer.2 (v.obtain q).1).1 with
    | ok u => exact render_of_accepted (r := r.recording) hr
    | error e =>
      obtain ⟨hanswer, hphase, hlast⟩ := render_of_refused (r := r.recording) hr
      exact ⟨hanswer, hphase, hlast, contract_congr hlast⟩
  · rw [hv.phase]
    exact restingPhase_ne_computing given
  · rw [← hv.last] at hs
    unfold contract
    rw [hs]
  · rw [← hv.last]
    unfold contract
    cases v.last with
    | none => exact iff_of_true rfl rfl
    | some s => exact iff_of_false (fun h => nomatch h) (fun h => nomatch h)
  · rw [hv.phase]
    exact restingPhase_eq_rendered_iff

/-- A scene accepted, the same scene remembered and refused, and a clearing: the view is idle and
its last scene is still the first answer. -/
theorem passes_are_atomic_refusal :
    let config : Config := { sceneCacheCapacity := 1 }
    let q : Request := .elements (.fresh []) (some "nothing")
    let r : Renderer (Nat × RenderTally) := .refusing [1] .checking
    let state : List Scene × Nat × RenderTally := ([], 0, {})
    let before : List Command := [.render q, .render q, .clear]
    ∃ start, View.create state config = .ok start ∧
      start.answers r.recording before =
        [.ok (q.scene config), .error (.render "attempt 1 refused")] ∧
      (start.run r.recording before).last = some (q.scene config) ∧
      (start.run r.recording before).phase = .idle := by
  intro config q r state before
  have hcheck : config.check = .ok () :=
    show ({ sceneCacheCapacity := 1 } : Config).check = .ok () from rfl
  have hstart : View.create state config = .ok { config, renderer := state } :=
    create_eq_ok_iff.mpr ⟨hcheck, rfl⟩
  have hanswers : ({ config, renderer := state } : View _).answers r.recording before =
      [.ok (q.scene config), .error (.render "attempt 1 refused")] := rfl
  obtain ⟨-, -, -, hidle, hlast, -, -, hrendered⟩ := passes_are_atomic r hstart before
  rw [hanswers] at hlast hrendered
  refine ⟨_, hstart, hanswers, hlast, ?_⟩
  cases hphase : (({ config, renderer := state } : View _).run r.recording before).phase with
  | idle => rfl
  | computing => exact absurd hphase hidle
  | rendered =>
    obtain ⟨s, hs⟩ := hrendered.mp hphase
    cases hs

end View
end Plotting
