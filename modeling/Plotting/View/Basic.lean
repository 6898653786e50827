import Plotting.Scene.Json
import Plotting.View.Renderer
import Plotting.View.Request
import Plotting.View.Samples

/-!
# Views

A view answers requests with scenes.  A pass looks the request up among the
scenes remembered, builds the scene if there is none, and hands it to the
renderer.  Only a scene that the renderer accepts becomes the last scene; a
refusal leaves it as it was, although the refused scene stays remembered.
-/

namespace Plotting

/-- Where a view stands in a pass. -/
inductive Phase where
  | idle
  | computing
  | rendered
deriving DecidableEq, Repr

/-- A view in front of a renderer whose state is a `ρ`. -/
structure View (ρ : Type) where
  config : Config
  renderer : ρ
  phase : Phase := .idle
  scenes : Cache Request Scene := { capacity := config.sceneCacheCapacity }
  samples : SampleCache := .ofCapacity config.sampleCacheCapacity
  last : Option Scene := none

namespace View

variable {ρ : Type}

/-- A new view, if its configuration can be used. -/
def create (renderer : ρ) (config : Config) : Except PlotError (View ρ) :=
  match config.check with
  | .ok () => .ok { config, renderer }
  | .error e => .error (.config e)

/-! ## Building scenes -/

/-- The curves of functions, sampled with the help of what is remembered. -/
def curves (config : Config) (range : AxisRange) :
    List GraphFunction → SampleCache → List Trace × SampleCache
  | [], samples => ([], samples)
  | f :: fs, samples =>
    let (points, samples) := samples.sample ⟨f.expression, range, config.sampleCount⟩
    let (traces, samples) := curves config range fs samples
    ((Scene.curve? config f points).toList ++ traces, samples)

/-- The scene of a request. -/
def build (config : Config) (samples : SampleCache) : Request → Scene × SampleCache
  | .elements es title => (Scene.ofElements es.value title config, samples)
  | .graph g =>
    let (traces, samples) := curves config g.value.xRange g.value.functions samples
    (Scene.ofCurves g.value config traces, samples)

/-! ## Passes -/

/-- The scene of a request, remembered or built. -/
def obtain (v : View ρ) (request : Request) : Scene × View ρ :=
  match remembered? Request.agrees v.scenes.entries request with
  | some scene => (scene, { v with scenes := v.scenes.hit })
  | none =>
    let (scene, samples) := build v.config v.samples request
    (scene, { v with scenes := v.scenes.learn request scene, samples })

/-- Hands a scene to the renderer and keeps it if it is accepted. -/
def present (r : Renderer ρ) (v : View ρ) (scene : Scene) : Except PlotError Scene × View ρ :=
  match r.render v.renderer scene with
  | (.ok (), renderer) =>
    (.ok scene, { v with renderer, last := some scene, phase := .rendered })
  | (.error e, renderer) => (.error e, { v with renderer, phase := .idle })

/-- A pass: the scene of a request, if the renderer accepts it. -/
def render (r : Renderer ρ) (v : View ρ) (request : Request) : Except PlotError Scene × View ρ :=
  let (scene, v) := { v with phase := .computing }.obtain request
  v.present r scene

/-- Forgets scenes, samples and formulas. -/
def clearCaches (v : View ρ) : View ρ :=
  { v with scenes := v.scenes.clear, samples := v.samples.clear }

/-- The last scene under its contract. -/
def contract (v : View ρ) : Except PlotError String :=
  match v.last with
  | some scene => .ok scene.contractPretty
  | none => .error (.data .nothingRendered)

/-! ## Runs -/

/-- What a view can be told. -/
inductive Command where
  | render (request : Request)
  | clear
deriving Repr

/-- The view after a command. -/
def step (r : Renderer ρ) (v : View ρ) : Command → View ρ
  | .render request => (v.render r request).2
  | .clear => v.clearCaches

/-- The view after several commands, one after the other. -/
def run (r : Renderer ρ) (v : View ρ) (commands : List Command) : View ρ :=
  commands.foldl (step r) v

@[simp] theorem run_nil (r : Renderer ρ) (v : View ρ) : v.run r [] = v := rfl

@[simp] theorem run_cons (r : Renderer ρ) (v : View ρ) (c : Command) (cs : List Command) :
    v.run r (c :: cs) = (v.step r c).run r cs := rfl

end View
end Plotting
