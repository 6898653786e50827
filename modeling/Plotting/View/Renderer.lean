import Plotting.Scene.Basic

/-!
# Renderers

A renderer takes a scene and accepts or refuses it.  It may have a state, which
it may change either way.  The plainest one draws nothing: it checks what it is
given and keeps count.
-/

namespace Plotting

/-- A renderer whose state is a `ρ`. -/
structure Renderer (ρ : Type) where
  render : ρ → Scene → Except PlotError Unit × ρ

/-- What a renderer that draws nothing remembers. -/
structure RenderTally where
  renderCount : Nat := 0
  lastTraceCount : Nat := 0
  lastIsSpatial : Bool := false
deriving DecidableEq, Repr

namespace Renderer

/-- Accepts the scenes that pass their check and counts them. -/
def checking : Renderer RenderTally where
  render tally scene :=
    match scene.check with
    | .error e => (.error (.data e), tally)
    | .ok () =>
      (.ok (), {
        renderCount := tally.renderCount + 1
        lastTraceCount := scene.traces.length
        lastIsSpatial := scene.isSpatial })

/-- The renderer that counts its calls from zero, refuses those at the given
numbers, and leaves the others to another renderer. -/
def refusing {ρ : Type} (calls : List Nat) (other : Renderer ρ) : Renderer (Nat × ρ) where
  render := fun (n, state) scene =>
    if n ∈ calls then (.error (.render s!"attempt {n} refused"), (n + 1, state))
    else
      let (answer, state) := other.render state scene
      (answer, (n + 1, state))

end Renderer
end Plotting
