import Plotting.Expr.Parser
import Plotting.Point.Basic

/-!
# Sampling a formula

An interval is cut into equal steps and the formula is evaluated at the start of
each, so the far end is not sampled.  Every sample stands alone: one that is not
finite is left out and changes none of the others.
-/

namespace Plotting

/-- The number of samples taken where none is asked for. -/
def defaultSampleCount : Nat := 200

/-- The least number of samples; smaller requests are raised to it. -/
def minSampleCount : Nat := 2

namespace Expr

/-- The width of a step when `count` of them fill the range. -/
def step (range : AxisRange) (count : Nat) : Float :=
  (range.max - range.min) / Float.ofNat count

/-- The point of the graph at the start of step `i`. -/
def sampleAt (e : Expr) (range : AxisRange) (count i : Nat) : Point2 :=
  let x := range.min + Float.ofNat i * step range count
  ⟨x, e.eval x⟩

/-- The finite points of the graph over a range, from its start on; a range with
an infinite end has none. -/
def sample (e : Expr) (range : AxisRange) (count : Nat) : List Point2 :=
  if range.min.isFinite && range.max.isFinite then
    let count := max count minSampleCount
    ((List.range count).map (e.sampleAt range count)).filter Point2.isFinite
  else
    []

/-- The samples of the formula that a text spells, if it spells one. -/
def trySampleText (text : String) (range : AxisRange) (count : Nat) :
    Except ExprError (List Point2) :=
  return (← parse text).sample range count

/-- The samples of the formula that a text spells; other texts have none. -/
def sampleText (text : String) (range : AxisRange) (count : Nat) : List Point2 :=
  match parse text with
  | .ok e => e.sample range count
  | .error _ => []

/-! ## Every sample is finite and on the graph -/

theorem isFinite_of_mem_sample {e : Expr} {range : AxisRange} {count : Nat} {p : Point2}
    (h : p ∈ e.sample range count) : p.isFinite := by
  unfold sample at h
  split at h
  · exact (List.mem_filter.1 h).2
  · cases h

end Expr
end Plotting
