import Mathlib.Data.List.Forall2
import Plotting.Proofs.Expr.EqualRanges
import Plotting.Scene.Basic

/-!
# Graphs are drawn function by function

A function of a graph is drawn if its expression is a formula and at least one sample of the formula
is finite.  What it is drawn with is told by the steps of the range: `Expr.FiniteSteps` are those at
whose start both the place and the value are finite, all of them and in order, and a curve goes
through the points at these steps (`GraphFunction.DrawnBy`).

Nothing passes from one function to the next, so a function that is not drawn is as good as not
there.  `Scene.ofGraph_draws_each_function` is the summary.
-/

namespace Plotting

/-! ## Samples by steps -/

namespace Expr

variable {e : Expr} {range : AxisRange} {count : ℕ}

/-- The number of steps that are taken where so many are asked for. -/
def stepCount (count : ℕ) : ℕ :=
  max count minSampleCount

/-- There are two steps at least. -/
theorem stepCount_eq (count : ℕ) : stepCount count = max count 2 := rfl

/-- Whether the formula has a finite value at the start of the step, and the start is finite. -/
def IsFiniteStep (e : Expr) (range : AxisRange) (count i : ℕ) : Prop :=
  i < count ∧ (place range count i).isFinite = true ∧ (e.eval (place range count i)).isFinite = true

/-- The steps with a finite sample: all of these, each of them once, and in order. -/
structure FiniteSteps (e : Expr) (range : AxisRange) (count : ℕ) (steps : List ℕ) : Prop where
  increasing : steps.Pairwise (· < ·)
  mem_iff : ∀ i, i ∈ steps ↔ e.IsFiniteStep range count i

/-- A formula has only one such list of steps. -/
theorem FiniteSteps.unique {steps others : List ℕ} (h : e.FiniteSteps range count steps)
    (h' : e.FiniteSteps range count others) : steps = others :=
  h.increasing.eq_of_mem_iff h'.increasing fun i => (h.mem_iff i).trans (h'.mem_iff i).symm

/-- The steps at whose start the sample is finite. -/
def finiteSteps (e : Expr) (range : AxisRange) (count : ℕ) : List ℕ :=
  (List.range count).filter fun i => (e.sampleAt range count i).isFinite

theorem finiteSteps_finiteSteps (e : Expr) (range : AxisRange) (count : ℕ) :
    e.FiniteSteps range count (e.finiteSteps range count) where
  increasing := List.pairwise_lt_range.filter _
  mem_iff i := by
    rw [finiteSteps, List.mem_filter, List.mem_range, Point2.isFinite, Bool.and_eq_true]
    rfl

/-- A range with finite bounds is sampled at the steps where that gives a finite point. -/
theorem sample_eq_map_finiteSteps (hmin : range.min.isFinite = true)
    (hmax : range.max.isFinite = true) :
    e.sample range count = (e.finiteSteps range (stepCount count)).map
      (e.sampleAt range (stepCount count)) := by
  rw [sample, hmin, hmax, finiteSteps]
  exact List.filter_map

theorem sample_of_unbounded (h : range.min.isFinite = false ∨ range.max.isFinite = false) :
    e.sample range count = [] := by
  rw [sample, Bool.and_eq_false_iff.mpr h]
  rfl

theorem sample_ne_nil_iff :
    e.sample range count ≠ [] ↔ range.min.isFinite = true ∧ range.max.isFinite = true ∧
      ∃ i, e.IsFiniteStep range (stepCount count) i := by
  cases hmin : range.min.isFinite with
  | false => simp [sample_of_unbounded (Or.inl hmin)]
  | true =>
    cases hmax : range.max.isFinite with
    | false => simp [sample_of_unbounded (Or.inr hmax)]
    | true =>
      have hsteps := (finiteSteps_finiteSteps e range (stepCount count)).mem_iff
      simp [sample_eq_map_finiteSteps hmin hmax, ← hsteps, List.eq_nil_iff_forall_not_mem]

end Expr

/-! ## Functions -/

namespace GraphFunction

/-- Whether something of the function is drawn: its expression is a formula with samples. -/
def isDrawn (range : AxisRange) (count : ℕ) (f : GraphFunction) : Bool :=
  match Expr.trySampleText f.expression range count with
  | .ok samples => !samples.isEmpty
  | .error _ => false

/-- The trace is the line of the function through the samples of its formula at these steps. -/
structure IsCurve (f : GraphFunction) (range : AxisRange) (count : ℕ) (e : Expr) (steps : List ℕ)
    (u : PlanarTrace) : Prop where
  formula : Expr.parse f.expression = .ok e
  finiteSteps : e.FiniteSteps range (Expr.stepCount count) steps
  nonempty : steps ≠ []
  lines : u.mode = .lines
  name : u.name = f.label.getD f.expression
  x : u.x = steps.map (Expr.place range (Expr.stepCount count))
  y : u.y = steps.map fun i => e.eval (Expr.place range (Expr.stepCount count) i)

/-- The trace is the line through the finite samples of the function, of which there are some. -/
def DrawnBy (f : GraphFunction) (range : AxisRange) (count : ℕ) (t : Trace) : Prop :=
  ∃ u e steps, t = .planar u ∧ f.IsCurve range count e steps u

variable {f : GraphFunction} {range : AxisRange} {count : ℕ}

theorem isDrawn_of_parse {e : Expr} (h : Expr.parse f.expression = .ok e) :
    f.isDrawn range count = !(e.sample range count).isEmpty := by
  rw [isDrawn, Expr.trySampleText, h]
  rfl

theorem isDrawn_of_error {e : ExprError} (h : Expr.parse f.expression = .error e) :
    f.isDrawn range count = false := by
  rw [isDrawn, Expr.trySampleText, h]
  rfl

theorem isDrawn_iff :
    f.isDrawn range count = true ↔ range.min.isFinite = true ∧ range.max.isFinite = true ∧
      ∃ e, Expr.parse f.expression = .ok e ∧
        ∃ i, e.IsFiniteStep range (Expr.stepCount count) i := by
  cases hparse : Expr.parse f.expression with
  | error e => simp [isDrawn_of_error hparse]
  | ok e =>
    have hiff : e.sample range count ≠ [] ↔ _ := Expr.sample_ne_nil_iff
    simpa [isDrawn_of_parse hparse] using hiff

/-- The line through the samples of a formula that has any. -/
theorem isCurve_of_samples {e : Expr} {u : PlanarTrace} (hparse : Expr.parse f.expression = .ok e)
    (hne : e.sample range count ≠ []) (hlines : u.mode = .lines)
    (hname : u.name = f.label.getD f.expression)
    (hx : u.x = (e.sample range count).map Point2.x)
    (hy : u.y = (e.sample range count).map Point2.y) :
    f.IsCurve range count e (e.finiteSteps range (Expr.stepCount count)) u := by
  obtain ⟨hmin, hmax, i, hi⟩ := Expr.sample_ne_nil_iff.mp hne
  have hsteps := Expr.finiteSteps_finiteSteps e range (Expr.stepCount count)
  rw [Expr.sample_eq_map_finiteSteps hmin hmax, List.map_map] at hx hy
  exact {
    formula := hparse
    finiteSteps := hsteps
    nonempty := List.ne_nil_of_mem ((hsteps.mem_iff i).mpr hi)
    lines := hlines
    name := hname
    x := hx
    y := hy }

/-- A curve goes through the points at all the steps that have one. -/
theorem IsCurve.steps_eq {e : Expr} {steps : List ℕ} {u : PlanarTrace}
    (h : f.IsCurve range count e steps u) :
    steps = e.finiteSteps range (Expr.stepCount count) :=
  h.finiteSteps.unique (Expr.finiteSteps_finiteSteps e range (Expr.stepCount count))

/-- Its points are told by the text of the function and the range. -/
theorem IsCurve.points_eq {e e' : Expr} {steps : List ℕ} {u : PlanarTrace}
    (h : f.IsCurve range count e steps u) (hparse : Expr.parse f.expression = .ok e') :
    u.x = (e'.finiteSteps range (max count 2)).map (fun i =>
        range.min + Float.ofNat i * ((range.max - range.min) / Float.ofNat (max count 2))) ∧
      u.y = u.x.map fun x => e'.eval x := by
  obtain rfl : e = e' := Except.ok.inj (h.formula.symm.trans hparse)
  simp only [← Expr.place_eq, ← Expr.stepCount_eq]
  rw [h.x, h.y, ← h.steps_eq, List.map_map]
  exact ⟨rfl, rfl⟩

end GraphFunction

namespace Scene

variable {range : AxisRange} {graph : Graph} {config : Config}

/-- The curve of a function over a range, if something of it is drawn. -/
def curveOver? (config : Config) (range : AxisRange) (f : GraphFunction) : Option Trace :=
  curve? config f (Expr.sampleText f.expression range config.sampleCount)

theorem traces_ofGraph (graph : Graph) (config : Config) :
    (ofGraph graph config).traces = graph.functions.filterMap (curveOver? config graph.xRange) := rfl

/-- A function is drawn by the line through its finite samples, or there is no trace of it. -/
theorem curveOver?_cases (config : Config) (range : AxisRange) (f : GraphFunction) :
    (f.isDrawn range config.sampleCount = false ∧ curveOver? config range f = none) ∨
    (f.isDrawn range config.sampleCount = true ∧
      ∃ t, curveOver? config range f = some t ∧ f.DrawnBy range config.sampleCount t) := by
  cases hparse : Expr.parse f.expression with
  | error e =>
    refine Or.inl ⟨GraphFunction.isDrawn_of_error hparse, ?_⟩
    rw [curveOver?, Expr.sampleText, hparse]
    rfl
  | ok e =>
    have hsamples : Expr.sampleText f.expression range config.sampleCount =
        e.sample range config.sampleCount := by
      rw [Expr.sampleText, hparse]
    rw [GraphFunction.isDrawn_of_parse hparse, curveOver?, hsamples]
    by_cases hempty : e.sample range config.sampleCount = []
    · rw [hempty]
      exact Or.inl ⟨rfl, rfl⟩
    · have hdrawn : (e.sample range config.sampleCount).isEmpty = false := by
        rwa [Bool.eq_false_iff, ne_eq, List.isEmpty_iff]
      rw [hdrawn]
      exact Or.inr ⟨rfl, _, if_neg (by rw [hdrawn]; decide), _, e, _, rfl,
        GraphFunction.isCurve_of_samples hparse hempty rfl rfl rfl rfl⟩

/-! ## Graphs -/

/-- A list that is filtered and changed at once is related item by item to the filtered list. -/
theorem forall₂_filter_filterMap {α β : Type} {R : α → β → Prop} {p : α → Bool} {g : α → Option β}
    (h : ∀ a, (p a = false ∧ g a = none) ∨ (p a = true ∧ ∃ b, g a = some b ∧ R a b))
    (as : List α) : List.Forall₂ R (as.filter p) (as.filterMap g) := by
  induction as with
  | nil => exact .nil
  | cons a as ih =>
    obtain ⟨hp, hg⟩ | ⟨hp, b, hg, hR⟩ := h a
    · rwa [List.filter_cons_of_neg (by rw [hp]; decide), List.filterMap_cons_none hg]
    · rw [List.filter_cons_of_pos hp, List.filterMap_cons_some hg]
      exact .cons hR ih

/-- The traces of a graph are the curves of the functions that are drawn, in order. -/
theorem forall₂_traces_ofGraph (graph : Graph) (config : Config) :
    List.Forall₂ (fun f t => f.DrawnBy graph.xRange config.sampleCount t)
      (graph.functions.filter (GraphFunction.isDrawn graph.xRange config.sampleCount))
      (ofGraph graph config).traces :=
  forall₂_filter_filterMap (curveOver?_cases config graph.xRange) graph.functions

theorem traces_ofGraph_append (graph : Graph) (config : Config) (fs gs : List GraphFunction) :
    (ofGraph { graph with functions := fs ++ gs } config).traces =
      (ofGraph { graph with functions := fs } config).traces ++
        (ofGraph { graph with functions := gs } config).traces :=
  List.filterMap_append

theorem traces_ofGraph_cons_of_not_drawn {f : GraphFunction}
    (h : f.isDrawn graph.xRange config.sampleCount = false) (fs : List GraphFunction) :
    (ofGraph { graph with functions := f :: fs } config).traces =
      (ofGraph { graph with functions := fs } config).traces := by
  have hnone : curveOver? config graph.xRange f = none := by
    obtain ⟨-, hnone⟩ | ⟨hdrawn, -⟩ := curveOver?_cases config graph.xRange f
    · exact hnone
    · rw [h] at hdrawn
      cases hdrawn
  rw [traces_ofGraph, traces_ofGraph, List.filterMap_cons_none hnone]

theorem traces_ofGraph_eq_nil_iff :
    (ofGraph graph config).traces = [] ↔
      ∀ f ∈ graph.functions, f.isDrawn graph.xRange config.sampleCount = false := by
  have hrel := forall₂_traces_ofGraph graph config
  rw [← List.length_eq_zero_iff, ← hrel.length_eq, List.length_eq_zero_iff, List.filter_eq_nil_iff]
  simp only [Bool.not_eq_true]

theorem isPlaceholder_ofGraph_iff :
    (ofGraph graph config).layout.isPlaceholder = true ↔ (ofGraph graph config).traces = [] := by
  show (Layout.ofGraph graph (!(ofGraph graph config).traces.isEmpty) config).isPlaceholder = true ↔
    _
  cases (ofGraph graph config).traces with
  | nil => exact iff_of_true rfl rfl
  | cons t ts => exact iff_of_false Bool.false_ne_true (List.cons_ne_nil t ts)

/-- **Graphs are drawn function by function.**  The traces are the lines through the finite samples
of those functions that have any, in order.  A function that is not drawn is as good as not there,
none is drawn over a range without bounds, and a graph without traces is shown as a placeholder. -/
theorem ofGraph_draws_each_function (graph : Graph) (config : Config) :
    List.Forall₂ (fun f t => f.DrawnBy graph.xRange config.sampleCount t)
      (graph.functions.filter (GraphFunction.isDrawn graph.xRange config.sampleCount))
      (ofGraph graph config).traces ∧
    (∀ f : GraphFunction, f.isDrawn graph.xRange config.sampleCount = true ↔
      graph.xRange.min.isFinite = true ∧ graph.xRange.max.isFinite = true ∧
        ∃ e, Expr.parse f.expression = .ok e ∧
          ∃ i, e.IsFiniteStep graph.xRange (Expr.stepCount config.sampleCount) i) ∧
    (∀ before f after, graph.functions = before ++ f :: after →
      f.isDrawn graph.xRange config.sampleCount = false →
        (ofGraph graph config).traces =
          (ofGraph { graph with functions := before ++ after } config).traces) ∧
    (graph.xRange.min.isFinite = false ∨ graph.xRange.max.isFinite = false →
      (ofGraph graph config).traces = []) ∧
    ((ofGraph graph config).layout.isPlaceholder = true ↔
      ∀ f ∈ graph.functions, f.isDrawn graph.xRange config.sampleCount = false) := by
  refine ⟨forall₂_traces_ofGraph graph config, fun _ => GraphFunction.isDrawn_iff, ?_, ?_, ?_⟩
  · intro before f after hfunctions hundrawn
    have hgraph : graph = { graph with functions := before ++ f :: after } := by rw [← hfunctions]
    calc (ofGraph graph config).traces
        = (ofGraph { graph with functions := before ++ f :: after } config).traces := by
          rw [← hgraph]
      _ = (ofGraph { graph with functions := before ++ after } config).traces := by
          rw [traces_ofGraph_append, traces_ofGraph_cons_of_not_drawn hundrawn,
            ← traces_ofGraph_append]
  · intro hunbounded
    refine traces_ofGraph_eq_nil_iff.mpr fun f _ => Bool.eq_false_iff.mpr fun hdrawn => ?_
    obtain ⟨hmin, hmax, -⟩ := GraphFunction.isDrawn_iff.mp hdrawn
    rw [hmin, hmax] at hunbounded
    exact hunbounded.elim Bool.noConfusion Bool.noConfusion
  · exact isPlaceholder_ofGraph_iff.trans traces_ofGraph_eq_nil_iff

/-- A formula without a value at the first of two places, a text that is no formula, and a formula
with both values: one curve has a single point, and the other has two. -/
theorem ofGraph_draws_each_function_reciprocal :
    let reciprocal : GraphFunction := { expression := "1/x" }
    let unfinished : GraphFunction := { expression := "2 +" }
    let diagonal : GraphFunction := { expression := "x" }
    let config : Config := { sampleCount := 2 }
    let graph : Graph :=
      { functions := [reciprocal, unfinished, diagonal], xRange := ⟨0, 1⟩, yRange := ⟨0, 1⟩ }
    (∃ u u', (ofGraph graph config).traces = [.planar u, .planar u'] ∧
      reciprocal.DrawnBy graph.xRange 2 (.planar u) ∧ u.x = [0.5] ∧ u.y = [2] ∧
      diagonal.DrawnBy graph.xRange 2 (.planar u') ∧ u'.x = [0, 0.5] ∧ u'.y = [0, 0.5]) ∧
    (ofGraph graph config).traces =
      (ofGraph { graph with functions := [reciprocal, diagonal] } config).traces ∧
    (ofGraph graph config).layout.isPlaceholder = false ∧
    (ofGraph { graph with xRange := ⟨0, 1 / 0⟩ } config).traces = [] := by
  intro reciprocal unfinished diagonal config graph
  have hreciprocal : reciprocal.isDrawn graph.xRange config.sampleCount = true := by decide
  have hunfinished : unfinished.isDrawn graph.xRange config.sampleCount = false := by decide
  have hdiagonal : diagonal.isDrawn graph.xRange config.sampleCount = true := by decide
  have hquotient : Expr.parse reciprocal.expression = .ok (.binary .div (.number 1) .var) := by
    decide
  have hvariable : Expr.parse diagonal.expression = .ok .var := by decide
  obtain ⟨htraces, -, hframe, -, hplaceholder⟩ := ofGraph_draws_each_function graph config
  obtain ⟨-, -, -, hunbounded, -⟩ :=
    ofGraph_draws_each_function { graph with xRange := ⟨0, 1 / 0⟩ } config
  refine ⟨?_, hframe [reciprocal] unfinished [diagonal] rfl hunfinished, ?_,
    hunbounded (Or.inr (by decide))⟩
  · have hfilter : graph.functions.filter
        (GraphFunction.isDrawn graph.xRange config.sampleCount) = [reciprocal, diagonal] := by
      rw [List.filter_cons_of_pos hreciprocal,
        List.filter_cons_of_neg (by rw [hunfinished]; decide), List.filter_cons_of_pos hdiagonal]
      rfl
    rw [hfilter] at htraces
    obtain ⟨t, ts, ht, hrest, heq⟩ := List.forall₂_cons_left_iff.mp htraces
    obtain ⟨t', ts', ht', hnil, rfl⟩ := List.forall₂_cons_left_iff.mp hrest
    rw [List.forall₂_nil_left_iff.mp hnil] at heq
    obtain ⟨u, _, _, rfl, hcurve⟩ := ht
    obtain ⟨u', _, _, rfl, hcurve'⟩ := ht'
    obtain ⟨hx, hy⟩ := hcurve.points_eq hquotient
    obtain ⟨hx', hy'⟩ := hcurve'.points_eq hvariable
    have hsingle : u.x = [0.5] := hx.trans (by decide +kernel)
    have hboth : u'.x = [0, 0.5] := hx'.trans (by decide +kernel)
    rw [hsingle] at hy
    rw [hboth] at hy'
    exact ⟨u, u', heq, ⟨u, _, _, rfl, hcurve⟩, hsingle, hy.trans (by decide),
      ⟨u', _, _, rfl, hcurve'⟩, hboth, hy'.trans (by decide)⟩
  · refine Bool.eq_false_iff.mpr fun hempty => ?_
    have hundrawn := hplaceholder.mp hempty reciprocal List.mem_cons_self
    rw [hreciprocal] at hundrawn
    cases hundrawn

end Scene
end Plotting
