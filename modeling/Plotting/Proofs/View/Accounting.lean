import Mathlib
import Plotting.Proofs.View.Acceptance
import Plotting.Proofs.View.Rounds

/-!
# What the memories hold, and what they count

A view counts for each memory how often it had an answer and how often not.  These counts are all
that can be seen from outside, and they are enough to say what the memories hold.  A pass is missed
when the count of misses goes up, and a memory holds the last round of the inputs that were missed
since it was emptied (`View.missed`, `View.missedKeys`); nothing else ever gets in, and nothing is
lost but a whole round.  A hit is a pass whose input matches one that is held.

Each pass is counted once, refused or not, and each function of a graph is counted once by the
memory of samples whenever the scene of the graph is built.

The invariant `View.Accounts` is about what was missed since the last clearing.  The counts run on
over a clearing and have statements of their own.
-/

namespace Plotting

/-- How often a cache was asked. -/
def Cache.asked {κ β : Type} (c : Cache κ β) : ℕ :=
  c.hits + c.misses

/-! ## The memory of samples -/

namespace SampleCache

/-- Whether the memory counts a question for the key as missed. -/
def misses (c : SampleCache) (key : SampleKey) : Bool :=
  c.series.misses < (c.sample key).2.series.misses

/-- The memory after questions for several keys, one after the other. -/
def after (c : SampleCache) (keys : List SampleKey) : SampleCache :=
  keys.foldl (fun c key => (c.sample key).2) c

/-- Those of several keys that the memory misses, asked for one after the other. -/
def missed (c : SampleCache) : List SampleKey → List SampleKey
  | [] => []
  | key :: keys => (if c.misses key then [key] else []) ++ missed (c.sample key).2 keys

/-- The memory holds the last round of the series that it missed, and its formulas keep within
their bound. -/
structure Holds (c : SampleCache) (missed : List SampleKey) : Prop where
  series : c.series.Holds SampleKey.agrees missed
  formulas : c.formulas.length ≤ c.formulaCapacity

variable {c : SampleCache} {key : SampleKey} {keys before : List SampleKey}

/-! ### One question -/

/-- A series that is missed is learnt, and its formula too. -/
theorem exists_sample_snd_of_miss
    (h : remembered? SampleKey.agrees c.series.entries key = none) :
    ∃ points, (c.sample key).2 = {
      series := c.series.learn key points
      formulas := (c.formula key.expression).2.formulas } := by
  rw [sample_of_miss h]
  dsimp only
  rw [series_formula_snd]
  exact ⟨_, rfl⟩

/-- The memory misses what it does not hold. -/
theorem misses_eq_isNone :
    c.misses key = (remembered? SampleKey.agrees c.series.entries key).isNone := by
  unfold misses
  cases h : remembered? SampleKey.agrees c.series.entries key with
  | some points =>
    rw [sample_of_hit h]
    exact decide_eq_false (Nat.lt_irrefl _)
  | none =>
    obtain ⟨points, hsample⟩ := exists_sample_snd_of_miss h
    rw [hsample]
    exact decide_eq_true (Nat.lt_succ_self _)

/-- Reading a formula keeps the formulas within their bound. -/
theorem length_formulas_formula_snd (h : c.formulas.length ≤ c.formulaCapacity) (text : String) :
    (c.formula text).2.formulas.length ≤ c.formulaCapacity := by
  unfold formula
  split
  · exact h
  · exact length_pushBounded_le _ h

/-- A question does not change how much room there is, is counted once, and counts as missed when it
is. -/
theorem counts_sample (c : SampleCache) (key : SampleKey) :
    (c.sample key).2.series.capacity = c.series.capacity ∧
      (c.sample key).2.series.asked = c.series.asked + 1 ∧
      (c.sample key).2.series.misses = c.series.misses + (c.missed [key]).length := by
  rw [missed, missed, List.append_nil, misses_eq_isNone]
  cases h : remembered? SampleKey.agrees c.series.entries key with
  | some points =>
    rw [sample_of_hit h]
    exact ⟨rfl, Nat.succ_add _ _, rfl⟩
  | none =>
    obtain ⟨points, hsample⟩ := exists_sample_snd_of_miss h
    rw [hsample]
    exact ⟨rfl, rfl, rfl⟩

theorem Holds.sample (h : c.Holds before) (key : SampleKey) :
    (c.sample key).2.Holds (before ++ c.missed [key]) := by
  rw [missed, missed, List.append_nil, misses_eq_isNone]
  cases hkey : remembered? SampleKey.agrees c.series.entries key with
  | some points =>
    rw [sample_of_hit hkey, Option.isNone_some, if_neg Bool.false_ne_true, List.append_nil]
    exact ⟨h.series.hit, h.formulas⟩
  | none =>
    obtain ⟨points, hsample⟩ := exists_sample_snd_of_miss hkey
    rw [hsample, Option.isNone_none, if_pos rfl]
    exact ⟨h.series.learn hkey _, length_formulas_formula_snd h.formulas key.expression⟩

/-! ### Several questions -/

theorem missed_cons : c.missed (key :: keys) = c.missed [key] ++ (c.sample key).2.missed keys := by
  rw [missed, missed, missed, List.append_nil]

theorem counts_after (c : SampleCache) (keys : List SampleKey) :
    (c.after keys).series.capacity = c.series.capacity ∧
      (c.after keys).series.asked = c.series.asked + keys.length ∧
      (c.after keys).series.misses = c.series.misses + (c.missed keys).length := by
  induction keys generalizing c with
  | nil => exact ⟨rfl, rfl, rfl⟩
  | cons key keys ih =>
    obtain ⟨hcapacity, hasked, hmisses⟩ := ih (c.sample key).2
    obtain ⟨hcapacity', hasked', hmisses'⟩ := counts_sample c key
    rw [missed_cons, List.length_append, List.length_cons]
    refine ⟨hcapacity.trans hcapacity', hasked.trans ?_, hmisses.trans ?_⟩
    · rw [hasked', Nat.add_assoc, Nat.add_comm 1]
    · rw [hmisses', Nat.add_assoc]

theorem Holds.after (h : c.Holds before) (keys : List SampleKey) :
    (c.after keys).Holds (before ++ c.missed keys) := by
  induction keys generalizing c before with
  | nil => rwa [missed, List.append_nil]
  | cons key keys ih =>
    rw [missed_cons, ← List.append_assoc]
    exact ih (h.sample key)

end SampleCache

/-! ## Passes -/

namespace Request

/-- The functions of a graph; elements have none. -/
def functions : Request → List GraphFunction
  | .elements _ _ => []
  | .graph g => g.value.functions

/-- The keys that building the scene of a request asks for, in order. -/
def sampleKeys (config : Config) : Request → List SampleKey
  | .elements _ _ => []
  | .graph g => g.value.functions.map fun f => ⟨f.expression, g.value.xRange, config.sampleCount⟩

theorem length_sampleKeys (config : Config) (q : Request) :
    (q.sampleKeys config).length = q.functions.length := by
  cases q with
  | elements es title => rfl
  | graph g => exact List.length_map _

end Request

namespace View

variable {ρ : Type} {v : View ρ} {q : Request}

/-- Whether a pass is counted as one whose scene was not remembered. -/
def misses (r : Renderer ρ) (v : View ρ) (q : Request) : Bool :=
  v.scenes.misses < (v.render r q).2.scenes.misses

/-- The inputs of those passes of a run whose scenes were not remembered. -/
def missed (r : Renderer ρ) (v : View ρ) : List Command → List Request
  | [] => []
  | .render q :: cs => (if v.misses r q then [q] else []) ++ missed r (v.step r (.render q)) cs
  | .clear :: cs => missed r (v.step r .clear) cs

/-- The keys whose series were not remembered when the scenes of these passes were built. -/
def missedKeys (r : Renderer ρ) (v : View ρ) : List Command → List SampleKey
  | [] => []
  | .render q :: cs =>
    (if v.misses r q then v.samples.missed (q.sampleKeys v.config) else []) ++
      missedKeys r (v.step r (.render q)) cs
  | .clear :: cs => missedKeys r (v.step r .clear) cs

/-- Curves are sampled one after the other. -/
theorem curves_snd (config : Config) (range : AxisRange) (fs : List GraphFunction)
    (c : SampleCache) :
    (curves config range fs c).2 =
      c.after (fs.map fun f => ⟨f.expression, range, config.sampleCount⟩) := by
  induction fs generalizing c with
  | nil => rfl
  | cons f fs ih => exact ih (c.sample ⟨f.expression, range, config.sampleCount⟩).2

theorem build_snd (config : Config) (c : SampleCache) (q : Request) :
    (build config c q).2 = c.after (q.sampleKeys config) := by
  cases q with
  | elements es title => rfl
  | graph g => exact curves_snd config g.value.xRange g.value.functions c

/-- A pass leaves the memories as obtaining its scene does. -/
theorem memories_render (r : Renderer ρ) (v : View ρ) (q : Request) :
    (v.render r q).2.scenes = (v.obtain q).2.scenes ∧
      (v.render r q).2.samples = (v.obtain q).2.samples := by
  unfold render
  rw [scenes_present, samples_present]
  unfold View.obtain
  dsimp only
  split <;> exact ⟨rfl, rfl⟩

theorem memories_render_of_hit (r : Renderer ρ) {s : Scene}
    (h : remembered? Request.agrees v.scenes.entries q = some s) :
    (v.render r q).2.scenes = v.scenes.hit ∧ (v.render r q).2.samples = v.samples := by
  obtain ⟨hscenes, hsamples⟩ := memories_render r v q
  rw [hscenes, hsamples, obtain_of_hit h]
  exact ⟨rfl, rfl⟩

theorem memories_render_of_miss (r : Renderer ρ)
    (h : remembered? Request.agrees v.scenes.entries q = none) :
    (v.render r q).2.scenes = v.scenes.learn q (build v.config v.samples q).1 ∧
      (v.render r q).2.samples = v.samples.after (q.sampleKeys v.config) := by
  obtain ⟨hscenes, hsamples⟩ := memories_render r v q
  rw [hscenes, hsamples, obtain_of_miss h, ← build_snd]
  exact ⟨rfl, rfl⟩

/-- A pass is missed when no scene is held for its input. -/
theorem misses_eq_isNone (r : Renderer ρ) :
    v.misses r q = (remembered? Request.agrees v.scenes.entries q).isNone := by
  unfold misses
  cases h : remembered? Request.agrees v.scenes.entries q with
  | some s =>
    rw [(memories_render_of_hit r h).1]
    exact decide_eq_false (Nat.lt_irrefl _)
  | none =>
    rw [(memories_render_of_miss r h).1]
    exact decide_eq_true (Nat.lt_succ_self _)

theorem missed_of_hit (r : Renderer ρ) {s : Scene}
    (h : remembered? Request.agrees v.scenes.entries q = some s) :
    missed r v [.render q] = [] ∧ missedKeys r v [.render q] = [] := by
  rw [missed, missedKeys, misses_eq_isNone, h]
  exact ⟨rfl, rfl⟩

theorem missed_of_miss (r : Renderer ρ)
    (h : remembered? Request.agrees v.scenes.entries q = none) :
    missed r v [.render q] = [q] ∧
      missedKeys r v [.render q] = v.samples.missed (q.sampleKeys v.config) := by
  rw [missed, missedKeys, misses_eq_isNone, h, Option.isNone_none, if_pos rfl, if_pos rfl]
  exact ⟨rfl, List.append_nil _⟩

/-- A pass is counted as a hit when its input matches one that is held, and else as a miss. -/
theorem counts_render (r : Renderer ρ) (v : View ρ) (q : Request) :
    ((v.render r q).2.scenes.hits, (v.render r q).2.scenes.misses) =
      if (v.scenes.entries.map Prod.fst).any (·.agrees q) then
        (v.scenes.hits + 1, v.scenes.misses)
      else (v.scenes.hits, v.scenes.misses + 1) := by
  rw [← isSome_remembered?]
  cases h : remembered? Request.agrees v.scenes.entries q with
  | some s =>
    rw [(memories_render_of_hit r h).1]
    rfl
  | none =>
    rw [(memories_render_of_miss r h).1]
    rfl

/-! ## Counts of a run -/

theorem run_append (r : Renderer ρ) (v : View ρ) (cs ds : List Command) :
    v.run r (cs ++ ds) = (v.run r cs).run r ds :=
  List.foldl_append

theorem missed_cons (r : Renderer ρ) (v : View ρ) (c : Command) (cs : List Command) :
    missed r v (c :: cs) = missed r v [c] ++ missed r (v.step r c) cs := by
  cases c with
  | render q => rw [missed, missed, missed, List.append_nil]
  | clear => rfl

theorem missedKeys_cons (r : Renderer ρ) (v : View ρ) (c : Command) (cs : List Command) :
    missedKeys r v (c :: cs) = missedKeys r v [c] ++ missedKeys r (v.step r c) cs := by
  cases c with
  | render q => rw [missedKeys, missedKeys, missedKeys, List.append_nil]
  | clear => rfl

/-- The number of functions of several requests. -/
def functionCount (requests : List Request) : ℕ :=
  (requests.map fun q => q.functions.length).sum

theorem functionCount_append (ps qs : List Request) :
    functionCount (ps ++ qs) = functionCount ps + functionCount qs := by
  rw [functionCount, List.map_append, List.sum_append]
  rfl

/-- What the memories of a view count in the course of some commands. -/
structure Counts (r : Renderer ρ) (v w : View ρ) (commands : List Command) : Prop where
  scenesAsked : w.scenes.asked = v.scenes.asked + commands.countP Command.isRender
  scenesMissed : w.scenes.misses = v.scenes.misses + (missed r v commands).length
  seriesAsked :
    w.samples.series.asked = v.samples.series.asked + functionCount (missed r v commands)
  seriesMissed :
    w.samples.series.misses = v.samples.series.misses + (missedKeys r v commands).length

theorem counts_step (r : Renderer ρ) (v : View ρ) (c : Command) :
    Counts r v (v.step r c) [c] := by
  cases c with
  | clear => exact ⟨rfl, rfl, rfl, rfl⟩
  | render q =>
    cases h : remembered? Request.agrees v.scenes.entries q with
    | some s =>
      obtain ⟨hscenes, hsamples⟩ := memories_render_of_hit r h
      obtain ⟨hmissed, hkeys⟩ := missed_of_hit r h
      refine ⟨?_, ?_, ?_, ?_⟩ <;> simp only [step, hscenes, hsamples, hmissed, hkeys]
      · exact Nat.succ_add _ _
      · rfl
      · rfl
      · rfl
    | none =>
      obtain ⟨hscenes, hsamples⟩ := memories_render_of_miss r h
      obtain ⟨hmissed, hkeys⟩ := missed_of_miss r h
      obtain ⟨-, hasked, hmisses⟩ := v.samples.counts_after (q.sampleKeys v.config)
      refine ⟨?_, ?_, ?_, ?_⟩ <;> simp only [step, hscenes, hsamples, hmissed, hkeys]
      · rfl
      · rfl
      · rw [hasked, Request.length_sampleKeys]
        rfl
      · exact hmisses

/-- The counts of a run. -/
theorem counts_run (r : Renderer ρ) (v : View ρ) (commands : List Command) :
    Counts r v (v.run r commands) commands := by
  induction commands generalizing v with
  | nil => exact ⟨rfl, rfl, rfl, rfl⟩
  | cons c cs ih =>
    have hstep := counts_step r v c
    have hrest := ih (v.step r c)
    refine ⟨?_, ?_, ?_, ?_⟩
    · rw [run_cons, hrest.scenesAsked, hstep.scenesAsked, Nat.add_assoc, ← List.countP_append,
        List.singleton_append]
    · rw [run_cons, hrest.scenesMissed, hstep.scenesMissed, Nat.add_assoc, ← List.length_append,
        ← missed_cons]
    · rw [run_cons, hrest.seriesAsked, hstep.seriesAsked, Nat.add_assoc,
        missed_cons r v c cs, functionCount_append]
    · rw [run_cons, hrest.seriesMissed, hstep.seriesMissed, Nat.add_assoc, ← List.length_append,
        ← missedKeys_cons]

/-! ## What is held -/

/-- Since it was last cleared a view with this configuration has missed the passes and the keys, and
its memories hold what is left of them. -/
structure Accounts (v : View ρ) (config : Config) (passes : List Request)
    (keys : List SampleKey) : Prop where
  configured : v.config = config
  sceneRoom : v.scenes.capacity = config.sceneCacheCapacity
  seriesRoom : v.samples.series.capacity = config.sampleCacheCapacity
  scenes : v.scenes.Holds Request.agrees passes
  samples : v.samples.Holds keys

namespace Accounts

variable {config : Config} {passes : List Request} {keys : List SampleKey}

/-- A new view has missed nothing. -/
theorem create {state : ρ} (h : View.create state config = .ok v) : v.Accounts config [] [] := by
  obtain ⟨-, rfl⟩ := create_eq_ok_iff.mp h
  exact ⟨rfl, rfl, rfl, .of_empty rfl, .of_empty rfl, Nat.zero_le _⟩

/-- Clearing forgets what was missed. -/
theorem clear (h : v.Accounts config passes keys) : v.clearCaches.Accounts config [] [] :=
  ⟨h.configured, h.sceneRoom, h.seriesRoom, .of_empty rfl, .of_empty rfl, Nat.zero_le _⟩

/-- A pass adds what it missed. -/
theorem render (h : v.Accounts config passes keys) (r : Renderer ρ) (q : Request) :
    (v.render r q).2.Accounts config (passes ++ missed r v [.render q])
      (keys ++ missedKeys r v [.render q]) := by
  have hconfig : (v.render r q).2.config = config :=
    (config_step r v (.render q)).trans h.configured
  cases hq : remembered? Request.agrees v.scenes.entries q with
  | some s =>
    obtain ⟨hscenes, hsamples⟩ := memories_render_of_hit r hq
    obtain ⟨hmissed, hkeys⟩ := missed_of_hit r hq
    rw [hmissed, hkeys, List.append_nil, List.append_nil]
    exact ⟨hconfig, hscenes ▸ h.sceneRoom, hsamples ▸ h.seriesRoom, hscenes ▸ h.scenes.hit,
      hsamples ▸ h.samples⟩
  | none =>
    obtain ⟨hscenes, hsamples⟩ := memories_render_of_miss r hq
    obtain ⟨hmissed, hkeys⟩ := missed_of_miss r hq
    obtain ⟨hcapacity, -, -⟩ := v.samples.counts_after (q.sampleKeys v.config)
    rw [hmissed, hkeys]
    exact ⟨hconfig, hscenes ▸ h.sceneRoom, hsamples ▸ hcapacity.trans h.seriesRoom,
      hscenes ▸ h.scenes.learn hq _, hsamples ▸ h.samples.after _⟩

/-- After any commands there is something that was missed since the last clearing. -/
theorem exists_run (h : v.Accounts config passes keys) (r : Renderer ρ) (commands : List Command) :
    ∃ passes keys, (v.run r commands).Accounts config passes keys := by
  induction commands generalizing v passes keys with
  | nil => exact ⟨passes, keys, h⟩
  | cons c cs ih =>
    cases c with
    | render q => exact ih (h.render r q)
    | clear => exact ih h.clear

/-- Passes alone add what they miss. -/
theorem run (h : v.Accounts config passes keys) (r : Renderer ρ) {commands : List Command}
    (hrender : ∀ c ∈ commands, c.isRender = true) :
    (v.run r commands).Accounts config (passes ++ missed r v commands)
      (keys ++ missedKeys r v commands) := by
  induction commands generalizing v passes keys with
  | nil => rwa [missed, missedKeys, List.append_nil, List.append_nil]
  | cons c cs ih =>
    obtain ⟨hc, hcs⟩ := List.forall_mem_cons.mp hrender
    cases c with
    | clear => cases hc
    | render q =>
      rw [missed_cons, missedKeys_cons, ← List.append_assoc, ← List.append_assoc]
      exact ih (h.render r q) hcs

/-- Commands up to the last clearing leave nothing behind. -/
theorem run_cleared (h : v.Accounts config [] []) (r : Renderer ρ) (commands : List Command) :
    (v.run r (commands.rdropWhile Command.isRender)).Accounts config [] [] := by
  by_cases hnil : commands.rdropWhile Command.isRender = []
  · rw [hnil]
    exact h
  · have hlast := List.rdropWhile_last_not Command.isRender commands hnil
    have hsplit := List.dropLast_append_getLast hnil
    cases hc : (commands.rdropWhile Command.isRender).getLast hnil with
    | render q => exact absurd (congrArg Command.isRender hc) hlast
    | clear =>
      obtain ⟨passes, keys, hfront⟩ :=
        h.exists_run r (commands.rdropWhile Command.isRender).dropLast
      rw [hc] at hsplit
      rw [← hsplit, run_append]
      exact hfront.clear

end Accounts

/-- **What the memories hold and count.**  After any commands the scene memory holds the last round
of the inputs that were missed since the last clearing, in order, and no two of them match.  A pass
is a hit when its input matches one of them, and every pass is a hit or a miss.  The memory of
samples holds the last round of the keys missed since then, no two of which agree, its formulas keep
within their bound, and it was asked once for each function of each graph whose scene was missed. -/
theorem memories_hold_last_rounds (r : Renderer ρ) {state : ρ} {config : Config} {start : View ρ}
    (hstart : View.create state config = .ok start) (commands : List Command) :
    let v := start.run r commands
    let cleared := start.run r (commands.rdropWhile Command.isRender)
    let recent := commands.rtakeWhile Command.isRender
    let held := v.scenes.entries.map Prod.fst
    let heldKeys := v.samples.series.entries.map Prod.fst
    held = lastRound config.sceneCacheCapacity (missed r cleared recent) ∧
    held.Pairwise (fun p q => p.agrees q = false ∧ q.agrees p = false) ∧
    (∀ q, ((v.render r q).2.scenes.hits, (v.render r q).2.scenes.misses) =
      if held.any (·.agrees q) then (v.scenes.hits + 1, v.scenes.misses)
      else (v.scenes.hits, v.scenes.misses + 1)) ∧
    v.scenes.misses = (missed r start commands).length ∧
    v.scenes.hits + v.scenes.misses = commands.countP Command.isRender ∧
    heldKeys = lastRound config.sampleCacheCapacity (missedKeys r cleared recent) ∧
    heldKeys.Pairwise (fun a b => a.agrees b = false ∧ b.agrees a = false) ∧
    v.samples.formulas.length ≤ max config.sampleCacheCapacity 1 ∧
    v.samples.series.misses = (missedKeys r start commands).length ∧
    v.samples.series.hits + v.samples.series.misses =
      functionCount (missed r start commands) := by
  intro v cleared recent held heldKeys
  have hempty : start.Accounts config [] [] := Accounts.create hstart
  have hv : v.Accounts config (missed r cleared recent) (missedKeys r cleared recent) := by
    have hrender : ∀ c ∈ recent, c.isRender = true := fun c => List.mem_rtakeWhile_imp
    have hrun := (hempty.run_cleared r commands).run r hrender
    rwa [List.nil_append, List.nil_append, ← run_append, List.rdropWhile_append_rtakeWhile] at hrun
  have hcounts := counts_run r start commands
  obtain ⟨-, rfl⟩ := create_eq_ok_iff.mp hstart
  refine ⟨?_, ?_, ?_, ?_, ?_, ?_, ?_, ?_, ?_, ?_⟩
  · rw [← hv.sceneRoom]
    exact hv.scenes.keys
  · exact hv.scenes.pairwise Request.agrees_symm
  · exact counts_render r v
  · exact hcounts.scenesMissed.trans (Nat.zero_add _)
  · exact hcounts.scenesAsked.trans (Nat.zero_add _)
  · rw [← hv.seriesRoom]
    exact hv.samples.series.keys
  · exact hv.samples.series.pairwise SampleKey.agrees_symm
  · rw [← hv.seriesRoom]
    exact hv.samples.formulas
  · exact hcounts.seriesMissed.trans (Nat.zero_add _)
  · exact hcounts.seriesAsked.trans (Nat.zero_add _)

/-- Room for two scenes and one series, a scene remembered, a graph with one formula twice, a
refusal and a clearing: four passes of six are missed, the last three of them since the clearing,
and the third of those found the scene memory full. -/
theorem memories_hold_last_rounds_overflow :
    let config : Config := { sceneCacheCapacity := 2, sampleCacheCapacity := 1 }
    let titled (title : String) : Request := .elements (.fresh []) (some title)
    let graph : Request := .graph (.fresh {
      functions := [{ expression := "x" }, { expression := "x" }, { expression := "1" }]
      xRange := ⟨0, 1⟩
      yRange := ⟨0, 1⟩ })
    let commands : List Command := [.render (titled "a"), .render (titled "a"), .clear,
      .render (titled "a"), .render graph, .render graph, .render (titled "b")]
    let r : Renderer (Nat × Unit) := .refusing [3] { render := fun u _ => (.ok (), u) }
    let state : Nat × Unit := (0, ())
    ∃ start, View.create state config = .ok start ∧
      let v := start.run r commands
      v.scenes.entries.map Prod.fst = [titled "b"] ∧ v.scenes.misses = 4 ∧
      v.scenes.hits + v.scenes.misses = 6 ∧
      v.samples.series.entries.map Prod.fst = [⟨"1", ⟨0, 1⟩, config.sampleCount⟩] ∧
      v.samples.series.misses = 2 ∧ v.samples.series.hits + v.samples.series.misses = 3 := by
  intro config titled graph commands r state
  have hcheck : config.check = .ok () :=
    show ({ sceneCacheCapacity := 2, sampleCacheCapacity := 1 } : Config).check = .ok () from rfl
  have hstart : View.create state config = .ok { config, renderer := state } :=
    create_eq_ok_iff.mpr ⟨hcheck, rfl⟩
  obtain ⟨hheld, -, -, hmisses, hasked, hkeys, -, -, hkeyMisses, hkeysAsked⟩ :=
    memories_hold_last_rounds r hstart commands
  refine ⟨_, hstart, hheld.trans ?_, hmisses.trans ?_, hasked, hkeys.trans ?_,
    hkeyMisses.trans ?_, hkeysAsked.trans ?_⟩
  -- with the values in their places the runs compute
  all_goals
    dsimp only [config, titled, graph, commands, r, state]
    rfl

end View
end Plotting
