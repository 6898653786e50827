import Plotting.Proofs.Double.Equality
import Plotting.View.Basic

/-!
# What the sample memory holds

The sample memory answers from what it holds or reads and samples the formula itself.  Whatever has
been asked of it, hits, misses, forgotten entries and texts that are no formula included, each
series it holds is the one that its own key asks for, and each formula is the one that its own text
spells.  That is `SampleCache.Faithful`, and it is all a caller has to know of the memory.

A hit answers with the series of another key that agrees with the one asked for.  Keys agree as
soon as their bounds are the same numbers, so the answer is the right series for certain only where
no bound is the negative zero.  `Faithful` therefore carries a condition on the keys, which a caller
may choose: `SampleKey.AvoidsNegativeZero` makes every answer exact, and no condition at all still
says that every answer is the series of some key.
-/

namespace Plotting

/-- What a bounded list holds after a new entry was held before, or is the new one. -/
theorem mem_pushBounded {α : Type} {capacity : Nat} {entries : List α} {entry e : α}
    (h : e ∈ pushBounded capacity entries entry) : e ∈ entries ∨ e = entry := by
  unfold pushBounded at h
  split at h
  · exact Or.inl h
  · split at h
    · exact Or.inr (List.mem_singleton.mp h)
    · rcases List.mem_append.mp h with h | h
      · exact Or.inl h
      · exact Or.inr (List.mem_singleton.mp h)

/-! ## Keys -/

/-- No end of the range is the negative zero. -/
def AxisRange.AvoidsNegativeZero (r : AxisRange) : Prop :=
  r.min ≠ -0 ∧ r.max ≠ -0

namespace SampleKey

/-- The series that a key asks for, taken without any memory. -/
def points (key : SampleKey) : List Point2 :=
  Expr.sampleText key.expression key.range key.count

/-- No bound of the key is the negative zero. -/
def AvoidsNegativeZero (key : SampleKey) : Prop :=
  key.range.AvoidsNegativeZero

/-- Keys that agree are equal, negative zeros excepted. -/
theorem eq_of_agrees {a b : SampleKey} (h : a.agrees b = true) (ha : a.AvoidsNegativeZero)
    (hb : b.AvoidsNegativeZero) : a = b := by
  obtain ⟨expression, ⟨min, max⟩, count⟩ := a
  obtain ⟨expression', ⟨min', max'⟩, count'⟩ := b
  simp only [agrees, Bool.and_eq_true, beq_iff_eq] at h
  obtain ⟨⟨⟨rfl, hmin⟩, hmax⟩, rfl⟩ := h
  have hmin' : min = min' := Double.eq_of_sameNumber hmin ha.1 hb.1
  have hmax' : max = max' := Double.eq_of_sameNumber hmax ha.2 hb.2
  rw [hmin', hmax']

/-- The series of a key, by way of its formula. -/
theorem points_eq (key : SampleKey) :
    key.points = ((Expr.parse key.expression).toOption.map
      fun e => e.sample key.range key.count).getD [] := by
  unfold points Expr.sampleText
  cases Expr.parse key.expression <;> rfl

end SampleKey

/-! ## The invariant of the memory -/

namespace SampleCache

/-! ### One request, by cases -/

/-- A series that is held is the answer, and nothing is read. -/
theorem sample_of_hit {c : SampleCache} {key : SampleKey} {points : List Point2}
    (h : remembered? SampleKey.agrees c.series.entries key = some points) :
    c.sample key = (points, { c with series := c.series.hit }) := by
  unfold sample
  rw [h]

/-- Without one the formula is asked for, and its samples are the answer and are learnt. -/
theorem sample_of_miss {c : SampleCache} {key : SampleKey}
    (h : remembered? SampleKey.agrees c.series.entries key = none) :
    c.sample key =
      let asked := c.formula key.expression
      let points := (asked.1.map fun e => e.sample key.range key.count).getD []
      (points, { asked.2 with series := asked.2.series.learn key points }) := by
  unfold sample
  rw [h]

/-- Reading a formula leaves the series alone. -/
theorem series_formula_snd (c : SampleCache) (text : String) :
    (c.formula text).2.series = c.series := by
  unfold formula
  split <;> rfl

/-- Each series is that of its own key, a key with a certain property, and each formula is that of
its own text. -/
structure Faithful (admits : SampleKey → Prop) (c : SampleCache) : Prop where
  series : ∀ key points, (key, points) ∈ c.series.entries → admits key ∧ points = key.points
  formulas : ∀ text e, (text, e) ∈ c.formulas → e = (Expr.parse text).toOption

namespace Faithful

variable {admits : SampleKey → Prop} {c : SampleCache}

theorem ofCapacity (capacity : Nat) : (SampleCache.ofCapacity capacity).Faithful admits :=
  ⟨fun _ _ h => absurd h List.not_mem_nil, fun _ _ h => absurd h List.not_mem_nil⟩

theorem clear : c.clear.Faithful admits :=
  ⟨fun _ _ h => absurd h List.not_mem_nil, fun _ _ h => absurd h List.not_mem_nil⟩

/-- The formula of a text is the one that the text spells. -/
theorem formula_fst (h : c.Faithful admits) (text : String) :
    (c.formula text).1 = (Expr.parse text).toOption := by
  unfold formula
  split
  · next e he =>
    obtain ⟨old, hmem, hold⟩ := mem_of_remembered?_eq_some he
    rw [← eq_of_beq hold]
    exact h.formulas old e hmem
  · rfl

theorem formula_snd (h : c.Faithful admits) (text : String) :
    (c.formula text).2.Faithful admits := by
  refine ⟨by rw [series_formula_snd]; exact h.series, ?_⟩
  unfold formula
  split
  · exact h.formulas
  · intro text' e he
    rcases mem_pushBounded he with he | he
    · exact h.formulas text' e he
    · obtain ⟨rfl, rfl⟩ := Prod.mk.inj he
      rfl

/-- The answer is the series of the key asked for or of one held that agrees with it. -/
theorem sample_fst (h : c.Faithful admits) (key : SampleKey) :
    ∃ source, (source = key ∨ admits source ∧ source.agrees key = true) ∧
      (c.sample key).1 = source.points := by
  cases hp : remembered? SampleKey.agrees c.series.entries key with
  | some points =>
    obtain ⟨old, hmem, hold⟩ := mem_of_remembered?_eq_some hp
    obtain ⟨hadmits, hpoints⟩ := h.series old points hmem
    refine ⟨old, Or.inr ⟨hadmits, hold⟩, ?_⟩
    rw [sample_of_hit hp, hpoints]
  | none =>
    refine ⟨key, Or.inl rfl, ?_⟩
    rw [sample_of_miss hp, SampleKey.points_eq, ← h.formula_fst]

theorem sample_snd (h : c.Faithful admits) {key : SampleKey} (hkey : admits key) :
    (c.sample key).2.Faithful admits := by
  cases hp : remembered? SampleKey.agrees c.series.entries key with
  | some points =>
    rw [sample_of_hit hp]
    exact ⟨h.series, h.formulas⟩
  | none =>
    rw [sample_of_miss hp]
    refine ⟨?_, (h.formula_snd key.expression).formulas⟩
    intro key' points he
    rcases mem_pushBounded he with he | he
    · rw [series_formula_snd] at he
      exact h.series key' points he
    · obtain ⟨rfl, rfl⟩ := Prod.mk.inj he
      refine ⟨hkey, ?_⟩
      rw [SampleKey.points_eq, ← h.formula_fst]

/-- Without negative zeros the answer is the series of the key asked for. -/
theorem sample_fst_eq (h : c.Faithful SampleKey.AvoidsNegativeZero) {key : SampleKey}
    (hkey : key.AvoidsNegativeZero) : (c.sample key).1 = key.points := by
  obtain ⟨source, hsource, hpoints⟩ := h.sample_fst key
  rcases hsource with rfl | ⟨hadmits, hagrees⟩
  · exact hpoints
  · rw [hpoints, SampleKey.eq_of_agrees hagrees hadmits hkey]

end Faithful
end SampleCache

/-! ## The curves of a graph -/

namespace View

variable {admits : SampleKey → Prop} {config : Config} {range : AxisRange}

/-- Drawing curves keeps the memory faithful. -/
theorem faithful_curves_snd {fs : List GraphFunction} {c : SampleCache} (h : c.Faithful admits)
    (hkeys : ∀ f ∈ fs, admits ⟨f.expression, range, config.sampleCount⟩) :
    (curves config range fs c).2.Faithful admits := by
  induction fs generalizing c with
  | nil => exact h
  | cons f fs ih =>
    have hf := h.sample_snd (hkeys f List.mem_cons_self)
    exact ih hf fun g hg => hkeys g (List.mem_cons_of_mem f hg)

/-- A curve goes through the series of some key. -/
theorem exists_points_of_mem_curves {fs : List GraphFunction} {c : SampleCache}
    (h : c.Faithful admits)
    (hkeys : ∀ f ∈ fs, admits ⟨f.expression, range, config.sampleCount⟩) {t : Trace}
    (ht : t ∈ (curves config range fs c).1) :
    ∃ f ∈ fs, ∃ key : SampleKey, Scene.curve? config f key.points = some t := by
  induction fs generalizing c with
  | nil => exact absurd ht List.not_mem_nil
  | cons f fs ih =>
    have hf := h.sample_snd (hkeys f List.mem_cons_self)
    rcases List.mem_append.mp ht with ht | ht
    · obtain ⟨source, -, hpoints⟩ := h.sample_fst ⟨f.expression, range, config.sampleCount⟩
      refine ⟨f, List.mem_cons_self, source, ?_⟩
      rw [← hpoints]
      exact Option.mem_toList.mp ht
    · obtain ⟨g, hg, key, hkey⟩ := ih hf (fun g hg => hkeys g (List.mem_cons_of_mem f hg)) ht
      exact ⟨g, List.mem_cons_of_mem f hg, key, hkey⟩

/-- Without negative zeros the curves are those drawn without any memory. -/
theorem curves_fst_eq (hrange : range.AvoidsNegativeZero) {fs : List GraphFunction}
    {c : SampleCache} (h : c.Faithful SampleKey.AvoidsNegativeZero) :
    (curves config range fs c).1 = fs.filterMap fun f =>
      Scene.curve? config f (Expr.sampleText f.expression range config.sampleCount) := by
  induction fs generalizing c with
  | nil => rfl
  | cons f fs ih =>
    let key : SampleKey := ⟨f.expression, range, config.sampleCount⟩
    have hkey : key.AvoidsNegativeZero := hrange
    have hpoints : (c.sample key).1 = key.points := h.sample_fst_eq hkey
    have hrest := ih (h.sample_snd hkey)
    calc (curves config range (f :: fs) c).1
        = (Scene.curve? config f (c.sample key).1).toList ++
            (curves config range fs (c.sample key).2).1 := rfl
      _ = (Scene.curve? config f key.points).toList ++ fs.filterMap fun f =>
            Scene.curve? config f (Expr.sampleText f.expression range config.sampleCount) := by
          rw [hpoints, hrest]
      _ = _ := by
          rw [List.filterMap_cons]
          unfold SampleKey.points
          cases Scene.curve? config f (Expr.sampleText f.expression range config.sampleCount) <;> rfl

end View
end Plotting
