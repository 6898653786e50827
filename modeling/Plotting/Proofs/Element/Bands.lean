import Mathlib.Data.Nat.Notation
import Plotting.Element.Drawing

/-!
# Filled bands sit on their baselines

A region may be filled down to the trace before it, and which trace that is depends on the place in
the list of all traces and on nothing else.  So an area over a raised baseline is right only if its
two traces stand side by side wherever the area stands among other elements, some of which draw
nothing.

They do, because a list of elements is drawn block by block.  A trace at some place is a trace of
one element at a place in that element's own block (`Element.exists_block`), and the only blocks of
two traces are those of raised areas (`Element.traces?_cases`).
-/

namespace Plotting

/-! ## One area -/

namespace Trace

/-- Whether the trace is filled down to the trace before it. -/
def fillsToNext : Trace → Bool
  | .planar t => t.fill = .toNextY
  | _ => false

/-- Whether the trace is left out of the legend. -/
def isHidden : Trace → Bool
  | .planar t => !t.showLegend
  | _ => false

end Trace

namespace Area

/-- The area has a baseline of its own to be drawn, and a point above it or below. -/
structure IsRaised (a : Area) : Prop where
  finite : a.baseline.isFinite = true
  nonzero : (a.baseline == 0) = false
  nonempty : finiteXs a.points ≠ []

/-- The two traces are a raised area: its baseline, and its path filled down to it. -/
structure IsBand (a : Area) (b t : PlanarTrace) : Prop where
  raised : a.IsRaised
  lines : b.mode = .lines
  unfilled : b.fill = .none
  hidden : b.showLegend = false
  filled : t.fill = .toNextY
  shown : t.showLegend = true
  nonempty : t.x ≠ []
  parallel : b.x = t.x
  level : b.y = List.replicate t.x.length a.baseline

theorem IsBand.fillsToNext_baseline {a : Area} {b t : PlanarTrace} (h : a.IsBand b t) :
    (Trace.planar b).fillsToNext = false := by
  rw [Trace.fillsToNext, h.unfilled]
  rfl

theorem IsBand.isHidden_filled {a : Area} {b t : PlanarTrace} (h : a.IsBand b t) :
    (Trace.planar t).isHidden = false := by
  rw [Trace.isHidden, h.shown]
  rfl

variable {a : Area}

theorem isRaised_iff : a.IsRaised ↔ ¬ (a.base == 0 || (finiteXs a.points).isEmpty) = true := by
  have hzero : ((0 : Float) == 0) = true := by decide
  rw [Bool.or_eq_true, List.isEmpty_iff, not_or, base]
  constructor
  · rintro ⟨hfinite, hnonzero, hnonempty⟩
    rw [if_pos hfinite, hnonzero]
    exact ⟨Bool.false_ne_true, hnonempty⟩
  · rintro ⟨hbase, hnonempty⟩
    split at hbase
    · next hfinite => exact ⟨hfinite, Bool.eq_false_iff.mpr hbase, hnonempty⟩
    · exact absurd hzero hbase

theorem IsRaised.base_eq (h : a.IsRaised) : a.base = a.baseline :=
  if_pos h.finite

variable (style : ElementStyle) (config : Config)

theorem IsRaised.traces_eq (h : a.IsRaised) :
    a.traces style config = [a.baselineTrace, a.filled .toNextY style config] :=
  if_neg (isRaised_iff.mp h)

theorem traces_of_not_isRaised (h : ¬ a.IsRaised) :
    a.traces style config = [a.filled .toZeroY style config] :=
  if_pos (Decidable.not_not.mp (mt isRaised_iff.mpr h))

theorem IsRaised.isBand (h : a.IsRaised) :
    a.IsBand a.baselineTrace (a.filled .toNextY style config) where
  raised := h
  lines := rfl
  unfilled := rfl
  hidden := rfl
  filled := rfl
  shown := rfl
  nonempty := h.nonempty
  parallel := rfl
  level := congrArg (List.replicate _) h.base_eq

end Area

/-! ## One element -/

namespace Element

variable {config : Config} {e : Element} {es : List Element} {t : Trace} {ts : List Trace} {i k : ℕ}

/-- A raised area is drawn by two traces, and every other element by one that is neither filled down
to the trace before it nor left out of the legend, or by none. -/
theorem traces?_cases (config : Config) (e : Element) :
    e.traces? config = none ∨
    (∃ t, e.traces? config = some [t] ∧ t.fillsToNext = false ∧ t.isHidden = false) ∨
    ∃ a b t, e.geometry = .area a ∧ e.traces? config = some [.planar b, .planar t] ∧
      a.IsBand b t := by
  obtain ⟨geometry, style⟩ := e
  cases geometry with
  | unknown kind data => exact Or.inl rfl
  | area a =>
    by_cases h : a.IsRaised
    · refine Or.inr (Or.inr ⟨a, _, _, rfl, ?_, h.isBand style config⟩)
      exact congrArg (fun us => some (us.map Trace.planar)) (h.traces_eq style config)
    · refine Or.inr (Or.inl ⟨.planar (a.filled .toZeroY style config), ?_, rfl, rfl⟩)
      exact congrArg (fun us => some (us.map Trace.planar)) (a.traces_of_not_isRaised style config h)
  | point m =>
    refine Or.inr (Or.inl ⟨_, rfl, ?_⟩)
    unfold Marker.trace
    dsimp only
    split <;> exact ⟨rfl, rfl⟩
  | _ => exact Or.inr (Or.inl ⟨_, rfl, rfl, rfl⟩)

/-! ## Lists of elements -/

/-- A trace of a list is a trace of one of the elements, as far behind the traces of the elements
before it as it stands in its own block. -/
theorem exists_block (h : (traces config es)[i]? = some t) :
    ∃ before e after ts k, es = before ++ e :: after ∧ e.traces? config = some ts ∧
      i = (traces config before).length + k ∧ ts[k]? = some t := by
  induction es generalizing i with
  | nil => cases h
  | cons e es ih =>
    have hsplit : traces config (e :: es) = (e.traces? config).getD [] ++ traces config es :=
      List.flatMap_cons
    rw [hsplit, List.getElem?_append] at h
    split at h
    · cases hts : e.traces? config with
      | none =>
        rw [hts] at h
        cases h
      | some ts =>
        rw [hts] at h
        exact ⟨[], e, es, ts, i, rfl, hts, (Nat.zero_add i).symm, h⟩
    · next hi =>
      obtain ⟨before, e', after, ts, k, rfl, hts, hplace, hk⟩ := ih h
      refine ⟨e :: before, e', after, ts, k, rfl, hts, ?_, hk⟩
      have hbefore : traces config (e :: before) =
          (e.traces? config).getD [] ++ traces config before := List.flatMap_cons
      rw [hbefore, List.length_append]
      omega

/-- The traces of an element stand behind those of the elements before it. -/
theorem getElem?_block (hts : e.traces? config = some ts) (before after : List Element)
    (hk : k < ts.length) :
    (traces config (before ++ e :: after))[(traces config before).length + k]? = ts[k]? := by
  have hsplit : traces config (e :: after) = ts ++ traces config after := by
    rw [traces, List.flatMap_cons, hts]
    rfl
  rw [traces_append, List.getElem?_append_right (Nat.le_add_right _ _), Nat.add_sub_cancel_left,
    hsplit, List.getElem?_append_left hk]

/-- The two traces are the whole block of a raised area, and the first of them has the place. -/
structure BandAt (config : Config) (es : List Element) (i : ℕ) (a : Area) (b t : PlanarTrace) :
    Prop where
  block : ∃ before e after, es = before ++ e :: after ∧ (traces config before).length = i ∧
    e.geometry = .area a ∧ e.traces? config = some [.planar b, .planar t]
  band : a.IsBand b t

namespace BandAt

variable {a : Area} {b u : PlanarTrace}

theorem getElem?_baseline (h : BandAt config es i a b u) :
    (traces config es)[i]? = some (.planar b) := by
  obtain ⟨before, e, after, rfl, rfl, -, hts⟩ := h.block
  exact getElem?_block hts before after Nat.zero_lt_two

theorem getElem?_filled (h : BandAt config es i a b u) :
    (traces config es)[i + 1]? = some (.planar u) := by
  obtain ⟨before, e, after, rfl, rfl, -, hts⟩ := h.block
  exact getElem?_block hts before after Nat.one_lt_two

end BandAt

/-- A trace has nothing to do with bands, or is one of the two traces of a band. -/
theorem place_cases (h : (traces config es)[i]? = some t) :
    (t.fillsToNext = false ∧ t.isHidden = false) ∨
    (∃ a b u, t = .planar b ∧ BandAt config es i a b u) ∨
    ∃ j a b u, i = j + 1 ∧ t = .planar u ∧ BandAt config es j a b u := by
  obtain ⟨before, e, after, ts, k, rfl, hts, rfl, hk⟩ := exists_block h
  obtain hnone | ⟨u, hone, hplain⟩ | ⟨a, b, u, ha, htwo, hband⟩ := traces?_cases config e
  · rw [hnone] at hts
    cases hts
  · rw [hone] at hts
    obtain rfl := Option.some.inj hts
    obtain rfl := List.mem_singleton.mp (List.mem_of_getElem? hk)
    exact Or.inl hplain
  · have hat : BandAt config (before ++ e :: after) (traces config before).length a b u :=
      ⟨⟨before, e, after, rfl, rfl, ha, htwo⟩, hband⟩
    rw [htwo] at hts
    obtain rfl := Option.some.inj hts
    match k with
    | 0 =>
      obtain rfl := Option.some.inj hk
      exact Or.inr (Or.inl ⟨a, b, u, rfl, hat⟩)
    | 1 =>
      obtain rfl := Option.some.inj hk
      exact Or.inr (Or.inr ⟨_, a, b, u, rfl, rfl, hat⟩)
    | k + 2 => cases hk

/-- Every raised area has its band. -/
theorem exists_bandAt {a : Area} (h : a.IsRaised) {before after : List Element}
    (ha : e.geometry = .area a) :
    ∃ b u, BandAt config (before ++ e :: after) (traces config before).length a b u := by
  obtain ⟨geometry, style⟩ := e
  obtain rfl : geometry = .area a := ha
  refine ⟨_, _, ⟨before, ⟨.area a, style⟩, after, rfl, rfl, rfl, ?_⟩, h.isBand style config⟩
  exact congrArg (fun us => some (us.map Trace.planar)) (h.traces_eq style config)

/-- **A filled band sits directly on its baseline.**  Where a trace is filled down to the trace
before it, that one is the level line of the same raised area.  It is left out of the legend, and no
other trace is.  And every raised area is drawn in this way. -/
theorem bands_sit_on_baselines (config : Config) (es : List Element) :
    (∀ i t, (traces config es)[i]? = some t → t.fillsToNext = true →
      ∃ j a b u, i = j + 1 ∧ (traces config es)[j]? = some (.planar b) ∧ t = .planar u ∧
        BandAt config es j a b u) ∧
    (∀ i t, (traces config es)[i]? = some t → t.isHidden = true →
      ∃ a b u, t = .planar b ∧ (traces config es)[i + 1]? = some (.planar u) ∧
        BandAt config es i a b u) ∧
    ∀ before e after a, es = before ++ e :: after → e.geometry = .area a → a.IsRaised →
      ∃ b u, BandAt config es (traces config before).length a b u := by
  refine ⟨fun i t ht hfills => ?_, fun i t ht hhidden => ?_, ?_⟩
  · obtain ⟨hplain, -⟩ | ⟨a, b, u, rfl, hat⟩ | ⟨j, a, b, u, rfl, rfl, hat⟩ := place_cases ht
    · rw [hfills] at hplain
      cases hplain
    · rw [hat.band.fillsToNext_baseline] at hfills
      cases hfills
    · exact ⟨j, a, b, u, rfl, hat.getElem?_baseline, rfl, hat⟩
  · obtain ⟨-, hplain⟩ | ⟨a, b, u, rfl, hat⟩ | ⟨j, a, b, u, rfl, rfl, hat⟩ := place_cases ht
    · rw [hhidden] at hplain
      cases hplain
    · exact ⟨a, b, u, rfl, hat.getElem?_filled, hat⟩
    · rw [hat.band.isHidden_filled] at hhidden
      cases hhidden
  · rintro before e after a rfl ha h
    exact exists_bandAt h ha

/-- A raised area, one of whose points is left out. -/
def raised : Area where
  points := [⟨0, 2⟩, ⟨1 / 0, 0⟩, ⟨1, 3⟩]
  baseline := 1

/-- The raised area behind an element that draws nothing, and before an area that is not raised. -/
def mixed : List Element :=
  [⟨.unknown "stranger" .null, {}⟩, ⟨.curve { points := [⟨0, 0⟩] }, {}⟩, ⟨.area raised, {}⟩,
    ⟨.area { raised with baseline := -0.0 }, {}⟩]

theorem isRaised_raised : raised.IsRaised where
  finite := by decide
  nonzero := by decide
  nonempty := by decide

theorem bands_sit_on_baselines_mixed :
    (∃ t, (traces {} mixed)[2]? = some t ∧ t.fillsToNext = true ∧
      ∃ j a b u, 2 = j + 1 ∧ (traces {} mixed)[j]? = some (.planar b) ∧ t = .planar u ∧
        BandAt {} mixed j a b u) ∧
    (∃ t, (traces {} mixed)[1]? = some t ∧ t.isHidden = true ∧
      ∃ a b u, t = .planar b ∧ (traces {} mixed)[2]? = some (.planar u) ∧
        BandAt {} mixed 1 a b u) ∧
    raised.IsRaised ∧ ∃ b u, BandAt {} mixed 1 raised b u := by
  obtain ⟨hfilled, hhidden, hraised⟩ := bands_sit_on_baselines {} mixed
  obtain ⟨b, u, hat⟩ := hraised (mixed.take 2) _ _ raised rfl rfl isRaised_raised
  have hfills : (Trace.planar u).fillsToNext = true := by
    rw [Trace.fillsToNext, hat.band.filled]
    rfl
  have hhides : (Trace.planar b).isHidden = true := by
    rw [Trace.isHidden, hat.band.hidden]
    rfl
  exact ⟨⟨_, hat.getElem?_filled, hfills, hfilled 2 _ hat.getElem?_filled hfills⟩,
    ⟨_, hat.getElem?_baseline, hhides, hhidden 1 _ hat.getElem?_baseline hhides⟩,
    isRaised_raised, b, u, hat⟩

end Element
end Plotting
