import Plotting.Proofs.Double.Order
import Plotting.Trace.Basic

/-!
# Traces that can be drawn

The check of a trace is a sequence of requirements, and it answers with the first that fails.  Here
it is read the other way: `Trace.check_eq_ok_iff` says that the check passes exactly when the trace
is `Drawable`, a structure with one field for each requirement.  What builds a trace then has a
goal for each field and never meets the sequence.
-/

namespace Plotting

/-! ## Sequences of requirements -/

namespace Check

/-- A requirement followed by others is met exactly when it and they are. -/
theorem bind_eq_ok_iff {ε : Type} {x : Except ε Unit} {f : Unit → Except ε Unit} :
    (x >>= f) = .ok () ↔ x = .ok () ∧ f () = .ok () := by
  cases x with
  | error e => exact ⟨fun h => (nomatch h), fun h => (nomatch h.1)⟩
  | ok u => exact ⟨fun h => ⟨rfl, h⟩, fun h => h.2⟩

/-- A guard before other requirements is passed exactly when its condition fails and they are
met. -/
theorem guard_eq_ok_iff {ε : Type} {p : Prop} [Decidable p] {e : ε} {rest : Except ε Unit} :
    (if p then (throw e : Except ε Unit) >>= fun _ => rest else rest) = .ok () ↔
      ¬ p ∧ rest = .ok () := by
  by_cases hp : p
  · rw [if_pos hp]
    exact ⟨fun h => (nomatch h), fun h => absurd hp h.1⟩
  · rw [if_neg hp]
    exact ⟨fun h => ⟨hp, h⟩, fun h => h.2⟩

/-- A guard at the end is passed exactly when its condition fails. -/
theorem last_guard_eq_ok_iff {ε : Type} {p : Prop} [Decidable p] {e : ε} :
    (if p then (throw e : Except ε Unit) else pure ()) = .ok () ↔ ¬ p := by
  by_cases hp : p
  · rw [if_pos hp]
    exact ⟨fun h => (nomatch h), fun h => absurd hp h⟩
  · rw [if_neg hp]
    exact ⟨fun _ => hp, fun _ => rfl⟩

/-- A requirement on each item of a list is met exactly when each item meets it. -/
theorem forM_list_eq_ok_iff {ε α : Type} {l : List α} {f : α → Except ε Unit} :
    l.forM f = .ok () ↔ ∀ a ∈ l, f a = .ok () := by
  induction l with
  | nil => exact ⟨fun _ _ h => absurd h List.not_mem_nil, fun _ => rfl⟩
  | cons a as ih =>
    show (f a >>= fun _ => as.forM f) = .ok () ↔ _
    rw [bind_eq_ok_iff, ih, List.forall_mem_cons]

/-- A requirement on a value that may be missing is met exactly when the value, if there is one,
meets it. -/
theorem forM_option_eq_ok_iff {ε α : Type} {o : Option α} {f : α → Except ε Unit} :
    o.forM f = .ok () ↔ ∀ a ∈ o, f a = .ok () := by
  cases o with
  | none => exact ⟨fun _ _ h => (nomatch h), fun _ => rfl⟩
  | some a => exact ⟨fun h b hb => Option.some.inj hb ▸ h, fun h => h a rfl⟩

end Check

/-! ## The requirements of each type -/

theorem LineStyle.check_eq_ok_iff {l : LineStyle} :
    l.check = .ok () ↔ isPositive l.width = true :=
  require_eq_ok_iff

theorem MarkerStyle.check_eq_ok_iff {m : MarkerStyle} :
    m.check = .ok () ↔ isPositive m.size = true :=
  require_eq_ok_iff

/-- The requirements that planar and spatial traces share: no label or one for each point, finite
coordinates, and styles that can be drawn. -/
structure DrawablePoints (coordinates : List (List Float)) (labels points : Nat)
    (line : Option LineStyle) (marker : Option MarkerStyle) : Prop where
  labels : labels = 0 ∨ labels = points
  finite : ∀ values ∈ coordinates, ∀ v ∈ values, v.isFinite = true
  line : ∀ l ∈ line, isPositive l.width = true
  marker : ∀ m ∈ marker, isPositive m.size = true

theorem checkPoints_eq_ok_iff {name : String} {coordinates : List (List Float)}
    {labels points : Nat} {line : Option LineStyle} {marker : Option MarkerStyle} :
    checkPoints name coordinates labels points line marker = .ok () ↔
      DrawablePoints coordinates labels points line marker := by
  unfold checkPoints
  rw [Check.bind_eq_ok_iff, Check.bind_eq_ok_iff, Check.bind_eq_ok_iff, require_eq_ok_iff,
    require_eq_ok_iff, Check.forM_option_eq_ok_iff, Check.forM_option_eq_ok_iff]
  simp only [Bool.or_eq_true, beq_iff_eq, List.all_eq_true, LineStyle.check_eq_ok_iff,
    MarkerStyle.check_eq_ok_iff]
  constructor
  · rintro ⟨hlabels, hfinite, hline, hmarker⟩
    exact ⟨hlabels, hfinite, hline, hmarker⟩
  · rintro ⟨hlabels, hfinite, hline, hmarker⟩
    exact ⟨hlabels, hfinite, hline, hmarker⟩

/-- A planar trace with coordinate lists of one length that meets the shared requirements. -/
structure PlanarTrace.Drawable (t : PlanarTrace) : Prop where
  parallel : t.y.length = t.x.length
  points : DrawablePoints [t.x, t.y] t.text.length t.x.length t.line t.marker

theorem PlanarTrace.check_eq_ok_iff {t : PlanarTrace} : t.check = .ok () ↔ t.Drawable := by
  unfold check
  rw [Check.bind_eq_ok_iff, require_eq_ok_iff, checkPoints_eq_ok_iff, beq_iff_eq]
  exact ⟨fun ⟨hparallel, hpoints⟩ => ⟨hparallel.symm, hpoints⟩,
    fun ⟨hparallel, hpoints⟩ => ⟨hparallel.symm, hpoints⟩⟩

/-- A spatial trace with coordinate lists of one length that meets the shared requirements. -/
structure SpatialTrace.Drawable (t : SpatialTrace) : Prop where
  parallelY : t.y.length = t.x.length
  parallelZ : t.z.length = t.x.length
  points : DrawablePoints [t.x, t.y, t.z] t.text.length t.x.length t.line t.marker

theorem SpatialTrace.check_eq_ok_iff {t : SpatialTrace} : t.check = .ok () ↔ t.Drawable := by
  unfold check
  rw [Check.bind_eq_ok_iff, require_eq_ok_iff, checkPoints_eq_ok_iff, Bool.and_eq_true,
    beq_iff_eq, beq_iff_eq]
  exact ⟨fun ⟨⟨hy, hz⟩, hpoints⟩ => ⟨hy.symm, hz.symm, hpoints⟩,
    fun ⟨hy, hz, hpoints⟩ => ⟨⟨hy.symm, hz.symm⟩, hpoints⟩⟩

/-- A surface whose grids have one shape and whose opacity lies between zero and one. -/
structure SurfaceTrace.Drawable (t : SurfaceTrace) : Prop where
  gridX : Grid.hasShape t.x t.z.length (Grid.columns t.z) = true
  gridY : Grid.hasShape t.y t.z.length (Grid.columns t.z) = true
  gridZ : Grid.hasShape t.z t.z.length (Grid.columns t.z) = true
  opacity : t.opacity.isFinite = true ∧ 0 ≤ t.opacity ∧ t.opacity ≤ 1

theorem SurfaceTrace.check_eq_ok_iff {t : SurfaceTrace} : t.check = .ok () ↔ t.Drawable := by
  unfold check shape
  simp only [Check.bind_eq_ok_iff, require_eq_ok_iff, Bool.and_eq_true, decide_eq_true_eq,
    and_assoc]
  constructor
  · rintro ⟨hx, hy, hz, hopacity⟩
    exact ⟨hx, hy, hz, hopacity⟩
  · rintro ⟨hx, hy, hz, hopacity⟩
    exact ⟨hx, hy, hz, hopacity⟩

/-- A trace that can be drawn. -/
def Trace.Drawable : Trace → Prop
  | .planar t => t.Drawable
  | .spatial t => t.Drawable
  | .surface t => t.Drawable

/-- The check of a trace passes exactly when the trace can be drawn. -/
theorem Trace.check_eq_ok_iff {t : Trace} : t.check = .ok () ↔ t.Drawable := by
  cases t with
  | planar t => exact PlanarTrace.check_eq_ok_iff
  | spatial t => exact SpatialTrace.check_eq_ok_iff
  | surface t => exact SurfaceTrace.check_eq_ok_iff

end Plotting
