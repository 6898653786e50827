import Mathlib
import Plotting.Element.Basic
import Plotting.Proofs.Double.Congruence

/-!
# Equality of elements, field by field

Elements that are equal by `==` need not be the same: a coordinate may be either zero in either of
them.  Texts are the same, and so are the shapes of all lists.  The lemmas `beq_iff` take an
equality apart into the equalities of the fields, where that of a text is written as an identity.

The first section says what equality of lists and optional values is, and what it is kept by.
-/

namespace Plotting

/-! ## Lists and optional values -/

section Containers

variable {α : Type} [BEq α]

/-- Lists are equal when they are so entry by entry. -/
theorem list_beq_iff {as bs : List α} : (as == bs) = true ↔ List.Forall₂ (· == ·) as bs := by
  induction as generalizing bs with
  | nil => cases bs <;> simp
  | cons a as ih =>
    cases bs with
    | nil => simp
    | cons b bs => rw [List.cons_beq_cons, Bool.and_eq_true, List.forall₂_cons, ih]

theorem option_beq_iff {o o' : Option α} :
    (o == o') = true ↔
      (o = none ∧ o' = none) ∨ ∃ a b, o = some a ∧ o' = some b ∧ (a == b) = true := by
  cases o <;> cases o' <;> simp

theorem length_eq_of_beq {as bs : List α} (h : (as == bs) = true) : as.length = bs.length :=
  (list_beq_iff.mp h).length_eq

theorem isEmpty_eq_of_beq {as bs : List α} (h : (as == bs) = true) : as.isEmpty = bs.isEmpty := by
  rw [Bool.eq_iff_iff, List.isEmpty_iff_length_eq_zero, List.isEmpty_iff_length_eq_zero,
    length_eq_of_beq h]

variable {o o' p p' : Option α} {a a' : α}

theorem beq_getD (h : (o == o') = true) (ha : (a == a') = true) :
    (o.getD a == o'.getD a') = true := by
  rcases option_beq_iff.mp h with ⟨rfl, rfl⟩ | ⟨b, b', rfl, rfl, h⟩
  · exact ha
  · exact h

theorem beq_or (h : (o == o') = true) (hp : (p == p') = true) : (o.or p == o'.or p') = true := by
  rcases option_beq_iff.mp h with ⟨rfl, rfl⟩ | ⟨b, b', rfl, rfl, h⟩
  · exact hp
  · exact h

/-- A guard that takes equal values alike keeps equal options equal. -/
theorem beq_filter {f : α → Bool} (hf : ∀ a b, (a == b) = true → f a = f b)
    (h : (o == o') = true) : (o.filter f == o'.filter f) = true := by
  rcases option_beq_iff.mp h with ⟨rfl, rfl⟩ | ⟨b, b', rfl, rfl, h⟩
  · rfl
  · rw [Option.filter_some, Option.filter_some, hf b b' h]
    split
    · exact h
    · rfl

theorem beq_bind {β : Type} [BEq β] {f : α → Option β}
    (hf : ∀ a b, (a == b) = true → (f a == f b) = true) (h : (o == o') = true) :
    (o.bind f == o'.bind f) = true := by
  rcases option_beq_iff.mp h with ⟨rfl, rfl⟩ | ⟨b, b', rfl, rfl, h⟩
  · rfl
  · exact hf b b' h

end Containers

/-! ## Points and styles -/

theorem Point2.beq_iff {p q : Point2} :
    (p == q) = true ↔ (p.x == q.x) = true ∧ (p.y == q.y) = true :=
  Bool.and_eq_true_iff

theorem Point3.beq_iff {p q : Point3} :
    (p == q) = true ↔ (p.x == q.x) = true ∧ (p.y == q.y) = true ∧ (p.z == q.z) = true := by
  show (_ && (_ && _)) = true ↔ _
  rw [Bool.and_eq_true, Bool.and_eq_true]

theorem StrokeHint.beq_iff {s t : StrokeHint} :
    (s == t) = true ↔ s.color = t.color ∧ (s.width == t.width) = true ∧ s.dash = t.dash := by
  show (_ && (_ && _)) = true ↔ _
  simp only [Bool.and_eq_true, beq_iff_eq (α := Option String)]

theorem ElementStyle.beq_iff {s t : ElementStyle} :
    (s == t) = true ↔ s.color = t.color ∧ (s.width == t.width) = true ∧ s.dash = t.dash ∧
      (s.size == t.size) = true ∧ s.fillcolor = t.fillcolor ∧
      (s.opacity == t.opacity) = true ∧ s.title = t.title ∧ (s.line == t.line) = true := by
  show (_ && (_ && (_ && (_ && (_ && (_ && (_ && _))))))) = true ↔ _
  simp only [Bool.and_eq_true, beq_iff_eq (α := Option String)]

/-! ## Payloads -/

theorem Path.beq_iff {p q : Path} :
    (p == q) = true ↔ (p.points == q.points) = true ∧ p.label = q.label := by
  show (_ && _) = true ↔ _
  rw [Bool.and_eq_true, beq_iff_eq (α := Option String)]

theorem Marker.beq_iff {m n : Marker} :
    (m == n) = true ↔ (m.coords == n.coords) = true ∧ m.label = n.label := by
  show (_ && _) = true ↔ _
  rw [Bool.and_eq_true, beq_iff_eq (α := Option String)]

theorem Markers.beq_iff {m n : Markers} :
    (m == n) = true ↔ (m.coords == n.coords) = true ∧ m.labels = n.labels := by
  show (_ && _) = true ↔ _
  rw [Bool.and_eq_true, beq_iff_eq (α := List String)]

theorem Segment.beq_iff {s t : Segment} :
    (s == t) = true ↔
      (s.first == t.first) = true ∧ (s.last == t.last) = true ∧ s.label = t.label := by
  show (_ && (_ && _)) = true ↔ _
  rw [Bool.and_eq_true, Bool.and_eq_true, beq_iff_eq (α := Option String)]

theorem Circle.beq_iff {c d : Circle} :
    (c == d) = true ↔
      (c.center == d.center) = true ∧ (c.radius == d.radius) = true ∧ c.label = d.label := by
  show (_ && (_ && _)) = true ↔ _
  rw [Bool.and_eq_true, Bool.and_eq_true, beq_iff_eq (α := Option String)]

theorem Area.beq_iff {a b : Area} :
    (a == b) = true ↔
      (a.points == b.points) = true ∧ (a.baseline == b.baseline) = true ∧ a.label = b.label := by
  show (_ && (_ && _)) = true ↔ _
  rw [Bool.and_eq_true, Bool.and_eq_true, beq_iff_eq (α := Option String)]

theorem Polygon.beq_iff {p q : Polygon} :
    (p == q) = true ↔ (p.vertices == q.vertices) = true ∧ p.label = q.label := by
  show (_ && _) = true ↔ _
  rw [Bool.and_eq_true, beq_iff_eq (α := Option String)]

theorem Surface.beq_iff {s t : Surface} :
    (s == t) = true ↔ (s.x == t.x) = true ∧ (s.y == t.y) = true ∧ (s.z == t.z) = true ∧
      s.colorscale = t.colorscale ∧ (s.opacity == t.opacity) = true ∧ s.label = t.label := by
  show (_ && (_ && (_ && (_ && (_ && _))))) = true ↔ _
  simp only [Bool.and_eq_true, beq_iff_eq (α := Option String)]

theorem Arrow.beq_iff {a b : Arrow} :
    (a == b) = true ↔
      (a.tail == b.tail) = true ∧ (a.head == b.head) = true ∧ a.label = b.label := by
  show (_ && (_ && _)) = true ↔ _
  rw [Bool.and_eq_true, Bool.and_eq_true, beq_iff_eq (α := Option String)]

theorem Element.beq_iff {e f : Element} :
    (e == f) = true ↔ (e.geometry == f.geometry) = true ∧ (e.style == f.style) = true :=
  Bool.and_eq_true_iff

end Plotting
