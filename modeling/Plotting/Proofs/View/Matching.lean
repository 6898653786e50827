import Mathlib
import Plotting.Proofs.Element.Equality
import Plotting.View.Basic

/-!
# Matching goes both ways

A memory asks whether what it holds matches what it is asked for, in this order.  For inputs of a
view and for keys of samples the order does not matter: equality written `==` is symmetric for
everything that an input is made of, free-form values included, and so is being one object.

Equality is no more than symmetric there.  An input with a coordinate that is not a number does not
even equal itself.
-/

namespace Plotting

/-! ## Equality is symmetric -/

section Containers

variable {α : Type} [BEq α] [Std.Symm fun a b : α => (a == b) = true]

instance instSymmListBeq : Std.Symm fun as bs : List α => (as == bs) = true where
  symm _ _ h := list_beq_iff.mpr ((list_beq_iff.mp h).flip.imp fun _ _ => BEq.symm)

instance instSymmOptionBeq : Std.Symm fun o o' : Option α => (o == o') = true where
  symm o o' h := by
    rcases option_beq_iff.mp h with ⟨rfl, rfl⟩ | ⟨a, b, rfl, rfl, h⟩
    · rfl
    · exact BEq.symm (a := a) (b := b) h

end Containers

instance : Std.Symm fun p q : Point2 => (p == q) = true where
  symm _ _ h := Point2.beq_iff.mpr ((Point2.beq_iff.mp h).imp BEq.symm BEq.symm)

instance : Std.Symm fun p q : Point3 => (p == q) = true where
  symm _ _ h :=
    have ⟨hx, hy, hz⟩ := Point3.beq_iff.mp h
    Point3.beq_iff.mpr ⟨BEq.symm hx, BEq.symm hy, BEq.symm hz⟩

instance : Std.Symm fun r s : AxisRange => (r == s) = true where
  symm _ _ h := Bool.and_eq_true_iff.mpr ((Bool.and_eq_true_iff.mp h).imp BEq.symm BEq.symm)

instance : Std.Symm fun s t : StrokeHint => (s == t) = true where
  symm _ _ h :=
    have ⟨hcolor, hwidth, hdash⟩ := StrokeHint.beq_iff.mp h
    StrokeHint.beq_iff.mpr ⟨hcolor.symm, BEq.symm hwidth, hdash.symm⟩

instance : Std.Symm fun s t : ElementStyle => (s == t) = true where
  symm _ _ h :=
    have ⟨hcolor, hwidth, hdash, hsize, hfill, hopacity, htitle, hline⟩ :=
      ElementStyle.beq_iff.mp h
    ElementStyle.beq_iff.mpr ⟨hcolor.symm, BEq.symm hwidth, hdash.symm, BEq.symm hsize,
      hfill.symm, BEq.symm hopacity, htitle.symm, BEq.symm hline⟩

/-! ### Payloads and graphs -/

instance : Std.Symm fun p q : Path => (p == q) = true where
  symm _ _ h := Path.beq_iff.mpr ((Path.beq_iff.mp h).imp BEq.symm Eq.symm)

instance : Std.Symm fun m n : Marker => (m == n) = true where
  symm _ _ h := Marker.beq_iff.mpr ((Marker.beq_iff.mp h).imp BEq.symm Eq.symm)

instance : Std.Symm fun m n : Markers => (m == n) = true where
  symm _ _ h := Markers.beq_iff.mpr ((Markers.beq_iff.mp h).imp BEq.symm Eq.symm)

instance : Std.Symm fun s t : Segment => (s == t) = true where
  symm _ _ h :=
    have ⟨hfirst, hlast, hlabel⟩ := Segment.beq_iff.mp h
    Segment.beq_iff.mpr ⟨BEq.symm hfirst, BEq.symm hlast, hlabel.symm⟩

instance : Std.Symm fun c d : Circle => (c == d) = true where
  symm _ _ h :=
    have ⟨hcenter, hradius, hlabel⟩ := Circle.beq_iff.mp h
    Circle.beq_iff.mpr ⟨BEq.symm hcenter, BEq.symm hradius, hlabel.symm⟩

instance : Std.Symm fun a b : Area => (a == b) = true where
  symm _ _ h :=
    have ⟨hpoints, hbaseline, hlabel⟩ := Area.beq_iff.mp h
    Area.beq_iff.mpr ⟨BEq.symm hpoints, BEq.symm hbaseline, hlabel.symm⟩

instance : Std.Symm fun p q : Polygon => (p == q) = true where
  symm _ _ h := Polygon.beq_iff.mpr ((Polygon.beq_iff.mp h).imp BEq.symm Eq.symm)

instance : Std.Symm fun s t : Surface => (s == t) = true where
  symm _ _ h :=
    have ⟨hx, hy, hz, hscale, hopacity, hlabel⟩ := Surface.beq_iff.mp h
    Surface.beq_iff.mpr ⟨BEq.symm hx, BEq.symm hy, BEq.symm hz, hscale.symm, BEq.symm hopacity,
      hlabel.symm⟩

instance : Std.Symm fun a b : Arrow => (a == b) = true where
  symm _ _ h :=
    have ⟨htail, hhead, hlabel⟩ := Arrow.beq_iff.mp h
    Arrow.beq_iff.mpr ⟨BEq.symm htail, BEq.symm hhead, hlabel.symm⟩

namespace Json

mutual

theorem beq_symm {a b : Json} (h : a.beq b = true) : b.beq a = true := by
  cases a <;> cases b <;> try cases h
  case null.null => rfl
  case bool.bool => exact BEq.symm (α := Bool) h
  case int.int => exact BEq.symm (α := Int) h
  case float.float => exact BEq.symm (α := Float) h
  case str.str => exact BEq.symm (α := String) h
  case arr.arr as bs => exact beqItems_symm h
  case obj.obj ms ns => exact beqMembers_symm h

theorem beqItems_symm {as bs : List Json} (h : Json.beqItems as bs = true) :
    Json.beqItems bs as = true := by
  cases as <;> cases bs <;> try cases h
  case nil.nil => rfl
  case cons.cons a as b bs =>
    obtain ⟨hhead, htail⟩ := Bool.and_eq_true_iff.mp h
    exact Bool.and_eq_true_iff.mpr ⟨beq_symm hhead, beqItems_symm htail⟩

theorem beqMembers_symm {ms ns : List (String × Json)} (h : Json.beqMembers ms ns = true) :
    Json.beqMembers ns ms = true := by
  cases ms <;> cases ns <;> try cases h
  case nil.nil => rfl
  case cons.cons m ms n ns =>
    obtain ⟨key, a⟩ := m
    obtain ⟨key', b⟩ := n
    obtain ⟨hhead, htail⟩ := Bool.and_eq_true_iff.mp h
    obtain ⟨hkey, hvalue⟩ := Bool.and_eq_true_iff.mp hhead
    exact Bool.and_eq_true_iff.mpr
      ⟨Bool.and_eq_true_iff.mpr ⟨BEq.symm hkey, beq_symm hvalue⟩, beqMembers_symm htail⟩

end

instance : Std.Symm fun a b : Json => (a == b) = true where
  symm _ _ h := beq_symm h

end Json

instance : Std.Symm fun g g' : Geometry => (g == g') = true where
  symm g g' h := by
    cases g <;> cases g' <;> try cases h
    case curve.curve => exact BEq.symm (α := Path) h
    case scatter.scatter => exact BEq.symm (α := Path) h
    case point.point => exact BEq.symm (α := Marker) h
    case points.points => exact BEq.symm (α := Markers) h
    case line.line => exact BEq.symm (α := Segment) h
    case segment.segment => exact BEq.symm (α := Segment) h
    case circle.circle => exact BEq.symm (α := Circle) h
    case area.area => exact BEq.symm (α := Area) h
    case polygon.polygon => exact BEq.symm (α := Polygon) h
    case surface.surface => exact BEq.symm (α := Surface) h
    case vector3d.vector3d => exact BEq.symm (α := Arrow) h
    case unknown.unknown =>
      exact Bool.and_eq_true_iff.mpr ((Bool.and_eq_true_iff.mp h).imp BEq.symm BEq.symm)

instance : Std.Symm fun e f : Element => (e == f) = true where
  symm _ _ h := Element.beq_iff.mpr ((Element.beq_iff.mp h).imp BEq.symm BEq.symm)

instance : Std.Symm fun f f' : GraphFunction => (f == f') = true where
  symm f f' h := by
    change (_ && (_ && _)) = true at h
    show (_ && (_ && _)) = true
    simp only [Bool.and_eq_true] at h ⊢
    exact ⟨BEq.symm h.1, BEq.symm h.2.1, BEq.symm h.2.2⟩

instance : Std.Symm fun g g' : Graph => (g == g') = true where
  symm g g' h := by
    change (_ && (_ && (_ && _))) = true at h
    show (_ && (_ && (_ && _))) = true
    simp only [Bool.and_eq_true] at h ⊢
    exact ⟨BEq.symm h.1, BEq.symm h.2.1, BEq.symm h.2.2.1, BEq.symm h.2.2.2⟩

/-! ## Matching is symmetric -/

section Handles

variable {α : Type} [BEq α] [Std.Symm fun a b : α => (a == b) = true]

theorem Handle.agrees_symm {a b : Handle α} (h : a.agrees b = true) : b.agrees a = true := by
  rw [agrees, Bool.or_eq_true] at h ⊢
  refine h.imp (fun hsame => ?_) BEq.symm
  rw [isSame, Bool.and_eq_true] at hsame ⊢
  obtain ⟨hshared, hidentity⟩ := hsame
  exact ⟨eq_of_beq hidentity ▸ hshared, BEq.symm hidentity⟩

end Handles

/-- Inputs match in either order. -/
theorem Request.agrees_symm {p q : Request} (h : p.agrees q = true) : q.agrees p = true := by
  cases p <;> cases q <;> try cases h
  case elements.elements =>
    exact Bool.and_eq_true_iff.mpr ((Bool.and_eq_true_iff.mp h).imp BEq.symm Handle.agrees_symm)
  case graph.graph => exact Handle.agrees_symm h

theorem sameNumber_symm {a b : Float} (h : sameNumber a b = true) : sameNumber b a = true := by
  rw [sameNumber, Bool.or_eq_true, Bool.and_eq_true] at h ⊢
  exact h.imp BEq.symm And.symm

/-- Keys of samples match in either order. -/
theorem SampleKey.agrees_symm {a b : SampleKey} (h : a.agrees b = true) : b.agrees a = true := by
  simp only [agrees, Bool.and_eq_true] at h ⊢
  obtain ⟨⟨⟨hexpression, hmin⟩, hmax⟩, hcount⟩ := h
  exact ⟨⟨⟨BEq.symm hexpression, sameNumber_symm hmin⟩, sameNumber_symm hmax⟩,
    BEq.symm hcount⟩

end Plotting
