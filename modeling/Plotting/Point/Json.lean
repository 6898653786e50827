import Plotting.Json.Record
import Plotting.Point.Basic

/-!
# Points and intervals in JSON

Points and intervals are arrays of their numbers.  A point of space may also be
given by two numbers and then lies in the plane `z = 0`.
-/

namespace Plotting

/-- Exactly two numbers. -/
def Document.pair? (d : Document) : Option (Float × Float) := do
  match ← d.list? Document.float? with
  | [a, b] => some (a, b)
  | _ => none

namespace Point2

/-- The JSON form of a point, an array of its coordinates. -/
def toJson (p : Point2) : Json :=
  .arr [.ofFloat p.x, .ofFloat p.y]

/-- The point that a document describes, if it describes any. -/
def decode? (d : Document) : Option Point2 :=
  d.pair?.map fun (x, y) => ⟨x, y⟩

end Point2

namespace Point3

/-- The JSON form of a point, an array of its coordinates. -/
def toJson (p : Point3) : Json :=
  .arr [.ofFloat p.x, .ofFloat p.y, .ofFloat p.z]

/-- The point that a document describes, if it describes any. -/
def decode? (d : Document) : Option Point3 := do
  match ← d.list? Document.float? with
  | [x, y] => some ⟨x, y, 0⟩
  | [x, y, z] => some ⟨x, y, z⟩
  | _ => none

end Point3

namespace AxisRange

/-- The JSON form of a range, an array of its ends. -/
def toJson (r : AxisRange) : Json :=
  .arr [.ofFloat r.min, .ofFloat r.max]

/-- The range that a document describes, if it describes any. -/
def decode? (d : Document) : Option AxisRange :=
  d.pair?.map fun (min, max) => ⟨min, max⟩

end AxisRange

/-! ## Finite points are read back -/

/-- A finite number is written as itself. -/
theorem Document.float?_ofFloat {x : Float} (h : x.isFinite) :
    Document.float? (.ofJson (.ofFloat x)) = some x := by
  simp [Json.ofFloat, h, Document.ofJson, Document.float?]

theorem Point2.decode?_toJson {p : Point2} (h : p.isFinite) :
    Point2.decode? (.ofJson p.toJson) = some p := by
  obtain ⟨hx, hy⟩ : p.x.isFinite ∧ p.y.isFinite := by simpa [Point2.isFinite] using h
  simp [Point2.decode?, Document.pair?, Point2.toJson, Document.ofJson, Document.ofItems,
    Document.list?, Document.float?_ofFloat hx, Document.float?_ofFloat hy]

end Plotting
