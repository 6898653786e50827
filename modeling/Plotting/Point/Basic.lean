/-!
# Points and intervals

Coordinates are doubles and may be infinite or not numbers.  Equality written
`==` compares them as numbers: the two zeros are equal, and a coordinate that is
not a number equals nothing.
-/

namespace Plotting

/-- A point of the plane. -/
structure Point2 where
  x : Float
  y : Float
deriving BEq, Repr

/-- Whether both coordinates are numbers. -/
def Point2.isFinite (p : Point2) : Bool :=
  p.x.isFinite && p.y.isFinite

/-- A point of space. -/
structure Point3 where
  x : Float
  y : Float
  z : Float
deriving BEq, Repr

/-- Whether all coordinates are numbers. -/
def Point3.isFinite (p : Point3) : Bool :=
  p.x.isFinite && p.y.isFinite && p.z.isFinite

/-- The stretch of an axis from `min` to `max`, not necessarily in that order. -/
structure AxisRange where
  min : Float
  max : Float
deriving BEq, Repr

end Plotting
