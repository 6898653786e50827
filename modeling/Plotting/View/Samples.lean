import Plotting.Expr.Sampling
import Plotting.View.Cache

/-!
# Remembered samples

Two memories work together.  One holds the samples of a formula over a range.
The other holds the formulas themselves, read from their texts; a text that is
no formula is remembered as such, so it is not read again.  The second is only
asked when the first has no answer.
-/

namespace Plotting

/-- What samples are remembered under. -/
structure SampleKey where
  expression : String
  range : AxisRange
  count : Nat
deriving Repr

/-- Whether two doubles are one number or both none. -/
def sameNumber (a b : Float) : Bool :=
  a == b || (a.isNaN && b.isNaN)

namespace SampleKey

/-- Whether two keys ask for one series. -/
def agrees (a b : SampleKey) : Bool :=
  a.expression == b.expression && sameNumber a.range.min b.range.min &&
    sameNumber a.range.max b.range.max && a.count == b.count

end SampleKey

/-- The samples and the formulas remembered. -/
structure SampleCache where
  series : Cache SampleKey (List Point2)
  formulas : List (String × Option Expr) := []

namespace SampleCache

/-- An empty cache of a given capacity. -/
def ofCapacity (capacity : Nat) : SampleCache where
  series := { capacity }

/-- The bound of the formulas; at least one is remembered. -/
def formulaCapacity (c : SampleCache) : Nat := max c.series.capacity 1

/-- The formula of a text, remembered or read. -/
def formula (c : SampleCache) (text : String) : Option Expr × SampleCache :=
  match remembered? (· == ·) c.formulas text with
  | some e => (e, c)
  | none =>
    let e := (Expr.parse text).toOption
    (e, { c with formulas := pushBounded c.formulaCapacity c.formulas (text, e) })

/-- The samples of the formula of a text, remembered or taken. -/
def sample (c : SampleCache) (key : SampleKey) : List Point2 × SampleCache :=
  match remembered? SampleKey.agrees c.series.entries key with
  | some points => (points, { c with series := c.series.hit })
  | none =>
    let (e, c) := c.formula key.expression
    let points := (e.map fun e => e.sample key.range key.count).getD []
    (points, { c with series := c.series.learn key points })

/-- The cache without its entries. -/
def clear (c : SampleCache) : SampleCache where
  series := c.series.clear

end SampleCache
end Plotting
