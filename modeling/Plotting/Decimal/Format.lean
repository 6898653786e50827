import Plotting.Decimal.Shortest

/-!
# Number formats

How a double is spelled once its digits are known.  A format says which way an
exact tie goes, how large and how small a number may be and still be written
with a point alone, and whether a whole number shows a fraction.  All else is
common to the formats: a sign before negative numbers, negative zero included,
and one digit before the point of a scientific form.
-/

namespace Plotting

/-- The decisions of a number format. -/
structure NumberFormat where
  /-- Where a value halfway between two candidates goes. -/
  tie : Tie
  /-- The decimal exponents written with a point alone; all of them if absent. -/
  positional : Option (Int × Int)
  /-- Whether a whole number is written with the fraction zero. -/
  fraction : Bool

namespace NumberFormat

/-- The fraction shown by a whole number. -/
def wholeFraction (f : NumberFormat) : List Char :=
  if f.fraction then ['.', '0'] else []

/-- The number `digits * 10 ^ e` with a point alone. -/
def writePositional (f : NumberFormat) (digits : List Char) (e : Int) : List Char :=
  if 0 ≤ e then
    digits ++ List.replicate e.toNat '0' ++ f.wholeFraction
  else
    let places := (-e).toNat
    if places < digits.length then
      let n := digits.length - places
      digits.take n ++ '.' :: digits.drop n
    else
      ['0', '.'] ++ List.replicate (places - digits.length) '0' ++ digits

/-- The number whose first digit stands for `10 ^ e`, with an exponent. -/
def writeScientific (digits : List Char) (e : Int) : List Char :=
  let mantissa := match digits with
    | [] => []
    | [d] => [d]
    | d :: ds => d :: '.' :: ds
  let sign := if 0 ≤ e then '+' else '-'
  mantissa ++ 'e' :: sign :: Nat.toDigits 10 e.natAbs

/-- A positive decimal. -/
def writeDecimal (f : NumberFormat) (d : Decimal) : List Char :=
  let digits := Nat.toDigits 10 d.digits
  let first := d.exponent + digits.length - 1
  let inRange := match f.positional with
    | none => true
    | some (lowest, highest) => lowest ≤ first ∧ first ≤ highest
  if inRange then f.writePositional digits d.exponent else writeScientific digits first

/-- The magnitude of a double. -/
def writeMagnitude (f : NumberFormat) (x : Float) : List Char :=
  if x.isInf then ['i', 'n', 'f']
  else if x == 0 then '0' :: f.wholeFraction
  else f.writeDecimal (Decimal.shortest f.tie x)

/-- Whether the sign bit is set, which negative zero has too. -/
def isSigned (x : Float) : Bool :=
  Nat.pow 2 63 ≤ x.toBits.toNat

/-- The text of a double. -/
def write (f : NumberFormat) (x : Float) : List Char :=
  if x.isNaN then ['N', 'a', 'N']
  else if isSigned x then '-' :: f.writeMagnitude x
  else f.writeMagnitude x

end NumberFormat

/-- Numbers in messages never show an exponent, nor a fraction they do not have. -/
def messageNumber : NumberFormat where
  tie := .up
  positional := none
  fraction := false

/-- The text of a double in a message. -/
def messageText (x : Float) : String :=
  String.ofList (messageNumber.write x)

/-- Numbers in JSON show a fraction, and an exponent below `10 ^ (-5)` and from
`10 ^ 16` on. -/
def jsonNumber : NumberFormat where
  tie := .toEven
  positional := some (-5, 15)
  fraction := true

end Plotting
