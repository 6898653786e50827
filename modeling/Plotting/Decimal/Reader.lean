import Plotting.Decimal.Numeral

/-!
# Readers of numerals

A format decides which double a numeral stands for.  The nearest one is the obvious choice
(`NumberReader.nearest`), but it may take hundreds of digits to find.  A reader in a hurry takes in
no more digits than fit into a machine word, converts them, and scales the result by a power of ten
from a table (`NumberReader.bestEffort`).  Each of these steps rounds, so a long numeral may end up
one double away from the nearest one, also a numeral that is the shortest for its double.

What a text of numbers is read as therefore depends on the reader, and so do all results about texts
that are read back.
-/

namespace Plotting

/-- What a format takes the magnitude of a numeral to be; past the largest double it is infinite. -/
structure NumberReader where
  magnitude : Numeral → Float

namespace NumberReader

/-- The reader that takes the nearest double. -/
def nearest : NumberReader where
  magnitude n := n.toDecimal.toFloat

/-! ## Best effort -/

/-- Appends digits to a number as long as it has 64 bits, and gives back the digits that are left. -/
def takeDigits (n : Nat) : List Char → Nat × List Char
  | [] => (n, [])
  | c :: cs =>
    let next := 10 * n + (c.toNat - '0'.toNat)
    if next < Nat.pow 2 64 then takeDigits next cs else (n, c :: cs)

/-- The greatest exponent of the table of powers of ten. -/
def maxPower : Nat := 308

/-- The double nearest to a power of ten. -/
def powerOfTen (k : Nat) : Float :=
  (Decimal.mk 1 k).toFloat

/-- A double over a power of ten, with some rounds of the greatest power first.  Once nothing is left
of the double, no more rounds are made. -/
def divide (x : Float) : Nat → Nat → Float
  | 0, k => x / powerOfTen k
  | rounds + 1, k => if x == 0 then x else divide (x / powerOfTen maxPower) rounds k

/-- A number of 64 bits, scaled by a power of ten.  A power past the table is too large for any
number but zero. -/
def scale (n : Nat) (e : Int) : Float :=
  let x := n.toUInt64.toFloat
  if e < 0 then
    let rounds := (e.natAbs - 1) / maxPower
    divide x rounds (e.natAbs - maxPower * rounds)
  else if e.natAbs ≤ maxPower then x * powerOfTen e.natAbs
  else if x == 0 then x
  else 1 / 0

/-- The reader that rounds at each step.  Digits that do not fit are left out: those before the point
count as zeros, and those behind it do not count at all. -/
def bestEffort : NumberReader where
  magnitude n :=
    let (whole, large) := takeDigits 0 n.whole
    let (digits, small) := takeDigits whole n.fraction
    scale digits
      ((n.exponent.map Exponent.value).getD 0 + large.length + small.length - n.fraction.length)

end NumberReader
end Plotting
