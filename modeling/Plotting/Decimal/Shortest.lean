import Plotting.Decimal.Basic

/-!
# Shortest digits

A finite double is a dyadic number, so it has an exact decimal expansion, often
of hundreds of digits.  To tell it from all others, far fewer suffice: any
decimal will do to which it is the nearest double.  `Decimal.shortest` drops as
many digits of the exact expansion as it can.  On each grid of decimals it tries
the two neighbours of the exact value, coarsest grid first, and stops at the
first that denotes the double.  Of two that do, the nearer one is taken.

Rounding to nearest is all that is looked at here.  A reader of texts that rounds
in some other way may take the shortest digits for another double.
-/

namespace Plotting

/-- Which neighbour is written when the exact value lies halfway. -/
inductive Tie where
  | toEven
  | up
deriving DecidableEq, Repr

/-- The chosen one of the halfway neighbours `n` and `n + 1`. -/
def Tie.choose : Tie → Nat → Nat
  | .toEven, n => n + n % 2
  | .up, n => n + 1

namespace Decimal

/-- Mantissa and binary exponent of the magnitude of a finite double. -/
def binary (x : Float) : Nat × Int :=
  let bits := x.toBits.toNat % Nat.pow 2 63
  let field : Nat := bits / Nat.pow 2 52
  let fraction := bits % Nat.pow 2 52
  if field = 0 then (fraction, -1074) else (Nat.pow 2 52 + fraction, (field : Int) - 1075)

/-- Digits and decimal exponent of `m * 2 ^ q`, nothing lost: a negative power
of two is a power of five over a power of ten. -/
def expand (m : Nat) (q : Int) : Nat × Int :=
  if 0 ≤ q then (m * Nat.pow 2 q.toNat, 0) else (m * Nat.pow 5 (-q).toNat, q)

/-- The neighbour of `n` among the multiples of `10 ^ t` to which `x` is the
nearest double, as a decimal in units of `10 ^ e`; of two, the nearer. -/
def neighbour? (tie : Tie) (x : Float) (n : Nat) (e : Int) (t : Nat) : Option Decimal :=
  let below := n / Nat.pow 10 t
  let low := ofDigits below (e + t)
  let high := ofDigits (below + 1) (e + t)
  let nearer :=
    match compare (2 * (n % Nat.pow 10 t)) (Nat.pow 10 t) with
    | .lt => low
    | .gt => high
    | .eq => ofDigits (tie.choose below) (e + t)
  [nearer, low, high].find? fun d => d.toFloat = x

/-- The first hit when ever fewer of the digits of `n` are dropped, starting
with `t` of them; with none dropped, the exact value. -/
def search (tie : Tie) (x : Float) (n : Nat) (e : Int) : Nat → Decimal
  | 0 => ofDigits n e
  | t + 1 => (neighbour? tie x n e (t + 1)).getD (search tie x n e t)

/-- The fewest digits that denote the magnitude of a finite double. -/
def shortest (tie : Tie) (x : Float) : Decimal :=
  let (m, q) := binary x
  let (n, e) := expand m q
  search tie x.abs n e ((Nat.toDigits 10 n).length - 1)

/-! ## What is found denotes the double -/

theorem toFloat_of_neighbour? {tie : Tie} {x : Float} {n : Nat} {e : Int} {t : Nat} {d : Decimal}
    (h : neighbour? tie x n e t = some d) : d.toFloat = x := by
  simpa using List.find?_some h

end Decimal
end Plotting
