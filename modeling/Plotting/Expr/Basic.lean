/-!
# Formulas in one variable

The tree of a formula and its value.  The only variable is `x`, the only
constants are `PI` and `E`, and the only functions are the twelve of `Callable`.
A call carries as many arguments as its function takes, so evaluation has no
case for a wrong number of them: `Callable.call?` is the one place where an
argument list is measured.

Arithmetic is that of doubles.  A division by zero is infinite, and a function
outside its domain is not a number; neither is an error.
-/

namespace Plotting

/-- The named constants. -/
inductive Constant where
  | pi
  | e
deriving DecidableEq, Repr

namespace Constant

/-- The constant of a given name. -/
def named? : String → Option Constant
  | "PI" => some .pi
  | "E" => some .e
  | _ => none

/-- The double nearest to the constant. -/
def value : Constant → Float
  | .pi => 3.141592653589793
  | .e => 2.718281828459045

end Constant

/-- The functions of one argument. -/
inductive Elementary where
  | sin | cos | tan | asin | acos | atan | sqrt | abs | log | log10 | exp
deriving DecidableEq, Repr

namespace Elementary

/-- The name under which a formula calls the function. -/
def name : Elementary → String
  | .sin => "sin"
  | .cos => "cos"
  | .tan => "tan"
  | .asin => "asin"
  | .acos => "acos"
  | .atan => "atan"
  | .sqrt => "sqrt"
  | .abs => "abs"
  | .log => "log"
  | .log10 => "log10"
  | .exp => "exp"

/-- The value of the function; `log` is the natural logarithm. -/
def apply : Elementary → Float → Float
  | .sin, a => a.sin
  | .cos, a => a.cos
  | .tan, a => a.tan
  | .asin, a => a.asin
  | .acos, a => a.acos
  | .atan, a => a.atan
  | .sqrt, a => a.sqrt
  | .abs, a => a.abs
  | .log, a => a.log
  | .log10, a => a.log10
  | .exp, a => a.exp

end Elementary

/-- The functions that a formula may call. -/
inductive Callable where
  | elementary (f : Elementary)
  | pow
deriving DecidableEq, Repr

namespace Callable

/-- The name under which a formula calls the function. -/
def name : Callable → String
  | .elementary f => f.name
  | .pow => "pow"

/-- The number of arguments that the function takes. -/
def arity : Callable → Nat
  | .elementary _ => 1
  | .pow => 2

/-- Every function that may be called. -/
def all : List Callable :=
  [.elementary .sin, .elementary .cos, .elementary .tan, .elementary .asin, .elementary .acos,
    .elementary .atan, .elementary .sqrt, .elementary .abs, .pow, .elementary .log,
    .elementary .log10, .elementary .exp]

/-- The function of a given name. -/
def named? (name : String) : Option Callable :=
  all.find? fun f => f.name = name

/-- Each function is found under its own name. -/
theorem named?_name (f : Callable) : named? f.name = some f := by
  rcases f with (_ | _) | _ <;> decide

end Callable

/-- The operators between two operands. -/
inductive Operator where
  | add | sub | mul | div | pow
deriving DecidableEq, Repr

/-- The value of an operator on two doubles. -/
def Operator.apply : Operator → Float → Float → Float
  | .add, a, b => a + b
  | .sub, a, b => a - b
  | .mul, a, b => a * b
  | .div, a, b => a / b
  | .pow, a, b => a.pow b

/-- A formula in the variable `x`. -/
inductive Expr where
  | number (value : Float)
  | var
  | constant (c : Constant)
  | neg (operand : Expr)
  | binary (op : Operator) (left right : Expr)
  | call (f : Elementary) (argument : Expr)
  | callPow (base exponent : Expr)
deriving DecidableEq, Repr

/-- The call of a function on a list of arguments, if there are as many as the
function takes. -/
def Callable.call? : Callable → List Expr → Option Expr
  | .elementary f, [a] => some (.call f a)
  | .pow, [a, b] => some (.callPow a b)
  | _, _ => none

theorem Callable.isSome_call? (f : Callable) (args : List Expr) :
    (f.call? args).isSome ↔ args.length = f.arity := by
  rcases f with f | _ <;> rcases args with _ | ⟨a, _ | ⟨b, _ | ⟨c, r⟩⟩⟩ <;> simp [call?, arity]

namespace Expr

/-- The value of a formula at `x`. -/
def eval (x : Float) : Expr → Float
  | .number value => value
  | .var => x
  | .constant c => c.value
  | .neg operand => -operand.eval x
  | .binary op left right => op.apply (left.eval x) (right.eval x)
  | .call f argument => f.apply (argument.eval x)
  | .callPow base exponent => (base.eval x).pow (exponent.eval x)

end Expr
end Plotting
