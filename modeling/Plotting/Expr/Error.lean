import Plotting.Expr.Basic
import Plotting.Expr.Token
import Plotting.Text

/-!
# Why a formula is refused

One constructor for each cause, with the byte offset at which it shows.
-/

namespace Plotting

/-- The number of operands that may be nested inside one another. -/
def maxNestingDepth : Nat := 64

/-- Why a text is not a formula. -/
inductive ExprError where
  | empty
  | unexpectedChar (c : Char) (offset : Nat)
  | invalidNumber (literal : String) (offset : Nat)
  | unexpectedToken (found : Located)
  | unexpectedEnd (offset : Nat)
  | unknownIdentifier (name : String) (offset : Nat)
  | unknownFunction (name : String) (offset : Nat)
  | wrongArity (function : Callable) (found : Nat) (offset : Nat)
  | tooDeep (offset : Nat)
deriving DecidableEq, Repr

namespace ExprError

open Text (quoted)

/-- The byte at which the error shows. -/
def offset : ExprError → Nat
  | .empty => 0
  | .unexpectedChar _ o => o
  | .invalidNumber _ o => o
  | .unexpectedToken found => found.offset
  | .unexpectedEnd o => o
  | .unknownIdentifier _ o => o
  | .unknownFunction _ o => o
  | .wrongArity _ _ o => o
  | .tooDeep o => o

/-- The wording of the error. -/
def message : ExprError → String
  | .empty => "expression is empty"
  | .unexpectedChar c o => s!"unexpected character {quoted (toString c)} at offset {o}"
  | .invalidNumber literal o => s!"invalid number literal {quoted literal} at offset {o}"
  | .unexpectedToken found => s!"unexpected {quoted found.token.text} at offset {found.offset}"
  | .unexpectedEnd o => s!"unexpected end of expression at offset {o}"
  | .unknownIdentifier name o => s!"unknown identifier {quoted name} at offset {o}"
  | .unknownFunction name o => s!"unknown function {quoted name} at offset {o}"
  | .wrongArity f n o =>
    s!"function {quoted f.name} expects {f.arity} argument(s), got {n} (offset {o})"
  | .tooDeep o => s!"expression nesting exceeds {maxNestingDepth} levels at offset {o}"

end ExprError
end Plotting
