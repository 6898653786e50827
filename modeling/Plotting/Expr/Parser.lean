import Plotting.Expr.Cursor
import Plotting.Expr.Lexeme

/-!
# Reading a formula

The grammar, loosest binding first:

    sum     = term (('+' | '-') term)*            to the left
    term    = operand (('*' | '/') operand)*      to the left
    operand = ('-' | '+') operand | power
    power   = atom ['^' operand]
    atom    = number | 'x' | constant | '(' sum ')' | function '(' [sum (',' sum)*] ')'

Everything nests through `operand`.  The other levels are therefore written as
functions of the parser that reads an operand, without recursion of their own
but for the loops that collect operands and arguments; each round of a loop
consumes a token, so the tokens left bound it.  Only `operandWithin` recurses.
Each level of operands opens one more than the level around it, and no more than
`maxNestingDepth` may be open, so that many steps and one more are enough.
-/

namespace Plotting
namespace Parser

/-! ## Chains of operators -/

/-- The operators that join terms. -/
def additive? : Token → Option Operator
  | .plus => some .add
  | .minus => some .sub
  | _ => none

/-- The operators that join operands to a term. -/
def multiplicative? : Token → Option Operator
  | .star => some .mul
  | .slash => some .div
  | _ => none

/-- Extends `left` by at most `fuel` further operators and operands. -/
def chainFrom (op? : Token → Option Operator) (next : Parser Expr) : Nat → Expr → Parser Expr
  | 0, left, c => .ok (left, c)
  | fuel + 1, left, c =>
    match c.peek?.bind op? with
    | none => .ok (left, c)
    | some op => do
      let (right, c) ← next c.advance
      chainFrom op? next fuel (.binary op left right) c

/-- Operands joined by operators of one level, the leftmost pair first. -/
def chain (op? : Token → Option Operator) (next : Parser Expr) : Parser Expr := fun c => do
  let (left, c) ← next c
  chainFrom op? next c.rest.length left c

/-- A sum of terms, given the parser of operands. -/
def sum (operand : Parser Expr) : Parser Expr :=
  chain additive? (chain multiplicative? operand)

/-! ## Calls -/

/-- At most `fuel` further arguments, a comma before each. -/
def moreArguments (argument : Parser Expr) : Nat → Parser (List Expr)
  | 0, c => .ok ([], c)
  | fuel + 1, c =>
    if c.peek? = some .comma then do
      let (a, c) ← argument c.advance
      let (as, c) ← moreArguments argument fuel c
      return (a :: as, c)
    else
      .ok ([], c)

/-- The arguments of a call, possibly none. -/
def arguments (argument : Parser Expr) : Parser (List Expr) := fun c =>
  if c.peek? = some .closing then
    .ok ([], c)
  else do
    let (a, c) ← argument c
    let (as, c) ← moreArguments argument c.rest.length c
    return (a :: as, c)

/-- A call whose name has been read at `offset`.  An unknown name is reported
before the arguments are looked at, a wrong number of them after the call. -/
def call (operand : Parser Expr) (name : String) (offset : Nat) : Parser Expr := fun c =>
  match Callable.named? name with
  | none => .error (.unknownFunction name offset)
  | some f => do
    let c ← c.expect .opening
    let (args, c) ← arguments (sum operand) c
    let c ← c.expect .closing
    match f.call? args with
    | some e => return (e, c)
    | none => .error (.wrongArity f args.length offset)

/-! ## Atoms and powers -/

/-- The meaning of a name that is not called. -/
def ofName (name : String) (offset : Nat) : Except ExprError Expr :=
  if name = "x" then .ok .var
  else match Constant.named? name with
    | some c => .ok (.constant c)
    | none => .error (.unknownIdentifier name offset)

/-- A number, a name, a call or a group. -/
def atom (operand : Parser Expr) : Parser Expr := fun c =>
  match c.rest with
  | [] => .error c.unexpected
  | found :: _ =>
    match found.token with
    | .number value => .ok (.number value, c.advance)
    | .ident name =>
      if c.advance.peek? = some .opening then
        call operand name found.offset c.advance
      else do
        let e ← ofName name found.offset
        return (e, c.advance)
    | .opening => do
      let (e, c) ← sum operand c.advance
      let c ← c.expect .closing
      return (e, c)
    | _ => .error c.unexpected

/-- An atom, raised to an operand if a caret follows. -/
def power (operand : Parser Expr) : Parser Expr := fun c => do
  let (base, c) ← atom operand c
  if c.peek? = some .caret then
    let (exponent, c) ← operand c.advance
    return (.binary .pow base exponent, c)
  else
    return (base, c)

/-! ## Operands -/

/-- A signed power, read with at most `fuel` operands nested in one another.  A
plus sign leaves no trace in the tree. -/
def operandWithin : Nat → Parser Expr
  | 0, c => .error (.tooDeep c.offset)
  | fuel + 1, c => do
    let c ← c.enter
    let (e, c) ← match c.peek? with
      | some .minus => do
        let (e, c) ← operandWithin fuel c.advance
        pure (.neg e, c)
      | some .plus => operandWithin fuel c.advance
      | _ => power (operandWithin fuel) c
    return (e, c.leave)

/-- A signed power. -/
def operand : Parser Expr :=
  operandWithin (maxNestingDepth + 1)

end Parser

/-! ## Whole formulas -/

namespace Expr

/-- The formula that a token stream spells, where `stop` is the offset at which
its text ends. -/
def ofTokens (tokens : List Located) (stop : Nat) : Except ExprError Expr :=
  if tokens = [] then
    .error .empty
  else do
    let (e, c) ← Parser.sum Parser.operand ⟨tokens, stop, 0⟩
    if c.rest = [] then return e else .error c.unexpected

/-- The formula that a text spells. -/
def parse (text : String) : Except ExprError Expr := do
  let tokens ← Token.scan text
  ofTokens tokens (Text.byteLength text.toList)

end Expr
end Plotting
