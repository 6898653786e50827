import Plotting.Expr.Error

/-!
# A place in a token stream

A cursor holds the tokens still to be read, the offset at which the text ends,
and how many operands are open.  A parser takes a cursor and gives a value and
the cursor after it.
-/

namespace Plotting

/-- What is left of a token stream, and how deep in operands it is read. -/
structure Cursor where
  rest : List Located
  /-- The offset just past the text, where a missing token would stand. -/
  stop : Nat
  /-- The number of operands that are open. -/
  depth : Nat
deriving DecidableEq, Repr

namespace Cursor

/-- The token in front, if any. -/
def peek? (c : Cursor) : Option Token :=
  c.rest.head?.map Located.token

/-- The offset of the token in front, or of the end. -/
def offset (c : Cursor) : Nat :=
  (c.rest.head?.map Located.offset).getD c.stop

/-- The cursor past the token in front; at the end it stays. -/
def advance (c : Cursor) : Cursor :=
  { c with rest := c.rest.tail }

/-- The error of finding what is in front where it does not belong. -/
def unexpected (c : Cursor) : ExprError :=
  match c.rest with
  | [] => .unexpectedEnd c.stop
  | found :: _ => .unexpectedToken found

/-- The cursor past a token that has to come now. -/
def expect (token : Token) (c : Cursor) : Except ExprError Cursor :=
  if c.peek? = some token then .ok c.advance else .error c.unexpected

/-- Opens an operand, unless the limit is reached. -/
def enter (c : Cursor) : Except ExprError Cursor :=
  if c.depth < maxNestingDepth then .ok { c with depth := c.depth + 1 }
  else .error (.tooDeep c.offset)

/-- Closes an operand. -/
def leave (c : Cursor) : Cursor :=
  { c with depth := c.depth - 1 }

@[simp] theorem depth_advance (c : Cursor) : c.advance.depth = c.depth := rfl

@[simp] theorem rest_advance (c : Cursor) : c.advance.rest = c.rest.tail := rfl

@[simp] theorem depth_leave (c : Cursor) : c.leave.depth = c.depth - 1 := rfl

/-- A token in front is consumed by advancing. -/
theorem length_advance_lt {c : Cursor} {token : Token} (h : c.peek? = some token) :
    c.advance.rest.length < c.rest.length := by
  rcases c with ⟨_ | ⟨t, ts⟩, stop, depth⟩
  · cases h
  · simp

end Cursor

/-- A reader of tokens. -/
abbrev Parser (α : Type) := Cursor → Except ExprError (α × Cursor)

end Plotting
