import Plotting.Proofs.Expr.Loops

/-!
# The parser with its bookkeeping

The parser passes cursors from hand to hand, its loops are bounded by the tokens that are left, and
an error ends the reading at once.  Here is the same parser with its books kept in the open.  It
moves an index along the tokens, counts the open operands up and down, and writes every step into a
track.  An error does not stop the count, since an operand is closed whether it has been read or
not.  Operators are read by precedence climbing, in one routine for sums and terms.

Nothing bounds the recursion: the routines are least fixed points, and one that never came to an end
would give no answer at all.  That each of them gives one, keeps its books and answers what the
parser answers is proved in `Plotting.Proofs.Expr.Progress`.
-/

namespace Plotting

/-- The tokens of a text and the offset at which it ends.  The end stands behind the last token and
has an index of its own. -/
structure TokenStream where
  tokens : List Located
  stop : Nat

/-- The number of indices, that of the end included. -/
def TokenStream.size (s : TokenStream) : Nat :=
  s.tokens.length + 1

namespace Tracking

/-- Where a parser stands: the index of the token in front, and the number of open operands. -/
structure Place where
  position : Nat
  depth : Nat
deriving DecidableEq, Repr

/-- What may change the place. -/
inductive Move where
  | advance | enter | leave
deriving DecidableEq, Repr

/-- A move, with the places before and after it. -/
structure Step where
  move : Move
  source : Place
  target : Place
deriving DecidableEq, Repr

/-- A place and the steps that led to it, the first one first. -/
structure Track where
  place : Place
  steps : List Step

/-- The track after one more step. -/
def Track.take (t : Track) (move : Move) (target : Place) : Track :=
  ⟨target, t.steps ++ [⟨move, t.place, target⟩]⟩

/-- The track after passing over a token. -/
def Track.advanced (t : Track) : Track :=
  t.take .advance { t.place with position := t.place.position + 1 }

/-- The track after opening an operand. -/
def Track.opened (t : Track) : Track :=
  t.take .enter { t.place with depth := t.place.depth + 1 }

/-- The track after closing an operand. -/
def Track.closed (t : Track) : Track :=
  t.take .leave { t.place with depth := t.place.depth - 1 }

/-- A routine changes the place step by step and gives a value or an error.  It need not come to an
end. -/
abbrev Tracked (α : Type) := ExceptT ExprError (StateT Track Option) α

end Tracking

namespace TokenStream
open Tracking (Track Tracked)

/-! ## Moves -/

section Moves
variable (s : TokenStream)

/-- The token in front, if it is not the end. -/
def peek : Tracked (Option Located) := do
  return s.tokens[(← get).place.position]?

/-- The error of finding the token, or the end, where it does not belong. -/
def unexpected : Option Located → ExprError
  | none => .unexpectedEnd s.stop
  | some found => .unexpectedToken found

/-- Passes over the token in front; at the end the position stays. -/
def advance : Tracked (Option Located) := do
  let found ← s.peek
  modify fun t =>
    if t.place.position < s.tokens.length then t.advanced else t.take .advance t.place
  return found

/-- Passes over a token that has to come now. -/
def expect (token : Token) : Tracked Unit := do
  let found ← s.peek
  if found.map Located.token = some token then
    let _ ← s.advance
  else
    throw (s.unexpected found)

/-- Opens an operand.  The limit is checked when the operand has been counted. -/
def enter : Tracked Unit := do
  modify Track.opened
  if maxNestingDepth < (← get).place.depth then
    throw (.tooDeep (((← s.peek).map Located.offset).getD s.stop))

/-- Closes an operand.  Without an open one the depth would stay zero. -/
def leave : StateT Track Option Unit :=
  modify Track.closed

end Moves

/-! ## Routines -/

mutual

/-- Operands joined by operators that bind as tight as given, or tighter. -/
def binary (s : TokenStream) (limit : Nat) : Tracked Expr := do
  let left ← s |>.unary
  s |>.operators limit left
partial_fixpoint

/-- Further operators and their right operands, as long as they bind tight enough. -/
def operators (s : TokenStream) (limit : Nat) (left : Expr) : Tracked Expr := do
  match (← s.peek).bind fun found => Parser.precedence? found.token with
  | none => return left
  | some (op, precedence) =>
    if precedence < limit then
      return left
    else
      let _ ← s.advance
      let right ← s |>.binary (precedence + 1)
      s |>.operators limit (.binary op left right)
partial_fixpoint

/-- A signed power.  Whether it is read or not, the operand is closed again. -/
def unary (s : TokenStream) : Tracked Expr := do
  s.enter
  (do
    let answer ← (s |>.signed).run
    leave
    return answer : StateT Track Option (Except ExprError Expr))
partial_fixpoint

/-- What an operand is when it has been opened. -/
def signed (s : TokenStream) : Tracked Expr := do
  match (← s.peek).map Located.token with
  | some .minus =>
    let _ ← s.advance
    let e ← s |>.unary
    return .neg e
  | some .plus =>
    let _ ← s.advance
    s |>.unary
  | _ => s |>.power
partial_fixpoint

/-- An atom, raised to an operand if a caret follows. -/
def power (s : TokenStream) : Tracked Expr := do
  let base ← s |>.atom
  if (← s.peek).map Located.token = some .caret then
    let _ ← s.advance
    let exponent ← s |>.unary
    return .binary .pow base exponent
  else
    return base
partial_fixpoint

/-- A number, a name, a call or a group. -/
def atom (s : TokenStream) : Tracked Expr := do
  match ← s.advance with
  | none => throw (s.unexpected none)
  | some found =>
    match found.token with
    | .number value => return .number value
    | .ident name =>
      if (← s.peek).map Located.token = some .opening then
        s |>.call name found.offset
      else
        liftExcept (Parser.ofName name found.offset)
    | .opening =>
      let inner ← s |>.binary 0
      s.expect .closing
      return inner
    | _ => throw (s.unexpected (some found))
partial_fixpoint

/-- A call whose name has been read. -/
def call (s : TokenStream) (name : String) (offset : Nat) : Tracked Expr := do
  match Callable.named? name with
  | none => throw (.unknownFunction name offset)
  | some f =>
    s.expect .opening
    let args ←
      if (← s.peek).map Located.token = some .closing then pure [] else s |>.arguments []
    s.expect .closing
    match f.call? args with
    | some e => return e
    | none => throw (.wrongArity f args.length offset)
partial_fixpoint

/-- Arguments, one at least, behind those that have been read. -/
def arguments (s : TokenStream) (before : List Expr) : Tracked (List Expr) := do
  let a ← s |>.binary 0
  if (← s.peek).map Located.token = some .comma then
    let _ ← s.advance
    s |>.arguments (before ++ [a])
  else
    return before ++ [a]
partial_fixpoint

end

/-- A whole formula, with nothing behind it. -/
def formula (s : TokenStream) : Tracked Expr := do
  if (← s.peek) = none then
    throw .empty
  else
    let e ← s.binary 0
    match ← s.peek with
    | none => return e
    | some found => throw (s.unexpected (some found))

end TokenStream

namespace Tracking

/-! ## Runs -/

section Runs
variable {α β : Type} {s : TokenStream} {m : Tracked α} {f : α → Tracked β} {t t' : Track} {a : α}
  {e : ExprError} {found : Located}

/-- What a routine comes to: an answer and the track that it leaves, or nothing if it never ends. -/
def runFrom (m : Tracked α) (t : Track) : Option (Except ExprError α × Track) :=
  m.run.run t

theorem runFrom_bind_of_ok (h : runFrom m t = some (.ok a, t')) :
    runFrom (m >>= f) t = runFrom (f a) t' := by
  have hm : m t = some (.ok a, t') := h
  change (m t >>= fun r => ExceptT.bindCont f r.1 r.2) = _
  rw [hm]
  rfl

theorem runFrom_bind_of_error (h : runFrom m t = some (.error e, t')) :
    runFrom (m >>= f) t = some (.error e, t') := by
  have hm : m t = some (.error e, t') := h
  change (m t >>= fun r => ExceptT.bindCont f r.1 r.2) = _
  rw [hm]
  rfl

theorem runFrom_peek (s : TokenStream) (t : Track) :
    runFrom s.peek t = some (.ok s.tokens[t.place.position]?, t) := rfl

/-- Where a token is in front, the position moves past it. -/
theorem runFrom_advance (h : s.tokens[t.place.position]? = some found) :
    runFrom s.advance t = some (.ok (some found), t.advanced) := by
  obtain ⟨hlt, -⟩ := List.getElem?_eq_some_iff.mp h
  change some (Except.ok s.tokens[t.place.position]?,
    if t.place.position < s.tokens.length then t.advanced else t.take .advance t.place) = _
  rw [if_pos hlt, h]

/-- At the end it stays. -/
theorem runFrom_advance_end (h : s.tokens[t.place.position]? = none) :
    runFrom s.advance t = some (.ok none, t.take .advance t.place) := by
  have hge := List.getElem?_eq_none_iff.mp h
  change some (Except.ok s.tokens[t.place.position]?,
    if t.place.position < s.tokens.length then t.advanced else t.take .advance t.place) = _
  rw [if_neg (Nat.not_lt.mpr hge), h]

theorem runFrom_expect (h : s.tokens[t.place.position]? = some found) :
    runFrom (s.expect found.token) t = some (.ok (), t.advanced) := by
  rw [TokenStream.expect, runFrom_bind_of_ok (runFrom_peek s t), h, Option.map_some, if_pos rfl]
  exact runFrom_bind_of_ok (runFrom_advance h)

theorem runFrom_expect_of_ne {token : Token}
    (h : s.tokens[t.place.position]?.map Located.token ≠ some token) :
    runFrom (s.expect token) t = some (.error (s.unexpected s.tokens[t.place.position]?), t) := by
  rw [TokenStream.expect, runFrom_bind_of_ok (runFrom_peek s t), if_neg h]
  rfl

/-- The limit is checked when the operand has been counted. -/
theorem runFrom_enter_eq_ite (s : TokenStream) (t : Track) :
    runFrom s.enter t = runFrom
      (if maxNestingDepth < t.place.depth + 1 then
        throw (.tooDeep ((s.tokens[t.place.position]?.map Located.offset).getD s.stop))
      else pure ()) t.opened := by
  by_cases h : maxNestingDepth < t.place.depth + 1
  · rw [if_pos h]
    change runFrom (if maxNestingDepth < t.place.depth + 1 then _ else pure ()) t.opened = _
    rw [if_pos h]
    rfl
  · rw [if_neg h]
    change runFrom (if maxNestingDepth < t.place.depth + 1 then _ else pure ()) t.opened = _
    rw [if_neg h]

theorem runFrom_enter (h : t.place.depth < maxNestingDepth) :
    runFrom s.enter t = some (.ok (), t.opened) := by
  rw [runFrom_enter_eq_ite, if_neg (Nat.not_lt.mpr h)]
  rfl

/-- An operand too many is counted before it is refused. -/
theorem runFrom_enter_of_le (h : maxNestingDepth ≤ t.place.depth) :
    runFrom s.enter t =
      some (.error (.tooDeep ((s.tokens[t.place.position]?.map Located.offset).getD s.stop)),
        t.opened) := by
  rw [runFrom_enter_eq_ite, if_pos (Nat.lt_succ_of_le h)]
  rfl

/-- What has been opened is closed, whatever comes of it. -/
theorem runFrom_unary (h : t.place.depth < maxNestingDepth) :
    runFrom s.unary t = (runFrom s.signed t.opened).map fun r => (r.1, r.2.closed) := by
  rw [TokenStream.unary, runFrom_bind_of_ok (runFrom_enter h), Option.map_eq_bind]
  rfl

end Runs
end Tracking
end Plotting
