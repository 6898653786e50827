import Plotting.Expr.Parser

/-!
# The grammar of formulas

The grammar is data: a derivation is a tree with one constructor for each
production, and knows nothing of cursors, fuel or errors.

    sum     = term (sign term)*                 sign  = '+' | '-'
    term    = unary (scale unary)*              scale = '*' | '/'
    unary   = sign unary | power
    power   = atom ['^' unary]
    atom    = number | 'x' | 'PI' | 'E' | '(' sum ')' | f '(' [sum (',' sum)*] ')'

The starred parts are nonterminals of their own, so that a derivation of `sum`
is a first term and a derivation of what follows it.  What follows a term means
a function: it takes the tree of everything to its left, and that is how a chain
leans to the left.  Argument lists carry their length, and the production of a
call asks for the length that its function takes, so no derivation holds a call
with a wrong number of arguments.

Three things are read off a derivation: the tokens it spells (`yield`), the tree
it stands for (`tree`) and how many unary nodes it nests (`nesting`).
-/

namespace Plotting

/-! ## Names -/

/-- The name by which a formula refers to the constant. -/
def Constant.name : Constant → String
  | .pi => "PI"
  | .e => "E"

theorem Constant.named?_eq_some_iff {name : String} {c : Constant} :
    named? name = some c ↔ name = c.name := by
  constructor
  · intro h
    unfold named? at h
    split at h <;> cases h <;> rfl
  · rintro rfl
    cases c <;> rfl

theorem Constant.name_injective {c c' : Constant} (h : c.name = c'.name) : c = c' := by
  have hc : named? c.name = some c := named?_eq_some_iff.mpr rfl
  rw [h, named?_eq_some_iff.mpr rfl] at hc
  exact (Option.some_inj.mp hc).symm

theorem Callable.name_injective {f g : Callable} (h : f.name = g.name) : f = g := by
  have hf : named? f.name = some f := named?_name f
  rw [h, named?_name g] at hf
  exact (Option.some_inj.mp hf).symm

theorem Callable.named?_eq_some_iff {name : String} {f : Callable} :
    named? name = some f ↔ name = f.name := by
  constructor
  · intro h
    have hp : f.name = name := by simpa using List.find?_some h
    exact hp.symm
  · rintro rfl
    exact named?_name f

/-! ## No name has two meanings -/

theorem Constant.name_ne_var (c : Constant) : c.name ≠ "x" := by
  cases c <;> decide

theorem Callable.name_ne_var (f : Callable) : f.name ≠ "x" := by
  rcases f with (_ | _) | _ <;> decide

theorem Callable.name_ne_constant (f : Callable) (c : Constant) : f.name ≠ c.name := by
  rcases f with (_ | _) | _ <;> cases c <;> decide

/-! ## Calls with the right number of arguments -/

/-- The call of a function on exactly as many arguments as it takes. -/
def Callable.apply (f : Callable) (args : { as : List Expr // as.length = f.arity }) : Expr :=
  (f.call? args.val).get ((f.isSome_call? args.val).mpr args.property)

theorem Callable.call?_eq_some_apply (f : Callable)
    (args : { as : List Expr // as.length = f.arity }) : f.call? args.val = some (f.apply args) :=
  (Option.some_get _).symm

namespace Grammar

/-! ## Signs and scales -/

/-- The operators that join terms; each is also a prefix. -/
inductive Sign where
  | plus | minus
deriving DecidableEq, Repr

namespace Sign

def token : Sign → Token
  | .plus => .plus
  | .minus => .minus

/-- The operator between two terms. -/
def operator : Sign → Operator
  | .plus => .add
  | .minus => .sub

/-- The meaning as a prefix: a plus leaves no node. -/
def signed : Sign → Expr → Expr
  | .plus, e => e
  | .minus, e => .neg e

theorem token_injective {s s' : Sign} (h : s.token = s'.token) : s = s' := by
  cases s <;> cases s' <;> first | rfl | cases h

/-- The parser takes exactly the signs for the operators between terms. -/
theorem additive?_eq_some_iff {t : Token} {op : Operator} :
    Parser.additive? t = some op ↔ ∃ s : Sign, t = s.token ∧ op = s.operator := by
  constructor
  · intro h
    unfold Parser.additive? at h
    split at h <;> cases h
    · exact ⟨.plus, rfl, rfl⟩
    · exact ⟨.minus, rfl, rfl⟩
  · rintro ⟨s, rfl, rfl⟩
    cases s <;> rfl

end Sign

/-- The operators that join the factors of a term. -/
inductive Scale where
  | times | over
deriving DecidableEq, Repr

namespace Scale

def token : Scale → Token
  | .times => .star
  | .over => .slash

def operator : Scale → Operator
  | .times => .mul
  | .over => .div

theorem token_injective {s s' : Scale} (h : s.token = s'.token) : s = s' := by
  cases s <;> cases s' <;> first | rfl | cases h

/-- The parser takes exactly the scales for the operators between factors. -/
theorem multiplicative?_eq_some_iff {t : Token} {op : Operator} :
    Parser.multiplicative? t = some op ↔ ∃ s : Scale, t = s.token ∧ op = s.operator := by
  constructor
  · intro h
    unfold Parser.multiplicative? at h
    split at h <;> cases h
    · exact ⟨.times, rfl, rfl⟩
    · exact ⟨.over, rfl, rfl⟩
  · rintro ⟨s, rfl, rfl⟩
    cases s <;> rfl

end Scale

/-! ## Derivations -/

/-- The syntactic categories.  Lists of arguments are told apart by their length. -/
inductive Nonterminal where
  | sum | addends | term | factors | unary | power | atom
  | arguments (n : Nat) | moreArguments (n : Nat)
deriving DecidableEq, Repr

/-- A derivation from a nonterminal. -/
inductive Derivation : Nonterminal → Type where
  | sum (first : Derivation .term) (rest : Derivation .addends) : Derivation .sum
  | noAddend : Derivation .addends
  | addend (s : Sign) (operand : Derivation .term) (rest : Derivation .addends) :
      Derivation .addends
  | term (first : Derivation .unary) (rest : Derivation .factors) : Derivation .term
  | noFactor : Derivation .factors
  | factor (s : Scale) (operand : Derivation .unary) (rest : Derivation .factors) :
      Derivation .factors
  | signed (s : Sign) (operand : Derivation .unary) : Derivation .unary
  | unsigned (operand : Derivation .power) : Derivation .unary
  | plain (base : Derivation .atom) : Derivation .power
  | raised (base : Derivation .atom) (exponent : Derivation .unary) : Derivation .power
  | number (value : Float) : Derivation .atom
  | var : Derivation .atom
  | constant (c : Constant) : Derivation .atom
  | group (inner : Derivation .sum) : Derivation .atom
  | call (f : Callable) (args : Derivation (.arguments f.arity)) : Derivation .atom
  | noArgument : Derivation (.arguments 0)
  | arguments {n : Nat} (first : Derivation .sum) (rest : Derivation (.moreArguments n)) :
      Derivation (.arguments (n + 1))
  | noMoreArgument : Derivation (.moreArguments 0)
  | moreArguments {n : Nat} (first : Derivation .sum) (rest : Derivation (.moreArguments n)) :
      Derivation (.moreArguments (n + 1))

/-- What a derivation from a nonterminal stands for.  What may follow the first
operand of a chain is a function of the tree to its left. -/
def Nonterminal.Meaning : Nonterminal → Type
  | .addends | .factors => Expr → Expr
  | .arguments n | .moreArguments n => { as : List Expr // as.length = n }
  | .sum | .term | .unary | .power | .atom => Expr

namespace Derivation

/-- The tokens that a derivation spells. -/
@[simp] def yield : {n : Nonterminal} → Derivation n → List Token
  | _, .sum first rest => first.yield ++ rest.yield
  | _, .noAddend => []
  | _, .addend s operand rest => s.token :: (operand.yield ++ rest.yield)
  | _, .term first rest => first.yield ++ rest.yield
  | _, .noFactor => []
  | _, .factor s operand rest => s.token :: (operand.yield ++ rest.yield)
  | _, .signed s operand => s.token :: operand.yield
  | _, .unsigned operand => operand.yield
  | _, .plain base => base.yield
  | _, .raised base exponent => base.yield ++ .caret :: exponent.yield
  | _, .number value => [.number value]
  | _, .var => [.ident "x"]
  | _, .constant c => [.ident c.name]
  | _, .group inner => .opening :: (inner.yield ++ [.closing])
  | _, .call f args => .ident f.name :: .opening :: (args.yield ++ [.closing])
  | _, .noArgument => []
  | _, .arguments first rest => first.yield ++ rest.yield
  | _, .noMoreArgument => []
  | _, .moreArguments first rest => .comma :: (first.yield ++ rest.yield)

/-- The tree that a derivation stands for.  A minus sign is a negation, a plus
sign and a group leave no node, and a caret takes the whole unary after it. -/
@[simp] def tree : {n : Nonterminal} → Derivation n → n.Meaning
  | _, .sum first rest => rest.tree first.tree
  | _, .noAddend => fun left => left
  | _, .addend s operand rest => fun left => rest.tree (.binary s.operator left operand.tree)
  | _, .term first rest => rest.tree first.tree
  | _, .noFactor => fun left => left
  | _, .factor s operand rest => fun left => rest.tree (.binary s.operator left operand.tree)
  | _, .signed s operand => s.signed operand.tree
  | _, .unsigned operand => operand.tree
  | _, .plain base => base.tree
  | _, .raised base exponent => .binary .pow base.tree exponent.tree
  | _, .number value => .number value
  | _, .var => .var
  | _, .constant c => .constant c
  | _, .group inner => inner.tree
  | _, .call f args => f.apply args.tree
  | _, .noArgument => ⟨[], rfl⟩
  | _, .arguments first rest =>
    ⟨first.tree :: rest.tree.val, congrArg Nat.succ rest.tree.property⟩
  | _, .noMoreArgument => ⟨[], rfl⟩
  | _, .moreArguments first rest =>
    ⟨first.tree :: rest.tree.val, congrArg Nat.succ rest.tree.property⟩

/-- The number of unary nodes nested inside one another, the outermost counted. -/
@[simp] def nesting : {n : Nonterminal} → Derivation n → Nat
  | _, .sum first rest => max first.nesting rest.nesting
  | _, .noAddend => 0
  | _, .addend _ operand rest => max operand.nesting rest.nesting
  | _, .term first rest => max first.nesting rest.nesting
  | _, .noFactor => 0
  | _, .factor _ operand rest => max operand.nesting rest.nesting
  | _, .signed _ operand => operand.nesting + 1
  | _, .unsigned operand => operand.nesting + 1
  | _, .plain base => base.nesting
  | _, .raised base exponent => max base.nesting exponent.nesting
  | _, .number _ => 0
  | _, .var => 0
  | _, .constant _ => 0
  | _, .group inner => inner.nesting
  | _, .call _ args => args.nesting
  | _, .noArgument => 0
  | _, .arguments first rest => max first.nesting rest.nesting
  | _, .noMoreArgument => 0
  | _, .moreArguments first rest => max first.nesting rest.nesting

end Derivation
end Grammar
end Plotting
