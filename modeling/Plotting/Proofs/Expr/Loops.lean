import Plotting.Proofs.Expr.Completeness
import Plotting.Proofs.Expr.Soundness

/-!
# The parser without its bounds

The loops that collect operands and arguments may go round as often as there are tokens left.  No
loop is ever stopped by that: each round consumes a token, and what has been read is never put back.
So the loops obey the equations of loops without a bound, which look at nothing but the token in
front, and a chain of operators ends only where no operator of its level is in front.  Operands may
be nested as deep as the limit allows, and so `operandAt` obeys the equation of a parser that knows
the limit but no other bound.

Sums and terms are chains of two levels, and each level has a loop of its own.  One loop does for
both, if it is told how tight an operator has to bind at least (`binaryAt`, `operatorsAt`): a right
operand is what binds tighter than its operator, and a chain of the tighter level ends where the
looser one goes on.
-/

namespace Plotting

/-- A phrase takes its tokens away. -/
theorem Grammar.Derives.length_le {n : Grammar.Nonterminal} {a : n.Meaning} {c c' : Cursor}
    (h : Grammar.Derives n c a c') : c'.rest.length ≤ c.rest.length := by
  obtain ⟨d, -, hd, -⟩ := h
  rw [Cursor.length_rest, Cursor.length_rest, hd.tokens, List.length_append]
  exact Nat.le_add_left _ _

namespace Parser

open Grammar (operandAt sound_operandWithin)

/-! ## Nothing is put back -/

/-- No reading leaves more tokens than it found. -/
def Shortens {α : Type} (p : Parser α) : Prop :=
  ∀ (c : Cursor) (a : α) (c' : Cursor), p c = .ok (a, c') → c'.rest.length ≤ c.rest.length

theorem shortens_operandAt (depth : Nat) : Shortens (operandAt depth) :=
  fun c e c' h => (sound_operandWithin _ c e c' h).length_le

theorem shortens_term (depth : Nat) : Shortens (chain multiplicative? (operandAt depth)) :=
  fun c e c' h => ((sound_operandWithin _).term c e c' h).length_le

theorem shortens_sum (depth : Nat) : Shortens (sum (operandAt depth)) :=
  fun c e c' h => ((sound_operandWithin _).sum c e c' h).length_le

/-! ## Operators -/

section Operators
variable {op? : Token → Option Operator} {next : Parser Expr} {op : Operator} {left e : Expr}
  {c c' : Cursor}

/-- The operators of a level with their operands, as many as there are. -/
def operators (op? : Token → Option Operator) (next : Parser Expr) (left : Expr) : Parser Expr :=
  fun c => chainFrom op? next c.rest.length left c

theorem chain_eq (op? : Token → Option Operator) (next : Parser Expr) (c : Cursor) :
    chain op? next c = next c >>= fun a => operators op? next a.1 a.2 := rfl

theorem chainFrom_of_none (hop : c.peek?.bind op? = none) (fuel : Nat) :
    chainFrom op? next fuel left c = .ok (left, c) := by
  cases fuel with
  | zero => rfl
  | succ fuel => simp only [chainFrom, hop]

/-- It does not matter how many rounds are allowed, if there is one for each token. -/
theorem chainFrom_congr (hnext : Shortens next) {fuel more : Nat} (hfuel : c.rest.length ≤ fuel)
    (hmore : c.rest.length ≤ more) :
    chainFrom op? next fuel left c = chainFrom op? next more left c := by
  induction fuel generalizing more left c with
  | zero =>
    have hrest : c.rest = [] := List.length_eq_zero_iff.mp (Nat.le_zero.mp hfuel)
    have hop : c.peek?.bind op? = none := by rw [Cursor.peek?, hrest]; rfl
    rw [chainFrom_of_none hop, chainFrom_of_none hop]
  | succ fuel ih =>
    cases hop : c.peek?.bind op? with
    | none => rw [chainFrom_of_none hop, chainFrom_of_none hop]
    | some op =>
      obtain ⟨t, ht, -⟩ := Option.bind_eq_some_iff.mp hop
      have hadvance := Cursor.length_advance_lt ht
      obtain ⟨more, rfl⟩ : ∃ k, more = k + 1 := ⟨more - 1, by omega⟩
      simp only [chainFrom, hop]
      cases hright : next c.advance with
      | error e => rfl
      | ok a =>
        have hshorter := hnext c.advance a.1 a.2 hright
        exact ih (by omega) (by omega)

theorem operators_of_none (hop : c.peek?.bind op? = none) :
    operators op? next left c = .ok (left, c) :=
  chainFrom_of_none hop c.rest.length

theorem operators_of_some (hnext : Shortens next) (hop : c.peek?.bind op? = some op) :
    operators op? next left c =
      next c.advance >>= fun a => operators op? next (.binary op left a.1) a.2 := by
  obtain ⟨t, ht, -⟩ := Option.bind_eq_some_iff.mp hop
  have hadvance := Cursor.length_advance_lt ht
  obtain ⟨fuel, hfuel⟩ : ∃ k, c.rest.length = k + 1 := ⟨c.rest.length - 1, by omega⟩
  simp only [operators, hfuel, chainFrom, hop]
  cases hright : next c.advance with
  | error e => rfl
  | ok a =>
    have hshorter := hnext c.advance a.1 a.2 hright
    exact chainFrom_congr hnext (by omega) (Nat.le_refl _)

/-- A chain of operators ends where none is in front. -/
theorem peek?_of_operators (hnext : Shortens next) (h : operators op? next left c = .ok (e, c')) :
    c'.peek?.bind op? = none := by
  induction hlength : c.rest.length using Nat.strongRecOn generalizing left c with
  | ind k ih =>
    cases hop : c.peek?.bind op? with
    | none =>
      rw [operators_of_none hop] at h
      cases h
      exact hop
    | some op =>
      obtain ⟨t, ht, -⟩ := Option.bind_eq_some_iff.mp hop
      have hadvance := Cursor.length_advance_lt ht
      rw [operators_of_some hnext hop] at h
      obtain ⟨a, hright, hrest⟩ := bind_eq_ok_iff.mp h
      have hshorter := hnext c.advance a.1 a.2 hright
      exact ih a.2.rest.length (by omega) hrest rfl

theorem peek?_of_chain (hnext : Shortens next) (h : chain op? next c = .ok (e, c')) :
    c'.peek?.bind op? = none := by
  rw [chain_eq] at h
  obtain ⟨a, -, hrest⟩ := bind_eq_ok_iff.mp h
  exact peek?_of_operators hnext hrest

end Operators

/-! ## Arguments -/

section Arguments
variable {argument : Parser Expr} {c : Cursor}

/-- The arguments after the first, as many as there are. -/
def furtherArguments (argument : Parser Expr) : Parser (List Expr) :=
  fun c => moreArguments argument c.rest.length c

theorem arguments_of_closing (h : c.peek? = some .closing) : arguments argument c = .ok ([], c) :=
  if_pos h

theorem arguments_of_argument (h : c.peek? ≠ some .closing) :
    arguments argument c = argument c >>= fun a =>
      furtherArguments argument a.2 >>= fun as => .ok (a.1 :: as.1, as.2) :=
  if_neg h

theorem moreArguments_of_end (h : c.peek? ≠ some .comma) (fuel : Nat) :
    moreArguments argument fuel c = .ok ([], c) := by
  cases fuel with
  | zero => rfl
  | succ fuel => rw [moreArguments, if_neg h]

/-- It does not matter how many rounds are allowed, if there is one for each token. -/
theorem moreArguments_congr (hargument : Shortens argument) {fuel more : Nat}
    (hfuel : c.rest.length ≤ fuel) (hmore : c.rest.length ≤ more) :
    moreArguments argument fuel c = moreArguments argument more c := by
  induction fuel generalizing more c with
  | zero =>
    have hrest : c.rest = [] := List.length_eq_zero_iff.mp (Nat.le_zero.mp hfuel)
    have hend : c.peek? ≠ some .comma := by simp [Cursor.peek?, hrest]
    rw [moreArguments_of_end hend, moreArguments_of_end hend]
  | succ fuel ih =>
    by_cases hcomma : c.peek? = some .comma
    · have hadvance := Cursor.length_advance_lt hcomma
      obtain ⟨more, rfl⟩ : ∃ k, more = k + 1 := ⟨more - 1, by omega⟩
      rw [moreArguments, moreArguments, if_pos hcomma, if_pos hcomma]
      cases hread : argument c.advance with
      | error e => rfl
      | ok a =>
        have hshorter := hargument c.advance a.1 a.2 hread
        have hrounds : moreArguments argument fuel a.2 = moreArguments argument more a.2 :=
          ih (by omega) (by omega)
        simp only [ok_bind, hrounds]
    · rw [moreArguments_of_end hcomma, moreArguments_of_end hcomma]

theorem furtherArguments_of_end (h : c.peek? ≠ some .comma) :
    furtherArguments argument c = .ok ([], c) :=
  moreArguments_of_end h c.rest.length

theorem furtherArguments_of_comma (hargument : Shortens argument) (h : c.peek? = some .comma) :
    furtherArguments argument c = argument c.advance >>= fun a =>
      furtherArguments argument a.2 >>= fun as => .ok (a.1 :: as.1, as.2) := by
  have hadvance := Cursor.length_advance_lt h
  obtain ⟨fuel, hfuel⟩ : ∃ k, c.rest.length = k + 1 := ⟨c.rest.length - 1, by omega⟩
  rw [furtherArguments, hfuel, moreArguments, if_pos h]
  cases hread : argument c.advance with
  | error e => rfl
  | ok a =>
    have hshorter := hargument c.advance a.1 a.2 hread
    have hrounds : moreArguments argument fuel a.2 = furtherArguments argument a.2 :=
      moreArguments_congr hargument (by omega) (Nat.le_refl _)
    simp only [ok_bind, hrounds]
    rfl

/-- What is read from an argument on, behind those that have been read. -/
def argumentsAt (depth : Nat) (before : List Expr) : Parser (List Expr) := fun c =>
  sum (operandAt depth) c >>= fun a =>
    furtherArguments (sum (operandAt depth)) a.2 >>= fun as => .ok (before ++ a.1 :: as.1, as.2)

end Arguments

/-! ## Operands -/

section Operands
variable {c : Cursor}

/-- What is read when an operand has been opened. -/
def signedAt (depth : Nat) : Parser Expr := fun c =>
  match c.peek? with
  | some .minus => operandAt depth c.advance >>= fun a => .ok (.neg a.1, a.2)
  | some .plus => operandAt depth c.advance
  | _ => power (operandAt depth) c

/-- An operand is opened, read and closed. -/
theorem operandAt_of_lt (h : c.depth < maxNestingDepth) :
    operandAt c.depth c = signedAt c.opened.depth c.opened >>= fun a => .ok (a.1, a.2.leave) := by
  have henter : c.enter = .ok c.opened := Cursor.enter_eq_ok_iff.mpr ⟨h, rfl⟩
  rw [Grammar.Derivation.operandAt_of_lt h, operandWithin, henter, ok_bind, signedAt]
  cases c.opened.peek? with
  | none => rfl
  | some token =>
    cases token with
    | minus => exact (bind_assoc _ _ _).symm
    | _ => rfl

/-- No operand is opened beyond the limit. -/
theorem operandAt_of_eq (h : c.depth = maxNestingDepth) :
    operandAt c.depth c = .error (.tooDeep c.offset) := by
  have henter : c.enter = .error (.tooDeep c.offset) := if_neg (by omega)
  have hfuel : maxNestingDepth + 1 - c.depth = 0 + 1 := by omega
  rw [operandAt, hfuel, operandWithin, henter]
  rfl

end Operands

/-! ## One loop for both levels -/

section Climbing
variable {depth limit precedence : Nat} {op : Operator} {left : Expr} {c : Cursor} {t : Token}

/-- The operator that a token stands for between two operands, and how tight it binds. -/
def precedence? : Token → Option (Operator × Nat)
  | .plus => some (.add, 1)
  | .minus => some (.sub, 1)
  | .star => some (.mul, 2)
  | .slash => some (.div, 2)
  | _ => none

theorem additive?_of_precedence?_eq_none (h : precedence? t = none) : additive? t = none := by
  cases t <;> first | rfl | cases h

theorem multiplicative?_of_precedence?_eq_none (h : precedence? t = none) :
    multiplicative? t = none := by
  cases t <;> first | rfl | cases h

/-- An operator with a precedence joins either terms or operands. -/
theorem level_of_precedence?_eq_some (h : precedence? t = some (op, precedence)) :
    (precedence = 1 ∧ additive? t = some op ∧ multiplicative? t = none) ∨
      (precedence = 2 ∧ additive? t = none ∧ multiplicative? t = some op) := by
  cases t <;> cases h
  · exact Or.inl ⟨rfl, rfl, rfl⟩
  · exact Or.inl ⟨rfl, rfl, rfl⟩
  · exact Or.inr ⟨rfl, rfl, rfl⟩
  · exact Or.inr ⟨rfl, rfl, rfl⟩

/-- What is read inside `depth` operands, if only operators that bind as tight as the limit are
taken: a sum, a term, or a single operand. -/
def binaryAt (depth : Nat) : Nat → Parser Expr
  | 0 | 1 => sum (operandAt depth)
  | 2 => chain multiplicative? (operandAt depth)
  | _ => operandAt depth

/-- What is read behind the first operand, with the same limit. -/
def operatorsAt (depth : Nat) : Nat → Expr → Parser Expr
  | 0, left | 1, left => fun c =>
    operators multiplicative? (operandAt depth) left c >>= fun a =>
      operators additive? (chain multiplicative? (operandAt depth)) a.1 a.2
  | 2, left => operators multiplicative? (operandAt depth) left
  | _, left => fun c => .ok (left, c)

theorem operatorsAt_one (depth : Nat) (left : Expr) (c : Cursor) :
    operatorsAt depth 1 left c =
      operators multiplicative? (operandAt depth) left c >>= fun a =>
        operators additive? (chain multiplicative? (operandAt depth)) a.1 a.2 := rfl

theorem binaryAt_eq (depth limit : Nat) (c : Cursor) :
    binaryAt depth limit c =
      operandAt depth c >>= fun a => operatorsAt depth limit a.1 a.2 := by
  have hsum : sum (operandAt depth) c =
      operandAt depth c >>= fun a => operators multiplicative? (operandAt depth) a.1 a.2 >>=
        fun a => operators additive? (chain multiplicative? (operandAt depth)) a.1 a.2 := by
    rw [sum, chain_eq, chain_eq, bind_assoc]
  match limit with
  | 0 => exact hsum
  | 1 => exact hsum
  | 2 => exact chain_eq _ _ c
  | _ + 3 => exact (bind_pure (operandAt depth c)).symm

theorem operatorsAt_of_none (h : c.peek?.bind precedence? = none) :
    operatorsAt depth limit left c = .ok (left, c) := by
  have hnone := Option.bind_eq_none_iff.mp h
  have hfactor : c.peek?.bind multiplicative? = none :=
    Option.bind_eq_none_iff.mpr fun t ht => multiplicative?_of_precedence?_eq_none (hnone t ht)
  have haddend : c.peek?.bind additive? = none :=
    Option.bind_eq_none_iff.mpr fun t ht => additive?_of_precedence?_eq_none (hnone t ht)
  have hsum : operatorsAt depth 1 left c = .ok (left, c) := by
    rw [operatorsAt_one, operators_of_none hfactor, ok_bind, operators_of_none haddend]
  match limit with
  | 0 => exact hsum
  | 1 => exact hsum
  | 2 => exact operators_of_none hfactor
  | _ + 3 => rfl

theorem operatorsAt_of_lt (h : c.peek?.bind precedence? = some (op, precedence))
    (hlimit : precedence < limit) : operatorsAt depth limit left c = .ok (left, c) := by
  obtain ⟨t, ht, hop⟩ := Option.bind_eq_some_iff.mp h
  have hfactor (hnone : multiplicative? t = none) : c.peek?.bind multiplicative? = none := by
    rw [ht, Option.bind_some, hnone]
  obtain ⟨rfl, -, hnone⟩ | ⟨rfl, -, -⟩ := level_of_precedence?_eq_some hop
  · match limit, hlimit with
    | 2, _ => exact operators_of_none (hfactor hnone)
    | _ + 3, _ => rfl
  · match limit, hlimit with
    | _ + 3, _ => rfl

/-- A sum goes on behind a further term as it would behind the first one. -/
theorem operatorsAt_of_additive (haddend : c.peek?.bind additive? = some op)
    (hfactor : c.peek?.bind multiplicative? = none) :
    operatorsAt depth 1 left c =
      binaryAt depth 2 c.advance >>= fun a => operatorsAt depth 1 (.binary op left a.1) a.2 := by
  rw [operatorsAt_one, operators_of_none hfactor, ok_bind,
    operators_of_some (shortens_term depth) haddend]
  cases hterm : chain multiplicative? (operandAt depth) c.advance with
  | error e => rw [binaryAt, hterm]; rfl
  | ok a =>
    have hend := peek?_of_chain (shortens_operandAt depth) hterm
    simp only [binaryAt, hterm, ok_bind, operatorsAt_one, operators_of_none hend]

theorem operatorsAt_of_multiplicative (hfactor : c.peek?.bind multiplicative? = some op)
    (hlimit : limit ≤ 2) :
    operatorsAt depth limit left c =
      operandAt depth c.advance >>= fun a =>
        operatorsAt depth limit (.binary op left a.1) a.2 := by
  have hfactors : operators multiplicative? (operandAt depth) left c = operandAt depth c.advance >>=
      fun a => operators multiplicative? (operandAt depth) (.binary op left a.1) a.2 :=
    operators_of_some (shortens_operandAt depth) hfactor
  have hsum : operatorsAt depth 1 left c = operandAt depth c.advance >>= fun a =>
      operatorsAt depth 1 (.binary op left a.1) a.2 := by
    rw [operatorsAt_one, hfactors, bind_assoc]
    rfl
  match limit, hlimit with
  | 0, _ => exact hsum
  | 1, _ => exact hsum
  | 2, _ => exact hfactors

/-- An operator that binds tight enough takes its right operand: what binds tighter still. -/
theorem operatorsAt_of_le (h : c.peek?.bind precedence? = some (op, precedence))
    (hlimit : limit ≤ precedence) :
    operatorsAt depth limit left c =
      binaryAt depth (precedence + 1) c.advance >>= fun a =>
        operatorsAt depth limit (.binary op left a.1) a.2 := by
  obtain ⟨t, ht, hop⟩ := Option.bind_eq_some_iff.mp h
  obtain ⟨rfl, hsome, hnone⟩ | ⟨rfl, -, hsome⟩ := level_of_precedence?_eq_some hop
  · have haddend : c.peek?.bind additive? = some op := by rw [ht, Option.bind_some, hsome]
    have hfactor : c.peek?.bind multiplicative? = none := by rw [ht, Option.bind_some, hnone]
    match limit, hlimit with
    | 0, _ => exact operatorsAt_of_additive haddend hfactor
    | 1, _ => exact operatorsAt_of_additive haddend hfactor
  · have hfactor : c.peek?.bind multiplicative? = some op := by rw [ht, Option.bind_some, hsome]
    exact operatorsAt_of_multiplicative hfactor hlimit

end Climbing
end Parser
end Plotting
