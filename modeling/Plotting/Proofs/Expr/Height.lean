import Mathlib.Order.Lattice
import Plotting.Proofs.Expr.Parsing
import Plotting.Proofs.Expr.Splitting

/-!
# How high the tree of a formula is

Evaluation descends the tree of a formula, so as many evaluations are nested in one another as the
tree is high (`Expr.evalWithin_eq`).  The limit on nested operands bounds the height, but not alone.
An operator in a chain opens no operand for what stands to its left: a sum is read in a loop, and
leans to the left by one node for each of its operators.  So the height is bounded by the limit and
the length of the longest chain together (`Expr.height_lt_of_parse`), and by the limit alone it is
not bounded (`Expr.height_unbounded`).

The bound comes from an induction on derivations.  Each operand that is open contributes at most the
operators of one sum and of one term around it, one power and one call.
-/

namespace Plotting

namespace Expr

/-! ## Height and evaluation -/

/-- The number of nodes on a longest path from the root. -/
def height : Expr → ℕ
  | .number _ | .var | .constant _ => 1
  | .neg operand => operand.height + 1
  | .binary _ left right => max left.height right.height + 1
  | .call _ argument => argument.height + 1
  | .callPow base exponent => max base.height exponent.height + 1

/-- The value of a formula at `x`, worked out with at most so many evaluations in one another. -/
def evalWithin (x : Float) : ℕ → Expr → Option Float
  | 0, _ => none
  | _ + 1, .number value => some value
  | _ + 1, .var => some x
  | _ + 1, .constant c => some c.value
  | levels + 1, .neg operand => do
    return -(← evalWithin x levels operand)
  | levels + 1, .binary op left right => do
    return op.apply (← evalWithin x levels left) (← evalWithin x levels right)
  | levels + 1, .call f argument => do
    return f.apply (← evalWithin x levels argument)
  | levels + 1, .callPow base exponent => do
    return (← evalWithin x levels base).pow (← evalWithin x levels exponent)

theorem height_pos (e : Expr) : 0 < e.height := by
  cases e <;> exact Nat.succ_pos _

/-- Evaluation takes as many levels as the tree is high. -/
theorem evalWithin_eq (x : Float) (levels : ℕ) (e : Expr) :
    evalWithin x levels e = if e.height ≤ levels then some (e.eval x) else none := by
  induction levels generalizing e with
  | zero => rw [evalWithin, if_neg (Nat.not_le.mpr e.height_pos)]
  | succ levels ih =>
    cases e with
    | number | var | constant => simp [evalWithin, height, eval]
    | neg operand => by_cases h : operand.height ≤ levels <;> simp [evalWithin, height, eval, ih, h]
    | call f argument =>
      by_cases h : argument.height ≤ levels <;> simp [evalWithin, height, eval, ih, h]
    | binary op left right =>
      by_cases h : left.height ≤ levels <;> by_cases h' : right.height ≤ levels <;>
        simp [evalWithin, height, eval, ih, h, h']
    | callPow base exponent =>
      by_cases h : base.height ≤ levels <;> by_cases h' : exponent.height ≤ levels <;>
        simp [evalWithin, height, eval, ih, h, h']

end Expr

/-- A call is one node above its arguments. -/
theorem Callable.height_apply_le {f : Callable} {args : { as : List Expr // as.length = f.arity }}
    {h : ℕ} (hargs : ∀ a ∈ args.val, a.height ≤ h) : (f.apply args).height ≤ h + 1 := by
  have hcall := f.call?_eq_some_apply args
  generalize f.apply args = e at hcall
  unfold call? at hcall
  split at hcall
  · next hval =>
    cases hcall
    rw [hval] at hargs
    exact Nat.succ_le_succ (hargs _ List.mem_cons_self)
  · next hval =>
    cases hcall
    rw [hval] at hargs
    obtain ⟨ha, hb⟩ := List.forall_mem_cons.mp hargs
    exact Nat.succ_le_succ (max_le ha (hb _ List.mem_cons_self))
  · cases hcall

namespace Grammar
namespace Derivation
variable {n : Nonterminal}

/-! ## Chains -/

/-- The number of operators in what follows the first operand of a chain. -/
def operators : {n : Nonterminal} → Derivation n → ℕ
  | _, .addend _ _ rest => rest.operators + 1
  | _, .factor _ _ rest => rest.operators + 1
  | _, _ => 0

/-- The number of operators in the longest chain: of plus and minus signs between the terms of one
sum, or of stars and slashes between the factors of one term. -/
def longestChain : {n : Nonterminal} → Derivation n → ℕ
  | _, .sum first rest => max first.longestChain rest.longestChain
  | _, .noAddend => 0
  | _, .addend _ operand rest =>
    max (rest.operators + 1) (max operand.longestChain rest.longestChain)
  | _, .term first rest => max first.longestChain rest.longestChain
  | _, .noFactor => 0
  | _, .factor _ operand rest =>
    max (rest.operators + 1) (max operand.longestChain rest.longestChain)
  | _, .signed _ operand => operand.longestChain
  | _, .unsigned operand => operand.longestChain
  | _, .plain base => base.longestChain
  | _, .raised base exponent => max base.longestChain exponent.longestChain
  | _, .number _ => 0
  | _, .var => 0
  | _, .constant _ => 0
  | _, .group inner => inner.longestChain
  | _, .call _ args => args.longestChain
  | _, .noArgument => 0
  | _, .arguments first rest => max first.longestChain rest.longestChain
  | _, .noMoreArgument => 0
  | _, .moreArguments first rest => max first.longestChain rest.longestChain

theorem operators_le_longestChain (d : Derivation n) : d.operators ≤ d.longestChain := by
  cases d <;> simp [operators, longestChain]

/-! ## Heights of phrases -/

/-- The tree of the phrase is as low as it has to be when chains have at most `k` operators and at
most `nested` operands are nested.  The tree of a chain grows by one node for each operator. -/
def IsLow (k nested : ℕ) : {n : Nonterminal} → Derivation n → Prop
  | .sum, d => Expr.height d.tree + 1 ≤ nested * (2 * k + 2)
  | .addends, d => ∀ (left : Expr) (j : ℕ), left.height + 1 + k ≤ nested * (2 * k + 2) + j →
      Expr.height (d.tree left) + 1 + k ≤ nested * (2 * k + 2) + (j + d.operators)
  | .term, d => Expr.height d.tree + 1 + k ≤ nested * (2 * k + 2)
  | .factors, d => ∀ (left : Expr) (j : ℕ), left.height + 1 + 2 * k ≤ nested * (2 * k + 2) + j →
      Expr.height (d.tree left) + 1 + 2 * k ≤ nested * (2 * k + 2) + (j + d.operators)
  | .unary, d => Expr.height d.tree + 1 + 2 * k ≤ nested * (2 * k + 2)
  | .power, d => Expr.height d.tree ≤ nested * (2 * k + 2) + 1
  | .atom, d => Expr.height d.tree ≤ max 1 (nested * (2 * k + 2))
  | .arguments _, d => ∀ a ∈ d.tree.val, Expr.height a + 1 ≤ nested * (2 * k + 2)
  | .moreArguments _, d => ∀ a ∈ d.tree.val, Expr.height a + 1 ≤ nested * (2 * k + 2)

section Productions
variable {k nested : ℕ}

theorem IsLow.sum {first : Derivation .term} {rest : Derivation .addends}
    (hfirst : first.IsLow k nested) (hrest : rest.IsLow k nested) (hk : rest.operators ≤ k) :
    (Derivation.sum first rest).IsLow k nested := by
  have hwhole := hrest first.tree 0 hfirst
  simp only [IsLow, tree]
  omega

theorem isLow_noAddend : noAddend.IsLow k nested := fun _ _ hleft => hleft

theorem IsLow.addend (s : Sign) {operand : Derivation .term} {rest : Derivation .addends}
    (hoperand : operand.IsLow k nested) (hrest : rest.IsLow k nested) :
    (Derivation.addend s operand rest).IsLow k nested := by
  intro left j hleft
  simp only [IsLow] at hoperand
  have hjoined : Expr.height (.binary s.operator left operand.tree) + 1 + k ≤
      nested * (2 * k + 2) + (j + 1) := by
    simp only [Expr.height]
    omega
  have hwhole := hrest _ _ hjoined
  simp only [tree, operators]
  omega

theorem IsLow.term {first : Derivation .unary} {rest : Derivation .factors}
    (hfirst : first.IsLow k nested) (hrest : rest.IsLow k nested) (hk : rest.operators ≤ k) :
    (Derivation.term first rest).IsLow k nested := by
  have hwhole := hrest first.tree 0 hfirst
  simp only [IsLow, tree]
  omega

theorem isLow_noFactor : noFactor.IsLow k nested := fun _ _ hleft => hleft

theorem IsLow.factor (s : Scale) {operand : Derivation .unary} {rest : Derivation .factors}
    (hoperand : operand.IsLow k nested) (hrest : rest.IsLow k nested) :
    (Derivation.factor s operand rest).IsLow k nested := by
  intro left j hleft
  simp only [IsLow] at hoperand
  have hjoined : Expr.height (.binary s.operator left operand.tree) + 1 + 2 * k ≤
      nested * (2 * k + 2) + (j + 1) := by
    simp only [Expr.height]
    omega
  have hwhole := hrest _ _ hjoined
  simp only [tree, operators]
  omega

theorem IsLow.signed (s : Sign) {operand : Derivation .unary} (hoperand : operand.IsLow k nested) :
    (Derivation.signed s operand).IsLow k (nested + 1) := by
  have hsigned : (s.signed operand.tree).height ≤ Expr.height operand.tree + 1 := by
    cases s with
    | plus => exact Nat.le_succ _
    | minus => exact Nat.le_refl _
  simp only [IsLow] at hoperand
  simp only [IsLow, tree]
  rw [Nat.succ_mul nested]
  omega

theorem IsLow.unsigned {operand : Derivation .power} (hoperand : operand.IsLow k nested) :
    (Derivation.unsigned operand).IsLow k (nested + 1) := by
  simp only [IsLow] at hoperand
  simp only [IsLow, tree]
  rw [Nat.succ_mul nested]
  omega

theorem IsLow.plain {base : Derivation .atom} (hbase : base.IsLow k nested) :
    (Derivation.plain base).IsLow k nested := by
  simp only [IsLow] at hbase
  simp only [IsLow, tree]
  omega

theorem IsLow.raised {base : Derivation .atom} {exponent : Derivation .unary}
    (hbase : base.IsLow k nested) (hexponent : exponent.IsLow k nested) :
    (Derivation.raised base exponent).IsLow k nested := by
  simp only [IsLow] at hbase hexponent
  simp only [IsLow, tree, Expr.height]
  omega

theorem IsLow.group {inner : Derivation .sum} (hinner : inner.IsLow k nested) :
    (Derivation.group inner).IsLow k nested := by
  simp only [IsLow] at hinner
  simp only [IsLow, tree]
  omega

theorem IsLow.call (f : Callable) {args : Derivation (.arguments f.arity)}
    (hargs : args.IsLow k nested) : (Derivation.call f args).IsLow k nested := by
  have hlow : ∀ a ∈ args.tree.val, a.height ≤ nested * (2 * k + 2) - 1 :=
    fun a ha => Nat.le_sub_one_of_lt (hargs a ha)
  have happly : (f.apply args.tree).height ≤ nested * (2 * k + 2) - 1 + 1 :=
    Callable.height_apply_le hlow
  simp only [IsLow, tree]
  omega

theorem IsLow.arguments {m : ℕ} {first : Derivation .sum} {rest : Derivation (.moreArguments m)}
    (hfirst : first.IsLow k nested) (hrest : rest.IsLow k nested) :
    (Derivation.arguments first rest).IsLow k nested :=
  List.forall_mem_cons.mpr ⟨hfirst, hrest⟩

theorem IsLow.moreArguments {m : ℕ} {first : Derivation .sum}
    {rest : Derivation (.moreArguments m)} (hfirst : first.IsLow k nested)
    (hrest : rest.IsLow k nested) : (Derivation.moreArguments first rest).IsLow k nested :=
  List.forall_mem_cons.mpr ⟨hfirst, hrest⟩

end Productions

/-- Every tree is as low as the longest chain and the nested operands of its derivation make it. -/
theorem isLow {k : ℕ} (d : Derivation n) (hk : d.longestChain ≤ k) {nested : ℕ}
    (hnested : d.nesting ≤ nested) : d.IsLow k nested := by
  induction d generalizing nested with
  | sum first rest hfirst hrest =>
    obtain ⟨hk₁, hk₂⟩ := max_le_iff.mp hk
    obtain ⟨hn₁, hn₂⟩ := max_le_iff.mp hnested
    exact (hfirst hk₁ hn₁).sum (hrest hk₂ hn₂) (rest.operators_le_longestChain.trans hk₂)
  | noAddend => exact isLow_noAddend
  | addend s operand rest hoperand hrest =>
    obtain ⟨hk₁, hk₂⟩ := max_le_iff.mp (max_le_iff.mp hk).2
    obtain ⟨hn₁, hn₂⟩ := max_le_iff.mp hnested
    exact (hoperand hk₁ hn₁).addend s (hrest hk₂ hn₂)
  | term first rest hfirst hrest =>
    obtain ⟨hk₁, hk₂⟩ := max_le_iff.mp hk
    obtain ⟨hn₁, hn₂⟩ := max_le_iff.mp hnested
    exact (hfirst hk₁ hn₁).term (hrest hk₂ hn₂) (rest.operators_le_longestChain.trans hk₂)
  | noFactor => exact isLow_noFactor
  | factor s operand rest hoperand hrest =>
    obtain ⟨hk₁, hk₂⟩ := max_le_iff.mp (max_le_iff.mp hk).2
    obtain ⟨hn₁, hn₂⟩ := max_le_iff.mp hnested
    exact (hoperand hk₁ hn₁).factor s (hrest hk₂ hn₂)
  | signed s operand hoperand =>
    obtain ⟨inside, rfl⟩ : ∃ inside, nested = inside + 1 :=
      ⟨nested - 1, by simp only [nesting] at hnested; omega⟩
    exact (hoperand hk (Nat.le_of_succ_le_succ hnested)).signed s
  | unsigned operand hoperand =>
    obtain ⟨inside, rfl⟩ : ∃ inside, nested = inside + 1 :=
      ⟨nested - 1, by simp only [nesting] at hnested; omega⟩
    exact (hoperand hk (Nat.le_of_succ_le_succ hnested)).unsigned
  | plain base hbase => exact (hbase hk hnested).plain
  | raised base exponent hbase hexponent =>
    obtain ⟨hk₁, hk₂⟩ := max_le_iff.mp hk
    obtain ⟨hn₁, hn₂⟩ := max_le_iff.mp hnested
    exact (hbase hk₁ hn₁).raised (hexponent hk₂ hn₂)
  | number | var | constant => exact le_max_left _ _
  | group inner hinner => exact (hinner hk hnested).group
  | call f args hargs => exact (hargs hk hnested).call f
  | noArgument | noMoreArgument => exact List.forall_mem_nil _
  | arguments first rest hfirst hrest =>
    obtain ⟨hk₁, hk₂⟩ := max_le_iff.mp hk
    obtain ⟨hn₁, hn₂⟩ := max_le_iff.mp hnested
    exact (hfirst hk₁ hn₁).arguments (hrest hk₂ hn₂)
  | moreArguments first rest hfirst hrest =>
    obtain ⟨hk₁, hk₂⟩ := max_le_iff.mp hk
    obtain ⟨hn₁, hn₂⟩ := max_le_iff.mp hnested
    exact (hfirst hk₁ hn₁).moreArguments (hrest hk₂ hn₂)

end Derivation
end Grammar

namespace Expr

open Grammar

/-! ## The bound -/

/-- **The limit on nested operands and the longest chain bound the height of a formula**, and with
it the evaluations that are nested in one another. -/
theorem height_lt_of_parse {text : String} {e : Expr} (h : parse text = .ok e) :
    ∃ (tokens : List Located) (d : Derivation .sum),
      Token.scan text = .ok tokens ∧ d.yield = tokens.map Located.token ∧ d.tree = e ∧
        e.height < maxNestingDepth * (2 * d.longestChain + 2) ∧
        ∀ x, evalWithin x (maxNestingDepth * (2 * d.longestChain + 2)) e = some (e.eval x) := by
  obtain ⟨tokens, hscan, htokens⟩ := Parser.bind_eq_ok_iff.mp h
  obtain ⟨d, hyield, hnesting, rfl⟩ := ofTokens_eq_ok_iff.mp htokens
  have hheight : d.tree.height < maxNestingDepth * (2 * d.longestChain + 2) :=
    d.isLow le_rfl hnesting
  exact ⟨tokens, d, hscan, hyield, rfl, hheight,
    fun x => (evalWithin_eq x _ _).trans (if_pos hheight.le)⟩

/-! ## Chains without end -/

/-- A first term that is the variable. -/
def variableTerm : Derivation .term :=
  .term (.unsigned (.plain .var)) .noFactor

/-- The variable added so many times. -/
def additions : ℕ → Derivation .addends
  | 0 => .noAddend
  | k + 1 => .addend .plus variableTerm (additions k)

/-- The text of the variable added so many times. -/
def additionsText : ℕ → List Char
  | 0 => []
  | k + 1 => '+' :: 'x' :: additionsText k

/-- The tokens of the variable added so many times. -/
def additionsTokens (offset : ℕ) : ℕ → List Located
  | 0 => []
  | k + 1 => ⟨.plus, offset⟩ :: ⟨.ident "x", offset + 1⟩ :: additionsTokens (offset + 2) k

theorem yield_additions (k offset : ℕ) :
    (additions k).yield = (additionsTokens offset k).map Located.token := by
  induction k generalizing offset with
  | zero => rfl
  | succ k ih =>
    rw [additionsTokens, List.map_cons, List.map_cons, ← ih (offset + 2)]
    rfl

theorem nesting_additions (k : ℕ) : (additions k).nesting ≤ 1 := by
  induction k with
  | zero => exact Nat.zero_le _
  | succ k ih => exact max_le le_rfl ih

theorem height_tree_additions (k : ℕ) (left : Expr) :
    ((additions k).tree left).height = left.height + k := by
  induction k generalizing left with
  | zero => rfl
  | succ k ih =>
    have hleft := left.height_pos
    have hjoined : (binary .add left .var).height = left.height + 1 := by
      simp only [height]
      omega
    have hrest := ih (.binary .add left .var)
    rw [hjoined, Nat.add_right_comm] at hrest
    exact hrest

/-- No name goes on where the variable is added. -/
theorem takeWhile_additionsText (k : ℕ) :
    (additionsText k ++ []).takeWhile Token.continuesIdent = [] := by
  cases k <;> rfl

theorem splits_additionsText (k offset : ℕ) :
    Token.Splits offset (additionsText k) [] (additionsTokens offset k) := by
  induction k generalizing offset with
  | zero => exact .nil
  | succ k ih =>
    exact .mark (by decide) (by decide) (.var (takeWhile_additionsText k) (ih (offset + 2)))

/-- A sum of the variable with itself is as high as it is long. -/
theorem exists_parse_additionsText (k : ℕ) :
    ∃ e, parse (String.ofList ('x' :: additionsText k)) = .ok e ∧ e.height = k + 1 := by
  have hscan : Token.scan (String.ofList ('x' :: additionsText k)) =
      .ok (⟨.ident "x", 0⟩ :: additionsTokens 1 k) := by
    rw [Token.scan, String.toList_ofList, Token.scanFrom_eq_ok_iff]
    exact .var (takeWhile_additionsText k) (splits_additionsText k 1)
  have hyield : (Derivation.sum variableTerm (additions k)).yield =
      (Located.mk (.ident "x") 0 :: additionsTokens 1 k).map Located.token := by
    rw [List.map_cons, ← yield_additions k 1]
    rfl
  have hnesting : (Derivation.sum variableTerm (additions k)).nesting ≤ maxNestingDepth :=
    (max_le le_rfl (nesting_additions k)).trans (by decide)
  refine ⟨(additions k).tree .var, ?_, ?_⟩
  · rw [parse, hscan, Parser.ok_bind]
    exact ofTokens_eq_ok_iff.mpr ⟨_, hyield, hnesting, rfl⟩
  · rw [height_tree_additions, Nat.add_comm]
    rfl

/-- A chain of a hundred operators is higher than the limit, and stays below the bound. -/
theorem height_lt_of_parse_additions :
    ∃ e, parse (String.ofList ('x' :: additionsText 100)) = .ok e ∧ maxNestingDepth < e.height ∧
      ∃ (tokens : List Located) (d : Derivation .sum),
        Token.scan (String.ofList ('x' :: additionsText 100)) = .ok tokens ∧
          d.yield = tokens.map Located.token ∧ d.tree = e ∧
          e.height < maxNestingDepth * (2 * d.longestChain + 2) ∧
          ∀ x, evalWithin x (maxNestingDepth * (2 * d.longestChain + 2)) e = some (e.eval x) := by
  obtain ⟨e, hread, hheight⟩ := exists_parse_additionsText 100
  refine ⟨e, hread, ?_, height_lt_of_parse hread⟩
  rw [hheight]
  decide

/-- No number bounds the height of all formulas that are accepted. -/
theorem height_unbounded : ¬ ∃ bound, ∀ text e, parse text = .ok e → e.height ≤ bound := by
  rintro ⟨bound, hbound⟩
  obtain ⟨e, hread, hheight⟩ := exists_parse_additionsText bound
  have hle := hbound _ e hread
  omega

end Expr
end Plotting
