import Mathlib.Order.Lattice
import Plotting.Proofs.Expr.Parsing
import Plotting.Proofs.Expr.Splitting
import Plotting.Proofs.Expr.TooDeep

/-!
# How deep a formula may nest

The depth of a formula is counted at its atoms: each number and each name stands inside so many
groups, parentheses of calls, operands of signs and exponents (`Derivation.enclosures`), and the
formula is as deep as the deepest of them.  The parser counts something else, namely the operands
that are open, and an atom is an operand even where nothing encloses it.  So it counts one more than
there is (`Derivation.nesting_eq_depth`), and the limit of `maxNestingDepth` open operands admits
formulas of less than that depth only.  At the limit itself a formula is refused, with a message
that it exceeds the limit.
-/

namespace Plotting
namespace Grammar

/-- Whether each phrase of the nonterminal holds an atom.  What may follow the first operand of a
chain need not, and neither need arguments, if there are none. -/
def Nonterminal.HasAtom : Nonterminal → Prop
  | .sum | .term | .unary | .power | .atom => True
  | .addends | .factors => False
  | .arguments n | .moreArguments n => n ≠ 0

/-- The operands that a phrase of the nonterminal opens around each of its atoms, the enclosures
apart: an atom and a power stand in an operand, and the others hold the operand. -/
def Nonterminal.opened : Nonterminal → ℕ
  | .power | .atom => 0
  | _ => 1

namespace Derivation
variable {n : Nonterminal}

/-! ## Enclosures -/

/-- For each number, variable and constant, from left to right, how many groups, parentheses of
calls, operands of signs and exponents enclose it. -/
def enclosures : {n : Nonterminal} → Derivation n → List ℕ
  | _, .sum first rest => first.enclosures ++ rest.enclosures
  | _, .noAddend => []
  | _, .addend _ operand rest => operand.enclosures ++ rest.enclosures
  | _, .term first rest => first.enclosures ++ rest.enclosures
  | _, .noFactor => []
  | _, .factor _ operand rest => operand.enclosures ++ rest.enclosures
  | _, .signed _ operand => operand.enclosures.map (· + 1)
  | _, .unsigned operand => operand.enclosures
  | _, .plain base => base.enclosures
  | _, .raised base exponent => base.enclosures ++ exponent.enclosures.map (· + 1)
  | _, .number _ => [0]
  | _, .var => [0]
  | _, .constant _ => [0]
  | _, .group inner => inner.enclosures.map (· + 1)
  | _, .call _ args => args.enclosures.map (· + 1)
  | _, .noArgument => []
  | _, .arguments first rest => first.enclosures ++ rest.enclosures
  | _, .noMoreArgument => []
  | _, .moreArguments first rest => first.enclosures ++ rest.enclosures

/-- The largest number of enclosures around one atom. -/
def depth (d : Derivation n) : ℕ :=
  d.enclosures.foldr max 0

theorem depth_le_iff {d : Derivation n} {k : ℕ} : d.depth ≤ k ↔ ∀ m ∈ d.enclosures, m ≤ k := by
  rw [depth]
  induction d.enclosures with
  | nil => simp
  | cons m ms ih => rw [List.foldr_cons, max_le_iff, ih, List.forall_mem_cons]

theorem enclosures_ne_nil (d : Derivation n) (h : n.HasAtom) : d.enclosures ≠ [] := by
  induction d with
  | sum first rest hfirst hrest => exact List.append_ne_nil_of_left_ne_nil (hfirst trivial) _
  | term first rest hfirst hrest => exact List.append_ne_nil_of_left_ne_nil (hfirst trivial) _
  | signed s operand hoperand => exact mt List.map_eq_nil_iff.mp (hoperand trivial)
  | unsigned operand hoperand => exact hoperand trivial
  | plain base hbase => exact hbase trivial
  | raised base exponent hbase hexponent =>
    exact List.append_ne_nil_of_left_ne_nil (hbase trivial) _
  | number | var | constant => exact List.cons_ne_nil _ _
  | group inner hinner => exact mt List.map_eq_nil_iff.mp (hinner trivial)
  | call f args hargs =>
    have harity : f.arity ≠ 0 := by cases f <;> exact Nat.succ_ne_zero _
    exact mt List.map_eq_nil_iff.mp (hargs harity)
  | arguments first rest hfirst hrest => exact List.append_ne_nil_of_left_ne_nil (hfirst trivial) _
  | moreArguments first rest hfirst hrest =>
    exact List.append_ne_nil_of_left_ne_nil (hfirst trivial) _
  | noAddend | addend | noFactor | factor => exact h.elim
  | noArgument | noMoreArgument => exact absurd rfl h

/-! ## Open operands -/

/-- An operand opened around a phrase with an atom counts for each of its atoms. -/
theorem succ_nesting_le_iff {d : Derivation n} (h : n.HasAtom) {f : ℕ → ℕ}
    (hf : ∀ k, d.nesting ≤ k ↔ ∀ m ∈ d.enclosures, f m ≤ k) {k : ℕ} :
    d.nesting + 1 ≤ k ↔ ∀ m ∈ d.enclosures, f m + 1 ≤ k := by
  cases k with
  | zero =>
    obtain ⟨m, hm⟩ := List.exists_mem_of_ne_nil _ (d.enclosures_ne_nil h)
    exact ⟨fun hle => absurd hle (Nat.not_succ_le_zero _),
      fun hle => absurd (hle m hm) (Nat.not_succ_le_zero _)⟩
  | succ k => simpa only [Nat.succ_le_succ_iff] using hf k

/-- The operands that are open around an atom are its enclosures and the operand that the atom is
itself. -/
theorem nesting_le_iff (d : Derivation n) (k : ℕ) :
    d.nesting ≤ k ↔ ∀ m ∈ d.enclosures, m + n.opened ≤ k := by
  induction d generalizing k with
  | sum first rest hfirst hrest | addend s first rest hfirst hrest
  | term first rest hfirst hrest | factor s first rest hfirst hrest
  | arguments first rest hfirst hrest | moreArguments first rest hfirst hrest =>
    rw [nesting, max_le_iff, hfirst, hrest, enclosures, List.forall_mem_append]
    rfl
  | signed s operand hoperand =>
    rw [nesting, succ_nesting_le_iff (n := .unary) trivial hoperand, enclosures, List.forall_mem_map]
    rfl
  | unsigned operand hoperand =>
    rw [nesting, succ_nesting_le_iff (n := .power) trivial hoperand]
    rfl
  | plain base hbase => exact hbase k
  | raised base exponent hbase hexponent =>
    rw [nesting, max_le_iff, hbase, hexponent, enclosures, List.forall_mem_append,
      List.forall_mem_map]
    rfl
  | group inner hinner =>
    rw [nesting, hinner, enclosures, List.forall_mem_map]
    rfl
  | call f args hargs =>
    rw [nesting, hargs, enclosures, List.forall_mem_map]
    rfl
  | number | var | constant => simp [enclosures, Nonterminal.opened]
  | noAddend | noFactor | noArgument | noMoreArgument => simp [enclosures]

/-- A formula opens one operand more than its depth. -/
theorem nesting_eq_depth (d : Derivation .sum) : d.nesting = d.depth + 1 := by
  have hiff : ∀ k, d.nesting ≤ k + 1 ↔ d.depth ≤ k := by
    intro k
    rw [nesting_le_iff, depth_le_iff]
    simp only [Nonterminal.opened, Nat.succ_le_succ_iff]
  have hpos : ¬ d.nesting ≤ 0 := by
    obtain ⟨m, hm⟩ := List.exists_mem_of_ne_nil _ (d.enclosures_ne_nil trivial)
    rw [nesting_le_iff]
    exact fun hle => absurd (hle m hm) (Nat.not_succ_le_zero m)
  have hle := (hiff d.depth).mpr le_rfl
  have hge := (hiff (d.nesting - 1)).mp (by omega)
  omega

end Derivation
end Grammar

namespace Expr

open Grammar

variable {text : String} {tokens : List Located} {d : Derivation .sum}

theorem parse_of_depth_lt (hscan : Token.scan text = .ok tokens)
    (hyield : d.yield = tokens.map Located.token) (hdepth : d.depth < maxNestingDepth) :
    parse text = .ok d.tree := by
  have hnesting := d.nesting_eq_depth
  rw [parse, hscan, Parser.ok_bind]
  exact ofTokens_eq_ok_iff.mpr ⟨d, hyield, by omega, rfl⟩

theorem givesUp_parse (hscan : Token.scan text = .ok tokens)
    (hyield : d.yield = tokens.map Located.token) (hdepth : maxNestingDepth ≤ d.depth) :
    GivesUp (parse text) := by
  have hnesting := d.nesting_eq_depth
  rw [parse, hscan, Parser.ok_bind]
  exact givesUp_ofTokens hyield (by omega)

/-- **Formulas of less than the limiting depth are accepted, and all others are refused for their
depth.**  Where the tokens of a text can be derived, whatever the depth, nothing else can be wrong
with it. -/
theorem parse_admits_less_than_limit (hscan : Token.scan text = .ok tokens)
    (hyield : d.yield = tokens.map Located.token) :
    (d.depth < maxNestingDepth → parse text = .ok d.tree) ∧
      (maxNestingDepth ≤ d.depth → ∃ offset, parse text = .error (.tooDeep offset)) :=
  ⟨parse_of_depth_lt hscan hyield, givesUp_parse hscan hyield⟩

/-! ## Groups -/

/-- So many groups around the variable. -/
def groups : ℕ → Derivation .sum
  | 0 => .sum (.term (.unsigned (.plain .var)) .noFactor) .noAddend
  | k + 1 => .sum (.term (.unsigned (.plain (.group (groups k)))) .noFactor) .noAddend

theorem tree_groups (k : ℕ) : (groups k).tree = .var := by
  induction k with
  | zero => rfl
  | succ k ih => exact ih

theorem enclosures_groups (k : ℕ) : (groups k).enclosures = [k] := by
  induction k with
  | zero => rfl
  | succ k ih => simp [groups, Derivation.enclosures, ih]

theorem depth_groups (k : ℕ) : (groups k).depth = k := by
  rw [Derivation.depth, enclosures_groups, List.foldr_cons, List.foldr_nil, Nat.max_zero]

/-- The text of so many groups around the variable. -/
def groupsText (k : ℕ) : String :=
  String.ofList (List.replicate k '(' ++ 'x' :: List.replicate k ')')

/-- The tokens of so many groups around the variable. -/
def groupsTokens (k : ℕ) : List Located :=
  (List.range' 0 k).map (⟨.opening, ·⟩) ++
    ⟨.ident "x", k⟩ :: (List.range' (k + 1) k).map (⟨.closing, ·⟩)

theorem yield_groups (k : ℕ) : (groups k).yield = (groupsTokens k).map Located.token := by
  have hreplicate : (groups k).yield =
      List.replicate k .opening ++ .ident "x" :: List.replicate k .closing := by
    induction k with
    | zero => rfl
    | succ k ih => simp [groups, ih, List.replicate_succ, ← List.replicate_succ']
  simp [hreplicate, groupsTokens, Function.comp_def, List.map_const']

/-- A mark that is repeated splits into as many tokens. -/
theorem splits_replicate {c : Char} {t : Token} (hmark : (c, t) ∈ Token.punctuation)
    (hstar : c ≠ '*') {k offset : ℕ} {front rest : List Char} {found : List Located}
    (h : Token.Splits (offset + k) front rest found) :
    Token.Splits offset (List.replicate k c ++ front) rest
      ((List.range' offset k).map (⟨t, ·⟩) ++ found) := by
  induction k generalizing offset with
  | zero => exact h
  | succ k ih =>
    rw [List.replicate_succ, List.range'_succ]
    exact .mark hmark hstar (ih (by rwa [Nat.add_assoc, Nat.add_comm 1 k]))

theorem scan_groupsText (k : ℕ) : Token.scan (groupsText k) = .ok (groupsTokens k) := by
  have hclosing : Token.Splits (k + 1) (List.replicate k ')') []
      ((List.range' (k + 1) k).map (⟨.closing, ·⟩)) := by
    have hend : Token.Splits (k + 1 + k) [] [] [] := .nil
    simpa using splits_replicate (c := ')') (t := .closing) (by decide) (by decide) hend
  have hend : (List.replicate k ')' ++ []).takeWhile Token.continuesIdent = [] := by
    cases k <;> rfl
  rw [Token.scan, groupsText, String.toList_ofList, Token.scanFrom_eq_ok_iff]
  exact splits_replicate (by decide) (by decide) (by simpa using .var hend hclosing)

/-- One group less than the limit is admitted, and as many groups as the limit are not. -/
theorem parse_admits_less_than_limit_groups :
    Token.scan (groupsText 63) = .ok (groupsTokens 63) ∧
      (groups 63).yield = (groupsTokens 63).map Located.token ∧
      (groups 63).depth < maxNestingDepth ∧ parse (groupsText 63) = .ok .var ∧
      Token.scan (groupsText 64) = .ok (groupsTokens 64) ∧
      (groups 64).yield = (groupsTokens 64).map Located.token ∧
      maxNestingDepth ≤ (groups 64).depth ∧
      ∃ offset, parse (groupsText 64) = .error (.tooDeep offset) := by
  have hdepth : (groups 63).depth < maxNestingDepth := by rw [depth_groups]; decide
  have hread := (parse_admits_less_than_limit (scan_groupsText 63) (yield_groups 63)).1 hdepth
  rw [tree_groups] at hread
  have hdepth' : maxNestingDepth ≤ (groups 64).depth := by rw [depth_groups]; decide
  have hrefused := (parse_admits_less_than_limit (scan_groupsText 64) (yield_groups 64)).2 hdepth'
  exact ⟨scan_groupsText 63, yield_groups 63, hdepth, hread, scan_groupsText 64, yield_groups 64,
    hdepth', hrefused⟩

/-- A formula of the limiting depth, which the limit is said to admit, is refused. -/
theorem limiting_depth_refused :
    ¬ ∀ (text : String) (tokens : List Located) (d : Derivation .sum),
      Token.scan text = .ok tokens → d.yield = tokens.map Located.token →
        (d.depth ≤ maxNestingDepth → ∃ e, parse text = .ok e) ∧
          (maxNestingDepth < d.depth → ∃ offset, parse text = .error (.tooDeep offset)) := by
  intro h
  have hdepth : (groups 64).depth = maxNestingDepth := depth_groups 64
  obtain ⟨e, hread⟩ := (h _ _ _ (scan_groupsText 64) (yield_groups 64)).1 hdepth.le
  obtain ⟨offset, hrefused⟩ := givesUp_parse (scan_groupsText 64) (yield_groups 64) hdepth.ge
  rw [hrefused] at hread
  cases hread

end Expr
end Plotting
