import Plotting.Proofs.Expr.Passage
import Plotting.Proofs.Expr.Unambiguous

/-!
# What is derived is read by the parser

The converse of soundness.  Where a derivation spells the tokens in front of a
cursor, the phrase may end after them, and the operands that it nests can still
be opened, the parser of the nonterminal reads exactly the phrase.  The parser
of operands has as many steps left as operands may still be opened, and one
more, so its fuel is a function of the depth of the cursor and does not appear
in the induction.
-/

namespace Plotting
namespace Grammar

open Plotting.Parser

/-- The parser of operands in front of which `depth` operands are open. -/
def operandAt (depth : Nat) : Parser Expr :=
  operandWithin (maxNestingDepth + 1 - depth)

/-- The parser of the nonterminal reads `v` between two cursors.  What may follow
the first operand of a chain is read by a loop whose fuel has to cover the tokens
that are left. -/
def Reads : (n : Nonterminal) → Cursor → n.Meaning → Cursor → Prop
  | .sum, c, e, c' => Parser.sum (operandAt c.depth) c = .ok (e, c')
  | .addends, c, f, c' => ∀ (fuel : Nat) (left : Expr), c.tokens.length ≤ fuel →
      chainFrom additive? (chain multiplicative? (operandAt c.depth)) fuel left c =
        .ok (f left, c')
  | .term, c, e, c' => chain multiplicative? (operandAt c.depth) c = .ok (e, c')
  | .factors, c, f, c' => ∀ (fuel : Nat) (left : Expr), c.tokens.length ≤ fuel →
      chainFrom multiplicative? (operandAt c.depth) fuel left c = .ok (f left, c')
  | .unary, c, e, c' => operandAt c.depth c = .ok (e, c')
  | .power, c, e, c' => Parser.power (operandAt c.depth) c = .ok (e, c')
  | .atom, c, e, c' => Parser.atom (operandAt c.depth) c = .ok (e, c')
  | .arguments _, c, as, c' =>
      Parser.arguments (Parser.sum (operandAt c.depth)) c = .ok (as.val, c')
  | .moreArguments _, c, as, c' => ∀ fuel : Nat, c.tokens.length ≤ fuel →
      Parser.moreArguments (Parser.sum (operandAt c.depth)) fuel c = .ok (as.val, c')

namespace Derivation

/-- Wherever the derivation spells the tokens in front, its phrase may end, and
its operands may be opened, the parser reads it. -/
def Complete {n : Nonterminal} (d : Derivation n) : Prop :=
  ∀ (c : Cursor) (r : List Token), c.tokens = d.yield ++ r → n.Ends r →
    c.depth + d.nesting ≤ maxNestingDepth → ∃ c', Reads n c d.tree c' ∧ c.Passes d.yield c'

/-! ## Chains -/

theorem additive?_eq_none {t : Token} (h : grip t < 1) : additive? t = none := by
  cases t <;> first | rfl | exact absurd h (by decide)

theorem multiplicative?_eq_none {t : Token} (h : grip t < 2) : multiplicative? t = none := by
  cases t <;> first | rfl | exact absurd h (by decide)

/-- Where no operator of the level is in front, a chain stops. -/
theorem chainFrom_of_looser {op? : Token → Option Operator} {limit : Nat}
    (hop : ∀ t, grip t < limit → op? t = none) (next : Parser Expr) (fuel : Nat) (left : Expr)
    {c : Cursor} (hc : Looser limit c.tokens) :
    chainFrom op? next fuel left c = .ok (left, c) := by
  cases fuel with
  | zero => rfl
  | succ fuel =>
    have hnone : c.peek?.bind op? = none := by
      rw [Option.bind_eq_none_iff]
      intro t ht
      exact hop t (hc t (by rw [← Cursor.peek?_eq]; exact ht))
    simp only [chainFrom, hnone]

/-- Where an operator of the level is in front, a chain goes on past its operand. -/
theorem chainFrom_of_operator {op? : Token → Option Operator} {next : Parser Expr} {t : Token}
    {op : Operator} {right : Expr} {f : Expr → Expr} {c c₁ c₂ : Cursor} {w : List Token}
    (ht : c.peek? = some t) (hop : op? t = some op) (hnext : next c.advance = .ok (right, c₁))
    (hw : c.advance.Passes w c₁)
    (hrest : ∀ (fuel : Nat) (left : Expr), c₁.tokens.length ≤ fuel →
      chainFrom op? next fuel left c₁ = .ok (f left, c₂))
    {fuel : Nat} (left : Expr) (hfuel : c.tokens.length ≤ fuel) :
    chainFrom op? next fuel left c = .ok (f (.binary op left right), c₂) := by
  have hsome : c.peek?.bind op? = some op := by rw [ht, Option.bind_some, hop]
  rw [Cursor.tokens_eq_cons ht, List.length_cons, hw.tokens, List.length_append] at hfuel
  obtain ⟨k, rfl⟩ : ∃ k, fuel = k + 1 := ⟨fuel - 1, by omega⟩
  simp only [chainFrom, hsome, hnext, ok_bind]
  exact hrest k _ (by omega)

theorem chain_of_first {op? : Token → Option Operator} {next : Parser Expr} {left : Expr}
    {c c₁ : Cursor} (hnext : next c = .ok (left, c₁)) :
    chain op? next c = chainFrom op? next c₁.tokens.length left c₁ := by
  simp only [chain, hnext, ok_bind, Cursor.length_rest]

theorem Complete.sum {first : Derivation .term} {rest : Derivation .addends}
    (hfirst : first.Complete) (hrest : rest.Complete) :
    (Derivation.sum first rest).Complete := by
  intro c r hc hr hroom
  simp only [yield, List.append_assoc] at hc
  simp only [nesting] at hroom
  obtain ⟨c₁, hread, hd⟩ := hfirst c _ hc (ends_term rest hr) (by omega)
  obtain ⟨c₂, hread', hd'⟩ := hrest c₁ r (hd.tokens_eq hc) hr (by rw [hd.depth]; omega)
  have hloop := hread' c₁.tokens.length first.tree (Nat.le_refl _)
  rw [hd.depth] at hloop
  exact ⟨c₂, (chain_of_first hread).trans hloop, hd.trans hd'⟩

theorem complete_noAddend : (Derivation.noAddend).Complete := by
  intro c r hc hr hroom
  refine ⟨c, fun fuel left hfuel => ?_, .refl c⟩
  rw [← (show c.tokens = r from hc)] at hr
  exact chainFrom_of_looser (fun t => additive?_eq_none) _ fuel left hr

theorem Complete.addend (s : Sign) {operand : Derivation .term} {rest : Derivation .addends}
    (hoperand : operand.Complete) (hrest : rest.Complete) :
    (Derivation.addend s operand rest).Complete := by
  intro c r hc hr hroom
  simp only [yield, List.cons_append, List.append_assoc] at hc
  simp only [nesting] at hroom
  have hs : c.peek? = some s.token := Cursor.peek?_eq_some hc
  have hc' : c.advance.tokens = operand.yield ++ (rest.yield ++ r) := Cursor.tokens_advance_eq hc
  obtain ⟨c₁, hread, hd⟩ := hoperand c.advance _ hc' (ends_term rest hr)
    (by rw [Cursor.depth_advance]; omega)
  obtain ⟨c₂, hread', hd'⟩ := hrest c₁ r (hd.tokens_eq hc') hr
    (by rw [hd.depth, Cursor.depth_advance]; omega)
  rw [Reads, hd.depth] at hread'
  have hop : additive? s.token = some s.operator := Sign.additive?_eq_some_iff.mpr ⟨s, rfl, rfl⟩
  exact ⟨c₂, fun fuel left hfuel => chainFrom_of_operator hs hop hread hd hread' left hfuel,
    .cons hs (hd.trans hd')⟩

theorem Complete.term {first : Derivation .unary} {rest : Derivation .factors}
    (hfirst : first.Complete) (hrest : rest.Complete) :
    (Derivation.term first rest).Complete := by
  intro c r hc hr hroom
  simp only [yield, List.append_assoc] at hc
  simp only [nesting] at hroom
  obtain ⟨c₁, hread, hd⟩ := hfirst c _ hc (ends_unary rest hr) (by omega)
  obtain ⟨c₂, hread', hd'⟩ := hrest c₁ r (hd.tokens_eq hc) hr (by rw [hd.depth]; omega)
  have hloop := hread' c₁.tokens.length first.tree (Nat.le_refl _)
  rw [hd.depth] at hloop
  exact ⟨c₂, (chain_of_first hread).trans hloop, hd.trans hd'⟩

theorem complete_noFactor : (Derivation.noFactor).Complete := by
  intro c r hc hr hroom
  refine ⟨c, fun fuel left hfuel => ?_, .refl c⟩
  rw [← (show c.tokens = r from hc)] at hr
  exact chainFrom_of_looser (fun t => multiplicative?_eq_none) _ fuel left hr

theorem Complete.factor (s : Scale) {operand : Derivation .unary} {rest : Derivation .factors}
    (hoperand : operand.Complete) (hrest : rest.Complete) :
    (Derivation.factor s operand rest).Complete := by
  intro c r hc hr hroom
  simp only [yield, List.cons_append, List.append_assoc] at hc
  simp only [nesting] at hroom
  have hs : c.peek? = some s.token := Cursor.peek?_eq_some hc
  have hc' : c.advance.tokens = operand.yield ++ (rest.yield ++ r) := Cursor.tokens_advance_eq hc
  obtain ⟨c₁, hread, hd⟩ := hoperand c.advance _ hc' (ends_unary rest hr)
    (by rw [Cursor.depth_advance]; omega)
  obtain ⟨c₂, hread', hd'⟩ := hrest c₁ r (hd.tokens_eq hc') hr
    (by rw [hd.depth, Cursor.depth_advance]; omega)
  rw [Reads, hd.depth] at hread'
  have hop : multiplicative? s.token = some s.operator := Scale.multiplicative?_eq_some_iff.mpr ⟨s, rfl, rfl⟩
  exact ⟨c₂, fun fuel left hfuel => chainFrom_of_operator hs hop hread hd hread' left hfuel,
    .cons hs (hd.trans hd')⟩

/-! ## Operands -/

section Operands
variable {c c₁ : Cursor} {e : Expr}

/-- With an operand still to open, the parser of operands takes a step. -/
theorem operandAt_of_lt (h : c.depth < maxNestingDepth) :
    operandAt c.depth c =
      operandWithin (maxNestingDepth + 1 - c.opened.depth + 1) c := by
  have hfuel : maxNestingDepth + 1 - c.depth = maxNestingDepth + 1 - c.opened.depth + 1 := by
    rw [Cursor.depth_opened]
    omega
  rw [operandAt, hfuel]

theorem operandAt_of_sign (s : Sign) (hdepth : c.depth < maxNestingDepth)
    (hs : c.peek? = some s.token) (h : operandAt c.opened.depth c.opened.advance = .ok (e, c₁)) :
    operandAt c.depth c = .ok (s.signed e, c₁.leave) := by
  have henter : c.enter = .ok c.opened := Cursor.enter_eq_ok_iff.mpr ⟨hdepth, rfl⟩
  have hpeek : c.opened.peek? = some s.token := hs
  rw [operandAt] at h
  rw [operandAt_of_lt hdepth, operandWithin, henter, ok_bind]
  cases s with
  | plus => simp only [hpeek, Sign.token, h, ok_bind, pure_eq_ok, Sign.signed]
  | minus => simp only [hpeek, Sign.token, h, ok_bind, pure_eq_ok, Sign.signed]

theorem operandAt_of_atom {t : Token} (ht : opensAtom t = true) (hdepth : c.depth < maxNestingDepth)
    (hpeek : c.peek? = some t) (h : Parser.power (operandAt c.opened.depth) c.opened = .ok (e, c₁)) :
    operandAt c.depth c = .ok (e, c₁.leave) := by
  have henter : c.enter = .ok c.opened := Cursor.enter_eq_ok_iff.mpr ⟨hdepth, rfl⟩
  have hpeek' : c.opened.peek? = some t := hpeek
  unfold operandAt at h
  rw [operandAt_of_lt hdepth, operandWithin, henter, ok_bind]
  cases t <;> first
    | exact absurd ht (by decide)
    | simp only [hpeek', h, ok_bind, pure_eq_ok]

end Operands

theorem Complete.signed (s : Sign) {operand : Derivation .unary} (hoperand : operand.Complete) :
    (Derivation.signed s operand).Complete := by
  intro c r hc hr hroom
  simp only [yield, List.cons_append] at hc
  simp only [nesting] at hroom
  have hs : c.peek? = some s.token := Cursor.peek?_eq_some hc
  have hc' : c.opened.advance.tokens = operand.yield ++ r := Cursor.tokens_advance_eq hc
  obtain ⟨c₁, hread, hd⟩ := hoperand c.opened.advance r hc' hr
    (by rw [Cursor.depth_advance, Cursor.depth_opened]; omega)
  have hpasses : c.opened.Passes (s.token :: operand.yield) c₁ := .cons hs hd
  exact ⟨c₁.leave, operandAt_of_sign s (by omega) hs hread, hpasses.leave⟩

theorem Complete.unsigned {operand : Derivation .power} (hoperand : operand.Complete) :
    (Derivation.unsigned operand).Complete := by
  intro c r hc hr hroom
  simp only [yield] at hc
  simp only [nesting] at hroom
  obtain ⟨c₁, hread, hd⟩ := hoperand c.opened r hc hr (by rw [Cursor.depth_opened]; omega)
  obtain ⟨t, w, hw, ht⟩ := exists_yield_power operand
  have hpeek : c.peek? = some t := by
    rw [hw] at hc
    exact Cursor.peek?_eq_some hc
  exact ⟨c₁.leave, operandAt_of_atom ht (by omega) hpeek hread, hd.leave⟩

/-! ## Powers -/

theorem Complete.plain {base : Derivation .atom} (hbase : base.Complete) :
    (Derivation.plain base).Complete := by
  intro c r hc hr hroom
  obtain ⟨c₁, hread, hd⟩ := hbase c r hc (hr.mono (by omega)) hroom
  have hcaret : c₁.peek? ≠ some .caret := by
    intro h
    have hlooser : grip .caret < 3 := hr _ (by rw [← hd.tokens_eq hc, ← Cursor.peek?_eq, h]; rfl)
    exact absurd hlooser (by decide)
  simp only [Reads] at hread
  refine ⟨c₁, ?_, hd⟩
  simp only [Reads, Parser.power, hread, ok_bind, if_neg hcaret, pure_eq_ok, tree]

theorem Complete.raised {base : Derivation .atom} {exponent : Derivation .unary}
    (hbase : base.Complete) (hexponent : exponent.Complete) :
    (Derivation.raised base exponent).Complete := by
  intro c r hc hr hroom
  simp only [yield, List.append_assoc, List.cons_append] at hc
  simp only [nesting] at hroom
  obtain ⟨c₁, hread, hd⟩ := hbase c _ hc (by simp [Nonterminal.Ends, grip]) (by omega)
  have hc₁ := hd.tokens_eq hc
  have hcaret : c₁.peek? = some .caret := Cursor.peek?_eq_some hc₁
  obtain ⟨c₂, hread', hd'⟩ := hexponent c₁.advance r (Cursor.tokens_advance_eq hc₁) hr
    (by rw [Cursor.depth_advance, hd.depth]; omega)
  simp only [Reads] at hread
  simp only [Reads, Cursor.depth_advance, hd.depth] at hread'
  refine ⟨c₂, ?_, hd.trans (.cons hcaret hd')⟩
  simp only [Reads, Parser.power, hread, ok_bind, if_pos hcaret, hread', pure_eq_ok, tree]

/-! ## Atoms -/

theorem complete_number (value : Float) : (Derivation.number value).Complete := by
  intro c r hc hr hroom
  obtain ⟨found, rest, hrest, htoken⟩ := Cursor.exists_rest_eq hc
  refine ⟨c.advance, ?_, .advance (Cursor.peek?_eq_some hc)⟩
  simp only [Reads, Parser.atom, hrest, htoken, tree]

/-- A name that is not followed by a parenthesis is read by what it names. -/
theorem atom_of_name {operand : Parser Expr} {name : String} {e : Expr} {c : Cursor}
    {r : List Token} (hc : c.tokens = .ident name :: r) (hr : Looser 4 r)
    (hname : ∀ offset, ofName name offset = .ok e) : Parser.atom operand c = .ok (e, c.advance) := by
  obtain ⟨found, rest, hrest, htoken⟩ := Cursor.exists_rest_eq hc
  have hopening : c.advance.peek? ≠ some .opening := by
    intro h
    have hlooser : grip .opening < 4 :=
      hr _ (by rw [← Cursor.tokens_advance_eq hc, ← Cursor.peek?_eq, h]; rfl)
    exact absurd hlooser (by decide)
  simp only [Parser.atom, hrest, htoken, if_neg hopening, hname, ok_bind, pure_eq_ok]

theorem complete_var : (Derivation.var).Complete := by
  intro c r hc hr hroom
  exact ⟨c.advance, atom_of_name hc hr (fun _ => rfl), .advance (Cursor.peek?_eq_some hc)⟩

theorem complete_constant (k : Constant) : (Derivation.constant k).Complete := by
  intro c r hc hr hroom
  have hname : ∀ offset, ofName k.name offset = .ok (.constant k) := by
    intro offset
    rw [ofName, if_neg k.name_ne_var, Constant.named?_eq_some_iff.mpr rfl]
  exact ⟨c.advance, atom_of_name hc hr hname, .advance (Cursor.peek?_eq_some hc)⟩

theorem Complete.group {inner : Derivation .sum} (hinner : inner.Complete) :
    (Derivation.group inner).Complete := by
  intro c r hc hr hroom
  simp only [yield, List.cons_append, List.append_assoc, List.nil_append] at hc
  have hopening : c.peek? = some .opening := Cursor.peek?_eq_some hc
  have hc' := Cursor.tokens_advance_eq hc
  obtain ⟨found, rest, hrest, htoken⟩ := Cursor.exists_rest_eq hc
  obtain ⟨c₁, hread, hd⟩ :=
    hinner c.advance _ hc' (by simp [Nonterminal.Ends, grip]) hroom
  have hclosing : c₁.peek? = some .closing := Cursor.peek?_eq_some (hd.tokens_eq hc')
  simp only [Reads, Cursor.depth_advance] at hread
  refine ⟨c₁.advance, ?_, .cons hopening (hd.concat hclosing)⟩
  simp only [Reads, Parser.atom, hrest, htoken, hread, ok_bind,
    Cursor.expect_eq_ok_iff.mpr ⟨hclosing, rfl⟩, pure_eq_ok, tree]

theorem Complete.call (g : Callable) {args : Derivation (.arguments g.arity)}
    (hargs : args.Complete) : (Derivation.call g args).Complete := by
  intro c r hc hr hroom
  simp only [yield, List.cons_append, List.append_assoc, List.nil_append] at hc
  have hname : c.peek? = some (.ident g.name) := Cursor.peek?_eq_some hc
  have hc₁ := Cursor.tokens_advance_eq hc
  have hopening : c.advance.peek? = some .opening := Cursor.peek?_eq_some hc₁
  have hc₂ := Cursor.tokens_advance_eq hc₁
  obtain ⟨found, rest, hrest, htoken⟩ := Cursor.exists_rest_eq hc
  obtain ⟨c', hread, hd⟩ := hargs c.advance.advance (.closing :: r) hc₂ rfl hroom
  have hclosing : c'.peek? = some .closing := Cursor.peek?_eq_some (hd.tokens_eq hc₂)
  have hcall := g.call?_eq_some_apply args.tree
  simp only [Reads, Cursor.depth_advance] at hread
  refine ⟨c'.advance, ?_, .cons hname (.cons hopening (hd.concat hclosing))⟩
  simp only [Reads, Parser.atom, hrest, htoken, if_pos hopening, Parser.call,
    Callable.named?_name, Cursor.expect_eq_ok_iff.mpr ⟨hopening, rfl⟩, ok_bind, hread,
    Cursor.expect_eq_ok_iff.mpr ⟨hclosing, rfl⟩, hcall, pure_eq_ok, tree]

/-! ## Arguments -/

theorem complete_noArgument : (Derivation.noArgument).Complete := by
  intro c r hc hr hroom
  have hclosing : c.peek? = some .closing := by
    rw [Cursor.peek?_eq, hc]
    exact hr
  refine ⟨c, ?_, .refl c⟩
  simp only [Reads, Parser.arguments, if_pos hclosing, tree]

theorem Complete.arguments {m : Nat} {first : Derivation .sum}
    {rest : Derivation (.moreArguments m)} (hfirst : first.Complete) (hrest : rest.Complete) :
    (Derivation.arguments first rest).Complete := by
  intro c r hc hr hroom
  simp only [yield, List.append_assoc] at hc
  simp only [nesting] at hroom
  have hclosing : c.peek? ≠ some .closing := by
    obtain ⟨t, w, hw, ht⟩ := exists_yield_sum first
    rw [hw] at hc
    rw [Cursor.peek?_eq_some hc]
    rintro ⟨⟩
    cases ht
  obtain ⟨c₁, hread, hd⟩ := hfirst c _ hc (ends_sum rest hr) (by omega)
  obtain ⟨c₂, hread', hd'⟩ := hrest c₁ r (hd.tokens_eq hc) hr (by rw [hd.depth]; omega)
  simp only [Reads] at hread
  have hloop := hread' c₁.rest.length (Nat.le_of_eq c₁.length_rest.symm)
  rw [hd.depth] at hloop
  refine ⟨c₂, ?_, hd.trans hd'⟩
  simp only [Reads, Parser.arguments, if_neg hclosing, hread, ok_bind, hloop, pure_eq_ok, tree]

theorem complete_noMoreArgument : (Derivation.noMoreArgument).Complete := by
  intro c r hc hr hroom
  refine ⟨c, fun fuel hfuel => ?_, .refl c⟩
  have hcomma : c.peek? ≠ some .comma := by
    rw [Cursor.peek?_eq, hc]
    intro h
    cases h.symm.trans hr
  cases fuel with
  | zero => rfl
  | succ fuel => simp only [Parser.moreArguments, if_neg hcomma, tree]

theorem Complete.moreArguments {m : Nat} {first : Derivation .sum}
    {rest : Derivation (.moreArguments m)} (hfirst : first.Complete) (hrest : rest.Complete) :
    (Derivation.moreArguments first rest).Complete := by
  intro c r hc hr hroom
  simp only [yield, List.cons_append, List.append_assoc] at hc
  simp only [nesting] at hroom
  have hcomma : c.peek? = some .comma := Cursor.peek?_eq_some hc
  have hc' := Cursor.tokens_advance_eq hc
  obtain ⟨c₁, hread, hd⟩ := hfirst c.advance _ hc' (ends_sum rest hr)
    (by rw [Cursor.depth_advance]; omega)
  obtain ⟨c₂, hread', hd'⟩ := hrest c₁ r (hd.tokens_eq hc') hr
    (by rw [hd.depth, Cursor.depth_advance]; omega)
  refine ⟨c₂, fun fuel hfuel => ?_, .cons hcomma (hd.trans hd')⟩
  rw [Cursor.tokens_eq_cons hcomma, List.length_cons, hd.tokens, List.length_append] at hfuel
  obtain ⟨k, rfl⟩ : ∃ k, fuel = k + 1 := ⟨fuel - 1, by omega⟩
  have hloop := hread' k (by omega)
  simp only [Reads, Cursor.depth_advance] at hread
  rw [hd.depth, Cursor.depth_advance] at hloop
  simp only [Parser.moreArguments, if_pos hcomma, hread, ok_bind, hloop, pure_eq_ok, tree]

/-! ## All productions -/

/-- Every derivation is read by the parser of its nonterminal. -/
theorem complete {n : Nonterminal} (d : Derivation n) : d.Complete := by
  induction d with
  | sum first rest hfirst hrest => exact hfirst.sum hrest
  | noAddend => exact complete_noAddend
  | addend s operand rest hoperand hrest => exact hoperand.addend s hrest
  | term first rest hfirst hrest => exact hfirst.term hrest
  | noFactor => exact complete_noFactor
  | factor s operand rest hoperand hrest => exact hoperand.factor s hrest
  | signed s operand hoperand => exact hoperand.signed s
  | unsigned operand hoperand => exact hoperand.unsigned
  | plain base hbase => exact hbase.plain
  | raised base exponent hbase hexponent => exact hbase.raised hexponent
  | number value => exact complete_number value
  | var => exact complete_var
  | constant k => exact complete_constant k
  | group inner hinner => exact hinner.group
  | call g args hargs => exact hargs.call g
  | noArgument => exact complete_noArgument
  | arguments first rest hfirst hrest => exact hfirst.arguments hrest
  | noMoreArgument => exact complete_noMoreArgument
  | moreArguments first rest hfirst hrest => exact hfirst.moreArguments hrest

end Derivation
end Grammar
end Plotting
