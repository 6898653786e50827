import Plotting.Proofs.Expr.Completeness

/-!
# What nests too deep is given up

The other half of completeness.  Where a derivation spells the tokens in front of a cursor, but
nests more operands than may still be opened, the parser of the nonterminal gives up for that reason
and for no other: whatever stands before the operand that cannot be opened is a phrase of the
grammar, and is read without a complaint.

There is one lemma for each production.  A production with two parts splits on whether the operands
of the first part may be opened.  If so, the first part is read by completeness, and it is the second
that is given up; if not, the first is given up already.
-/

namespace Plotting
namespace Grammar

open Plotting.Parser

/-! ## Giving up -/

section GivingUp
variable {α β : Type} {answer : Except ExprError α} {next : α → Except ExprError β} {a : α}

/-- The reading ends because too many operands would be open. -/
def GivesUp (answer : Except ExprError α) : Prop :=
  ∃ offset, answer = .error (.tooDeep offset)

/-- Nothing is read after giving up. -/
theorem GivesUp.bind (h : GivesUp answer) : GivesUp (answer >>= next) := by
  obtain ⟨offset, rfl⟩ := h
  exact ⟨offset, rfl⟩

/-- What is read first does not prevent giving up later. -/
theorem GivesUp.after (hread : answer = .ok a) (h : GivesUp (next a)) :
    GivesUp (answer >>= next) := by
  rw [hread]
  exact h

end GivingUp

/-- The parser of the nonterminal gives up at a cursor, with fuel for the tokens that are left where
it is a loop. -/
def Overflows : Nonterminal → Cursor → Prop
  | .sum, c => GivesUp (Parser.sum (operandAt c.depth) c)
  | .addends, c => ∀ (fuel : Nat) (left : Expr), c.tokens.length ≤ fuel →
      GivesUp (chainFrom additive? (chain multiplicative? (operandAt c.depth)) fuel left c)
  | .term, c => GivesUp (chain multiplicative? (operandAt c.depth) c)
  | .factors, c => ∀ (fuel : Nat) (left : Expr), c.tokens.length ≤ fuel →
      GivesUp (chainFrom multiplicative? (operandAt c.depth) fuel left c)
  | .unary, c => GivesUp (operandAt c.depth c)
  | .power, c => GivesUp (Parser.power (operandAt c.depth) c)
  | .atom, c => GivesUp (Parser.atom (operandAt c.depth) c)
  | .arguments _, c => GivesUp (Parser.arguments (Parser.sum (operandAt c.depth)) c)
  | .moreArguments _, c => ∀ fuel : Nat, c.tokens.length ≤ fuel →
      GivesUp (Parser.moreArguments (Parser.sum (operandAt c.depth)) fuel c)

namespace Derivation

/-- Wherever the derivation spells the tokens in front and its phrase may end, but it nests more
operands than may be opened, the parser gives up. -/
def Limited {n : Nonterminal} (d : Derivation n) : Prop :=
  ∀ (c : Cursor) (r : List Token), c.tokens = d.yield ++ r → n.Ends r →
    c.depth ≤ maxNestingDepth → maxNestingDepth < c.depth + d.nesting → Overflows n c

/-! ## Chains -/

section Chains
variable {op? : Token → Option Operator} {next : Parser Expr} {t : Token} {op : Operator}
  {fuel : Nat} {left right : Expr} {c c₁ : Cursor} {w : List Token}

theorem givesUp_chain_of_rest (hnext : next c = .ok (left, c₁))
    (hrest : GivesUp (chainFrom op? next c₁.tokens.length left c₁)) :
    GivesUp (chain op? next c) := by
  rw [chain_of_first hnext]
  exact hrest

theorem givesUp_chainFrom (ht : c.peek? = some t) (hop : op? t = some op)
    (h : GivesUp (next c.advance)) (hfuel : c.tokens.length ≤ fuel) :
    GivesUp (chainFrom op? next fuel left c) := by
  have hsome : c.peek?.bind op? = some op := by rw [ht, Option.bind_some, hop]
  rw [Cursor.tokens_eq_cons ht, List.length_cons] at hfuel
  obtain ⟨k, rfl⟩ : ∃ k, fuel = k + 1 := ⟨fuel - 1, by omega⟩
  simp only [chainFrom, hsome]
  exact h.bind

theorem givesUp_chainFrom_of_rest (ht : c.peek? = some t) (hop : op? t = some op)
    (hnext : next c.advance = .ok (right, c₁)) (hw : c.advance.Passes w c₁)
    (hrest : ∀ (fuel : Nat) (left : Expr), c₁.tokens.length ≤ fuel →
      GivesUp (chainFrom op? next fuel left c₁)) (hfuel : c.tokens.length ≤ fuel) :
    GivesUp (chainFrom op? next fuel left c) := by
  have hsome : c.peek?.bind op? = some op := by rw [ht, Option.bind_some, hop]
  rw [Cursor.tokens_eq_cons ht, List.length_cons, hw.tokens, List.length_append] at hfuel
  obtain ⟨k, rfl⟩ : ∃ k, fuel = k + 1 := ⟨fuel - 1, by omega⟩
  simp only [chainFrom, hsome, hnext, ok_bind]
  exact hrest k _ (by omega)

end Chains

theorem Limited.sum {first : Derivation .term} {rest : Derivation .addends}
    (hfirst : first.Limited) (hrest : rest.Limited) : (Derivation.sum first rest).Limited := by
  intro c r hc hr hdepth hover
  simp only [yield, List.append_assoc] at hc
  simp only [nesting] at hover
  by_cases hroom : c.depth + first.nesting ≤ maxNestingDepth
  · obtain ⟨c₁, hread, hd⟩ := first.complete c _ hc (ends_term rest hr) hroom
    have hloop := hrest c₁ r (hd.tokens_eq hc) hr (by rw [hd.depth]; exact hdepth)
      (by rw [hd.depth]; omega) c₁.tokens.length first.tree (Nat.le_refl _)
    rw [hd.depth] at hloop
    exact givesUp_chain_of_rest hread hloop
  · exact (hfirst c _ hc (ends_term rest hr) hdepth (by omega)).bind

theorem Limited.addend (s : Sign) {operand : Derivation .term} {rest : Derivation .addends}
    (hoperand : operand.Limited) (hrest : rest.Limited) :
    (Derivation.addend s operand rest).Limited := by
  intro c r hc hr hdepth hover fuel left hfuel
  simp only [yield, List.cons_append, List.append_assoc] at hc
  simp only [nesting] at hover
  have hs : c.peek? = some s.token := Cursor.peek?_eq_some hc
  have hc' : c.advance.tokens = operand.yield ++ (rest.yield ++ r) := Cursor.tokens_advance_eq hc
  have hop : additive? s.token = some s.operator := Sign.additive?_eq_some_iff.mpr ⟨s, rfl, rfl⟩
  by_cases hroom : c.depth + operand.nesting ≤ maxNestingDepth
  · obtain ⟨c₁, hread, hd⟩ := operand.complete c.advance _ hc' (ends_term rest hr) hroom
    have hdepth₁ : c₁.depth = c.depth := hd.depth
    have hloop := hrest c₁ r (hd.tokens_eq hc') hr (by omega) (by omega)
    rw [Overflows, hdepth₁] at hloop
    exact givesUp_chainFrom_of_rest hs hop hread hd hloop hfuel
  · have hover' : Overflows .term c.advance :=
      hoperand c.advance _ hc' (ends_term rest hr) hdepth (by rw [Cursor.depth_advance]; omega)
    exact givesUp_chainFrom hs hop hover' hfuel

theorem Limited.term {first : Derivation .unary} {rest : Derivation .factors}
    (hfirst : first.Limited) (hrest : rest.Limited) : (Derivation.term first rest).Limited := by
  intro c r hc hr hdepth hover
  simp only [yield, List.append_assoc] at hc
  simp only [nesting] at hover
  by_cases hroom : c.depth + first.nesting ≤ maxNestingDepth
  · obtain ⟨c₁, hread, hd⟩ := first.complete c _ hc (ends_unary rest hr) hroom
    have hloop := hrest c₁ r (hd.tokens_eq hc) hr (by rw [hd.depth]; exact hdepth)
      (by rw [hd.depth]; omega) c₁.tokens.length first.tree (Nat.le_refl _)
    rw [hd.depth] at hloop
    exact givesUp_chain_of_rest hread hloop
  · exact (hfirst c _ hc (ends_unary rest hr) hdepth (by omega)).bind

theorem Limited.factor (s : Scale) {operand : Derivation .unary} {rest : Derivation .factors}
    (hoperand : operand.Limited) (hrest : rest.Limited) :
    (Derivation.factor s operand rest).Limited := by
  intro c r hc hr hdepth hover fuel left hfuel
  simp only [yield, List.cons_append, List.append_assoc] at hc
  simp only [nesting] at hover
  have hs : c.peek? = some s.token := Cursor.peek?_eq_some hc
  have hc' : c.advance.tokens = operand.yield ++ (rest.yield ++ r) := Cursor.tokens_advance_eq hc
  have hop : multiplicative? s.token = some s.operator :=
    Scale.multiplicative?_eq_some_iff.mpr ⟨s, rfl, rfl⟩
  by_cases hroom : c.depth + operand.nesting ≤ maxNestingDepth
  · obtain ⟨c₁, hread, hd⟩ := operand.complete c.advance _ hc' (ends_unary rest hr) hroom
    have hdepth₁ : c₁.depth = c.depth := hd.depth
    have hloop := hrest c₁ r (hd.tokens_eq hc') hr (by omega) (by omega)
    rw [Overflows, hdepth₁] at hloop
    exact givesUp_chainFrom_of_rest hs hop hread hd hloop hfuel
  · have hover' : Overflows .unary c.advance :=
      hoperand c.advance _ hc' (ends_unary rest hr) hdepth (by rw [Cursor.depth_advance]; omega)
    exact givesUp_chainFrom hs hop hover' hfuel

/-- A derivation without operands has none too many. -/
theorem limited_of_nesting_eq_zero {n : Nonterminal} {d : Derivation n} (h : d.nesting = 0) :
    d.Limited := by
  intro c r hc hr hdepth hover
  omega

/-! ## Operands -/

section Operands
variable {c : Cursor}

/-- With as many operands open as may be, no further one is opened. -/
theorem givesUp_operandAt (h : c.depth = maxNestingDepth) : GivesUp (operandAt c.depth c) := by
  have henter : c.enter = .error (.tooDeep c.offset) := by
    rw [Cursor.enter, if_neg (by omega)]
  have hfuel : maxNestingDepth + 1 - c.depth = 0 + 1 := by omega
  rw [operandAt, hfuel, operandWithin, henter]
  exact ⟨c.offset, rfl⟩

theorem givesUp_operandAt_of_sign (s : Sign) (hdepth : c.depth < maxNestingDepth)
    (hs : c.peek? = some s.token)
    (h : GivesUp (operandAt c.opened.depth c.opened.advance)) : GivesUp (operandAt c.depth c) := by
  have henter : c.enter = .ok c.opened := Cursor.enter_eq_ok_iff.mpr ⟨hdepth, rfl⟩
  have hpeek : c.opened.peek? = some s.token := hs
  rw [operandAt] at h
  rw [operandAt_of_lt hdepth, operandWithin, henter, ok_bind]
  cases s with
  | plus =>
    simp only [hpeek, Sign.token]
    exact h.bind
  | minus =>
    simp only [hpeek, Sign.token]
    exact h.bind

theorem givesUp_operandAt_of_atom {t : Token} (ht : opensAtom t = true)
    (hdepth : c.depth < maxNestingDepth) (hpeek : c.peek? = some t)
    (h : GivesUp (Parser.power (operandAt c.opened.depth) c.opened)) :
    GivesUp (operandAt c.depth c) := by
  have henter : c.enter = .ok c.opened := Cursor.enter_eq_ok_iff.mpr ⟨hdepth, rfl⟩
  have hpeek' : c.opened.peek? = some t := hpeek
  unfold operandAt at h
  rw [operandAt_of_lt hdepth, operandWithin, henter, ok_bind]
  cases t <;> first
    | exact absurd ht (by decide)
    | (simp only [hpeek']
       exact h.bind)

end Operands

theorem Limited.signed (s : Sign) {operand : Derivation .unary} (hoperand : operand.Limited) :
    (Derivation.signed s operand).Limited := by
  intro c r hc hr hdepth hover
  simp only [yield, List.cons_append] at hc
  simp only [nesting] at hover
  by_cases hlt : c.depth < maxNestingDepth
  · have hs : c.peek? = some s.token := Cursor.peek?_eq_some hc
    have hc' : c.opened.advance.tokens = operand.yield ++ r := Cursor.tokens_advance_eq hc
    have hover' : Overflows .unary c.opened.advance := hoperand c.opened.advance r hc' hr
      (by rw [Cursor.depth_advance, Cursor.depth_opened]; omega)
      (by rw [Cursor.depth_advance, Cursor.depth_opened]; omega)
    exact givesUp_operandAt_of_sign s hlt hs hover'
  · exact givesUp_operandAt (by omega)

theorem Limited.unsigned {operand : Derivation .power} (hoperand : operand.Limited) :
    (Derivation.unsigned operand).Limited := by
  intro c r hc hr hdepth hover
  simp only [yield] at hc
  simp only [nesting] at hover
  by_cases hlt : c.depth < maxNestingDepth
  · have hover' : Overflows .power c.opened := hoperand c.opened r hc hr
      (by rw [Cursor.depth_opened]; omega) (by rw [Cursor.depth_opened]; omega)
    obtain ⟨t, w, hw, ht⟩ := exists_yield_power operand
    have hpeek : c.peek? = some t := by
      rw [hw] at hc
      exact Cursor.peek?_eq_some hc
    exact givesUp_operandAt_of_atom ht hlt hpeek hover'
  · exact givesUp_operandAt (by omega)

/-! ## Powers and atoms -/

theorem Limited.plain {base : Derivation .atom} (hbase : base.Limited) :
    (Derivation.plain base).Limited := by
  intro c r hc hr hdepth hover
  have hover' : Overflows .atom c := hbase c r hc (hr.mono (by omega)) hdepth hover
  exact GivesUp.bind hover'

theorem Limited.raised {base : Derivation .atom} {exponent : Derivation .unary}
    (hbase : base.Limited) (hexponent : exponent.Limited) :
    (Derivation.raised base exponent).Limited := by
  intro c r hc hr hdepth hover
  simp only [yield, List.append_assoc, List.cons_append] at hc
  simp only [nesting] at hover
  have hend : Nonterminal.Ends .atom (.caret :: (exponent.yield ++ r)) := by
    simp [Nonterminal.Ends, grip]
  by_cases hroom : c.depth + base.nesting ≤ maxNestingDepth
  · obtain ⟨c₁, hread, hd⟩ := base.complete c _ hc hend hroom
    have hc₁ := hd.tokens_eq hc
    have hcaret : c₁.peek? = some .caret := Cursor.peek?_eq_some hc₁
    have hdepth₁ : c₁.advance.depth = c.depth := hd.depth
    have hover' := hexponent c₁.advance r (Cursor.tokens_advance_eq hc₁) hr (by omega) (by omega)
    rw [Overflows, hdepth₁] at hover'
    refine GivesUp.after hread ?_
    simp only [if_pos hcaret]
    exact hover'.bind
  · have hover' : Overflows .atom c := hbase c _ hc hend hdepth (by omega)
    exact GivesUp.bind hover'

theorem Limited.group {inner : Derivation .sum} (hinner : inner.Limited) :
    (Derivation.group inner).Limited := by
  intro c r hc hr hdepth hover
  simp only [yield, List.cons_append, List.append_assoc, List.nil_append] at hc
  obtain ⟨found, rest, hrest, htoken⟩ := Cursor.exists_rest_eq hc
  have hover' : Overflows .sum c.advance := hinner c.advance _ (Cursor.tokens_advance_eq hc)
    (by simp [Nonterminal.Ends, grip]) hdepth hover
  rw [Overflows, Parser.atom]
  simp only [hrest, htoken]
  exact GivesUp.bind hover'

theorem Limited.call (g : Callable) {args : Derivation (.arguments g.arity)}
    (hargs : args.Limited) : (Derivation.call g args).Limited := by
  intro c r hc hr hdepth hover
  simp only [yield, List.cons_append, List.append_assoc, List.nil_append] at hc
  have hc₁ := Cursor.tokens_advance_eq hc
  have hopening : c.advance.peek? = some .opening := Cursor.peek?_eq_some hc₁
  obtain ⟨found, rest, hrest, htoken⟩ := Cursor.exists_rest_eq hc
  have hover' : Overflows (.arguments g.arity) c.advance.advance :=
    hargs c.advance.advance (.closing :: r) (Cursor.tokens_advance_eq hc₁) rfl hdepth hover
  rw [Overflows, Parser.atom]
  simp only [hrest, htoken, if_pos hopening, Parser.call, Callable.named?_name,
    Cursor.expect_eq_ok_iff.mpr ⟨hopening, rfl⟩, ok_bind]
  exact GivesUp.bind hover'

/-! ## Arguments -/

theorem Limited.arguments {m : Nat} {first : Derivation .sum}
    {rest : Derivation (.moreArguments m)} (hfirst : first.Limited) (hrest : rest.Limited) :
    (Derivation.arguments first rest).Limited := by
  intro c r hc hr hdepth hover
  simp only [yield, List.append_assoc] at hc
  simp only [nesting] at hover
  have hclosing : c.peek? ≠ some .closing := by
    obtain ⟨t, w, hw, ht⟩ := exists_yield_sum first
    rw [hw] at hc
    rw [Cursor.peek?_eq_some hc]
    rintro ⟨⟩
    cases ht
  rw [Overflows, Parser.arguments, if_neg hclosing]
  by_cases hroom : c.depth + first.nesting ≤ maxNestingDepth
  · obtain ⟨c₁, hread, hd⟩ := first.complete c _ hc (ends_sum rest hr) hroom
    have hover' := hrest c₁ r (hd.tokens_eq hc) hr (by rw [hd.depth]; exact hdepth)
      (by rw [hd.depth]; omega) c₁.rest.length (Nat.le_of_eq c₁.length_rest.symm)
    rw [hd.depth] at hover'
    exact GivesUp.after hread hover'.bind
  · have hover' : Overflows .sum c := hfirst c _ hc (ends_sum rest hr) hdepth (by omega)
    exact GivesUp.bind hover'

theorem Limited.moreArguments {m : Nat} {first : Derivation .sum}
    {rest : Derivation (.moreArguments m)} (hfirst : first.Limited) (hrest : rest.Limited) :
    (Derivation.moreArguments first rest).Limited := by
  intro c r hc hr hdepth hover fuel hfuel
  simp only [yield, List.cons_append, List.append_assoc] at hc
  simp only [nesting] at hover
  have hcomma : c.peek? = some .comma := Cursor.peek?_eq_some hc
  have hc' := Cursor.tokens_advance_eq hc
  rw [Cursor.tokens_eq_cons hcomma, List.length_cons] at hfuel
  obtain ⟨k, rfl⟩ : ∃ k, fuel = k + 1 := ⟨fuel - 1, by omega⟩
  rw [Parser.moreArguments, if_pos hcomma]
  by_cases hroom : c.depth + first.nesting ≤ maxNestingDepth
  · obtain ⟨c₁, hread, hd⟩ := first.complete c.advance _ hc' (ends_sum rest hr) hroom
    have hdepth₁ : c₁.depth = c.depth := hd.depth
    rw [hd.tokens, List.length_append] at hfuel
    have hover' := hrest c₁ r (hd.tokens_eq hc') hr (by omega) (by omega) k (by omega)
    rw [hdepth₁] at hover'
    exact GivesUp.after hread hover'.bind
  · have hover' : Overflows .sum c.advance :=
      hfirst c.advance _ hc' (ends_sum rest hr) hdepth (by rw [Cursor.depth_advance]; omega)
    exact GivesUp.bind hover'

/-! ## All productions -/

/-- A derivation with too many operands nested is given up by the parser of its nonterminal. -/
theorem limited {n : Nonterminal} (d : Derivation n) : d.Limited := by
  induction d with
  | sum first rest hfirst hrest => exact hfirst.sum hrest
  | addend s operand rest hoperand hrest => exact hoperand.addend s hrest
  | term first rest hfirst hrest => exact hfirst.term hrest
  | factor s operand rest hoperand hrest => exact hoperand.factor s hrest
  | signed s operand hoperand => exact hoperand.signed s
  | unsigned operand hoperand => exact hoperand.unsigned
  | plain base hbase => exact hbase.plain
  | raised base exponent hbase hexponent => exact hbase.raised hexponent
  | group inner hinner => exact hinner.group
  | call g args hargs => exact hargs.call g
  | arguments first rest hfirst hrest => exact hfirst.arguments hrest
  | moreArguments first rest hfirst hrest => exact hfirst.moreArguments hrest
  | noAddend | noFactor | number | var | constant | noArgument | noMoreArgument =>
    exact limited_of_nesting_eq_zero rfl

end Derivation
end Grammar

namespace Expr

open Grammar

/-- Tokens whose derivation nests too many operands are given up. -/
theorem givesUp_ofTokens {tokens : List Located} {stop : Nat} {d : Derivation .sum}
    (hyield : d.yield = tokens.map Located.token) (hover : maxNestingDepth < d.nesting) :
    GivesUp (ofTokens tokens stop) := by
  have hne : tokens ≠ [] := by
    rintro rfl
    obtain ⟨t, w, hw, -⟩ := d.exists_yield_sum
    rw [hw] at hyield
    cases hyield
  have htokens : (⟨tokens, stop, 0⟩ : Cursor).tokens = d.yield ++ [] := by
    rw [List.append_nil]
    exact hyield.symm
  have hsum : GivesUp (Parser.sum Parser.operand ⟨tokens, stop, 0⟩) :=
    d.limited ⟨tokens, stop, 0⟩ [] htokens (looser_nil 1) (Nat.zero_le _) (by simpa using hover)
  rw [ofTokens, if_neg hne]
  exact hsum.bind

end Expr
end Plotting
