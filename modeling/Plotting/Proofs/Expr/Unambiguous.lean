import Plotting.Proofs.Expr.Phrases

/-!
# Every formula has one derivation

A derivation is determined by the tokens that begin with what it spells, as long
as what comes after is not something by which the phrase could go on:
`Nonterminal.Ends` says that the token in front holds too loosely for the phrase.

No token both ends a phrase and begins the part that was left out, so at each
production the token in front decides; the theorem is an induction with one such
lemma for each production.
-/

namespace Plotting
namespace Grammar

/-! ## What may come after a phrase -/

/-- The tokens `r` do not go on with a phrase of the nonterminal.  Arguments are
always followed by the parenthesis that closes them. -/
def Nonterminal.Ends : Nonterminal → List Token → Prop
  | .sum, r | .addends, r => Looser 1 r
  | .term, r | .factors, r => Looser 2 r
  | .unary, r | .power, r => Looser 3 r
  | .atom, r => Looser 4 r
  | .arguments _, r | .moreArguments _, r => r.head? = some .closing

namespace Derivation

/-- Where a sum may end, its first term may end before the other terms. -/
theorem ends_term (rest : Derivation .addends) {r : List Token} (hr : Looser 1 r) :
    Looser 2 (rest.yield ++ r) :=
  looser_of_mem_addends rest.phrase hr

/-- Where a term may end, its first factor may end before the other factors. -/
theorem ends_unary (rest : Derivation .factors) {r : List Token} (hr : Looser 2 r) :
    Looser 3 (rest.yield ++ r) :=
  looser_of_mem_factors rest.phrase hr

/-- Before a comma or the end of the arguments a sum may end. -/
theorem ends_sum {n : Nat} (rest : Derivation (.moreArguments n)) {r : List Token}
    (hr : r.head? = some .closing) : Looser 1 (rest.yield ++ r) :=
  looser_of_mem_furtherArguments ⟨n, rest.phrase⟩ hr

/-! ## What a phrase begins with -/

theorem exists_yield_power (d : Derivation .power) :
    ∃ t w, d.yield = t :: w ∧ opensAtom t = true :=
  beginsWith_power _ d.phrase

theorem exists_yield_sum (d : Derivation .sum) :
    ∃ t w, d.yield = t :: w ∧ opensUnary t = true :=
  beginsWith_sum _ d.phrase

/-! ## One production at a time -/

/-- No other derivation from the nonterminal spells the beginning of the same
tokens up to a place where the phrase ends. -/
def Determined {n : Nonterminal} (d : Derivation n) : Prop :=
  ∀ (d' : Derivation n) (r r' : List Token), n.Ends r → n.Ends r' →
    d.yield ++ r = d'.yield ++ r' → d = d' ∧ r = r'

theorem Determined.sum {first : Derivation .term} {rest : Derivation .addends}
    (hfirst : first.Determined) (hrest : rest.Determined) :
    (Derivation.sum first rest).Determined := by
  intro d' r r' hr hr' h
  cases d' with
  | sum first' rest' =>
    simp only [yield, List.append_assoc] at h
    obtain ⟨rfl, htail⟩ := hfirst first' _ _ (ends_term rest hr) (ends_term rest' hr') h
    obtain ⟨rfl, rfl⟩ := hrest rest' r r' hr hr' htail
    exact ⟨rfl, rfl⟩

theorem determined_noAddend : (Derivation.noAddend).Determined := by
  intro d' r r' hr hr' h
  cases d' with
  | noAddend => exact ⟨rfl, h⟩
  | addend s operand rest =>
    simp only [yield, List.nil_append] at h
    subst h
    exact absurd hr (by simp [Nonterminal.Ends])

theorem Determined.addend (s : Sign) {operand : Derivation .term} {rest : Derivation .addends}
    (hoperand : operand.Determined) (hrest : rest.Determined) :
    (Derivation.addend s operand rest).Determined := by
  intro d' r r' hr hr' h
  cases d' with
  | noAddend =>
    simp only [yield, List.nil_append] at h
    subst h
    exact absurd hr' (by simp [Nonterminal.Ends])
  | addend s' operand' rest' =>
    simp only [yield, List.cons_append, List.append_assoc, List.cons.injEq] at h
    obtain ⟨hs, hoperands⟩ := h
    obtain rfl := Sign.token_injective hs
    obtain ⟨rfl, htail⟩ :=
      hoperand operand' _ _ (ends_term rest hr) (ends_term rest' hr') hoperands
    obtain ⟨rfl, rfl⟩ := hrest rest' r r' hr hr' htail
    exact ⟨rfl, rfl⟩

theorem Determined.term {first : Derivation .unary} {rest : Derivation .factors}
    (hfirst : first.Determined) (hrest : rest.Determined) :
    (Derivation.term first rest).Determined := by
  intro d' r r' hr hr' h
  cases d' with
  | term first' rest' =>
    simp only [yield, List.append_assoc] at h
    obtain ⟨rfl, htail⟩ := hfirst first' _ _ (ends_unary rest hr) (ends_unary rest' hr') h
    obtain ⟨rfl, rfl⟩ := hrest rest' r r' hr hr' htail
    exact ⟨rfl, rfl⟩

theorem determined_noFactor : (Derivation.noFactor).Determined := by
  intro d' r r' hr hr' h
  cases d' with
  | noFactor => exact ⟨rfl, h⟩
  | factor s operand rest =>
    simp only [yield, List.nil_append] at h
    subst h
    exact absurd hr (by simp [Nonterminal.Ends])

theorem Determined.factor (s : Scale) {operand : Derivation .unary} {rest : Derivation .factors}
    (hoperand : operand.Determined) (hrest : rest.Determined) :
    (Derivation.factor s operand rest).Determined := by
  intro d' r r' hr hr' h
  cases d' with
  | noFactor =>
    simp only [yield, List.nil_append] at h
    subst h
    exact absurd hr' (by simp [Nonterminal.Ends])
  | factor s' operand' rest' =>
    simp only [yield, List.cons_append, List.append_assoc, List.cons.injEq] at h
    obtain ⟨hs, hoperands⟩ := h
    obtain rfl := Scale.token_injective hs
    obtain ⟨rfl, htail⟩ :=
      hoperand operand' _ _ (ends_unary rest hr) (ends_unary rest' hr') hoperands
    obtain ⟨rfl, rfl⟩ := hrest rest' r r' hr hr' htail
    exact ⟨rfl, rfl⟩

/-- A signed operand and an unsigned one begin with different tokens. -/
theorem yield_signed_ne (s : Sign) (operand : Derivation .unary) (operand' : Derivation .power)
    (r r' : List Token) :
    (Derivation.signed s operand).yield ++ r ≠ (Derivation.unsigned operand').yield ++ r' := by
  obtain ⟨t, w, hoperand', ht⟩ := exists_yield_power operand'
  intro h
  simp only [yield, hoperand', List.cons_append, List.cons.injEq] at h
  rw [← h.1] at ht
  cases s <;> cases ht

theorem Determined.signed (s : Sign) {operand : Derivation .unary}
    (hoperand : operand.Determined) : (Derivation.signed s operand).Determined := by
  intro d' r r' hr hr' h
  cases d' with
  | signed s' operand' =>
    simp only [yield, List.cons_append, List.cons.injEq] at h
    obtain rfl := Sign.token_injective h.1
    obtain ⟨rfl, rfl⟩ := hoperand operand' r r' hr hr' h.2
    exact ⟨rfl, rfl⟩
  | unsigned operand' => exact absurd h (yield_signed_ne s operand operand' r r')

theorem Determined.unsigned {operand : Derivation .power} (hoperand : operand.Determined) :
    (Derivation.unsigned operand).Determined := by
  intro d' r r' hr hr' h
  cases d' with
  | signed s' operand' => exact absurd h.symm (yield_signed_ne s' operand' operand r' r)
  | unsigned operand' =>
    obtain ⟨rfl, rfl⟩ := hoperand operand' r r' hr hr' h
    exact ⟨rfl, rfl⟩

theorem Determined.plain {base : Derivation .atom} (hbase : base.Determined) :
    (Derivation.plain base).Determined := by
  intro d' r r' hr hr' h
  cases d' with
  | plain base' =>
    obtain ⟨rfl, rfl⟩ := hbase base' r r' (hr.mono (by omega)) (hr'.mono (by omega)) h
    exact ⟨rfl, rfl⟩
  | raised base' exponent' =>
    simp only [yield, List.append_assoc, List.cons_append] at h
    obtain ⟨-, rfl⟩ := hbase base' r _ (hr.mono (by omega)) (by simp [Nonterminal.Ends, grip]) h
    exact absurd hr (by simp [Nonterminal.Ends, grip])

theorem Determined.raised {base : Derivation .atom} {exponent : Derivation .unary}
    (hbase : base.Determined) (hexponent : exponent.Determined) :
    (Derivation.raised base exponent).Determined := by
  intro d' r r' hr hr' h
  cases d' with
  | plain base' =>
    simp only [yield, List.append_assoc, List.cons_append] at h
    obtain ⟨-, rfl⟩ := hbase base' _ r' (by simp [Nonterminal.Ends, grip]) (hr'.mono (by omega)) h
    exact absurd hr' (by simp [Nonterminal.Ends, grip])
  | raised base' exponent' =>
    simp only [yield, List.append_assoc, List.cons_append] at h
    obtain ⟨rfl, htail⟩ := hbase base' _ _ (by simp [Nonterminal.Ends, grip])
      (by simp [Nonterminal.Ends, grip]) h
    obtain ⟨rfl, rfl⟩ := hexponent exponent' r r' hr hr' (List.cons.inj htail).2
    exact ⟨rfl, rfl⟩

theorem determined_number (value : Float) : (Derivation.number value).Determined := by
  intro d' r r' hr hr' h
  cases d' with
  | number value' =>
    simp only [yield, List.cons_append, List.nil_append, List.cons.injEq, Token.number.injEq] at h
    exact ⟨by rw [h.1], h.2⟩
  | _ => simp [yield] at h

theorem determined_var : (Derivation.var).Determined := by
  intro d' r r' hr hr' h
  cases d' with
  | var => exact ⟨rfl, by simpa [yield] using h⟩
  | constant c => simp [yield, c.name_ne_var.symm] at h
  | call f args => simp [yield, f.name_ne_var.symm] at h
  | _ => simp [yield] at h

theorem determined_constant (c : Constant) : (Derivation.constant c).Determined := by
  intro d' r r' hr hr' h
  cases d' with
  | constant c' =>
    simp only [yield, List.cons_append, List.nil_append, List.cons.injEq, Token.ident.injEq] at h
    obtain rfl := Constant.name_injective h.1
    exact ⟨rfl, h.2⟩
  | var => simp [yield, c.name_ne_var] at h
  | call f args => simp [yield, (f.name_ne_constant c).symm] at h
  | _ => simp [yield] at h

theorem Determined.group {inner : Derivation .sum} (hinner : inner.Determined) :
    (Derivation.group inner).Determined := by
  intro d' r r' hr hr' h
  cases d' with
  | group inner' =>
    simp only [yield, List.cons_append, List.append_assoc, List.nil_append, List.cons.injEq,
      true_and] at h
    obtain ⟨rfl, htail⟩ := hinner inner' _ _ (by simp [Nonterminal.Ends, grip])
      (by simp [Nonterminal.Ends, grip]) h
    exact ⟨rfl, (List.cons.inj htail).2⟩
  | _ => simp [yield] at h

/-- The names of two calls agree, hence so do the numbers of their arguments. -/
theorem Determined.call (f : Callable) {args : Derivation (.arguments f.arity)}
    (hargs : args.Determined) : (Derivation.call f args).Determined := by
  intro d' r r' hr hr' h
  cases d' with
  | call f' args' =>
    simp only [yield, List.cons_append, List.append_assoc, List.nil_append, List.cons.injEq,
      Token.ident.injEq, true_and] at h
    obtain ⟨hname, hlists⟩ := h
    obtain rfl := Callable.name_injective hname
    obtain ⟨rfl, htail⟩ := hargs args' (.closing :: r) (.closing :: r') rfl rfl hlists
    exact ⟨rfl, (List.cons.inj htail).2⟩
  | var => simp [yield, f.name_ne_var] at h
  | constant c => simp [yield, f.name_ne_constant c] at h
  | _ => simp [yield] at h

theorem determined_noArgument : (Derivation.noArgument).Determined := by
  intro d' r r' hr hr' h
  cases d' with
  | noArgument => exact ⟨rfl, h⟩

theorem Determined.arguments {n : Nat} {first : Derivation .sum}
    {rest : Derivation (.moreArguments n)} (hfirst : first.Determined) (hrest : rest.Determined) :
    (Derivation.arguments first rest).Determined := by
  intro d' r r' hr hr' h
  cases d' with
  | arguments first' rest' =>
    simp only [yield, List.append_assoc] at h
    obtain ⟨rfl, htail⟩ := hfirst first' _ _ (ends_sum rest hr) (ends_sum rest' hr') h
    obtain ⟨rfl, rfl⟩ := hrest rest' r r' hr hr' htail
    exact ⟨rfl, rfl⟩

theorem determined_noMoreArgument : (Derivation.noMoreArgument).Determined := by
  intro d' r r' hr hr' h
  cases d' with
  | noMoreArgument => exact ⟨rfl, h⟩

theorem Determined.moreArguments {n : Nat} {first : Derivation .sum}
    {rest : Derivation (.moreArguments n)} (hfirst : first.Determined) (hrest : rest.Determined) :
    (Derivation.moreArguments first rest).Determined := by
  intro d' r r' hr hr' h
  cases d' with
  | moreArguments first' rest' =>
    simp only [yield, List.cons_append, List.append_assoc, List.cons.injEq, true_and] at h
    obtain ⟨rfl, htail⟩ := hfirst first' _ _ (ends_sum rest hr) (ends_sum rest' hr') h
    obtain ⟨rfl, rfl⟩ := hrest rest' r r' hr hr' htail
    exact ⟨rfl, rfl⟩

/-! ## All productions -/

/-- Every derivation is determined by the tokens that begin with its yield. -/
theorem determined {n : Nonterminal} (d : Derivation n) : d.Determined := by
  induction d with
  | sum first rest hfirst hrest => exact hfirst.sum hrest
  | noAddend => exact determined_noAddend
  | addend s operand rest hoperand hrest => exact hoperand.addend s hrest
  | term first rest hfirst hrest => exact hfirst.term hrest
  | noFactor => exact determined_noFactor
  | factor s operand rest hoperand hrest => exact hoperand.factor s hrest
  | signed s operand hoperand => exact hoperand.signed s
  | unsigned operand hoperand => exact hoperand.unsigned
  | plain base hbase => exact hbase.plain
  | raised base exponent hbase hexponent => exact hbase.raised hexponent
  | number value => exact determined_number value
  | var => exact determined_var
  | constant c => exact determined_constant c
  | group inner hinner => exact hinner.group
  | call f args hargs => exact hargs.call f
  | noArgument => exact determined_noArgument
  | arguments first rest hfirst hrest => exact hfirst.arguments hrest
  | noMoreArgument => exact determined_noMoreArgument
  | moreArguments first rest hfirst hrest => exact hfirst.moreArguments hrest

/-- A token sequence is derived from `sum` in at most one way. -/
theorem eq_of_yield_eq {d d' : Derivation .sum} (h : d.yield = d'.yield) : d = d' := by
  have hend : Nonterminal.Ends .sum [] := looser_nil 1
  exact (determined d d' [] [] hend hend (by rw [h])).1

end Derivation
end Grammar
end Plotting
