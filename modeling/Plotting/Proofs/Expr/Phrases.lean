import Mathlib.Computability.Language
import Plotting.Proofs.Expr.Grammar

/-!
# Phrases without regard to the number of arguments

A call with a wrong number of arguments is well formed in the order of its tokens, and is refused
for another reason.  `Phrase` is the grammar in which a call may have any number of them.  Each
derivation spells a phrase (`Derivation.phrase`).

The phrases of a nonterminal are a language, and the productions are read as equations between
languages: a sum is a term and addends, `phrases .sum = phrases .term * phrases .addends`.  Three
kinds of facts are needed of each language: how it splits, what its words begin with, and what may
come after them.  For the last, the tokens by which phrases go on are ranked by how tightly they
hold: a sign continues a sum, a scale also a term, a caret also a power, and a parenthesis would
turn the name in front of it into a call.
-/

namespace Plotting
namespace Grammar

/-- The tokens are a phrase of the nonterminal, calls with any number of arguments among them. -/
inductive Phrase : Nonterminal → List Token → Prop where
  | sum {u v : List Token} (first : Phrase .term u) (rest : Phrase .addends v) :
      Phrase .sum (u ++ v)
  | noAddend : Phrase .addends []
  | addend (s : Sign) {u v : List Token} (operand : Phrase .term u) (rest : Phrase .addends v) :
      Phrase .addends (s.token :: (u ++ v))
  | term {u v : List Token} (first : Phrase .unary u) (rest : Phrase .factors v) :
      Phrase .term (u ++ v)
  | noFactor : Phrase .factors []
  | factor (s : Scale) {u v : List Token} (operand : Phrase .unary u) (rest : Phrase .factors v) :
      Phrase .factors (s.token :: (u ++ v))
  | signed (s : Sign) {u : List Token} (operand : Phrase .unary u) : Phrase .unary (s.token :: u)
  | unsigned {u : List Token} (operand : Phrase .power u) : Phrase .unary u
  | plain {u : List Token} (base : Phrase .atom u) : Phrase .power u
  | raised {u v : List Token} (base : Phrase .atom u) (exponent : Phrase .unary v) :
      Phrase .power (u ++ .caret :: v)
  | number (value : Float) : Phrase .atom [.number value]
  | var : Phrase .atom [.ident "x"]
  | constant (c : Constant) : Phrase .atom [.ident c.name]
  | group {u : List Token} (inner : Phrase .sum u) : Phrase .atom (.opening :: (u ++ [.closing]))
  | call (f : Callable) {n : ℕ} {u : List Token} (args : Phrase (.arguments n) u) :
      Phrase .atom (.ident f.name :: .opening :: (u ++ [.closing]))
  | noArgument : Phrase (.arguments 0) []
  | arguments {n : ℕ} {u v : List Token} (first : Phrase .sum u)
      (rest : Phrase (.moreArguments n) v) : Phrase (.arguments (n + 1)) (u ++ v)
  | noMoreArgument : Phrase (.moreArguments 0) []
  | moreArguments {n : ℕ} {u v : List Token} (first : Phrase .sum u)
      (rest : Phrase (.moreArguments n) v) : Phrase (.moreArguments (n + 1)) (.comma :: (u ++ v))

/-- What a derivation spells is a phrase. -/
theorem Derivation.phrase {n : Nonterminal} (d : Derivation n) : Phrase n d.yield := by
  induction d with
  | sum first rest hfirst hrest => exact .sum hfirst hrest
  | noAddend => exact .noAddend
  | addend s operand rest hoperand hrest => exact .addend s hoperand hrest
  | term first rest hfirst hrest => exact .term hfirst hrest
  | noFactor => exact .noFactor
  | factor s operand rest hoperand hrest => exact .factor s hoperand hrest
  | signed s operand hoperand => exact .signed s hoperand
  | unsigned operand hoperand => exact .unsigned hoperand
  | plain base hbase => exact .plain hbase
  | raised base exponent hbase hexponent => exact .raised hbase hexponent
  | number value => exact .number value
  | var => exact .var
  | constant c => exact .constant c
  | group inner hinner => exact .group hinner
  | call f args hargs => exact .call f hargs
  | noArgument => exact .noArgument
  | arguments first rest hfirst hrest => exact .arguments hfirst hrest
  | noMoreArgument => exact .noMoreArgument
  | moreArguments first rest hfirst hrest => exact .moreArguments hfirst hrest

/-! ## Sentences -/

/-- The tokens are a sentence of the grammar. -/
def IsSentence (w : List Token) : Prop :=
  Phrase .sum w

/-- Some sentence begins with the tokens. -/
def IsViable (w : List Token) : Prop :=
  ∃ z, IsSentence (w ++ z)

/-! ## Languages -/

/-- The phrases of a nonterminal. -/
def phrases (n : Nonterminal) : Language Token :=
  {w | Phrase n w}

/-- The caret and the operand to which an atom may be raised. -/
def exponents : Language Token :=
  1 + {[Token.caret]} * phrases .unary

/-- Lists of any number of arguments. -/
def argumentLists : Language Token :=
  {w | ∃ n, Phrase (.arguments n) w}

/-- Any number of further arguments, a comma before each. -/
def furtherArguments : Language Token :=
  {w | ∃ n, Phrase (.moreArguments n) w}

/-- A sum between parentheses. -/
def groups : Language Token :=
  {[Token.opening]} * (phrases .sum * {[Token.closing]})

/-- Calls of a function on any number of arguments. -/
def calls (f : Callable) : Language Token :=
  {[Token.ident f.name]} * ({[Token.opening]} * (argumentLists * {[Token.closing]}))

/-- The names that stand for a value by themselves. -/
def IsValueName (name : String) : Prop :=
  name = "x" ∨ ∃ k : Constant, name = k.name

theorem mem_singleton (w : List Token) : w ∈ ({w} : Language Token) :=
  rfl

theorem mem_singleton_mul {t : Token} {L : Language Token} {w : List Token} :
    w ∈ {[t]} * L ↔ ∃ y ∈ L, w = t :: y := by
  rw [Language.mem_mul]
  constructor
  · rintro ⟨u, rfl, y, hy, rfl⟩
    exact ⟨y, hy, rfl⟩
  · rintro ⟨y, hy, rfl⟩
    exact ⟨[t], rfl, y, hy, rfl⟩

/-! ## How phrases split -/

theorem phrases_sum : phrases .sum = phrases .term * phrases .addends := by
  ext w
  rw [Language.mem_mul]
  constructor
  · intro (h : Phrase .sum w)
    cases h with
    | sum first rest => exact ⟨_, first, _, rest, rfl⟩
  · rintro ⟨u, hu, v, hv, rfl⟩
    exact Phrase.sum hu hv

theorem phrases_term : phrases .term = phrases .unary * phrases .factors := by
  ext w
  rw [Language.mem_mul]
  constructor
  · intro (h : Phrase .term w)
    cases h with
    | term first rest => exact ⟨_, first, _, rest, rfl⟩
  · rintro ⟨u, hu, v, hv, rfl⟩
    exact Phrase.term hu hv

theorem mem_addends_iff {w : List Token} :
    w ∈ phrases .addends ↔
      w = [] ∨ ∃ s : Sign, w ∈ {[s.token]} * (phrases .term * phrases .addends) := by
  constructor
  · intro (h : Phrase .addends w)
    cases h with
    | noAddend => exact Or.inl rfl
    | addend s operand rest =>
      exact Or.inr ⟨s, mem_singleton_mul.mpr ⟨_, Language.append_mem_mul operand rest, rfl⟩⟩
  · rintro (rfl | ⟨s, hw⟩)
    · exact Phrase.noAddend
    · obtain ⟨y, hy, rfl⟩ := mem_singleton_mul.mp hw
      obtain ⟨u, hu, v, hv, rfl⟩ := Language.mem_mul.mp hy
      exact Phrase.addend s hu hv

theorem mem_factors_iff {w : List Token} :
    w ∈ phrases .factors ↔
      w = [] ∨ ∃ s : Scale, w ∈ {[s.token]} * (phrases .unary * phrases .factors) := by
  constructor
  · intro (h : Phrase .factors w)
    cases h with
    | noFactor => exact Or.inl rfl
    | factor s operand rest =>
      exact Or.inr ⟨s, mem_singleton_mul.mpr ⟨_, Language.append_mem_mul operand rest, rfl⟩⟩
  · rintro (rfl | ⟨s, hw⟩)
    · exact Phrase.noFactor
    · obtain ⟨y, hy, rfl⟩ := mem_singleton_mul.mp hw
      obtain ⟨u, hu, v, hv, rfl⟩ := Language.mem_mul.mp hy
      exact Phrase.factor s hu hv

theorem mem_exponents_iff {w : List Token} :
    w ∈ exponents ↔ w = [] ∨ w ∈ {[Token.caret]} * phrases .unary := by
  rw [exponents, Language.mem_add, Language.mem_one]

theorem phrases_power : phrases .power = phrases .atom * exponents := by
  ext w
  rw [Language.mem_mul]
  constructor
  · intro (h : Phrase .power w)
    cases h with
    | plain base => exact ⟨_, base, [], mem_exponents_iff.mpr (Or.inl rfl), List.append_nil _⟩
    | raised base exponent =>
      exact ⟨_, base, _,
        mem_exponents_iff.mpr (Or.inr (mem_singleton_mul.mpr ⟨_, exponent, rfl⟩)), rfl⟩
  · rintro ⟨u, hu, v, hv, rfl⟩
    obtain rfl | hv := mem_exponents_iff.mp hv
    · rw [List.append_nil]
      exact Phrase.plain hu
    · obtain ⟨y, hy, rfl⟩ := mem_singleton_mul.mp hv
      exact Phrase.raised hu hy

theorem mem_unary_iff {w : List Token} :
    w ∈ phrases .unary ↔ (∃ s : Sign, w ∈ {[s.token]} * phrases .unary) ∨ w ∈ phrases .power := by
  constructor
  · intro (h : Phrase .unary w)
    cases h with
    | signed s operand => exact Or.inl ⟨s, mem_singleton_mul.mpr ⟨_, operand, rfl⟩⟩
    | unsigned operand => exact Or.inr operand
  · rintro (⟨s, hw⟩ | hw)
    · obtain ⟨y, hy, rfl⟩ := mem_singleton_mul.mp hw
      exact Phrase.signed s hy
    · exact Phrase.unsigned hw

theorem mem_groups_iff {w : List Token} :
    w ∈ groups ↔ ∃ u ∈ phrases .sum, w = .opening :: (u ++ [.closing]) := by
  rw [groups, mem_singleton_mul]
  constructor
  · rintro ⟨y, hy, rfl⟩
    obtain ⟨u, hu, v, rfl, rfl⟩ := Language.mem_mul.mp hy
    exact ⟨u, hu, rfl⟩
  · rintro ⟨u, hu, rfl⟩
    exact ⟨u ++ [.closing], Language.append_mem_mul hu (mem_singleton _), rfl⟩

theorem mem_calls_iff {f : Callable} {w : List Token} :
    w ∈ calls f ↔ ∃ u ∈ argumentLists, w = .ident f.name :: .opening :: (u ++ [.closing]) := by
  rw [calls, mem_singleton_mul]
  constructor
  · rintro ⟨y, hy, rfl⟩
    obtain ⟨z, hz, rfl⟩ := mem_singleton_mul.mp hy
    obtain ⟨u, hu, v, rfl, rfl⟩ := Language.mem_mul.mp hz
    exact ⟨u, hu, rfl⟩
  · rintro ⟨u, hu, rfl⟩
    exact ⟨.opening :: (u ++ [.closing]),
      mem_singleton_mul.mpr
        ⟨u ++ [.closing], Language.append_mem_mul hu (mem_singleton _), rfl⟩, rfl⟩

theorem mem_atom_iff {w : List Token} :
    w ∈ phrases .atom ↔ (∃ value, w = [.number value]) ∨
      (∃ name, IsValueName name ∧ w = [.ident name]) ∨ w ∈ groups ∨ ∃ f, w ∈ calls f := by
  simp only [mem_groups_iff, mem_calls_iff]
  constructor
  · intro (h : Phrase .atom w)
    cases h with
    | number value => exact Or.inl ⟨value, rfl⟩
    | var => exact Or.inr (Or.inl ⟨_, Or.inl rfl, rfl⟩)
    | constant k => exact Or.inr (Or.inl ⟨_, Or.inr ⟨k, rfl⟩, rfl⟩)
    | group inner => exact Or.inr (Or.inr (Or.inl ⟨_, inner, rfl⟩))
    | call f args => exact Or.inr (Or.inr (Or.inr ⟨f, _, ⟨_, args⟩, rfl⟩))
  · rintro (⟨value, rfl⟩ | ⟨name, rfl | ⟨k, rfl⟩, rfl⟩ | ⟨u, hu, rfl⟩ | ⟨f, u, ⟨n, hu⟩, rfl⟩)
    · exact Phrase.number value
    · exact Phrase.var
    · exact Phrase.constant k
    · exact Phrase.group hu
    · exact Phrase.call f hu

/-- A name that is called stands for no value by itself. -/
theorem not_isValueName_callable (f : Callable) : ¬ IsValueName f.name := by
  rintro (hvar | ⟨k, hk⟩)
  · exact f.name_ne_var hvar
  · exact f.name_ne_constant k hk

/-- The first token tells which atom it is. -/
theorem mem_atom_of_head? {w r : List Token} {t : Token} (hw : w ∈ phrases .atom)
    (ht : (w ++ r).head? = some t) :
    (∃ value, t = .number value ∧ w = [t]) ∨
      (∃ name, t = .ident name ∧ IsValueName name ∧ w = [t]) ∨
      (t = .opening ∧ w ∈ groups) ∨ ∃ f : Callable, t = .ident f.name ∧ w ∈ calls f := by
  obtain ⟨value, rfl⟩ | ⟨name, hname, rfl⟩ | hw | ⟨f, hw⟩ := mem_atom_iff.mp hw
  · cases ht
    exact Or.inl ⟨value, rfl, rfl⟩
  · cases ht
    exact Or.inr (Or.inl ⟨name, rfl, hname, rfl⟩)
  · obtain ⟨u, -, rfl⟩ := mem_groups_iff.mp hw
    cases ht
    exact Or.inr (Or.inr (Or.inl ⟨rfl, hw⟩))
  · obtain ⟨u, -, rfl⟩ := mem_calls_iff.mp hw
    cases ht
    exact Or.inr (Or.inr (Or.inr ⟨f, rfl, hw⟩))

theorem mem_argumentLists_iff {w : List Token} :
    w ∈ argumentLists ↔ w = [] ∨ w ∈ phrases .sum * furtherArguments := by
  constructor
  · rintro ⟨n, h⟩
    cases h with
    | noArgument => exact Or.inl rfl
    | arguments first rest => exact Or.inr (Language.append_mem_mul first ⟨_, rest⟩)
  · rintro (rfl | hw)
    · exact ⟨0, .noArgument⟩
    · obtain ⟨u, hu, v, ⟨n, hv⟩, rfl⟩ := Language.mem_mul.mp hw
      exact ⟨n + 1, .arguments hu hv⟩

theorem mem_furtherArguments_iff {w : List Token} :
    w ∈ furtherArguments ↔ w = [] ∨ w ∈ {[Token.comma]} * (phrases .sum * furtherArguments) := by
  constructor
  · rintro ⟨n, h⟩
    cases h with
    | noMoreArgument => exact Or.inl rfl
    | moreArguments first rest =>
      exact Or.inr (mem_singleton_mul.mpr ⟨_, Language.append_mem_mul first ⟨_, rest⟩, rfl⟩)
  · rintro (rfl | hw)
    · exact ⟨0, .noMoreArgument⟩
    · obtain ⟨y, hy, rfl⟩ := mem_singleton_mul.mp hw
      obtain ⟨u, hu, v, ⟨n, hv⟩, rfl⟩ := Language.mem_mul.mp hy
      exact ⟨n + 1, .moreArguments hu hv⟩

/-! ## What phrases begin with -/

namespace Derivation

/-- The tokens with which an atom begins. -/
def opensAtom : Token → Bool
  | .number _ | .ident _ | .opening => true
  | _ => false

/-- The tokens with which an operand begins. -/
def opensUnary : Token → Bool
  | .plus | .minus => true
  | t => opensAtom t

theorem opensUnary_of_opensAtom {t : Token} (h : opensAtom t = true) : opensUnary t = true := by
  cases t <;> first | rfl | exact h

end Derivation

/-- Every word of the language begins with a token of the given sort. -/
def BeginsWith (opens : Token → Bool) (L : Language Token) : Prop :=
  ∀ w ∈ L, ∃ t v, w = t :: v ∧ opens t = true

theorem BeginsWith.mul {opens : Token → Bool} {L : Language Token} (h : BeginsWith opens L)
    (M : Language Token) : BeginsWith opens (L * M) := by
  intro w hw
  obtain ⟨u, hu, v, -, rfl⟩ := Language.mem_mul.mp hw
  obtain ⟨t, u', rfl, ht⟩ := h u hu
  exact ⟨t, u' ++ v, rfl, ht⟩

theorem beginsWith_atom : BeginsWith Derivation.opensAtom (phrases .atom) := by
  intro w (h : Phrase .atom w)
  cases h <;> exact ⟨_, _, rfl, rfl⟩

theorem beginsWith_power : BeginsWith Derivation.opensAtom (phrases .power) :=
  phrases_power ▸ beginsWith_atom.mul exponents

theorem beginsWith_unary : BeginsWith Derivation.opensUnary (phrases .unary) := by
  intro w (h : Phrase .unary w)
  cases h with
  | signed s operand => exact ⟨s.token, _, rfl, by cases s <;> rfl⟩
  | unsigned operand =>
    obtain ⟨t, v, rfl, ht⟩ := beginsWith_power w operand
    exact ⟨t, v, rfl, Derivation.opensUnary_of_opensAtom ht⟩

theorem beginsWith_term : BeginsWith Derivation.opensUnary (phrases .term) :=
  phrases_term ▸ beginsWith_unary.mul (phrases .factors)

theorem beginsWith_sum : BeginsWith Derivation.opensUnary (phrases .sum) :=
  phrases_sum ▸ beginsWith_term.mul (phrases .addends)

/-! ## What may come after a phrase -/

/-- How tightly a token holds on to the phrase in front of it. -/
def grip : Token → Nat
  | .plus | .minus => 1
  | .star | .slash => 2
  | .caret => 3
  | .opening => 4
  | .number _ | .ident _ | .closing | .comma => 0

@[simp] theorem grip_sign (s : Sign) : grip s.token = 1 := by
  cases s <;> rfl

@[simp] theorem grip_scale (s : Scale) : grip s.token = 2 := by
  cases s <;> rfl

/-- The token in front, if any, holds less than `limit`. -/
def Looser (limit : Nat) (r : List Token) : Prop :=
  ∀ t ∈ r.head?, grip t < limit

theorem Looser.mono {a b : Nat} (hab : a ≤ b) {r : List Token} (h : Looser a r) : Looser b r := by
  intro t ht
  exact Nat.lt_of_lt_of_le (h t ht) hab

@[simp] theorem looser_cons {limit : Nat} {t : Token} {r : List Token} :
    Looser limit (t :: r) ↔ grip t < limit := by
  simp [Looser]

theorem looser_nil (limit : Nat) : Looser limit [] := by
  intro t ht
  cases ht

theorem looser_of_mem_factors {y r : List Token} (hy : y ∈ phrases .factors) (hr : Looser 2 r) :
    Looser 3 (y ++ r) := by
  obtain rfl | ⟨s, hs⟩ := mem_factors_iff.mp hy
  · exact hr.mono (by omega)
  · obtain ⟨z, -, rfl⟩ := mem_singleton_mul.mp hs
    simp

theorem looser_of_mem_addends {y r : List Token} (hy : y ∈ phrases .addends) (hr : Looser 1 r) :
    Looser 2 (y ++ r) := by
  obtain rfl | ⟨s, hs⟩ := mem_addends_iff.mp hy
  · exact hr.mono (by omega)
  · obtain ⟨z, -, rfl⟩ := mem_singleton_mul.mp hs
    simp

theorem looser_of_mem_furtherArguments {y r : List Token} (hy : y ∈ furtherArguments)
    (hr : r.head? = some .closing) : Looser 1 (y ++ r) := by
  obtain rfl | hy := mem_furtherArguments_iff.mp hy
  · intro t ht
    obtain rfl := Option.some.inj (hr.symm.trans ht)
    decide
  · obtain ⟨z, -, rfl⟩ := mem_singleton_mul.mp hy
    simp [grip]

theorem nonempty_atom : ∃ z, z ∈ phrases .atom :=
  ⟨_, Phrase.var⟩

end Grammar
end Plotting
