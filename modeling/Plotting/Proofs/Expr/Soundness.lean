import Plotting.Proofs.Expr.Grammar
import Plotting.Proofs.Expr.Passage

/-!
# What the parser reads is derived

`Derives n c v c'` says that between two cursors stands a phrase of the grammar
whose tree is `v` and whose operands fit into what is left of the nesting limit.
There is one lemma for each production, and for each level of the parser one
lemma that turns a result of the parser into the productions it used.  The
levels are functions of the parser of operands, so that parser is an assumption
until the end, where it is discharged by induction on the number of operands
that may still be nested.
-/

namespace Plotting
namespace Grammar

/-- A phrase of the nonterminal `n` that stands for `v` leads from `c` to `c'`,
and nests no more operands than may still be opened. -/
def Derives (n : Nonterminal) (c : Cursor) (v : n.Meaning) (c' : Cursor) : Prop :=
  ∃ d : Derivation n, d.tree = v ∧ c.Passes d.yield c' ∧ d.nesting ≤ maxNestingDepth - c.depth

/-! ## One production at a time -/

namespace Derives
variable {c c₁ c₂ : Cursor} {e e₁ e₂ : Expr} {f : Expr → Expr}

theorem sum (hfirst : Derives .term c e c₁) (hrest : Derives .addends c₁ f c₂) :
    Derives .sum c (f e) c₂ := by
  obtain ⟨d, rfl, hd, hnesting⟩ := hfirst
  obtain ⟨d', rfl, hd', hnesting'⟩ := hrest
  rw [hd.depth] at hnesting'
  exact ⟨.sum d d', rfl, hd.trans hd', Nat.max_le.mpr ⟨hnesting, hnesting'⟩⟩

theorem noAddend : Derives .addends c (fun left => left) c :=
  ⟨.noAddend, rfl, .refl c, Nat.zero_le _⟩

theorem addend {s : Sign} (hs : c.peek? = some s.token) (hoperand : Derives .term c.advance e c₁)
    (hrest : Derives .addends c₁ f c₂) :
    Derives .addends c (fun left => f (.binary s.operator left e)) c₂ := by
  obtain ⟨d, rfl, hd, hnesting⟩ := hoperand
  obtain ⟨d', rfl, hd', hnesting'⟩ := hrest
  rw [hd.depth] at hnesting'
  exact ⟨.addend s d d', rfl, .cons hs (hd.trans hd'), Nat.max_le.mpr ⟨hnesting, hnesting'⟩⟩

theorem term (hfirst : Derives .unary c e c₁) (hrest : Derives .factors c₁ f c₂) :
    Derives .term c (f e) c₂ := by
  obtain ⟨d, rfl, hd, hnesting⟩ := hfirst
  obtain ⟨d', rfl, hd', hnesting'⟩ := hrest
  rw [hd.depth] at hnesting'
  exact ⟨.term d d', rfl, hd.trans hd', Nat.max_le.mpr ⟨hnesting, hnesting'⟩⟩

theorem noFactor : Derives .factors c (fun left => left) c :=
  ⟨.noFactor, rfl, .refl c, Nat.zero_le _⟩

theorem factor {s : Scale} (hs : c.peek? = some s.token) (hoperand : Derives .unary c.advance e c₁)
    (hrest : Derives .factors c₁ f c₂) :
    Derives .factors c (fun left => f (.binary s.operator left e)) c₂ := by
  obtain ⟨d, rfl, hd, hnesting⟩ := hoperand
  obtain ⟨d', rfl, hd', hnesting'⟩ := hrest
  rw [hd.depth] at hnesting'
  exact ⟨.factor s d d', rfl, .cons hs (hd.trans hd'), Nat.max_le.mpr ⟨hnesting, hnesting'⟩⟩

/-- A sign opens an operand, and so does the unary after it. -/
theorem signed {s : Sign} (hdepth : c.depth < maxNestingDepth) (hs : c.peek? = some s.token)
    (hoperand : Derives .unary c.opened.advance e c₁) : Derives .unary c (s.signed e) c₁.leave := by
  obtain ⟨d, rfl, hd, hnesting⟩ := hoperand
  have hpasses : c.opened.Passes (s.token :: d.yield) c₁ := .cons hs hd
  refine ⟨.signed s d, rfl, hpasses.leave, ?_⟩
  simp only [Cursor.depth_advance, Cursor.depth_opened] at hnesting
  simp only [Derivation.nesting]
  omega

theorem unsigned (hdepth : c.depth < maxNestingDepth) (hoperand : Derives .power c.opened e c₁) :
    Derives .unary c e c₁.leave := by
  obtain ⟨d, rfl, hd, hnesting⟩ := hoperand
  refine ⟨.unsigned d, rfl, hd.leave, ?_⟩
  simp only [Cursor.depth_opened] at hnesting
  simp only [Derivation.nesting]
  omega

theorem plain (hbase : Derives .atom c e c₁) : Derives .power c e c₁ := by
  obtain ⟨d, rfl, hd, hnesting⟩ := hbase
  exact ⟨.plain d, rfl, hd, hnesting⟩

theorem raised (hbase : Derives .atom c e₁ c₁) (hcaret : c₁.peek? = some .caret)
    (hexponent : Derives .unary c₁.advance e₂ c₂) :
    Derives .power c (.binary .pow e₁ e₂) c₂ := by
  obtain ⟨d, rfl, hd, hnesting⟩ := hbase
  obtain ⟨d', rfl, hd', hnesting'⟩ := hexponent
  rw [Cursor.depth_advance, hd.depth] at hnesting'
  exact ⟨.raised d d', rfl, hd.trans (.cons hcaret hd'), Nat.max_le.mpr ⟨hnesting, hnesting'⟩⟩

theorem number {value : Float} (h : c.peek? = some (.number value)) :
    Derives .atom c (.number value) c.advance :=
  ⟨.number value, rfl, .advance h, Nat.zero_le _⟩

theorem var (h : c.peek? = some (.ident "x")) : Derives .atom c .var c.advance :=
  ⟨.var, rfl, .advance h, Nat.zero_le _⟩

theorem constant {k : Constant} (h : c.peek? = some (.ident k.name)) :
    Derives .atom c (.constant k) c.advance :=
  ⟨.constant k, rfl, .advance h, Nat.zero_le _⟩

theorem group (hopening : c.peek? = some .opening) (hinner : Derives .sum c.advance e c₁)
    (hclosing : c₁.peek? = some .closing) : Derives .atom c e c₁.advance := by
  obtain ⟨d, rfl, hd, hnesting⟩ := hinner
  exact ⟨.group d, rfl, .cons hopening (hd.concat hclosing), hnesting⟩

theorem call {g : Callable} {args : { as : List Expr // as.length = g.arity }}
    (hname : c.peek? = some (.ident g.name)) (hopening : c.advance.peek? = some .opening)
    (hargs : Derives (.arguments g.arity) c.advance.advance args c₁)
    (hclosing : c₁.peek? = some .closing) : Derives .atom c (g.apply args) c₁.advance := by
  obtain ⟨d, rfl, hd, hnesting⟩ := hargs
  exact ⟨.call g d, rfl, .cons hname (.cons hopening (hd.concat hclosing)), hnesting⟩

theorem noArgument : Derives (.arguments 0) c ⟨[], rfl⟩ c :=
  ⟨.noArgument, rfl, .refl c, Nat.zero_le _⟩

theorem arguments {m : Nat} {as : { as : List Expr // as.length = m }}
    (hfirst : Derives .sum c e c₁) (hrest : Derives (.moreArguments m) c₁ as c₂) :
    Derives (.arguments (m + 1)) c ⟨e :: as.val, congrArg Nat.succ as.property⟩ c₂ := by
  obtain ⟨d, rfl, hd, hnesting⟩ := hfirst
  obtain ⟨d', rfl, hd', hnesting'⟩ := hrest
  rw [hd.depth] at hnesting'
  exact ⟨.arguments d d', rfl, hd.trans hd', Nat.max_le.mpr ⟨hnesting, hnesting'⟩⟩

theorem noMoreArgument : Derives (.moreArguments 0) c ⟨[], rfl⟩ c :=
  ⟨.noMoreArgument, rfl, .refl c, Nat.zero_le _⟩

theorem moreArguments {m : Nat} {as : { as : List Expr // as.length = m }}
    (hcomma : c.peek? = some .comma) (hfirst : Derives .sum c.advance e c₁)
    (hrest : Derives (.moreArguments m) c₁ as c₂) :
    Derives (.moreArguments (m + 1)) c ⟨e :: as.val, congrArg Nat.succ as.property⟩ c₂ := by
  obtain ⟨d, rfl, hd, hnesting⟩ := hfirst
  obtain ⟨d', rfl, hd', hnesting'⟩ := hrest
  rw [hd.depth] at hnesting'
  exact ⟨.moreArguments d d', rfl, .cons hcomma (hd.trans hd'),
    Nat.max_le.mpr ⟨hnesting, hnesting'⟩⟩

end Derives

/-- Arguments counted are arguments of the number counted. -/
theorem derives_arguments_of_length {m : Nat} {as : List Expr} {c c' : Cursor}
    (hm : as.length = m) (h : Derives (.arguments as.length) c ⟨as, rfl⟩ c') :
    Derives (.arguments m) c ⟨as, hm⟩ c' := by
  subst hm
  exact h

/-! ## One level of the parser at a time -/

/-- Whatever the parser reads is a phrase of the nonterminal. -/
def Sound (n : Nonterminal) (p : Parser n.Meaning) : Prop :=
  ∀ (c : Cursor) (v : n.Meaning) (c' : Cursor), p c = .ok (v, c') → Derives n c v c'

section Levels
variable {operand : Parser Expr}

open Plotting.Parser

/-- The loop that collects operands, for either level of operators.  `Tail` is
what the level calls the operands after the first; the tree is a function of the
tree to the left, so that the accumulator plays no part in the induction. -/
theorem exists_tail_of_chainFrom {op? : Token → Option Operator} {next : Parser Expr}
    {Tail : Cursor → (Expr → Expr) → Cursor → Prop} (hnil : ∀ c, Tail c (fun left => left) c)
    (hcons : ∀ {c c₁ c₂ : Cursor} {t : Token} {op : Operator} {e : Expr} {f : Expr → Expr},
      c.peek? = some t → op? t = some op → next c.advance = .ok (e, c₁) → Tail c₁ f c₂ →
        Tail c (fun left => f (.binary op left e)) c₂)
    {fuel : Nat} {left e : Expr} {c c' : Cursor}
    (h : chainFrom op? next fuel left c = .ok (e, c')) : ∃ f, Tail c f c' ∧ f left = e := by
  induction fuel generalizing left c with
  | zero =>
    cases h
    exact ⟨_, hnil _, rfl⟩
  | succ fuel ih =>
    simp only [chainFrom] at h
    split at h
    · cases h
      exact ⟨_, hnil _, rfl⟩
    · next op hop =>
      obtain ⟨t, ht, hopt⟩ := Option.bind_eq_some_iff.mp hop
      obtain ⟨⟨right, c₁⟩, hright, hrest⟩ := bind_eq_ok_iff.mp h
      obtain ⟨f, hf, rfl⟩ := ih hrest
      exact ⟨_, hcons ht hopt hright hf, rfl⟩

theorem Sound.term (h : Sound .unary operand) : Sound .term (chain multiplicative? operand) := by
  intro c e c' he
  obtain ⟨⟨first, c₁⟩, hfirst, hrest⟩ := bind_eq_ok_iff.mp he
  have htail : ∃ f, Derives .factors c₁ f c' ∧ f first = e := by
    refine exists_tail_of_chainFrom (fun c => .noFactor) ?_ hrest
    intro c c₁ c₂ t op e f ht hop hnext hf
    obtain ⟨s, rfl, rfl⟩ := Scale.multiplicative?_eq_some_iff.mp hop
    exact .factor ht (h _ _ _ hnext) hf
  obtain ⟨f, hf, rfl⟩ := htail
  exact .term (h _ _ _ hfirst) hf

theorem Sound.sum (h : Sound .unary operand) : Sound .sum (Parser.sum operand) := by
  intro c e c' he
  obtain ⟨⟨first, c₁⟩, hfirst, hrest⟩ := bind_eq_ok_iff.mp he
  have htail : ∃ f, Derives .addends c₁ f c' ∧ f first = e := by
    refine exists_tail_of_chainFrom (fun c => .noAddend) ?_ hrest
    intro c c₁ c₂ t op e f ht hop hnext hf
    obtain ⟨s, rfl, rfl⟩ := Sign.additive?_eq_some_iff.mp hop
    exact .addend ht (h.term _ _ _ hnext) hf
  obtain ⟨f, hf, rfl⟩ := htail
  exact .sum (h.term _ _ _ hfirst) hf

theorem derives_of_moreArguments {argument : Parser Expr} (h : Sound .sum argument) {fuel : Nat}
    {as : List Expr} {c c' : Cursor} (has : moreArguments argument fuel c = .ok (as, c')) :
    Derives (.moreArguments as.length) c ⟨as, rfl⟩ c' := by
  induction fuel generalizing as c with
  | zero =>
    cases has
    exact .noMoreArgument
  | succ fuel ih =>
    simp only [moreArguments] at has
    split at has
    · next hcomma =>
      obtain ⟨⟨a, c₁⟩, ha, has⟩ := bind_eq_ok_iff.mp has
      obtain ⟨⟨as, c₂⟩, htail, hend⟩ := bind_eq_ok_iff.mp has
      cases hend
      exact .moreArguments hcomma (h _ _ _ ha) (ih htail)
    · cases has
      exact .noMoreArgument

theorem derives_of_arguments {argument : Parser Expr} (h : Sound .sum argument) {as : List Expr}
    {c c' : Cursor} (has : arguments argument c = .ok (as, c')) :
    Derives (.arguments as.length) c ⟨as, rfl⟩ c' := by
  unfold arguments at has
  split at has
  · cases has
    exact .noArgument
  · obtain ⟨⟨a, c₁⟩, ha, has⟩ := bind_eq_ok_iff.mp has
    obtain ⟨⟨as, c₂⟩, htail, hend⟩ := bind_eq_ok_iff.mp has
    cases hend
    exact .arguments (h _ _ _ ha) (derives_of_moreArguments h htail)

/-- The list read for a call has the length that the call requires. -/
theorem derives_of_call (h : Sound .unary operand) {name : String} {offset : Nat} {e : Expr}
    {c c' : Cursor} (hname : c.peek? = some (.ident name))
    (hopening : c.advance.peek? = some .opening)
    (he : call operand name offset c.advance = .ok (e, c')) : Derives .atom c e c' := by
  unfold call at he
  split at he
  · cases he
  · next g hg =>
    obtain rfl := Callable.named?_eq_some_iff.mp hg
    obtain ⟨c₁, hc₁, he⟩ := bind_eq_ok_iff.mp he
    obtain ⟨-, rfl⟩ := Cursor.expect_eq_ok_iff.mp hc₁
    obtain ⟨⟨as, c₂⟩, has, he⟩ := bind_eq_ok_iff.mp he
    obtain ⟨c₃, hc₃, he⟩ := bind_eq_ok_iff.mp he
    obtain ⟨hclosing, rfl⟩ := Cursor.expect_eq_ok_iff.mp hc₃
    have hargs := derives_of_arguments h.sum has
    split at he
    · next hcall =>
      cases he
      have hlength : as.length = g.arity := by
        rw [← g.isSome_call?, hcall, Option.isSome_some]
      have happly : g.apply ⟨as, hlength⟩ = e := by
        have hsome := g.call?_eq_some_apply ⟨as, hlength⟩
        rw [hcall] at hsome
        exact (Option.some_inj.mp hsome).symm
      have hargs' : Derives (.arguments g.arity) c.advance.advance ⟨as, hlength⟩ c₂ :=
        derives_arguments_of_length hlength hargs
      exact happly ▸ .call hname hopening hargs' hclosing
    · cases he

theorem derives_of_ofName {name : String} {offset : Nat} {e : Expr} {c : Cursor}
    (hname : c.peek? = some (.ident name)) (he : ofName name offset = .ok e) :
    Derives .atom c e c.advance := by
  unfold ofName at he
  split at he
  · next hx =>
    cases he
    exact .var (hx ▸ hname)
  · split at he
    · next k hk =>
      cases he
      obtain rfl := Constant.named?_eq_some_iff.mp hk
      exact .constant hname
    · cases he

theorem Sound.atom (h : Sound .unary operand) : Sound .atom (Parser.atom operand) := by
  intro c e c' he
  unfold Parser.atom at he
  split at he
  · cases he
  · next found rest hrest =>
    have hpeek : c.peek? = some found.token := by
      rw [Cursor.peek?, hrest, List.head?_cons, Option.map_some]
    split at he
    · next value htoken =>
      cases he
      exact .number (htoken ▸ hpeek)
    · next name htoken =>
      rw [htoken] at hpeek
      split at he
      · next hopening => exact derives_of_call h hpeek hopening he
      · obtain ⟨e', he', hend⟩ := bind_eq_ok_iff.mp he
        cases hend
        exact derives_of_ofName hpeek he'
    · next htoken =>
      rw [htoken] at hpeek
      obtain ⟨⟨e', c₁⟩, hinner, he⟩ := bind_eq_ok_iff.mp he
      obtain ⟨c₂, hc₂, hend⟩ := bind_eq_ok_iff.mp he
      obtain ⟨hclosing, rfl⟩ := Cursor.expect_eq_ok_iff.mp hc₂
      cases hend
      exact .group hpeek (h.sum _ _ _ hinner) hclosing
    · cases he

theorem Sound.power (h : Sound .unary operand) : Sound .power (Parser.power operand) := by
  intro c e c' he
  obtain ⟨⟨base, c₁⟩, hbase, he⟩ := bind_eq_ok_iff.mp he
  have hbase' : Derives .atom c base c₁ := h.atom _ _ _ hbase
  simp only at he
  split at he
  · next hcaret =>
    obtain ⟨⟨exponent, c₂⟩, hexponent, hend⟩ := bind_eq_ok_iff.mp he
    cases hend
    exact .raised hbase' hcaret (h _ _ _ hexponent)
  · cases he
    exact .plain hbase'

end Levels

/-! ## Operands -/

open Plotting.Parser

/-- Operands are phrases, however many of them may be nested. -/
theorem sound_operandWithin (fuel : Nat) : Sound .unary (operandWithin fuel) := by
  induction fuel with
  | zero =>
    intro c e c' he
    cases he
  | succ fuel ih =>
    intro c e c' he
    obtain ⟨c₁, hc₁, he⟩ := bind_eq_ok_iff.mp he
    obtain ⟨hdepth, rfl⟩ := Cursor.enter_eq_ok_iff.mp hc₁
    dsimp only at he
    split at he
    · next hminus =>
      obtain ⟨⟨e₁, c₂⟩, hinner, hend⟩ := bind_eq_ok_iff.mp he
      cases hend
      exact .signed (s := .minus) hdepth hminus (ih _ _ _ hinner)
    · next hplus =>
      obtain ⟨⟨e₁, c₂⟩, hinner, hend⟩ := bind_eq_ok_iff.mp he
      cases hend
      exact .signed (s := .plus) hdepth hplus (ih _ _ _ hinner)
    · obtain ⟨⟨e₁, c₂⟩, hinner, hend⟩ := bind_eq_ok_iff.mp he
      cases hend
      exact .unsigned hdepth (ih.power _ _ _ hinner)

theorem sound_sum : Sound .sum (Parser.sum operand) :=
  (sound_operandWithin _).sum

end Grammar
end Plotting
