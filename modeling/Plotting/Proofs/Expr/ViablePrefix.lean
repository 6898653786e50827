import Plotting.Proofs.Expr.Completeness
import Plotting.Proofs.Expr.Phrases
import Plotting.Proofs.Expr.Prediction

/-!
# The parser is stuck only where every sentence is

The parser decides by the token in front at every level of the grammar, and each level concludes for
its own phrases what `Predicts` says.  There is one lemma for each level.  It names the part of the
language that the token in front leaves, and puts that part together from what the levels below
conclude.  As in soundness, the parser of operands is an assumption until the induction on the
number of operands that may still be nested.

What may come after a phrase is told by `Looser`, as in the proof that derivations are unique: the
token after a sum is no sign, the token after a term no scale either, and the token after an operand
no caret.  After an atom anything may come, since a name alone and a name that is called are
different names.  After arguments comes the parenthesis that closes them.
-/

namespace Plotting
namespace Grammar
variable {α : Type} {places : ℕ → Prop} {c : Cursor}

/-- The parser is right about the language wherever it starts. -/
def Reader (places : ℕ → Prop) (L : Language Token) (F : List Token → Prop) (p : Parser α) :
    Prop :=
  ∀ c : Cursor, c.Within places → Predicts places L F c (p c)

/-! ## Chains of operators -/

section Chains
variable {op? : Token → Option Operator} {next : Parser Expr} {N T : Language Token}
  {F F₁ : List Token → Prop}
  (htail : ∀ y, y ∈ T ↔ y = [] ∨ ∃ t, (op? t).isSome = true ∧ y ∈ {[t]} * (N * T))
include htail

/-- Without an operator in front nothing more comes. -/
theorem predicts_chainEnd {left : Expr} (hop : c.peek?.bind op? = none) :
    Predicts places T F c (.ok (left, c)) := by
  refine .skip (M := {y | ∃ t, (op? t).isSome = true ∧ y ∈ {[t]} * (N * T)}) htail ?_
  rintro y ⟨t, ht, hy⟩ r hhead
  obtain ⟨z, -, rfl⟩ := mem_singleton_mul.mp hy
  rw [← hhead, List.cons_append, List.head?_cons, Option.bind_some] at hop
  rw [hop] at ht
  cases ht

variable (hends : ∀ t r, F (t :: r) → op? t = none) (hfollow : ∀ y ∈ T, ∀ r, F r → F₁ (y ++ r))
  (hnext : Reader places N F₁ next)
include hends hfollow hnext

/-- The loop that collects operands, for either level of operators.  `N` are the operands of the
level, and `T` is what may come after the first of them. -/
theorem predicts_chainFrom {fuel : ℕ} (hfuel : c.rest.length ≤ fuel) {left : Expr}
    (hc : c.Within places) : Predicts places T F c (Parser.chainFrom op? next fuel left c) := by
  have hnil : ∃ z, z ∈ T := ⟨[], (htail []).mpr (Or.inl rfl)⟩
  induction fuel generalizing c left with
  | zero =>
    have hrest : c.rest = [] := List.length_eq_zero_iff.mp (Nat.le_zero.mp hfuel)
    exact predicts_chainEnd htail (by rw [Cursor.peek?, hrest]; rfl)
  | succ fuel ih =>
    rw [Parser.chainFrom]
    split
    · next hop => exact predicts_chainEnd htail hop
    · next op hop =>
      obtain ⟨t, ht, hopt⟩ := Option.bind_eq_some_iff.mp hop
      have hisSome : (op? t).isSome = true := by rw [hopt, Option.isSome_some]
      have hroom := Cursor.length_advance_lt ht
      refine Predicts.of_front (M := {[t]} * (N * T)) (.cons ht ?_) ?_ ?_
      · refine .bind (hnext c.advance hc.advance) hfollow hnil fun right c₁ w hspans => ?_
        have hshorter := hspans.length_le
        exact ih (by omega) (hc.advance.spans hspans)
      · exact fun y hy => (htail y).mpr (Or.inr ⟨t, hisSome, hy⟩)
      · intro y hy r hr hhead
        obtain rfl | ⟨t', -, hy⟩ := (htail y).mp hy
        · obtain ⟨r', rfl⟩ := List.head?_eq_some_iff.mp (hhead.trans ht)
          rw [hends t r' hr] at hopt
          cases hopt
        · obtain ⟨z, hz, rfl⟩ := mem_singleton_mul.mp hy
          obtain rfl : t' = t := Option.some.inj (hhead.trans ht)
          exact hy

/-- Operands joined by the operators of a level. -/
theorem reader_chain : Reader places (N * T) F (Parser.chain op? next) := by
  intro c hc
  have hnil : ∃ z, z ∈ T := ⟨[], (htail []).mpr (Or.inl rfl)⟩
  refine .bind (hnext c hc) hfollow hnil fun left c₁ w hspans => ?_
  exact predicts_chainFrom htail hends hfollow hnext le_rfl (hc.spans hspans)

end Chains

/-! ## Sums and terms -/

/-- Addends are read as operators of the lower level with their terms. -/
theorem mem_addends_iff_additive? {y : List Token} :
    y ∈ phrases .addends ↔ y = [] ∨ ∃ t, (Parser.additive? t).isSome = true ∧
      y ∈ {[t]} * (phrases .term * phrases .addends) := by
  rw [mem_addends_iff]
  refine or_congr_right ⟨?_, ?_⟩
  · rintro ⟨s, hy⟩
    exact ⟨s.token, by cases s <;> rfl, hy⟩
  · rintro ⟨t, ht, hy⟩
    obtain ⟨op, hop⟩ := Option.isSome_iff_exists.mp ht
    obtain ⟨s, rfl, -⟩ := Sign.additive?_eq_some_iff.mp hop
    exact ⟨s, hy⟩

/-- Factors are read as operators of the higher level with their operands. -/
theorem mem_factors_iff_multiplicative? {y : List Token} :
    y ∈ phrases .factors ↔ y = [] ∨ ∃ t, (Parser.multiplicative? t).isSome = true ∧
      y ∈ {[t]} * (phrases .unary * phrases .factors) := by
  rw [mem_factors_iff]
  refine or_congr_right ⟨?_, ?_⟩
  · rintro ⟨s, hy⟩
    exact ⟨s.token, by cases s <;> rfl, hy⟩
  · rintro ⟨t, ht, hy⟩
    obtain ⟨op, hop⟩ := Option.isSome_iff_exists.mp ht
    obtain ⟨s, rfl, -⟩ := Scale.multiplicative?_eq_some_iff.mp hop
    exact ⟨s, hy⟩

section Levels
variable {operand : Parser Expr}
  (hoperand : Reader places (phrases .unary) (Looser 3) operand)
include hoperand

theorem reader_term :
    Reader places (phrases .term) (Looser 2) (Parser.chain Parser.multiplicative? operand) :=
  phrases_term ▸ reader_chain (fun _ => mem_factors_iff_multiplicative?)
    (fun _ _ hr => Derivation.multiplicative?_eq_none (looser_cons.mp hr))
    (fun _ hy _ hr => looser_of_mem_factors hy hr) hoperand

theorem reader_sum : Reader places (phrases .sum) (Looser 1) (Parser.sum operand) :=
  phrases_sum ▸ reader_chain (fun _ => mem_addends_iff_additive?)
    (fun _ _ hr => Derivation.additive?_eq_none (looser_cons.mp hr))
    (fun _ hy _ hr => looser_of_mem_addends hy hr) (reader_term hoperand)

/-! ## Calls -/

omit hoperand in
/-- A parenthesis that closes, after which no token is read. -/
theorem predicts_closing {F : List Token → Prop} {next : Cursor → Except ExprError (α × Cursor)}
    (h : Predicts places 1 F c.advance (next c.advance)) :
    Predicts places {[Token.closing]} F c (c.expect .closing >>= next) := by
  rw [← mul_one ({[Token.closing]} : Language Token)]
  exact .expect ⟨[], Language.nil_mem_one⟩ h

/-- The arguments of a call are followed by the parenthesis that closes them. -/
def BeforeClosing (r : List Token) : Prop :=
  r.head? = some .closing

omit hoperand in
theorem nonempty_furtherArguments : ∃ z, z ∈ furtherArguments :=
  ⟨[], mem_furtherArguments_iff.mpr (Or.inl rfl)⟩

omit hoperand in
/-- Without a comma in front there is no further argument. -/
theorem predicts_lastArgument {F : List Token → Prop} {as : List Expr}
    (hcomma : c.peek? ≠ some .comma) : Predicts places furtherArguments F c (.ok (as, c)) := by
  refine .skip (fun y => mem_furtherArguments_iff) fun y hy r hhead => ?_
  obtain ⟨z, -, rfl⟩ := mem_singleton_mul.mp hy
  exact hcomma hhead.symm

theorem predicts_moreArguments {fuel : ℕ} (hfuel : c.rest.length ≤ fuel) (hc : c.Within places) :
    Predicts places furtherArguments BeforeClosing c
      (Parser.moreArguments (Parser.sum operand) fuel c) := by
  induction fuel generalizing c with
  | zero =>
    have hrest : c.rest = [] := List.length_eq_zero_iff.mp (Nat.le_zero.mp hfuel)
    refine predicts_lastArgument fun hcomma => ?_
    rw [Cursor.peek?, hrest] at hcomma
    cases hcomma
  | succ fuel ih =>
    rw [Parser.moreArguments]
    split
    · next hcomma =>
      have hroom := Cursor.length_advance_lt hcomma
      refine .take (fun y => mem_furtherArguments_iff) (.cons hcomma ?_) fun r hr hhead => ?_
      · refine .bind (reader_sum hoperand c.advance hc.advance)
          (fun y hy r hr => looser_of_mem_furtherArguments hy hr) nonempty_furtherArguments
          fun a c₁ w hspans => ?_
        have hshorter := hspans.length_le
        exact .finish (ih (by omega) (hc.advance.spans hspans)) fun as c₂ => .done rfl rfl
      · cases hr.symm.trans (hhead.trans hcomma)
    · next hcomma => exact predicts_lastArgument hcomma

theorem reader_arguments :
    Reader places argumentLists BeforeClosing (Parser.arguments (Parser.sum operand)) := by
  intro c hc
  unfold Parser.arguments
  split
  · next hclosing =>
    refine .skip (fun y => mem_argumentLists_iff) fun y hy r hhead => ?_
    obtain ⟨t, v, rfl, ht⟩ := beginsWith_sum.mul furtherArguments y hy
    obtain rfl := Option.some.inj (hhead.trans hclosing)
    cases ht
  · next hclosing =>
    refine .take (fun y => mem_argumentLists_iff) ?_ fun r hr hhead => ?_
    · refine .bind (reader_sum hoperand c hc)
        (fun y hy r hr => looser_of_mem_furtherArguments hy hr) nonempty_furtherArguments
        fun a c₁ w hspans => ?_
      exact .finish (predicts_moreArguments hoperand le_rfl (hc.spans hspans))
        fun as c₂ => .done rfl rfl
    · exact hclosing (hhead.symm.trans hr)

/-- The rest of a call whose name stands at one of the places. -/
theorem predicts_call {F : List Token → Prop} {name : String} {offset : ℕ} (hoffset : places offset)
    (hc : c.Within places) :
    Predicts places ({[Token.opening]} * (argumentLists * {[Token.closing]})) F c
      (Parser.call operand name offset c) := by
  unfold Parser.call
  split
  · exact .semantic rfl hoffset
  · next f hf =>
    have hne : ∃ z, z ∈ argumentLists * {[Token.closing]} :=
      ⟨[] ++ [.closing],
        Language.append_mem_mul (mem_argumentLists_iff.mpr (Or.inl rfl)) (mem_singleton _)⟩
    refine .expect hne (.bind (reader_arguments hoperand c.advance hc.advance) ?_ ⟨_, rfl⟩ ?_)
    · rintro y rfl r -
      rfl
    · intro args c₁ w hspans
      refine predicts_closing ?_
      split
      · exact .done rfl rfl
      · exact .semantic rfl hoffset

/-! ## Atoms and powers -/

omit hoperand in
/-- A name that is not called. -/
theorem predicts_ofName {F : List Token → Prop} {name : String} {offset : ℕ}
    (hname : c.peek? = some (.ident name)) (hoffset : places offset) :
    Predicts places (phrases .atom) F c
      (Parser.ofName name offset >>= fun e => .ok (e, c.advance)) := by
  -- a name that stands for a value is the only atom that begins with it
  have hvalue : ∀ e : Expr, IsValueName name →
      Predicts places (phrases .atom) F c (.ok (e, c.advance)) := by
    intro e hv
    refine (Predicts.ok (.token hname)).of_front ?_ ?_
    · rintro y rfl
      exact mem_atom_iff.mpr (Or.inr (Or.inl ⟨name, hv, rfl⟩))
    · intro y hy r _ hhead
      obtain ⟨_, ht, -⟩ | ⟨_, -, -, rfl⟩ | ⟨ht, -⟩ | ⟨f, ht, -⟩ :=
        mem_atom_of_head? hy (hhead.trans hname)
      · cases ht
      · exact mem_singleton _
      · cases ht
      · cases ht
        exact absurd hv (not_isValueName_callable f)
  unfold Parser.ofName
  split
  · next hx => exact hvalue _ (Or.inl hx)
  · split
    · next k hk => exact hvalue _ (Or.inr ⟨k, Constant.named?_eq_some_iff.mp hk⟩)
    · exact .semantic rfl hoffset

/-- A name that is called. -/
theorem predicts_named {F : List Token → Prop} {name : String} {offset : ℕ}
    (hname : c.peek? = some (.ident name)) (hoffset : places offset) (hc : c.Within places) :
    Predicts places (phrases .atom) F c (Parser.call operand name offset c.advance) := by
  cases hf : Callable.named? name with
  | none =>
    have hcall : Parser.call operand name offset c.advance =
        .error (.unknownFunction name offset) := by rw [Parser.call, hf]
    rw [hcall]
    exact .semantic rfl hoffset
  | some f =>
    obtain rfl := Callable.named?_eq_some_iff.mp hf
    refine Predicts.of_front (M := calls f)
      (.cons hname (predicts_call hoperand hoffset hc.advance)) ?_ ?_
    · exact fun y hy => mem_atom_iff.mpr (Or.inr (Or.inr (Or.inr ⟨f, hy⟩)))
    · intro y hy r _ hhead
      obtain ⟨_, ht, -⟩ | ⟨_, ht, hv, -⟩ | ⟨ht, -⟩ | ⟨g, ht, hy⟩ :=
        mem_atom_of_head? hy (hhead.trans hname)
      · cases ht
      · cases ht
        exact absurd hv (not_isValueName_callable f)
      · cases ht
      · obtain rfl := Callable.name_injective (Token.ident.inj ht)
        exact hy

theorem reader_atom {F : List Token → Prop} :
    Reader places (phrases .atom) F (Parser.atom operand) := by
  intro c hc
  unfold Parser.atom
  split
  · next hrest =>
    refine .unexpected nonempty_atom fun y hy r _ hhead => ?_
    obtain ⟨t, v, rfl, -⟩ := beginsWith_atom y hy
    rw [Cursor.peek?, hrest] at hhead
    cases hhead
  · next found rest hrest =>
    have hpeek : c.peek? = some found.token := by rw [Cursor.peek?, hrest]; rfl
    have hoffset : places found.offset := hc.2 found (by rw [hrest]; exact List.mem_cons_self)
    split
    · next value htoken =>
      rw [htoken] at hpeek
      refine (Predicts.ok (.token hpeek)).of_front ?_ ?_
      · rintro y rfl
        exact mem_atom_iff.mpr (Or.inl ⟨value, rfl⟩)
      · intro y hy r _ hhead
        obtain ⟨_, -, rfl⟩ | ⟨_, ht, -⟩ | ⟨ht, -⟩ | ⟨_, ht, -⟩ :=
          mem_atom_of_head? hy (hhead.trans hpeek)
        · exact mem_singleton _
        all_goals cases ht
    · next name htoken =>
      rw [htoken] at hpeek
      split
      · exact predicts_named hoperand hpeek hoffset hc
      · exact predicts_ofName hpeek hoffset
    · next htoken =>
      rw [htoken] at hpeek
      refine Predicts.of_front (M := groups) (.cons hpeek (.bind
        (reader_sum hoperand c.advance hc.advance) ?_ ⟨_, mem_singleton [.closing]⟩
        fun e c₁ w hspans => predicts_closing (.done rfl rfl))) ?_ ?_
      · rintro y rfl r -
        simp [grip]
      · exact fun y hy => mem_atom_iff.mpr (Or.inr (Or.inr (Or.inl hy)))
      · intro y hy r _ hhead
        obtain ⟨_, ht, -⟩ | ⟨_, ht, -⟩ | ⟨-, hy⟩ | ⟨_, ht, -⟩ :=
          mem_atom_of_head? hy (hhead.trans hpeek)
        · cases ht
        · cases ht
        · exact hy
        · cases ht
    · next hnumber hident hopening =>
      refine .unexpected nonempty_atom fun y hy r _ hhead => ?_
      -- the tokens an atom can begin with are those the parser has a case for
      obtain ⟨value, ht, -⟩ | ⟨name, ht, -⟩ | ⟨ht, -⟩ | ⟨f, ht, -⟩ :=
        mem_atom_of_head? hy (hhead.trans hpeek)
      · exact hnumber value ht
      · exact hident name ht
      · exact hopening ht
      · exact hident f.name ht

theorem reader_power : Reader places (phrases .power) (Looser 3) (Parser.power operand) := by
  intro c hc
  have hne : ∃ z, z ∈ exponents := ⟨[], mem_exponents_iff.mpr (Or.inl rfl)⟩
  -- anything may come after an atom
  have hatom : Predicts places (phrases .atom) (fun _ => True) c (Parser.atom operand c) :=
    reader_atom hoperand c hc
  rw [phrases_power]
  refine .bind hatom (fun _ _ _ _ => trivial) hne fun base c₁ w hspans => ?_
  dsimp only
  split
  · next hcaret =>
    refine .take (fun y => mem_exponents_iff) (.cons hcaret ?_) fun r hr hhead => ?_
    · exact .finish (hoperand c₁.advance (hc.spans hspans).advance) fun e c₂ => .done rfl rfl
    · exact absurd (hr .caret (hhead.trans hcaret)) (by decide)
  · next hcaret =>
    refine .skip (fun y => mem_exponents_iff) fun y hy r hhead => ?_
    obtain ⟨z, -, rfl⟩ := mem_singleton_mul.mp hy
    exact hcaret hhead.symm

end Levels

/-! ## Operands -/

/-- An operand that is opened, unless too many are open. -/
theorem predicts_enter {L : Language Token} {F : List Token → Prop}
    {next : Cursor → Except ExprError (α × Cursor)} (hc : c.Within places)
    (h : Predicts places L F c.opened (next c.opened)) :
    Predicts places L F c (c.enter >>= next) := by
  rw [Cursor.enter]
  split
  · exact h.of_same rfl rfl
  · exact .semantic rfl hc.offset

/-- An operand with a sign in front is that sign and an operand. -/
theorem predicts_signed {operand : Parser Expr}
    {next : Expr × Cursor → Except ExprError (α × Cursor)}
    (hoperand : Reader places (phrases .unary) (Looser 3) operand) {s : Sign}
    (hsign : c.peek? = some s.token) (hc : c.Within places)
    (hnext : ∀ e c₁, Predicts places 1 (Looser 3) c₁ (next (e, c₁))) :
    Predicts places (phrases .unary) (Looser 3) c (operand c.advance >>= next) := by
  refine Predicts.of_front (M := {[s.token]} * phrases .unary)
    (.cons hsign (.finish (hoperand c.advance hc.advance) hnext)) ?_ ?_
  · exact fun y hy => mem_unary_iff.mpr (Or.inl ⟨s, hy⟩)
  · intro y hy r _ hhead
    rw [hsign] at hhead
    obtain ⟨s', hy⟩ | hy := mem_unary_iff.mp hy
    · obtain ⟨z, -, rfl⟩ := mem_singleton_mul.mp hy
      obtain rfl := Sign.token_injective (Option.some.inj hhead)
      exact hy
    · obtain ⟨t, v, rfl, ht⟩ := beginsWith_power y hy
      obtain rfl := Option.some.inj hhead
      cases s <;> cases ht

/-- An operand without a sign in front is a power. -/
theorem predicts_unsigned {answer : Except ExprError (Expr × Cursor)}
    (hsign : ∀ s : Sign, c.peek? ≠ some s.token)
    (h : Predicts places (phrases .power) (Looser 3) c answer) :
    Predicts places (phrases .unary) (Looser 3) c answer := by
  refine h.of_front ?_ ?_
  · exact fun y hy => mem_unary_iff.mpr (Or.inr hy)
  · intro y hy r _ hhead
    obtain ⟨s, hy⟩ | hy := mem_unary_iff.mp hy
    · obtain ⟨z, -, rfl⟩ := mem_singleton_mul.mp hy
      exact absurd hhead.symm (hsign s)
    · exact hy

theorem reader_operandWithin (fuel : ℕ) :
    Reader places (phrases .unary) (Looser 3) (Parser.operandWithin fuel) := by
  induction fuel with
  | zero => exact fun c hc => .semantic rfl hc.offset
  | succ fuel ih =>
    intro c hc
    have hopened : c.opened.Within places := hc
    rw [Parser.operandWithin]
    refine predicts_enter hc ?_
    dsimp only
    split
    · next hminus =>
      exact predicts_signed (s := .minus) ih hminus hopened fun e c₁ => .done rfl rfl
    · next hplus =>
      exact predicts_signed (s := .plus) ih hplus hopened fun e c₁ => .done rfl rfl
    · next hminus hplus =>
      refine predicts_unsigned ?_
        (.finish (reader_power ih c.opened hopened) fun e c₁ => .done rfl rfl)
      rintro (_ | _)
      · exact hplus
      · exact hminus

theorem reader_formula : Reader places (phrases .sum) (Looser 1) (Parser.sum Parser.operand) :=
  reader_sum (reader_operandWithin _)

end Grammar
end Plotting
