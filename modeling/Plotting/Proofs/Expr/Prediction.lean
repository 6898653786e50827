import Mathlib.Computability.Language
import Plotting.Proofs.Expr.Passage

/-!
# Parsers that decide by the token in front

A parser that never goes back has, at every moment, read a word `w` and seen one more token.  What
it may conclude is a statement about all texts that agree with its own so far: those of the form
`w ++ s` where `s` begins with the token in front, or is empty if the text ends there.

* `Exact` is the conclusion of a parser that succeeds: in all those texts, `w` is the only phrase of
  its language that stands at the front and is followed by something that may follow it.
* `Stuck` is the conclusion of a parser that fails: `w` is the beginning of a phrase, and none of
  those texts has a phrase at its front.

Both are told of a language and of what may follow its words, and both compose: two parsers in
sequence conclude for the product of their languages what each concludes for its own
(`Predicts.bind`), provided that whatever begins with the second may follow the first.  An
alternative needs no more than that the token in front rules out the words of the others
(`Predicts.of_front`).

Besides, a parser may fail because of what the tokens mean.  Then nothing is claimed but that the
error shows at one of the given places, which are to be the offsets of the tokens and of the end.
-/

namespace Plotting

/-! ## Errors of meaning -/

/-- The error is about what a phrase means, or how deep it nests, and not about its tokens. -/
def ExprError.isSemantic : ExprError → Bool
  | .unknownIdentifier _ _ | .unknownFunction _ _ | .wrongArity _ _ _ | .tooDeep _ => true
  | _ => false

/-! ## Stretches of tokens -/

namespace Cursor
variable {c c' c'' : Cursor} {t : Token} {w w' s : List Token}

/-- The tokens `w` stand between `c` and `c'`, cursors in the same text. -/
structure Spans (c : Cursor) (w : List Token) (c' : Cursor) : Prop where
  rest : ∃ before, c.rest = before ++ c'.rest ∧ before.map Located.token = w
  stop : c'.stop = c.stop

namespace Spans

theorem of_eq (hrest : c'.rest = c.rest) (hstop : c'.stop = c.stop) : c.Spans [] c' :=
  ⟨⟨[], hrest.symm, rfl⟩, hstop⟩

theorem trans (h : c.Spans w c') (h' : c'.Spans w' c'') : c.Spans (w ++ w') c'' := by
  obtain ⟨before, hbefore, rfl⟩ := h.rest
  obtain ⟨before', hbefore', rfl⟩ := h'.rest
  refine ⟨⟨before ++ before', ?_, List.map_append⟩, h'.stop.trans h.stop⟩
  rw [hbefore, hbefore', List.append_assoc]

theorem advance (h : c.peek? = some t) : c.Spans [t] c.advance := by
  obtain ⟨found, rest, hrest, ht⟩ := exists_rest_eq (tokens_eq_cons h)
  refine ⟨⟨[found], ?_, by rw [List.map_singleton, ht]⟩, rfl⟩
  rw [rest_advance, hrest, List.tail_cons, List.singleton_append]

theorem length_le (h : c.Spans w c') : c'.rest.length ≤ c.rest.length := by
  obtain ⟨before, hbefore, -⟩ := h.rest
  rw [hbefore, List.length_append]
  exact Nat.le_add_left _ _

/-- Whatever begins like the text after a stretch, begins with the stretch like the text before. -/
theorem head?_append (h : c.Spans w c') (hs : s.head? = c'.peek?) :
    (w ++ s).head? = c.peek? := by
  obtain ⟨before, hbefore, rfl⟩ := h.rest
  cases before with
  | nil =>
    rw [peek?, hbefore, List.nil_append]
    exact hs
  | cons found before =>
    rw [peek?, hbefore]
    rfl

end Spans

/-- The end of the text and each token still to be read stand at one of the places. -/
def Within (places : ℕ → Prop) (c : Cursor) : Prop :=
  places c.stop ∧ ∀ found ∈ c.rest, places found.offset

namespace Within
variable {places : ℕ → Prop}

theorem spans (hc : c.Within places) (h : c.Spans w c') : c'.Within places := by
  obtain ⟨before, hbefore, -⟩ := h.rest
  refine ⟨h.stop ▸ hc.1, fun found hfound => hc.2 found ?_⟩
  rw [hbefore]
  exact List.mem_append_right before hfound

theorem advance (hc : c.Within places) : c.advance.Within places :=
  ⟨hc.1, fun found hfound => hc.2 found (List.mem_of_mem_tail hfound)⟩

theorem offset (hc : c.Within places) : places c.offset := by
  rw [Cursor.offset]
  cases hrest : c.rest with
  | nil => exact hc.1
  | cons found rest => exact hc.2 found (by rw [hrest]; exact List.mem_cons_self)

end Within

/-- An unexpected token is reported where it stands, and the end of the text where it ends. -/
theorem offset_unexpected (c : Cursor) : c.unexpected.offset = c.offset := by
  rw [unexpected, offset]
  cases c.rest <;> rfl

end Cursor

namespace Grammar
variable {L L₁ L₂ M : Language Token} {F F₁ : List Token → Prop} {c c' c'' : Cursor} {t : Token}
  {w w' : List Token}

/-! ## What a parser concludes -/

/-- Between the cursors stands a word of the language, and in any text that agrees with this one up
to the token in front of `c'` it is the only such word that may be followed by what follows it. -/
structure Exact (L : Language Token) (F : List Token → Prop) (c : Cursor) (w : List Token)
    (c' : Cursor) : Prop where
  spans : c.Spans w c'
  mem : w ∈ L
  unique : ∀ {y r s}, y ∈ L → F r → y ++ r = w ++ s → s.head? = c'.peek? → y = w ∧ r = s

/-- Between the cursors stands the beginning of a word of the language, and no text that agrees with
this one up to the token in front of `c'` begins with a word that may be followed by what follows
it. -/
structure Stuck (L : Language Token) (F : List Token → Prop) (c : Cursor) (w : List Token)
    (c' : Cursor) : Prop where
  spans : c.Spans w c'
  viable : ∃ z, w ++ z ∈ L
  misfit : ∀ {y r s}, y ∈ L → F r → y ++ r = w ++ s → s.head? ≠ c'.peek?

theorem Exact.nil (h : c.Spans [] c') : Exact 1 F c [] c' where
  spans := h
  mem := Language.nil_mem_one
  unique hy _ heq _ := by
    obtain rfl := (Language.mem_one _).mp hy
    exact ⟨rfl, heq⟩

theorem Exact.token (h : c.peek? = some t) : Exact {[t]} F c [t] c.advance where
  spans := .advance h
  mem := rfl
  unique hy _ heq _ := by
    obtain rfl : _ = [t] := hy
    exact ⟨rfl, List.append_cancel_left heq⟩

section Sequence
variable (hfollow : ∀ y ∈ L₂, ∀ r, F r → F₁ (y ++ r))
include hfollow

theorem Exact.mul (h : Exact L₁ F₁ c w c') (h' : Exact L₂ F c' w' c'') :
    Exact (L₁ * L₂) F c (w ++ w') c'' where
  spans := h.spans.trans h'.spans
  mem := Language.append_mem_mul h.mem h'.mem
  unique := by
    intro y r s hy hr heq hs
    obtain ⟨u, hu, v, hv, rfl⟩ := Language.mem_mul.mp hy
    rw [List.append_assoc, List.append_assoc] at heq
    obtain ⟨rfl, heq'⟩ := h.unique hu (hfollow v hv r hr) heq (h'.spans.head?_append hs)
    obtain ⟨rfl, rfl⟩ := h'.unique hv hr heq' hs
    exact ⟨rfl, rfl⟩

/-- What comes second is stuck after what came first was read. -/
theorem Exact.mul_stuck (h : Exact L₁ F₁ c w c') (h' : Stuck L₂ F c' w' c'') :
    Stuck (L₁ * L₂) F c (w ++ w') c'' where
  spans := h.spans.trans h'.spans
  viable := by
    obtain ⟨z, hz⟩ := h'.viable
    refine ⟨z, ?_⟩
    rw [List.append_assoc]
    exact Language.append_mem_mul h.mem hz
  misfit := by
    intro y r s hy hr heq hs
    obtain ⟨u, hu, v, hv, rfl⟩ := Language.mem_mul.mp hy
    rw [List.append_assoc, List.append_assoc] at heq
    obtain ⟨-, heq'⟩ := h.unique hu (hfollow v hv r hr) heq (h'.spans.head?_append hs)
    exact h'.misfit hv hr heq' hs

/-- What comes first is stuck, and something could have come second. -/
theorem Stuck.mul (h : Stuck L₁ F₁ c w c') (hne : ∃ z, z ∈ L₂) : Stuck (L₁ * L₂) F c w c' where
  spans := h.spans
  viable := by
    obtain ⟨z, hz⟩ := h.viable
    obtain ⟨z', hz'⟩ := hne
    refine ⟨z ++ z', ?_⟩
    rw [← List.append_assoc]
    exact Language.append_mem_mul hz hz'
  misfit := by
    intro y r s hy hr heq
    obtain ⟨u, hu, v, hv, rfl⟩ := Language.mem_mul.mp hy
    rw [List.append_assoc] at heq
    exact h.misfit hu (hfollow v hv r hr) heq

end Sequence

section Front
variable (hsub : ∀ y ∈ M, y ∈ L)
  (hfront : ∀ y ∈ L, ∀ r, F r → (y ++ r).head? = c.peek? → y ∈ M)
include hsub hfront

/-- The token in front leaves only words of a part of the language. -/
theorem Exact.of_front (h : Exact M F c w c') : Exact L F c w c' where
  spans := h.spans
  mem := hsub w h.mem
  unique := by
    intro y r s hy hr heq hs
    have hhead : (y ++ r).head? = c.peek? := heq ▸ h.spans.head?_append hs
    exact h.unique (hfront y hy r hr hhead) hr heq hs

theorem Stuck.of_front (h : Stuck M F c w c') : Stuck L F c w c' where
  spans := h.spans
  viable := h.viable.imp fun z hz => hsub _ hz
  misfit := by
    intro y r s hy hr heq hs
    have hhead : (y ++ r).head? = c.peek? := heq ▸ h.spans.head?_append hs
    exact h.misfit (hfront y hy r hr hhead) hr heq hs

end Front

/-! ## What a parser answers -/

/-- The error shows the token at which the parser is stuck, or one of the places at which the
meaning of a phrase is at fault. -/
def Refuses (places : ℕ → Prop) (L : Language Token) (F : List Token → Prop) (c : Cursor)
    (e : ExprError) : Prop :=
  (∃ w c', e = c'.unexpected ∧ Stuck L F c w c') ∨ (e.isSemantic = true ∧ places e.offset)

/-- The answer of a parser at `c` is right about the words of the language: what it has read is the
word at the front, and where it is stuck there is none. -/
structure Predicts {α : Type} (places : ℕ → Prop) (L : Language Token) (F : List Token → Prop)
    (c : Cursor) (answer : Except ExprError (α × Cursor)) : Prop where
  reads : ∀ {a c'}, answer = .ok (a, c') → ∃ w, Exact L F c w c'
  refuses : ∀ {e}, answer = .error e → Refuses places L F c e

namespace Predicts
variable {α β : Type} {places : ℕ → Prop}

theorem ok {a : α} (h : Exact L F c w c') : Predicts places L F c (.ok (a, c')) where
  reads h' := by
    cases h'
    exact ⟨w, h⟩
  refuses h' := by cases h'

theorem semantic {e : ExprError} (he : e.isSemantic = true) (hplace : places e.offset) :
    Predicts places L F c (.error e : Except ExprError (α × Cursor)) where
  reads h := by cases h
  refuses h := by
    cases h
    exact Or.inr ⟨he, hplace⟩

/-- No word of the language begins with the token in front. -/
theorem unexpected (hne : ∃ z, z ∈ L)
    (hfront : ∀ y ∈ L, ∀ r, F r → (y ++ r).head? ≠ c.peek?) :
    Predicts places L F c (.error c.unexpected : Except ExprError (α × Cursor)) where
  reads h := by cases h
  refuses h := by
    cases h
    refine Or.inl ⟨[], c, rfl, .of_eq rfl rfl, hne, ?_⟩
    intro y r s hy hr heq hs
    rw [List.nil_append] at heq
    exact hfront y hy r hr (heq ▸ hs)

theorem of_front {answer : Except ExprError (α × Cursor)} (h : Predicts places M F c answer)
    (hsub : ∀ y ∈ M, y ∈ L)
    (hfront : ∀ y ∈ L, ∀ r, F r → (y ++ r).head? = c.peek? → y ∈ M) :
    Predicts places L F c answer where
  reads h' := (h.reads h').imp fun _ hexact => hexact.of_front hsub hfront
  refuses h' := by
    obtain ⟨w, c', he, hstuck⟩ | hsemantic := h.refuses h'
    · exact Or.inl ⟨w, c', he, hstuck.of_front hsub hfront⟩
    · exact Or.inr hsemantic

section Option
variable (hoption : ∀ y, y ∈ L ↔ y = [] ∨ y ∈ M)
include hoption

/-- Nothing is read where an option does not begin. -/
theorem skip {a : α} (hfront : ∀ y ∈ M, ∀ r, (y ++ r).head? ≠ c.peek?) :
    Predicts places L F c (.ok (a, c)) := by
  refine (ok (.nil (.of_eq rfl rfl))).of_front ?_ ?_
  · intro y hy
    exact (hoption y).mpr (Or.inl ((Language.mem_one y).mp hy))
  · intro y hy r _ hhead
    obtain rfl | hy := (hoption y).mp hy
    · exact Language.nil_mem_one
    · exact absurd hhead (hfront y hy r)

/-- An option is read where what may come without it does not begin. -/
theorem take {answer : Except ExprError (α × Cursor)} (h : Predicts places M F c answer)
    (hfront : ∀ r, F r → r.head? ≠ c.peek?) : Predicts places L F c answer := by
  refine h.of_front (fun y hy => (hoption y).mpr (Or.inr hy)) ?_
  intro y hy r hr hhead
  obtain rfl | hy := (hoption y).mp hy
  · exact absurd hhead (hfront r hr)
  · exact hy

end Option

/-- A parser that goes on from where a word was read. -/
theorem after {answer : Except ExprError (α × Cursor)} (h : Exact L₁ F₁ c w c')
    (hfollow : ∀ y ∈ L₂, ∀ r, F r → F₁ (y ++ r)) (h' : Predicts places L₂ F c' answer) :
    Predicts places (L₁ * L₂) F c answer where
  reads ha := (h'.reads ha).elim fun w' hexact => ⟨w ++ w', h.mul hfollow hexact⟩
  refuses he := by
    obtain ⟨w', c'', he, hstuck⟩ | hsemantic := h'.refuses he
    · exact Or.inl ⟨w ++ w', c'', he, h.mul_stuck hfollow hstuck⟩
    · exact Or.inr hsemantic

/-- A token that was seen, and what comes after it. -/
theorem cons {answer : Except ExprError (α × Cursor)} (hpeek : c.peek? = some t)
    (h : Predicts places L F c.advance answer) : Predicts places ({[t]} * L) F c answer :=
  after (Exact.token (F := fun _ => True) hpeek) (fun _ _ _ _ => trivial) h

/-- Two parsers in sequence. -/
theorem bind {answer : Except ExprError (α × Cursor)}
    {next : α × Cursor → Except ExprError (β × Cursor)} (h : Predicts places L₁ F₁ c answer)
    (hfollow : ∀ y ∈ L₂, ∀ r, F r → F₁ (y ++ r)) (hne : ∃ z, z ∈ L₂)
    (h' : ∀ a c' w, c.Spans w c' → Predicts places L₂ F c' (next (a, c'))) :
    Predicts places (L₁ * L₂) F c (answer >>= next) := by
  cases answer with
  | error e =>
    refine ⟨fun hok => (by cases hok), fun herror => ?_⟩
    cases herror
    obtain ⟨w, c', he, hstuck⟩ | hsemantic := h.refuses rfl
    · exact Or.inl ⟨w, c', he, hstuck.mul hfollow hne⟩
    · exact Or.inr hsemantic
  | ok p =>
    obtain ⟨a, c'⟩ := p
    obtain ⟨w, hexact⟩ := h.reads rfl
    exact after hexact hfollow (h' a c' w hexact.spans)

/-- A parser that reads no token. -/
theorem done {b : β} (hrest : c'.rest = c.rest) (hstop : c'.stop = c.stop) :
    Predicts places 1 F c (.ok (b, c')) :=
  ok (.nil (.of_eq hrest hstop))

/-- A parser after which no token is read. -/
theorem finish {answer : Except ExprError (α × Cursor)}
    {next : α × Cursor → Except ExprError (β × Cursor)} (h : Predicts places L F c answer)
    (hnext : ∀ a c', Predicts places 1 F c' (next (a, c'))) :
    Predicts places L F c (answer >>= next) := by
  rw [← mul_one L]
  refine bind h ?_ ⟨[], Language.nil_mem_one⟩ fun a c' _ _ => hnext a c'
  intro y hy r hr
  rwa [(Language.mem_one y).mp hy]

/-- A parser does not depend on how many operands are open. -/
theorem of_same {answer : Except ExprError (α × Cursor)} (h : Predicts places L F c' answer)
    (hrest : c'.rest = c.rest) (hstop : c'.stop = c.stop) : Predicts places L F c answer := by
  rw [← one_mul L]
  exact after (Exact.nil (F := fun _ => True) (.of_eq hrest hstop)) (fun _ _ _ _ => trivial) h

/-- A token that has to come now, and what comes after it. -/
theorem expect {next : Cursor → Except ExprError (α × Cursor)} (hne : ∃ z, z ∈ L)
    (h : Predicts places L F c.advance (next c.advance)) :
    Predicts places ({[t]} * L) F c (c.expect t >>= next) := by
  rw [Cursor.expect]
  split
  · next hpeek => exact cons hpeek h
  · next hpeek =>
    obtain ⟨z, hz⟩ := hne
    refine unexpected ⟨[t] ++ z, Language.append_mem_mul rfl hz⟩ fun y hy r _ hhead => hpeek ?_
    obtain ⟨u, hu, v, -, rfl⟩ := Language.mem_mul.mp hy
    obtain rfl : u = [t] := hu
    exact hhead.symm

end Predicts
end Grammar
end Plotting
