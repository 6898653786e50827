import Plotting.Expr.Parser

/-!
# Passing over tokens

What a parser makes of a cursor depends on the tokens in front of it and on the
number of open operands, not on the offsets.  `Cursor.Passes` is the relation
that soundness and completeness share: one cursor is reached from another by
reading a given list of tokens, with as many operands open after as before.
-/

namespace Plotting

/-! ## Sequences of readings -/

namespace Parser
variable {α β : Type}

@[simp] theorem ok_bind (a : α) (f : α → Except ExprError β) :
    ((Except.ok a : Except ExprError α) >>= f) = f a := rfl

@[simp] theorem error_bind (e : ExprError) (f : α → Except ExprError β) :
    ((Except.error e : Except ExprError α) >>= f) = .error e := rfl

@[simp] theorem pure_eq_ok (a : α) : (pure a : Except ExprError α) = .ok a := rfl

/-- A reading followed by others succeeds exactly when it and they do. -/
theorem bind_eq_ok_iff {x : Except ExprError α} {f : α → Except ExprError β} {b : β} :
    (x >>= f) = .ok b ↔ ∃ a, x = .ok a ∧ f a = .ok b := by
  cases x with
  | error e => simp
  | ok a => simp

end Parser

namespace Cursor
variable {c c' c'' : Cursor} {t : Token} {w w' : List Token}

/-! ## The tokens in front -/

/-- The tokens still to be read, without their offsets. -/
def tokens (c : Cursor) : List Token :=
  c.rest.map Located.token

theorem peek?_eq (c : Cursor) : c.peek? = c.tokens.head? := by
  rw [peek?, tokens, List.head?_map]

@[simp] theorem tokens_advance (c : Cursor) : c.advance.tokens = c.tokens.tail := by
  rw [tokens, tokens, rest_advance, List.map_tail]

theorem length_rest (c : Cursor) : c.rest.length = c.tokens.length := by
  rw [tokens, List.length_map]

theorem tokens_eq_cons (h : c.peek? = some t) : c.tokens = t :: c.advance.tokens := by
  rw [peek?_eq] at h
  obtain ⟨rest, hrest⟩ := List.head?_eq_some_iff.mp h
  rw [tokens_advance, hrest, List.tail_cons]

theorem peek?_eq_some (hc : c.tokens = t :: w) : c.peek? = some t := by
  rw [peek?_eq, hc, List.head?_cons]

theorem tokens_advance_eq (hc : c.tokens = t :: w) : c.advance.tokens = w := by
  rw [tokens_advance, hc, List.tail_cons]

theorem exists_rest_eq (hc : c.tokens = t :: w) :
    ∃ found rest, c.rest = found :: rest ∧ found.token = t := by
  obtain ⟨found, rest, hrest, ht, -⟩ := List.map_eq_cons_iff.mp hc
  exact ⟨found, rest, hrest, ht⟩

/-- The cursor with one more operand open. -/
def opened (c : Cursor) : Cursor :=
  { c with depth := c.depth + 1 }

@[simp] theorem depth_opened (c : Cursor) : c.opened.depth = c.depth + 1 := rfl

theorem enter_eq_ok_iff : c.enter = .ok c' ↔ c.depth < maxNestingDepth ∧ c' = c.opened := by
  unfold enter
  by_cases h : c.depth < maxNestingDepth
  · rw [if_pos h]
    exact ⟨fun hc => ⟨h, (Except.ok.inj hc).symm⟩, fun hc => by rw [hc.2]; rfl⟩
  · rw [if_neg h]
    exact ⟨fun hc => (nomatch hc), fun hc => absurd hc.1 h⟩

theorem expect_eq_ok_iff : c.expect t = .ok c' ↔ c.peek? = some t ∧ c' = c.advance := by
  unfold expect
  by_cases h : c.peek? = some t
  · rw [if_pos h]
    exact ⟨fun hc => ⟨h, (Except.ok.inj hc).symm⟩, fun hc => by rw [hc.2]⟩
  · rw [if_neg h]
    exact ⟨fun hc => (nomatch hc), fun hc => absurd hc.1 h⟩

/-! ## Passages -/

/-- Reading the tokens `w` leads from `c` to `c'`. -/
structure Passes (c : Cursor) (w : List Token) (c' : Cursor) : Prop where
  tokens : c.tokens = w ++ c'.tokens
  depth : c'.depth = c.depth

namespace Passes

theorem refl (c : Cursor) : c.Passes [] c :=
  ⟨rfl, rfl⟩

theorem trans (h : c.Passes w c') (h' : c'.Passes w' c'') : c.Passes (w ++ w') c'' := by
  refine ⟨?_, h'.depth.trans h.depth⟩
  rw [h.tokens, h'.tokens, List.append_assoc]

theorem advance (h : c.peek? = some t) : c.Passes [t] c.advance :=
  ⟨tokens_eq_cons h, rfl⟩

theorem cons (h : c.peek? = some t) (h' : c.advance.Passes w c') : c.Passes (t :: w) c' :=
  (advance h).trans h'

theorem concat (h : c.Passes w c') (h' : c'.peek? = some t) : c.Passes (w ++ [t]) c'.advance :=
  h.trans (advance h')

/-- What is read inside an operand is read by the operand. -/
theorem leave (h : c.opened.Passes w c') : c.Passes w c'.leave := by
  refine ⟨h.tokens, ?_⟩
  rw [depth_leave, h.depth, depth_opened, Nat.add_sub_cancel]

/-- After a passage over the front of known tokens the others are in front. -/
theorem tokens_eq {r : List Token} (h : c.Passes w c') (hc : c.tokens = w ++ r) :
    c'.tokens = r :=
  List.append_cancel_left (h.tokens.symm.trans hc)

end Passes
end Cursor
end Plotting
