import Plotting.Proofs.Expr.Tracking

/-!
# Tracks of sound steps

A track is good if each of its steps keeps the books (`Step.IsSound`) and the next one starts where
it has ended.  What is asked of a routine is said by `Ends`: it comes to an end, the track goes on
by such steps, and the answer is a given one, which is an answer of the parser.  If that is a value,
the place at which the track ends is the one at which the parser has left its cursor.

The lemmas of `Ends` are the rules by which routines are put together from their parts.  They are
rules about both sides at once: a part of the routine corresponds to a part of the parser, and what
comes after it need be considered only from where the part has led.
-/

namespace Plotting

open Tracking (Place Track)

/-! ## Places and cursors -/

namespace TokenStream
variable {s : TokenStream} {p : Place}

/-- The cursor of the parser that stands at a place. -/
def cursor (s : TokenStream) (p : Place) : Cursor :=
  ⟨s.tokens.drop p.position, s.stop, p.depth⟩

theorem peek?_cursor (s : TokenStream) (p : Place) :
    (s.cursor p).peek? = s.tokens[p.position]?.map Located.token := by
  rw [Cursor.peek?, cursor, List.head?_drop]

theorem offset_cursor (s : TokenStream) (p : Place) :
    (s.cursor p).offset = (s.tokens[p.position]?.map Located.offset).getD s.stop := by
  rw [Cursor.offset, cursor, List.head?_drop]

theorem unexpected_cursor (s : TokenStream) (p : Place) :
    (s.cursor p).unexpected = s.unexpected s.tokens[p.position]? := by
  rw [Cursor.unexpected, cursor, ← List.head?_drop]
  cases s.tokens.drop p.position <;> rfl

theorem advance_cursor (s : TokenStream) (t : Track) :
    (s.cursor t.place).advance = s.cursor t.advanced.place := by
  rw [Cursor.advance, cursor, cursor, List.tail_drop]
  rfl

theorem rest_cursor_of_none (h : s.tokens[p.position]? = none) : (s.cursor p).rest = [] := by
  rw [← List.head?_drop] at h
  exact List.head?_eq_none_iff.mp h

theorem rest_cursor_of_some {found : Located} (h : s.tokens[p.position]? = some found) :
    ∃ rest, (s.cursor p).rest = found :: rest := by
  rw [← List.head?_drop] at h
  exact List.head?_eq_some_iff.mp h

end TokenStream

namespace Tracking
variable {s : TokenStream} {t t₁ t₂ : Track}

/-! ## Sound steps -/

/-- The place is an index of the tokens, and there are not too many open operands. -/
structure Place.IsValid (s : TokenStream) (p : Place) : Prop where
  inside : p.position < s.size
  bounded : p.depth ≤ maxNestingDepth

/-- The step keeps the books: it does not move back, and it stays on the indices of the tokens; at
most one operand too many is counted, and an operand is closed only if one is open. -/
structure Step.IsSound (s : TokenStream) (x : Step) : Prop where
  forward : x.source.position ≤ x.target.position
  inside : x.target.position < s.size
  bounded : x.target.depth ≤ maxNestingDepth + 1
  unsaturated : x.move = .leave → x.source.depth = x.target.depth + 1

/-- A step that closes nothing. -/
theorem Step.IsSound.of_ne_leave {move : Move} {p q : Place} (hmove : move ≠ .leave)
    (hforward : p.position ≤ q.position) (hinside : q.position < s.size)
    (hbounded : q.depth ≤ maxNestingDepth + 1) : Step.IsSound s ⟨move, p, q⟩ :=
  ⟨hforward, hinside, hbounded, fun h => absurd h hmove⟩

/-- The steps lead from one place to another, each starting where the one before has ended. -/
def Leads (p : Place) : List Step → Place → Prop
  | [], q => q = p
  | x :: xs, q => x.source = p ∧ Leads x.target xs q

namespace Leads
variable {p q r : Place} {xs ys : List Step}

theorem append (h : Leads p xs q) (h' : Leads q ys r) : Leads p (xs ++ ys) r := by
  induction xs generalizing p with
  | nil =>
    obtain rfl : q = p := h
    exact h'
  | cons x xs ih => exact ⟨h.1, ih h.2⟩

/-- What every step preserves holds at the end if it holds at the beginning. -/
theorem preserves (h : Leads p xs q) {P : Place → Prop}
    (hstep : ∀ x ∈ xs, P x.source → P x.target) (hp : P p) : P q := by
  induction xs generalizing p with
  | nil =>
    obtain rfl : q = p := h
    exact hp
  | cons x xs ih =>
    obtain ⟨rfl, h⟩ := h
    obtain ⟨hx, hxs⟩ := List.forall_mem_cons.mp hstep
    exact ih h hxs (hx hp)

end Leads

/-! ## Longer tracks -/

/-- The second track goes on from the first by sound steps. -/
def Extends (s : TokenStream) (t t' : Track) : Prop :=
  ∃ steps, t'.steps = t.steps ++ steps ∧ Leads t.place steps t'.place ∧
    ∀ x ∈ steps, x.IsSound s

namespace Extends

theorem refl (s : TokenStream) (t : Track) : Extends s t t :=
  ⟨[], (List.append_nil _).symm, rfl, List.forall_mem_nil _⟩

theorem trans (h : Extends s t t₁) (h' : Extends s t₁ t₂) : Extends s t t₂ := by
  obtain ⟨xs, hxs, hleads, hsound⟩ := h
  obtain ⟨ys, hys, hleads', hsound'⟩ := h'
  refine ⟨xs ++ ys, ?_, hleads.append hleads', List.forall_mem_append.mpr ⟨hsound, hsound'⟩⟩
  rw [hys, hxs, List.append_assoc]

theorem take {move : Move} {q : Place} (h : Step.IsSound s ⟨move, t.place, q⟩) :
    Extends s t (t.take move q) :=
  ⟨_, rfl, ⟨rfl, rfl⟩, List.forall_mem_singleton.mpr h⟩

theorem inside (h : Extends s t t₁) (ht : t.place.position < s.size) :
    t₁.place.position < s.size := by
  obtain ⟨xs, -, hleads, hsound⟩ := h
  exact hleads.preserves (P := fun q => q.position < s.size)
    (fun x hx _ => (hsound x hx).inside) ht

theorem bounded (h : Extends s t t₁) (ht : t.place.depth ≤ maxNestingDepth + 1) :
    t₁.place.depth ≤ maxNestingDepth + 1 := by
  obtain ⟨xs, -, hleads, hsound⟩ := h
  exact hleads.preserves (P := fun q => q.depth ≤ maxNestingDepth + 1)
    (fun x hx _ => (hsound x hx).bounded) ht

/-- At the end the position stands still, and the step is sound all the same. -/
theorem stay (ht : t.place.IsValid s) : Extends s t (t.take .advance t.place) :=
  .take (.of_ne_leave (by decide) (Nat.le_refl _) ht.inside (ht.bounded.trans (Nat.le_succ _)))

/-- An operand is opened before the limit is checked. -/
theorem opened (ht : t.place.IsValid s) : Extends s t t.opened :=
  .take (.of_ne_leave (by decide) (Nat.le_refl _) ht.inside (Nat.succ_le_succ ht.bounded))

/-- An operand is closed that has been opened on the way. -/
theorem closed (h : Extends s t t₁) (ht : t.place.IsValid s)
    (hopen : t.place.depth < t₁.place.depth) : Extends s t t₁.closed := by
  have hinside := h.inside ht.inside
  have hbounded := h.bounded (ht.bounded.trans (Nat.le_succ _))
  have hpos : 0 < t₁.place.depth := Nat.zero_lt_of_lt hopen
  refine h.trans (.take ⟨Nat.le_refl _, hinside, ?_, fun _ => ?_⟩)
  · exact (Nat.sub_le _ _).trans hbounded
  · exact (Nat.sub_add_cancel hpos).symm

end Extends

/-- The second track goes on from the first by sound steps, passes over so many tokens at least, and
leaves as many operands open as there were. -/
structure Reaches (s : TokenStream) (gain : Nat) (t t' : Track) : Prop where
  extended : Extends s t t'
  progress : t.place.position + gain ≤ t'.place.position
  balanced : t'.place.depth = t.place.depth

namespace Reaches
variable {k j : Nat}

theorem refl (s : TokenStream) (t : Track) : Reaches s 0 t t :=
  ⟨.refl s t, Nat.le_refl _, rfl⟩

theorem trans (h : Reaches s k t t₁) (h' : Reaches s j t₁ t₂) : Reaches s (k + j) t t₂ where
  extended := h.extended.trans h'.extended
  progress := by
    have hfirst := h.progress
    have hsecond := h'.progress
    omega
  balanced := h'.balanced.trans h.balanced

theorem isValid (h : Reaches s k t t₁) (ht : t.place.IsValid s) : t₁.place.IsValid s where
  inside := h.extended.inside ht.inside
  bounded := h.balanced ▸ ht.bounded

/-- Passing over a token is progress. -/
theorem advance {found : Located} (ht : t.place.IsValid s)
    (hfound : s.tokens[t.place.position]? = some found) :
    Reaches s 1 t t.advanced := by
  obtain ⟨hlt, -⟩ := List.getElem?_eq_some_iff.mp hfound
  refine ⟨.take (.of_ne_leave (by decide) (Nat.le_succ _) ?_ ?_), Nat.le_refl _, rfl⟩
  · exact Nat.succ_lt_succ hlt
  · exact ht.bounded.trans (Nat.le_succ _)

end Reaches

/-! ## Routines that come to an end -/

/-- From the track the routine comes to an end, by sound steps, with the answer given.  If that is a
value, so many tokens at least have been passed over, the operands are balanced, and the cursor is
at the place where the track ends; if it is an error, no operand has been closed that was open
before. -/
inductive Ends {α : Type} (s : TokenStream) (gain : Nat) (m : Tracked α) (t : Track) :
    Except ExprError (α × Cursor) → Prop where
  | value {a : α} {t' : Track} (hrun : runFrom m t = some (.ok a, t')) (h : Reaches s gain t t') :
      Ends s gain m t (.ok (a, s.cursor t'.place))
  | error {e : ExprError} {t' : Track} (hrun : runFrom m t = some (.error e, t'))
      (h : Extends s t t') (hopen : t.place.depth ≤ t'.place.depth) : Ends s gain m t (.error e)

namespace Ends
variable {α β : Type} {k : Nat} {m : Tracked α} {f : α → Tracked β} {a : α} {e : ExprError}
  {x : Except ExprError (α × Cursor)} {y : Except ExprError (β × Cursor)}

theorem pure (s : TokenStream) (t : Track) (a : α) :
    Ends s 0 (pure a) t (.ok (a, s.cursor t.place)) :=
  .value rfl (.refl s t)

theorem throw (s : TokenStream) (t : Track) (e : ExprError) :
    Ends s k (throw e : Tracked α) t (.error e) :=
  .error rfl (.refl s t) (Nat.le_refl _)

/-- Progress need not be mentioned. -/
theorem weaken (h : Ends s k m t x) : Ends s 0 m t x := by
  cases h with
  | value hrun h =>
    exact .value hrun ⟨h.extended, (Nat.add_le_add_left k.zero_le _).trans h.progress, h.balanced⟩
  | error hrun h hopen => exact .error hrun h hopen

/-- What is done after a part that has given a value. -/
theorem after (hrun : runFrom m t = some (.ok a, t₁)) (h : Reaches s k t t₁)
    (hf : Ends s 0 (f a) t₁ y) : Ends s k (m >>= f) t y := by
  have hbind := runFrom_bind_of_ok (f := f) hrun
  cases hf with
  | value hrun' h' => exact .value (hbind.trans hrun') (h.trans h')
  | error hrun' h' hopen =>
    exact .error (hbind.trans hrun') (h.extended.trans h') (h.balanced ▸ hopen)

/-- Two parts, one after the other. -/
theorem bind {g : α × Cursor → Except ExprError (β × Cursor)} (hm : Ends s k m t x)
    (hf : ∀ a t₁, Reaches s k t t₁ → Ends s 0 (f a) t₁ (g (a, s.cursor t₁.place))) :
    Ends s k (m >>= f) t (x >>= g) := by
  cases hm with
  | value hrun h => exact after hrun h (hf _ _ h)
  | error hrun h hopen => exact .error (runFrom_bind_of_error hrun) h hopen

/-- Looking at the token in front changes nothing. -/
theorem peek_bind {f : Option Located → Tracked β}
    (hf : Ends s k (f s.tokens[t.place.position]?) t y) : Ends s k (s.peek >>= f) t y := by
  have hbind := runFrom_bind_of_ok (f := f) (runFrom_peek s t)
  cases hf with
  | value hrun h => exact .value (hbind.trans hrun) h
  | error hrun h hopen => exact .error (hbind.trans hrun) h hopen

/-- Passing over the token in front. -/
theorem advance_bind {f : Option Located → Tracked β} {found : Located}
    (ht : t.place.IsValid s) (hfound : s.tokens[t.place.position]? = some found)
    (hf : Ends s 0 (f (some found)) t.advanced y) : Ends s 1 (s.advance >>= f) t y :=
  after (runFrom_advance hfound) (.advance ht hfound) hf

/-- Passing over a token that has to come now. -/
theorem expect_bind {f : Unit → Tracked β} {g : Cursor → Except ExprError (β × Cursor)}
    {token : Token} (ht : t.place.IsValid s)
    (hf : ∀ t₁, Reaches s 1 t t₁ → Ends s 0 (f ()) t₁ (g (s.cursor t₁.place))) :
    Ends s 1 (s.expect token >>= f) t ((s.cursor t.place).expect token >>= g) := by
  rw [Cursor.expect, s.peek?_cursor]
  by_cases h : s.tokens[t.place.position]?.map Located.token = some token
  · obtain ⟨found, hfound, rfl⟩ := Option.map_eq_some_iff.mp h
    rw [if_pos h, s.advance_cursor]
    have hadvance := Reaches.advance ht hfound
    exact after (runFrom_expect hfound) hadvance (hf _ hadvance)
  · rw [if_neg h, s.unexpected_cursor]
    exact .error (runFrom_bind_of_error (runFrom_expect_of_ne h)) (.refl s t) (Nat.le_refl _)

end Ends

end Tracking
end Plotting
