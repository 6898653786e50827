import Plotting.Proofs.Expr.Tracks

/-!
# The parser makes progress

Every routine of the parser comes to an end, and what it does on the way keeps the books.  Nothing
in the routines says so: they call one another without a bound, the position stands still at the end
of the tokens, and an operand is counted before the limit is checked.

There is one lemma for each routine, under the assumption that all is well wherever fewer tokens are
left (`CorrectBehind`).  A routine calls others either at the position at which it was called, and
then a tighter one, or behind a token that has been passed over in between.  So the lemmas are
proved from the tightest routine to the loosest, and the assumption is discharged by induction on
the tokens that are left (`correct`).
-/

namespace Plotting

open Grammar (operandAt)

namespace Tracking
variable {s : TokenStream} {t t₁ : Track}

/-! ## One routine at a time -/

/-- From the track every routine comes to an end, with the answer of the parser, and has passed over
a token if that is a value. -/
structure Correct (s : TokenStream) (t : Track) : Prop where
  binary (limit : Nat) : Ends s 1 (s.binary limit) t
    (Parser.binaryAt t.place.depth limit (s.cursor t.place))
  operators (limit : Nat) (left : Expr) : Ends s 0 (s.operators limit left) t
    (Parser.operatorsAt t.place.depth limit left (s.cursor t.place))
  unary : Ends s 1 s.unary t (operandAt t.place.depth (s.cursor t.place))
  power : Ends s 1 s.power t (Parser.power (operandAt t.place.depth) (s.cursor t.place))
  atom : Ends s 1 s.atom t (Parser.atom (operandAt t.place.depth) (s.cursor t.place))
  call (name : String) (offset : Nat) : Ends s 1 (s.call name offset) t
    (Parser.call (operandAt t.place.depth) name offset (s.cursor t.place))
  arguments (before : List Expr) : Ends s 1 (s.arguments before) t
    (Parser.argumentsAt t.place.depth before (s.cursor t.place))

/-- All is well wherever fewer tokens are left. -/
def CorrectBehind (s : TokenStream) (position : Nat) : Prop :=
  ∀ t : Track, position < t.place.position → t.place.IsValid s → Correct s t

theorem CorrectBehind.correct {k : Nat} (h : CorrectBehind s t.place.position)
    (ht : t.place.IsValid s) (hreach : Reaches s (k + 1) t t₁) : Correct s t₁ := by
  have hprogress := hreach.progress
  exact h t₁ (by omega) (hreach.isValid ht)

/-- The end of a call, when its arguments have been read. -/
theorem ends_closing (hvalid : t.place.IsValid s) (f : Callable) (args : List Expr)
    (offset : Nat) :
    Ends s 0 (do
        s.expect .closing
        match f.call? args with
        | some e => return e
        | none => throw (.wrongArity f args.length offset)) t
      (do
        let c ← (s.cursor t.place).expect .closing
        match f.call? args with
        | some e => return (e, c)
        | none => .error (.wrongArity f args.length offset)) := by
  refine (Ends.expect_bind hvalid fun t₁ _ => ?_).weaken
  cases f.call? args with
  | none => exact .throw s t₁ _
  | some e => exact .pure s t₁ e

section Routines
variable (ht : t.place.IsValid s) (hbehind : CorrectBehind s t.place.position)
include ht hbehind

theorem ends_operators (limit : Nat) (left : Expr) : Ends s 0 (s.operators limit left) t
    (Parser.operatorsAt t.place.depth limit left (s.cursor t.place)) := by
  rw [TokenStream.operators]
  refine .peek_bind ?_
  cases hop : s.tokens[t.place.position]?.bind fun found => Parser.precedence? found.token with
  | none =>
    have hnone : (s.cursor t.place).peek?.bind Parser.precedence? = none := by
      rw [s.peek?_cursor, Option.bind_map]
      exact hop
    rw [Parser.operatorsAt_of_none hnone]
    exact .pure s t left
  | some r =>
    obtain ⟨op, precedence⟩ := r
    have hsome : (s.cursor t.place).peek?.bind Parser.precedence? = some (op, precedence) := by
      rw [s.peek?_cursor, Option.bind_map]
      exact hop
    by_cases hlimit : precedence < limit
    · rw [Parser.operatorsAt_of_lt hsome hlimit]
      simp only [if_pos hlimit]
      exact .pure s t left
    · obtain ⟨found, hfound, -⟩ := Option.bind_eq_some_iff.mp hop
      have hadvance := Reaches.advance ht hfound
      rw [Parser.operatorsAt_of_le hsome (Nat.le_of_not_lt hlimit), s.advance_cursor]
      simp only [if_neg hlimit]
      have hright := (hbehind.correct ht hadvance).binary (precedence + 1)
      refine (Ends.advance_bind ht hfound (.bind hright.weaken fun right t₁ h₁ => ?_)).weaken
      have hreach := hadvance.trans h₁
      have hrest := (hbehind.correct ht hreach).operators limit (.binary op left right)
      rwa [hreach.balanced] at hrest

theorem ends_atom : Ends s 1 s.atom t
    (Parser.atom (operandAt t.place.depth) (s.cursor t.place)) := by
  rw [TokenStream.atom, Parser.atom]
  cases hfound : s.tokens[t.place.position]? with
  | none =>
    simp only [s.rest_cursor_of_none hfound, s.unexpected_cursor, hfound]
    exact .error (runFrom_bind_of_ok (runFrom_advance_end hfound)) (.stay ht) (Nat.le_refl _)
  | some found =>
    obtain ⟨rest, hrest⟩ := s.rest_cursor_of_some hfound
    have hadvance := Reaches.advance ht hfound
    have hcorrect := hbehind.correct ht hadvance
    refine .advance_bind ht hfound ?_
    simp only [hrest, s.unexpected_cursor, s.advance_cursor, hfound]
    cases htoken : found.token with
    | number value => exact .pure s t.advanced (Expr.number value)
    | ident name =>
      refine .peek_bind ?_
      simp only [s.peek?_cursor]
      by_cases hopening : s.tokens[t.advanced.place.position]?.map Located.token = some .opening
      · rw [if_pos hopening, if_pos hopening]
        exact (hcorrect.call name found.offset).weaken
      · rw [if_neg hopening, if_neg hopening]
        cases hname : Parser.ofName name found.offset with
        | ok e => exact .pure s t.advanced e
        | error e => exact .throw s t.advanced e
    | opening =>
      refine .bind (hcorrect.binary 0).weaken fun inner t₁ h₁ => ?_
      have hvalid := h₁.isValid (hadvance.isValid ht)
      exact (Ends.expect_bind hvalid fun t₂ _ => .pure s t₂ inner).weaken
    | _ => exact .throw s t.advanced _

theorem ends_power : Ends s 1 s.power t
    (Parser.power (operandAt t.place.depth) (s.cursor t.place)) := by
  rw [TokenStream.power, Parser.power]
  refine .bind (ends_atom ht hbehind) fun base t₁ h₁ => ?_
  have hvalid := h₁.isValid ht
  refine .peek_bind ?_
  simp only [s.peek?_cursor]
  by_cases hcaret : s.tokens[t₁.place.position]?.map Located.token = some .caret
  · obtain ⟨found, hfound, -⟩ := Option.map_eq_some_iff.mp hcaret
    have hadvance := Reaches.advance hvalid hfound
    rw [if_pos hcaret, if_pos hcaret, s.advance_cursor]
    refine (Ends.advance_bind hvalid hfound ?_).weaken
    have hreach := h₁.trans hadvance
    have hexponent := (hbehind.correct ht hreach).unary
    rw [hreach.balanced] at hexponent
    exact .bind hexponent.weaken fun exponent t₂ _ => .pure s t₂ (Expr.binary .pow base exponent)
  · rw [if_neg hcaret, if_neg hcaret]
    exact .pure s t₁ base

theorem ends_signed : Ends s 1 s.signed t (Parser.signedAt t.place.depth (s.cursor t.place)) := by
  have hpower := ends_power ht hbehind
  rw [TokenStream.signed, Parser.signedAt, s.peek?_cursor]
  refine .peek_bind ?_
  cases hfound : s.tokens[t.place.position]? with
  | none => exact hpower
  | some found =>
    have hoperand := (hbehind.correct ht (.advance ht hfound)).unary.weaken
    rw [s.advance_cursor]
    simp only [Option.map_some]
    cases found.token with
    | minus =>
      refine .advance_bind ht hfound (.bind hoperand fun e t₁ _ => ?_)
      exact .pure s t₁ (Expr.neg e)
    | plus => exact .advance_bind ht hfound hoperand
    | _ => exact hpower

omit hbehind in
/-- An operand is closed whether it has been read or not, and closing it undoes the opening. -/
theorem Ends.closed (hdepth : t.place.depth < maxNestingDepth)
    {x : Except ExprError (Expr × Cursor)} (h : Ends s 1 s.signed t.opened x) :
    Ends s 1 s.unary t (x >>= fun a => .ok (a.1, a.2.leave)) := by
  have hopened := Extends.opened ht
  have hrunUnary := runFrom_unary (s := s) hdepth
  cases h with
  | @value e t' hrun h =>
    rw [hrun] at hrunUnary
    have hclosed := (hopened.trans h.extended).closed ht h.balanced.ge
    exact .value hrunUnary ⟨hclosed, h.progress, Nat.sub_eq_of_eq_add h.balanced⟩
  | @error e t' hrun h hopen =>
    rw [hrun] at hrunUnary
    have hclosed := (hopened.trans h).closed ht hopen
    exact .error hrunUnary hclosed (Nat.le_sub_one_of_lt hopen)

theorem ends_unary : Ends s 1 s.unary t (operandAt t.place.depth (s.cursor t.place)) := by
  by_cases hdepth : t.place.depth < maxNestingDepth
  · have hoperand : operandAt t.place.depth (s.cursor t.place) = _ :=
      Parser.operandAt_of_lt (c := s.cursor t.place) hdepth
    have hsigned := ends_signed (t := t.opened) ⟨ht.inside, hdepth⟩ hbehind
    rw [hoperand]
    exact .closed ht hdepth hsigned
  · have hlimit : t.place.depth = maxNestingDepth :=
      Nat.le_antisymm ht.bounded (Nat.not_lt.mp hdepth)
    have hoperand : operandAt t.place.depth (s.cursor t.place) = _ :=
      Parser.operandAt_of_eq (c := s.cursor t.place) hlimit
    rw [hoperand, s.offset_cursor, TokenStream.unary]
    have hrefused := runFrom_enter_of_le (s := s) hlimit.ge
    exact .error (runFrom_bind_of_error hrefused) (.opened ht) (Nat.le_succ _)

theorem ends_binary (limit : Nat) : Ends s 1 (s.binary limit) t
    (Parser.binaryAt t.place.depth limit (s.cursor t.place)) := by
  rw [TokenStream.binary, Parser.binaryAt_eq]
  refine .bind (ends_unary ht hbehind) fun left t₁ h₁ => ?_
  have hoperators := (hbehind.correct ht h₁).operators limit left
  rwa [h₁.balanced] at hoperators

theorem ends_arguments (before : List Expr) : Ends s 1 (s.arguments before) t
    (Parser.argumentsAt t.place.depth before (s.cursor t.place)) := by
  rw [TokenStream.arguments, Parser.argumentsAt]
  refine .bind (ends_binary ht hbehind 0) fun a t₁ h₁ => ?_
  have hvalid := h₁.isValid ht
  refine .peek_bind ?_
  by_cases hcomma : s.tokens[t₁.place.position]?.map Located.token = some .comma
  · obtain ⟨found, hfound, -⟩ := Option.map_eq_some_iff.mp hcomma
    have hreach := h₁.trans (.advance hvalid hfound)
    have hfurther := ((hbehind.correct ht hreach).arguments (before ++ [a])).weaken
    rw [hreach.balanced] at hfurther
    rw [if_pos hcomma, Parser.furtherArguments_of_comma (Parser.shortens_sum _)
      ((s.peek?_cursor t₁.place).trans hcomma), s.advance_cursor]
    refine (Ends.advance_bind hvalid hfound ?_).weaken
    simpa [Parser.argumentsAt] using hfurther
  · rw [if_neg hcomma, Parser.furtherArguments_of_end
      ((s.peek?_cursor t₁.place).symm ▸ hcomma)]
    exact .pure s t₁ (before ++ [a])

theorem ends_call (name : String) (offset : Nat) : Ends s 1 (s.call name offset) t
    (Parser.call (operandAt t.place.depth) name offset (s.cursor t.place)) := by
  rw [TokenStream.call, Parser.call]
  cases Callable.named? name with
  | none => exact .throw s t _
  | some f =>
    refine .expect_bind ht fun t₁ h₁ => ?_
    have hvalid := h₁.isValid ht
    refine .peek_bind ?_
    by_cases hclosing : s.tokens[t₁.place.position]?.map Located.token = some .closing
    · rw [if_pos hclosing, Parser.arguments_of_closing ((s.peek?_cursor t₁.place).trans hclosing)]
      exact ends_closing hvalid f [] offset
    · rw [if_neg hclosing, Parser.arguments_of_argument
        ((s.peek?_cursor t₁.place).symm ▸ hclosing)]
      have hargs := ((hbehind.correct ht h₁).arguments []).weaken
      rw [h₁.balanced] at hargs
      exact .bind hargs fun args t₂ h₂ => ends_closing (h₂.isValid hvalid) f args offset

theorem correct_of_behind : Correct s t where
  binary := ends_binary ht hbehind
  operators := ends_operators ht hbehind
  unary := ends_unary ht hbehind
  power := ends_power ht hbehind
  atom := ends_atom ht hbehind
  call := ends_call ht hbehind
  arguments := ends_arguments ht hbehind

end Routines

/-- Wherever a routine may start, it is correct. -/
theorem correct (ht : t.place.IsValid s) : Correct s t := by
  induction hleft : s.size - t.place.position using Nat.strongRecOn generalizing t with
  | ind k ih =>
    refine correct_of_behind ht fun t₁ hbehind ht₁ => ?_
    have hinside := ht₁.inside
    exact ih (s.size - t₁.place.position) (by omega) ht₁ rfl

/-! ## Whole runs -/

/-- The routines that the grammar has names for. -/
inductive Routine where
  | binary (limit : Nat)
  | unary
  | power
  | atom
  | call (name : String) (offset : Nat)

/-- The routine with its bookkeeping. -/
def Routine.tracked (s : TokenStream) : Routine → Tracked Expr
  | .binary limit => s.binary limit
  | .unary => s.unary
  | .power => s.power
  | .atom => s.atom
  | .call name offset => s.call name offset

/-- The parser of what the routine reads inside so many operands. -/
def Routine.parser (depth : Nat) : Routine → Parser Expr
  | .binary limit => Parser.binaryAt depth limit
  | .unary => operandAt depth
  | .power => Parser.power (operandAt depth)
  | .atom => Parser.atom (operandAt depth)
  | .call name offset => Parser.call (operandAt depth) name offset

theorem Correct.routine (h : Correct s t) (r : Routine) :
    Ends s 1 (r.tracked s) t (r.parser t.place.depth (s.cursor t.place)) := by
  cases r with
  | binary limit => exact h.binary limit
  | unary => exact h.unary
  | power => exact h.power
  | atom => exact h.atom
  | call name offset => exact h.call name offset

/-- A whole formula is read as by the parser, and by sound steps too. -/
theorem runFrom_formula (s : TokenStream) :
    ∃ track, runFrom s.formula ⟨⟨0, 0⟩, []⟩ = some (Expr.ofTokens s.tokens s.stop, track) ∧
      Extends s ⟨⟨0, 0⟩, []⟩ track := by
  rw [TokenStream.formula, runFrom_bind_of_ok (runFrom_peek s _), Expr.ofTokens]
  by_cases hempty : s.tokens = []
  · rw [if_pos (by rw [hempty]; rfl), if_pos hempty]
    exact ⟨_, rfl, .refl s _⟩
  · have hfront : ¬ s.tokens[0]? = none := by
      rwa [← List.head?_eq_getElem?, List.head?_eq_none_iff]
    have hsum := (correct (s := s) (t := ⟨⟨0, 0⟩, []⟩) ⟨Nat.succ_pos _, Nat.zero_le _⟩).binary 0
    have hparser : Parser.binaryAt 0 0 (s.cursor ⟨0, 0⟩) =
        Parser.sum Parser.operand ⟨s.tokens, s.stop, 0⟩ := rfl
    rw [if_neg hfront, if_neg hempty]
    rw [hparser] at hsum
    generalize Parser.sum Parser.operand ⟨s.tokens, s.stop, 0⟩ = x at hsum
    cases hsum with
    | @value e track hrun h =>
      refine ⟨track, ?_, h.extended⟩
      rw [runFrom_bind_of_ok hrun, runFrom_bind_of_ok (runFrom_peek s track), Parser.ok_bind]
      cases hend : s.tokens[track.place.position]? with
      | none => simp only [s.rest_cursor_of_none hend]; rfl
      | some found =>
        obtain ⟨rest, hrest⟩ := s.rest_cursor_of_some hend
        simp only [hrest, s.unexpected_cursor, hend]
        rfl
    | error hrun h _ => exact ⟨_, runFrom_bind_of_error hrun, h⟩

/-- **Every routine comes to an end, makes progress and keeps its books.**  Wherever it starts on an
index of the tokens, with no more operands open than the limit allows, it gives an answer, and that
is the answer of the parser.  Its steps lead without a gap from where it starts to where it stops,
and each of them is sound: the position never goes back and is always an index, the depth is never
more than one above the limit, and no operand is closed that is not open.  If the answer is a value,
then the position has moved on, the depth is what it was at the start, and the cursor of the parser
is at the same place. -/
theorem routines_make_progress {p : Place} (hposition : p.position < s.size)
    (hdepth : p.depth ≤ maxNestingDepth) (r : Routine) :
    ∃ (answer : Except ExprError Expr) (track : Track),
      runFrom (r.tracked s) ⟨p, []⟩ = some (answer, track) ∧
      answer = (r.parser p.depth (s.cursor p)).map Prod.fst ∧
      Leads p track.steps track.place ∧
      (∀ x ∈ track.steps, x.IsSound s) ∧
      (∀ e, answer = .ok e → p.position < track.place.position ∧ track.place.depth = p.depth ∧
        r.parser p.depth (s.cursor p) = .ok (e, s.cursor track.place)) := by
  have hends := (correct (t := ⟨p, []⟩) ⟨hposition, hdepth⟩).routine r
  generalize hanswer : r.parser p.depth (s.cursor p) = x at hends
  cases hends with
  | @value e track hrun h =>
    obtain ⟨steps, hsteps, hleads, hsound⟩ := h.extended
    rw [List.nil_append] at hsteps
    subst hsteps
    refine ⟨_, track, hrun, rfl, hleads, hsound, fun e' he => ?_⟩
    obtain rfl := Except.ok.inj he
    exact ⟨h.progress, h.balanced, rfl⟩
  | @error e track hrun h _ =>
    obtain ⟨steps, hsteps, hleads, hsound⟩ := h
    rw [List.nil_append] at hsteps
    subst hsteps
    exact ⟨_, track, hrun, rfl, hleads, hsound, fun e' he => by cases he⟩

/-- The tokens of a power in the written-out form. -/
def powerCall : TokenStream where
  tokens := [⟨.ident "pow", 0⟩, ⟨.opening, 3⟩, ⟨.ident "x", 4⟩, ⟨.comma, 5⟩, ⟨.minus, 7⟩,
    ⟨.number 2, 8⟩, ⟨.closing, 9⟩]
  stop := 10

/-- The call behind the name is read where two more operands may be open, and where only one may be,
it ends all the same. -/
theorem routines_make_progress_call :
    (∃ track, runFrom (powerCall.call "pow" 0) ⟨⟨1, 62⟩, []⟩ =
        some (.ok (.callPow .var (.neg (.number 2))), track) ∧
      1 < track.place.position ∧ track.place.depth = 62) ∧
    (∃ track, runFrom (powerCall.call "pow" 0) ⟨⟨1, 63⟩, []⟩ =
        some (.error (.tooDeep 8), track) ∧
      Leads ⟨1, 63⟩ track.steps track.place ∧ ∀ x ∈ track.steps, x.target.depth ≤ 65) := by
  let r : Routine := .call "pow" 0
  have hread : (r.parser 62 (powerCall.cursor ⟨1, 62⟩)).map Prod.fst =
      .ok (.callPow .var (.neg (.number 2))) := by rfl
  have hrefused : (r.parser 63 (powerCall.cursor ⟨1, 63⟩)).map Prod.fst =
      .error (.tooDeep 8) := by rfl
  constructor
  · obtain ⟨_, track, hrun, rfl, -, -, hvalue⟩ :=
      routines_make_progress (s := powerCall) (p := ⟨1, 62⟩) (by decide) (by decide) r
    rw [hread] at hrun hvalue
    obtain ⟨hprogress, hbalanced, -⟩ := hvalue _ rfl
    exact ⟨track, hrun, hprogress, hbalanced⟩
  · obtain ⟨_, track, hrun, rfl, hleads, hsound, -⟩ :=
      routines_make_progress (s := powerCall) (p := ⟨1, 63⟩) (by decide) (by decide) r
    rw [hrefused] at hrun
    exact ⟨track, hrun, hleads, fun x hx => (hsound x hx).bounded⟩

end Tracking
end Plotting
