import Plotting.Proofs.Expr.Scanning
import Plotting.Proofs.Expr.ViablePrefix

/-!
# Where a formula is refused

A text is refused because it has a character that is no lexeme, because it is blank, because of the
order of its tokens, or because of their meaning.  In every case the error shows a position of the
text.  When it is the order of the tokens, the error shows the first of them with which no sentence
goes on: the tokens before it are the beginning of a sentence, and together with it they are not.
A text that ends too early is the beginning of a sentence without being one.
-/

namespace Plotting

namespace Grammar
variable {L : Language Token} {F F₁ : List Token → Prop} {places : ℕ → Prop} {c c' : Cursor}
  {w : List Token} {e : ExprError}

theorem Stuck.mono (hF : ∀ r, F r → F₁ r) (h : Stuck L F₁ c w c') : Stuck L F c w c' where
  spans := h.spans
  viable := h.viable
  misfit hy hr := h.misfit hy (hF _ hr)

/-- A word that was read is not the whole text if a token comes after it. -/
theorem Exact.stuck (hF : F []) (hrest : c'.rest ≠ []) (h : Exact L F c w c') :
    Stuck L (· = []) c w c' where
  spans := h.spans
  viable := ⟨[], by rw [List.append_nil]; exact h.mem⟩
  misfit := by
    rintro y r s hy rfl heq hs
    obtain ⟨-, rfl⟩ := h.unique hy hF heq hs
    rw [List.head?_nil, Cursor.peek?, eq_comm, Option.map_eq_none_iff, List.head?_eq_none_iff] at hs
    exact hrest hs

/-- Whatever the reason, a parser that starts at one of the places refuses at one of them. -/
theorem Refuses.offset (hc : c.Within places) (h : Refuses places L F c e) : places e.offset := by
  obtain ⟨w, c', rfl, hstuck⟩ | ⟨-, hplace⟩ := h
  · rw [Cursor.offset_unexpected]
    exact (hc.spans hstuck.spans).offset
  · exact hplace

section Whole
variable {tokens : List Located} {stop : ℕ}

/-- The token at which a whole text is stuck is the first with which no sentence goes on. -/
theorem Stuck.exists_token (h : Stuck (phrases .sum) (· = []) ⟨tokens, stop, 0⟩ w c')
    {found : Located} {after : List Located} (hrest : c'.rest = found :: after) :
    ∃ before, tokens = before ++ found :: after ∧ IsViable (before.map Located.token) ∧
      ¬ IsViable (before.map Located.token ++ [found.token]) := by
  obtain ⟨before, hbefore, rfl⟩ := h.spans.rest
  refine ⟨before, by rw [← hrest]; exact hbefore, h.viable, ?_⟩
  rintro ⟨z, hz⟩
  refine h.misfit (s := found.token :: z) hz rfl ?_ (by rw [Cursor.peek?, hrest]; rfl)
  rw [List.append_nil, List.append_assoc, List.singleton_append]

/-- A whole text that is stuck at its end is the beginning of a sentence and no sentence. -/
theorem Stuck.not_isSentence (h : Stuck (phrases .sum) (· = []) ⟨tokens, stop, 0⟩ w c')
    (hrest : c'.rest = []) :
    IsViable (tokens.map Located.token) ∧ ¬ IsSentence (tokens.map Located.token) := by
  obtain ⟨before, hbefore, rfl⟩ := h.spans.rest
  rw [hrest, List.append_nil] at hbefore
  obtain rfl : tokens = before := hbefore
  refine ⟨h.viable, fun hsentence => ?_⟩
  exact h.misfit (s := []) hsentence rfl rfl (by rw [Cursor.peek?, hrest]; rfl)

end Whole
end Grammar

namespace Expr
open Grammar

/-- A whole text is refused where its tokens leave the grammar, or for what they mean. -/
theorem refuses_ofTokens {places : ℕ → Prop} {tokens : List Located} {stop : ℕ} {e : ExprError}
    (hne : tokens ≠ []) (hplaces : Cursor.Within places ⟨tokens, stop, 0⟩)
    (h : ofTokens tokens stop = .error e) :
    Refuses places (phrases .sum) (· = []) ⟨tokens, stop, 0⟩ e := by
  rw [ofTokens, if_neg hne] at h
  have hformula : Predicts places (phrases .sum) (Looser 1) ⟨tokens, stop, 0⟩
      (Parser.sum Parser.operand ⟨tokens, stop, 0⟩) := reader_formula _ hplaces
  cases hsum : Parser.sum Parser.operand ⟨tokens, stop, 0⟩ with
  | error e' =>
    rw [hsum] at h
    cases h
    obtain ⟨w, c', he, hstuck⟩ | hsemantic := hformula.refuses hsum
    · exact Or.inl ⟨w, c', he, hstuck.mono (by rintro r rfl; exact looser_nil 1)⟩
    · exact Or.inr hsemantic
  | ok read =>
    obtain ⟨e', c'⟩ := read
    rw [hsum, Parser.ok_bind] at h
    dsimp only at h
    split at h
    · cases h
    · next hrest =>
      cases h
      obtain ⟨w, hexact⟩ := hformula.reads hsum
      exact Or.inl ⟨w, c', rfl, hexact.stuck (looser_nil 1) hrest⟩

/-- The reasons for which a text is refused. -/
theorem parse_eq_error_cases {text : String} {e : ExprError} (h : parse text = .error e) :
    (e.isLexical = true ∧ Text.IsPosition text e.offset) ∨
    (Token.scan text = .ok [] ∧ e = .empty) ∨
    ∃ tokens, Token.scan text = .ok tokens ∧
      Cursor.Within (Text.IsPosition text) ⟨tokens, Text.byteLength text.toList, 0⟩ ∧
      Refuses (Text.IsPosition text) (phrases .sum) (· = [])
        ⟨tokens, Text.byteLength text.toList, 0⟩ e := by
  have hplaced := Token.placed_scan text
  rw [parse] at h
  cases hscan : Token.scan text with
  | error e' =>
    rw [hscan] at h hplaced
    cases h
    exact Or.inl hplaced
  | ok tokens =>
    rw [hscan, Parser.ok_bind] at h
    rw [hscan] at hplaced
    by_cases hne : tokens = []
    · subst hne
      cases h
      exact Or.inr (Or.inl ⟨rfl, rfl⟩)
    · have hplaces : Cursor.Within (Text.IsPosition text)
          ⟨tokens, Text.byteLength text.toList, 0⟩ := ⟨Text.isPosition_end text, hplaced⟩
      exact Or.inr (Or.inr ⟨tokens, rfl, hplaces, refuses_ofTokens hne hplaces h⟩)

theorem parse_unexpectedToken {text : String} {found : Located}
    (h : parse text = .error (.unexpectedToken found)) :
    ∃ before after, Token.scan text = .ok (before ++ found :: after) ∧
      IsViable (before.map Located.token) ∧
      ¬ IsViable (before.map Located.token ++ [found.token]) := by
  obtain ⟨hlexical, -⟩ | ⟨-, hempty⟩ | ⟨tokens, hscan, -, hrefuses⟩ := parse_eq_error_cases h
  · cases hlexical
  · cases hempty
  · obtain ⟨w, c', he, hstuck⟩ | ⟨hsemantic, -⟩ := hrefuses
    · cases hrest : c'.rest with
      | nil =>
        rw [Cursor.unexpected, hrest] at he
        cases he
      | cons found' after =>
        rw [Cursor.unexpected, hrest] at he
        cases he
        obtain ⟨before, rfl, hviable⟩ := hstuck.exists_token hrest
        exact ⟨before, after, hscan, hviable⟩
    · cases hsemantic

theorem parse_unexpectedEnd {text : String} {offset : ℕ}
    (h : parse text = .error (.unexpectedEnd offset)) :
    offset = text.utf8ByteSize ∧ ∃ tokens, Token.scan text = .ok tokens ∧
      IsViable (tokens.map Located.token) ∧ ¬ IsSentence (tokens.map Located.token) := by
  obtain ⟨hlexical, -⟩ | ⟨-, hempty⟩ | ⟨tokens, hscan, -, hrefuses⟩ := parse_eq_error_cases h
  · cases hlexical
  · cases hempty
  · obtain ⟨w, c', he, hstuck⟩ | ⟨hsemantic, -⟩ := hrefuses
    · cases hrest : c'.rest with
      | nil =>
        rw [Cursor.unexpected, hrest] at he
        cases he
        refine ⟨?_, tokens, hscan, hstuck.not_isSentence hrest⟩
        rw [hstuck.spans.stop]
        exact Text.byteLength_toList text
      | cons found after =>
        rw [Cursor.unexpected, hrest] at he
        cases he
    · cases hsemantic

/-- Errors show positions of the text. -/
theorem isPosition_offset {text : String} {e : ExprError} (h : parse text = .error e) :
    Text.IsPosition text e.offset := by
  obtain ⟨-, hplace⟩ | ⟨-, rfl⟩ | ⟨tokens, -, hplaces, hrefuses⟩ := parse_eq_error_cases h
  · exact hplace
  · exact Text.isPosition_zero text
  · exact hrefuses.offset hplaces

/-- Texts without tokens are the only ones that are refused for being empty. -/
theorem parse_eq_empty_iff {text : String} :
    parse text = .error .empty ↔ Token.scan text = .ok [] := by
  constructor
  · intro h
    obtain ⟨hlexical, -⟩ | ⟨hscan, -⟩ | ⟨tokens, -, -, hrefuses⟩ := parse_eq_error_cases h
    · cases hlexical
    · exact hscan
    · obtain ⟨w, c', he, -⟩ | ⟨hsemantic, -⟩ := hrefuses
      · rw [Cursor.unexpected] at he
        split at he <;> cases he
      · cases hsemantic
  · intro hscan
    rw [parse, hscan]
    rfl

/-- An error about the order of tokens shows the first token with which no sentence goes on, or the
end of a text that should go on; every error shows a position of the text; and the texts that are
refused for being empty are the blank ones. -/
theorem parse_refuses_at_first_misfit (text : String) :
    (∀ found, parse text = .error (.unexpectedToken found) →
      ∃ before after, Token.scan text = .ok (before ++ found :: after) ∧
        IsViable (before.map Located.token) ∧
        ¬ IsViable (before.map Located.token ++ [found.token])) ∧
    (∀ offset, parse text = .error (.unexpectedEnd offset) →
      offset = text.utf8ByteSize ∧ ∃ tokens, Token.scan text = .ok tokens ∧
        IsViable (tokens.map Located.token) ∧ ¬ IsSentence (tokens.map Located.token)) ∧
    (∀ e, parse text = .error e →
      e.offset ≤ text.utf8ByteSize ∧ (⟨e.offset⟩ : String.Pos.Raw).IsValid text) ∧
    (parse text = .error .empty ↔ ∀ ch ∈ text.toList, Text.isBlank ch = true) := by
  refine ⟨fun found h => parse_unexpectedToken h, fun offset h => parse_unexpectedEnd h,
    fun e h => ?_, parse_eq_empty_iff.trans Token.scan_eq_ok_nil_iff⟩
  exact ⟨(isPosition_offset h).le, isPosition_offset h⟩

/-- A comma outside a call, and a call that breaks off, each with a blank of two bytes. -/
theorem parse_refuses_at_first_misfit_comma :
    parse "\u00a02^(x, 1" = .error (.unexpectedToken ⟨.comma, 6⟩) ∧
    (∃ before after, Token.scan "\u00a02^(x, 1" = .ok (before ++ ⟨.comma, 6⟩ :: after) ∧
      IsViable (before.map Located.token) ∧
      ¬ IsViable (before.map Located.token ++ [.comma])) ∧
    parse "pow(-x,\u00a0" = .error (.unexpectedEnd 9) ∧
    ∃ tokens, Token.scan "pow(-x,\u00a0" = .ok tokens ∧
      IsViable (tokens.map Located.token) ∧ ¬ IsSentence (tokens.map Located.token) := by
  have hcomma : parse "\u00a02^(x, 1" = .error (.unexpectedToken ⟨.comma, 6⟩) := by rfl
  have hend : parse "pow(-x,\u00a0" = .error (.unexpectedEnd 9) := by rfl
  exact ⟨hcomma, (parse_refuses_at_first_misfit _).1 _ hcomma, hend,
    ((parse_refuses_at_first_misfit _).2.1 _ hend).2⟩

end Expr
end Plotting
