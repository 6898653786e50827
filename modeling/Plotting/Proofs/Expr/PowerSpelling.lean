import Mathlib.Data.List.Chain
import Plotting.Expr.Sampling
import Plotting.Proofs.Expr.Parsing
import Plotting.Proofs.Expr.Phrases
import Plotting.Proofs.Expr.Words

/-!
# The two spellings of a power

A caret and two stars are the same token, and every formula may be written with stars alone.  That
is not quite a matter of tokens.  Writing two stars for a caret may change how the stars around it
are paired: `*^` is a star and a caret, and `***` is a caret and a star.  It happens only where two
of the operators that join operands stand side by side, and the grammar has no place for such a
pair.  So the tokens of both texts are the same, or neither text is a formula
(`Token.rel_kindsFrom_starred`).
-/

namespace Plotting

/-! ## Operators side by side -/

namespace Token

/-- The operators that stand between two operands and are no signs. -/
def joins : Token → Bool
  | .star | .slash | .caret => true
  | _ => false

/-- No two of these operators stand side by side. -/
def Spread (ts : List Token) : Prop :=
  ts.IsChain fun t u => ¬ (t.joins = true ∧ u.joins = true)

/-- The tokens are the same, or two operators stand side by side in both of the lists. -/
def Interchangeable (ts us : List Token) : Prop :=
  ts = us ∨ ¬ Spread ts ∧ ¬ Spread us

theorem Interchangeable.cons {ts us : List Token} (t : Token) (h : Interchangeable ts us) :
    Interchangeable (t :: ts) (t :: us) := by
  obtain rfl | ⟨hts, hus⟩ := h
  · exact Or.inl rfl
  · exact Or.inr ⟨mt List.IsChain.tail hts, mt List.IsChain.tail hus⟩

theorem not_spread {t u : Token} (ht : t.joins = true) (hu : u.joins = true) (ts : List Token) :
    ¬ Spread (t :: u :: ts) :=
  fun h => (List.isChain_cons_cons.mp h).1 ⟨ht, hu⟩

end Token

namespace Grammar

open Token (Spread)

variable {n : Nonterminal} {t : Token} {u v w : List Token}

/-- The tokens are spread, and no operand is missing at their end. -/
structure Finished (w : List Token) : Prop where
  spread : Spread w
  ends : ∀ t ∈ w.getLast?, t.joins = false

namespace Finished

theorem nil : Finished [] where
  spread := .nil
  ends _ ht := absurd ht (Option.not_mem_none _)

theorem singleton (ht : t.joins = false) : Finished [t] where
  spread := .singleton t
  ends u hu := by
    obtain rfl : t = u := Option.some.inj hu
    exact ht

theorem append (hu : Finished u) (hv : Finished v) : Finished (u ++ v) where
  spread := by
    refine hu.spread.append hv.spread fun x hx y _ hxy => ?_
    rw [hu.ends x hx] at hxy
    exact Bool.false_ne_true hxy.1
  ends x hx := by
    rw [List.getLast?_append, Option.mem_def, Option.or_eq_some_iff] at hx
    rcases hx with hx | ⟨-, hx⟩
    · exact hv.ends x hx
    · exact hu.ends x hx

theorem cons (ht : t.joins = false) (hw : Finished w) : Finished (t :: w) :=
  (singleton ht).append hw

/-- An operand goes with an operator in front of it. -/
theorem cons_of_opens (hw : Finished w) (hopens : ∃ u v, w = u :: v ∧ u.joins = false) :
    Finished (t :: w) := by
  obtain ⟨u, v, rfl, hu⟩ := hopens
  refine ⟨List.isChain_cons_cons.mpr ⟨fun h => ?_, hw.spread⟩, hw.ends⟩
  rw [hu] at h
  exact Bool.false_ne_true h.2

end Finished

/-- What opens an operand does not join operands. -/
theorem exists_unary (h : Phrase .unary w) : ∃ u v, w = u :: v ∧ u.joins = false := by
  obtain ⟨u, v, rfl, hu⟩ := beginsWith_unary w h
  refine ⟨u, v, rfl, ?_⟩
  cases u <;> first | rfl | cases hu

/-- Every phrase is spread. -/
theorem Phrase.finished (h : Phrase n w) : Finished w := by
  induction h with
  | sum _ _ hfirst hrest => exact hfirst.append hrest
  | noAddend => exact .nil
  | addend s _ _ hoperand hrest => exact (hoperand.append hrest).cons (by cases s <;> rfl)
  | term _ _ hfirst hrest => exact hfirst.append hrest
  | noFactor => exact .nil
  | factor s operand _ hoperand hrest =>
    exact Finished.append (u := s.token :: _) (hoperand.cons_of_opens (exists_unary operand)) hrest
  | signed s _ hoperand => exact hoperand.cons (by cases s <;> rfl)
  | unsigned _ hoperand => exact hoperand
  | plain _ hbase => exact hbase
  | raised _ exponent hbase hexponent =>
    exact hbase.append (hexponent.cons_of_opens (exists_unary exponent))
  | number value => exact .singleton rfl
  | var => exact .singleton rfl
  | constant c => exact .singleton rfl
  | group _ hinner => exact (hinner.append (.singleton rfl)).cons rfl
  | call f _ hargs => exact ((hargs.append (.singleton rfl)).cons rfl).cons rfl
  | noArgument => exact .nil
  | arguments _ _ hfirst hrest => exact hfirst.append hrest
  | noMoreArgument => exact .nil
  | moreArguments _ _ hfirst hrest => exact (hfirst.append hrest).cons rfl

end Grammar

/-! ## Two stars for each caret -/

namespace Token

/-- The text with two stars for each caret. -/
def starred (cs : List Char) : List Char :=
  cs.flatMap fun c => if c = '^' then ['*', '*'] else [c]

variable {c : Char} {cs v w : List Char} {t : Token} {ts : List Token} {e : ExprError}

@[simp] theorem starred_nil : starred [] = [] := rfl

@[simp] theorem starred_caret (cs : List Char) :
    starred ('^' :: cs) = '*' :: '*' :: starred cs := rfl

theorem starred_cons (h : c ≠ '^') : starred (c :: cs) = c :: starred cs := by
  rw [starred, List.flatMap_cons, if_neg h]
  rfl

theorem starred_append (hw : '^' ∉ w) : starred (w ++ cs) = w ++ starred cs := by
  induction w with
  | nil => rfl
  | cons d w ih =>
    obtain ⟨hd, hw⟩ := List.ne_and_not_mem_of_not_mem_cons hw
    rw [List.cons_append, starred_cons hd.symm, ih hw, List.cons_append]

/-! ### Lexemes without stars and carets -/

/-- A text and its spelling with stars begin with the same texts that hold neither. -/
theorem begins_starred_iff (hstar : '*' ∉ w) (hcaret : '^' ∉ w) : w <+: starred cs ↔ w <+: cs := by
  induction w generalizing cs with
  | nil => exact iff_of_true List.nil_prefix List.nil_prefix
  | cons d w ih =>
    obtain ⟨hds, hstar⟩ := List.ne_and_not_mem_of_not_mem_cons hstar
    obtain ⟨hdc, hcaret⟩ := List.ne_and_not_mem_of_not_mem_cons hcaret
    cases cs with
    | nil => rfl
    | cons c cs =>
      by_cases hc : c = '^'
      · subst hc
        rw [starred_caret]
        refine iff_of_false (fun h => ?_) fun h => ?_
        · exact hds.symm (List.cons_prefix_cons.mp h).1
        · exact hdc.symm (List.cons_prefix_cons.mp h).1
      · rw [starred_cons hc, List.cons_prefix_cons, List.cons_prefix_cons, ih hstar hcaret]

/-- The characters of a numeral. -/
theorem not_mem_numeral {n : Numeral} (hn : n.WellFormed) : '*' ∉ n.text ∧ '^' ∉ n.text := by
  refine ⟨fun h => ?_, fun h => ?_⟩
  · exact absurd (hn.isPart _ h) (by decide)
  · exact absurd (hn.isPart _ h) (by decide)

/-- Only the operators themselves hold stars and carets. -/
theorem Spells.not_mem (h : Spells (c :: v) t) (hstar : c ≠ '*') (hcaret : c ≠ '^') :
    '*' ∉ c :: v ∧ '^' ∉ c :: v := by
  cases hnumeral : beginsNumeral c with
  | true =>
    obtain ⟨n, hn, -, htext, -⟩ := h.number_of_begins hnumeral
    exact htext ▸ not_mem_numeral hn
  | false =>
    cases hident : beginsIdent c with
    | true =>
      obtain ⟨hname, -⟩ := h.name_of_begins hident
      refine ⟨fun hmem => ?_, fun hmem => ?_⟩
      · exact absurd (hname _ (List.mem_of_ne_of_mem hstar.symm hmem)) (by decide)
      · exact absurd (hname _ (List.mem_of_ne_of_mem hcaret.symm hmem)) (by decide)
    | false =>
      rcases h.of_not_begins hnumeral hident with ⟨rfl, -⟩ | ⟨rfl, -, -⟩
      · exact ⟨fun hmem => hstar (List.mem_singleton.mp hmem).symm,
          fun hmem => hcaret (List.mem_singleton.mp hmem).symm⟩
      · exact absurd rfl hstar

/-- The longest lexeme stays the longest, if it is no operator of its own. -/
theorem IsLongest.starred (h : IsLongest w t (c :: cs)) (hstar : c ≠ '*') (hcaret : c ≠ '^') :
    IsLongest w t (starred (c :: cs)) := by
  have hsame : ∀ {w' t'}, Spells w' t' → (w' <+: Token.starred (c :: cs) ↔ w' <+: c :: cs) := by
    intro w' t' hspells
    obtain ⟨d, v, rfl⟩ := hspells.exists_cons
    by_cases hd : d = c
    · subst hd
      obtain ⟨hstar', hcaret'⟩ := hspells.not_mem hstar hcaret
      exact begins_starred_iff hstar' hcaret'
    · rw [starred_cons hcaret]
      exact iff_of_false (fun hw => hd (List.cons_prefix_cons.mp hw).1)
        fun hw => hd (List.cons_prefix_cons.mp hw).1
  refine ⟨h.spells, (hsame h.spells).mpr h.begins, fun w' t' hspells hw' => ?_⟩
  exact h.longest w' t' hspells ((hsame hspells).mp hw')

/-- Where nothing fits, nothing fits in the other spelling either. -/
theorem Misfit.starred {offset : ℕ} (h : Misfit offset cs e) :
    Misfit offset (starred cs) e := by
  cases h with
  | @stranger c cs hblank hc =>
    have hcaret : c ≠ '^' := by
      rintro rfl
      exact absurd hc (by decide)
    rw [starred_cons hcaret]
    exact .stranger hblank hc
  | digitless hn hpoint hdigit hbegins hlongest =>
    have hsame : ∀ {m : Numeral}, m.WellFormed → (m.text <+: Token.starred cs ↔ m.text <+: cs) :=
      fun hm => begins_starred_iff (not_mem_numeral hm).1 (not_mem_numeral hm).2
    exact .digitless hn hpoint hdigit ((hsame hn).mpr hbegins)
      fun m hm hm' => hlongest m hm ((hsame hm).mp hm')

/-! ## Tokens of texts -/

theorem kindsFrom_of_isBlank (hc : Text.isBlank c = true) :
    kindsFrom 0 (c :: cs) = kindsFrom 0 cs := by
  rw [kindsFrom, scanFrom_of_isBlank hc, ← kindsFrom, kindsFrom_congr]

theorem kindsFrom_of_isLongest (h : IsLongest w t (w ++ cs)) :
    kindsFrom 0 (w ++ cs) = (kindsFrom 0 cs).map (t :: ·) := by
  rw [kindsFrom, scanFrom_of_isLongest h, kindsFrom_congr 0 (0 + Text.byteLength w), kindsFrom]
  cases scanFrom 0 (0 + Text.byteLength w) cs <;> rfl

theorem kindsFrom_of_misfit (h : Misfit 0 cs e) : kindsFrom 0 cs = none := by
  rw [kindsFrom, scanFrom_of_misfit h]
  rfl

theorem kindsFrom_caret (cs : List Char) :
    kindsFrom 0 ('^' :: cs) = (kindsFrom 0 cs).map (.caret :: ·) :=
  kindsFrom_of_isLongest (w := ['^']) (isLongest_mark (by decide) fun h => absurd h (by decide))

theorem kindsFrom_stars (cs : List Char) :
    kindsFrom 0 ('*' :: '*' :: cs) = (kindsFrom 0 cs).map (.caret :: ·) :=
  kindsFrom_of_isLongest (w := ['*', '*']) isLongest_power

theorem kindsFrom_star (h : cs.head? ≠ some '*') :
    kindsFrom 0 ('*' :: cs) = (kindsFrom 0 cs).map (.star :: ·) :=
  kindsFrom_of_isLongest (w := ['*']) (isLongest_mark (by decide) fun _ => h)

/-! ## Both spellings -/

/-- The tokens begin with an operator that joins operands. -/
def BeginsJoining (ts : List Token) : Prop :=
  ∃ t us, ts = t :: us ∧ t.joins = true

/-- A star in front leaves a text as readable as it is, and then an operator comes first. -/
theorem rel_kindsFrom_star (cs : List Char) :
    Option.Rel (fun _ us => BeginsJoining us) (kindsFrom 0 cs) (kindsFrom 0 ('*' :: cs)) := by
  -- a star that pairs with the next one leaves the rest of the text without that one
  induction hlength : cs.length using Nat.strongRecOn generalizing cs with
  | ind n ih =>
    subst hlength
    by_cases hhead : cs.head? = some '*'
    · obtain ⟨ds, rfl⟩ := List.head?_eq_some_iff.mp hhead
      have hrest := ih ds.length (Nat.lt_succ_self _) ds rfl
      rw [kindsFrom_stars]
      generalize kindsFrom 0 ds = a at hrest ⊢
      generalize kindsFrom 0 ('*' :: ds) = b at hrest ⊢
      cases hrest with
      | none => exact .none
      | some => exact .some ⟨.caret, _, rfl, rfl⟩
    · rw [kindsFrom_star hhead]
      cases kindsFrom 0 cs with
      | none => exact .none
      | some ts => exact .some ⟨.star, ts, rfl, rfl⟩

/-- With stars for carets the tokens of the text are interchangeable with its own, or the text is
unreadable either way. -/
def Respells (cs : List Char) : Prop :=
  Option.Rel Interchangeable (kindsFrom 0 cs) (kindsFrom 0 (starred cs))

namespace Respells

variable {rest : List Char}

/-- A lexeme in front that both spellings have. -/
theorem lexeme (hrest : Respells rest) (h : kindsFrom 0 cs = (kindsFrom 0 rest).map (t :: ·))
    (h' : kindsFrom 0 (starred cs) = (kindsFrom 0 (starred rest)).map (t :: ·)) : Respells cs := by
  rw [Respells] at hrest
  rw [Respells, h, h']
  generalize kindsFrom 0 rest = a at hrest ⊢
  generalize kindsFrom 0 (starred rest) = b at hrest ⊢
  cases hrest with
  | none => exact .none
  | some hrest => exact .some (hrest.cons t)

/-- A star before a caret is a star and a caret, and three stars are a caret and more. -/
theorem star_caret (hrest : Respells rest) : Respells ('*' :: '^' :: rest) := by
  have hstars : starred ('*' :: '^' :: rest) = '*' :: '*' :: '*' :: starred rest := rfl
  have hhead : ('^' :: rest).head? ≠ some '*' := fun h => absurd (Option.some.inj h) (by decide)
  have hshift := rel_kindsFrom_star (starred rest)
  rw [Respells] at hrest
  rw [Respells, hstars, kindsFrom_stars, kindsFrom_star hhead, kindsFrom_caret]
  generalize kindsFrom 0 rest = a at hrest ⊢
  generalize kindsFrom 0 (starred rest) = b at hrest hshift
  generalize kindsFrom 0 ('*' :: starred rest) = c at hshift ⊢
  cases hrest with
  | none =>
    cases hshift with
    | none => exact .none
  | some _ =>
    cases hshift with
    | some hjoining =>
      obtain ⟨t, us, rfl, ht⟩ := hjoining
      exact .some (Or.inr ⟨not_spread rfl rfl _, not_spread rfl ht _⟩)

/-- A star before anything else, or at the end. -/
theorem star (hrest : Respells rest) (hstar : rest.head? ≠ some '*')
    (hcaret : rest.head? ≠ some '^') : Respells ('*' :: rest) := by
  have hhead : (starred rest).head? ≠ some '*' := by
    cases rest with
    | nil => simp
    | cons d ds =>
      have hd : d ≠ '^' := fun hd => hcaret (congrArg some hd)
      rw [starred_cons hd]
      exact hstar
  exact hrest.lexeme (kindsFrom_star hstar) (kindsFrom_star hhead)

/-- A text that begins with neither a blank nor an operator of its own. -/
theorem of_front (hblank : Text.isBlank c = false) (hstar : c ≠ '*') (hcaret : c ≠ '^')
    (ih : ∀ rest : List Char, rest.length < (c :: cs).length → Respells rest) :
    Respells (c :: cs) := by
  cases hfound : Token.lexeme 0 c cs with
  | error e =>
    have hmisfit : Misfit 0 (c :: cs) e := (lexeme_eq_error_iff hblank).mp hfound
    rw [Respells, kindsFrom_of_misfit hmisfit, kindsFrom_of_misfit hmisfit.starred]
    exact .none
  | ok read =>
    obtain ⟨t, width⟩ := read
    obtain ⟨w, hw, -⟩ := (lexeme_eq_ok_iff hblank).mp hfound
    have hstarred := hw.starred hstar hcaret
    obtain ⟨v, rfl, rest, rfl⟩ := hw.spells.exists_of_begins hw.begins
    obtain ⟨-, hnotMem⟩ := hw.spells.not_mem hstar hcaret
    rw [← List.cons_append, starred_append hnotMem] at hstarred
    refine (ih rest ?_).lexeme (kindsFrom_of_isLongest hw) ?_
    · simp only [List.length_cons, List.length_append]
      omega
    · rw [← List.cons_append, starred_append hnotMem]
      exact kindsFrom_of_isLongest hstarred

end Respells

/-- A text and its spelling with stars have the same tokens, or in both of them two operators stand
side by side, or neither can be read. -/
theorem respells (cs : List Char) : Respells cs := by
  -- lexemes are passed over as a whole, so the recursion is on the length of what is left
  induction hlength : cs.length using Nat.strongRecOn generalizing cs with
  | ind n ih =>
    subst hlength
    have hshorter : ∀ rest : List Char, rest.length < cs.length → Respells rest :=
      fun rest h => ih rest.length h rest rfl
    cases cs with
    | nil => exact .some (Or.inl rfl)
    | cons c cs =>
      cases hblank : Text.isBlank c with
      | true =>
        have hcaret : c ≠ '^' := by
          rintro rfl
          exact absurd hblank (by decide)
        rw [Respells, starred_cons hcaret, kindsFrom_of_isBlank hblank,
          kindsFrom_of_isBlank hblank]
        exact hshorter cs (Nat.lt_succ_self _)
      | false =>
        by_cases hcaret : c = '^'
        · subst hcaret
          exact (hshorter cs (Nat.lt_succ_self _)).lexeme (kindsFrom_caret cs) (kindsFrom_stars _)
        by_cases hstar : c = '*'
        · subst hstar
          by_cases hnext : cs.head? = some '*'
          · obtain ⟨ds, rfl⟩ := List.head?_eq_some_iff.mp hnext
            have hds := hshorter ds (Nat.lt_succ_of_lt (Nat.lt_succ_self _))
            exact hds.lexeme (kindsFrom_stars ds) (kindsFrom_stars _)
          by_cases hnext' : cs.head? = some '^'
          · obtain ⟨ds, rfl⟩ := List.head?_eq_some_iff.mp hnext'
            exact (hshorter ds (Nat.lt_succ_of_lt (Nat.lt_succ_self _))).star_caret
          · exact (hshorter cs (Nat.lt_succ_self _)).star hnext hnext'
        · exact Respells.of_front hblank hstar hcaret hshorter

/-- Where the stars are paired anew, two operators stood side by side before. -/
example : kindsFrom 0 ['x', '*', '^', 'x'] = some [.ident "x", .star, .caret, .ident "x"] ∧
    kindsFrom 0 (starred ['x', '*', '^', 'x']) = some [.ident "x", .caret, .star, .ident "x"] :=
  ⟨rfl, rfl⟩

end Token

/-- The text with two stars for each caret. -/
def Text.starred (text : String) : String :=
  String.ofList (Token.starred text.toList)

namespace Expr

open Grammar

variable {text : String} {e : Expr}

/-- The tokens spell the formula: it is the tree of a derivation that nests no more operands than
the limit. -/
def IsSpelledBy (e : Expr) (ts : List Token) : Prop :=
  ∃ d : Derivation .sum, d.yield = ts ∧ d.nesting ≤ maxNestingDepth ∧ d.tree = e

/-- Whether a text is a formula, and which, is a matter of its tokens without their places. -/
theorem parse_eq_ok_iff_kinds :
    parse text = .ok e ↔ ∃ ts, Token.kindsFrom 0 text.toList = some ts ∧ e.IsSpelledBy ts := by
  rw [Token.kindsFrom, ← Token.scan, parse]
  cases Token.scan text with
  | error e' => simp [Except.toOption]
  | ok tokens =>
    rw [Parser.ok_bind, ofTokens_eq_ok_iff]
    simp [Except.toOption, IsSpelledBy]

/-- Interchangeable tokens spell the same formula, if any. -/
theorem isSpelledBy_congr {ts us : List Token} (h : Token.Interchangeable ts us) :
    e.IsSpelledBy ts ↔ e.IsSpelledBy us := by
  obtain rfl | ⟨hts, hus⟩ := h
  · rfl
  · refine iff_of_false ?_ ?_
    · rintro ⟨d, rfl, -⟩
      exact hts d.phrase.finished.spread
    · rintro ⟨d, rfl, -⟩
      exact hus d.phrase.finished.spread

theorem parse_starred_eq_ok_iff : parse (Text.starred text) = .ok e ↔ parse text = .ok e := by
  have hrel := Token.respells text.toList
  rw [Token.Respells] at hrel
  rw [parse_eq_ok_iff_kinds, parse_eq_ok_iff_kinds, Text.starred, String.toList_ofList]
  generalize Token.kindsFrom 0 text.toList = a at hrel ⊢
  generalize Token.kindsFrom 0 (Token.starred text.toList) = b at hrel ⊢
  cases hrel with
  | none => rfl
  | some h => simpa using (isSpelledBy_congr h).symm

/-- **A formula may be written with carets or with double stars.**  With two stars for each caret a
text is a formula exactly when it is one as it stands, and then the same formula.  Hence it has the
same samples, and a text that is no formula has none either way. -/
theorem carets_and_stars_interchangeable (text : String) :
    (∀ e, parse (Text.starred text) = .ok e ↔ parse text = .ok e) ∧
      ∀ range count, sampleText (Text.starred text) range count = sampleText text range count := by
  refine ⟨fun e => parse_starred_eq_ok_iff, fun range count => ?_⟩
  unfold sampleText
  cases hparse : parse text with
  | ok e => rw [parse_starred_eq_ok_iff.mpr hparse]
  | error e =>
    cases hstarred : parse (Text.starred text) with
    | error e' => rfl
    | ok e' =>
      rw [parse_starred_eq_ok_iff.mp hstarred] at hparse
      cases hparse

end Expr
end Plotting
