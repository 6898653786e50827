import Mathlib.Data.Nat.Notation
import Plotting.Expr.Lexeme
import Plotting.Proofs.Decimal.Longest

/-!
# Lexemes, and the longest of them

A lexeme is a text that is one token.  `Spells` lists them: numbers, names, the power operator of
two stars, and the marks of one character.  Nothing is said there of what may stand behind a lexeme,
nor of how one is found.  `Token.lexeme` finds one, and this module shows which: among all lexemes
that a text begins with, the longest, and there is only one of that length (`lexeme_eq_ok_iff`).

Where it finds none, there is none, for one of two reasons, and the error tells which
(`lexeme_eq_error_iff`).  Either the character in front belongs to no lexeme at all, or it is a
point that no digit stands next to.  The second is an unfinished number and is reported as a whole,
an exponent included.

The kinds of lexemes differ in their first characters, so that is where all case splits are made.
-/

namespace Plotting
namespace Token

/-! ## The lexemes -/

/-- The marks of one character and their tokens. -/
def punctuation : List (Char × Token) :=
  [('+', .plus), ('-', .minus), ('*', .star), ('/', .slash), ('^', .caret), ('(', .opening),
    (')', .closing), (',', .comma)]

/-- The lexemes, and the token that each of them is. -/
inductive Spells : List Char → Token → Prop
  /-- Digits with one point at most and one digit at least, and perhaps an exponent. -/
  | number {n : Numeral} {w : List Char} (hn : n.WellFormed) (hdigit : n.HasDigit)
      (hw : n.text = w) : Spells w (.number n.toDecimal.toFloat)
  | name {c : Char} {cs : List Char} (hc : beginsIdent c = true)
      (hcs : ∀ d ∈ cs, continuesIdent d = true) :
      Spells (c :: cs) (.ident (String.ofList (c :: cs)))
  | power : Spells ['*', '*'] .caret
  | mark {c : Char} {t : Token} (h : (c, t) ∈ punctuation) : Spells [c] t

/-- The characters of which lexemes are made. -/
def inAlphabet (c : Char) : Bool :=
  beginsNumeral c || continuesIdent c || punctuation.any fun mark => mark.1 == c

/-- Of all lexemes that the text begins with, this one is the longest. -/
structure IsLongest (w : List Char) (t : Token) (cs : List Char) : Prop where
  spells : Spells w t
  begins : w <+: cs
  longest : ∀ w' t', Spells w' t' → w' <+: cs → w'.length ≤ w.length

/-- Why a text at the offset begins with no lexeme, though it does not begin with a blank. -/
inductive Misfit (offset : ℕ) : List Char → ExprError → Prop
  /-- The first character is outside the alphabet. -/
  | stranger {c : Char} {cs : List Char} (hblank : Text.isBlank c = false)
      (hc : inAlphabet c = false) : Misfit offset (c :: cs) (.unexpectedChar c offset)
  /-- What begins like a number, taken as far as it goes, is a point without digits. -/
  | digitless {n : Numeral} {cs : List Char} (hn : n.WellFormed) (hpoint : n.point = true)
      (hdigit : ¬ n.HasDigit) (hbegins : n.text <+: cs)
      (hlongest : ∀ m : Numeral, m.WellFormed → m.text <+: cs → m.text.length ≤ n.text.length) :
      Misfit offset cs (.invalidNumber (String.ofList n.text) offset)

variable {c : Char} {cs v w w' : List Char} {t t' : Token} {offset : ℕ} {e : ExprError}

/-! ## Classes of characters -/

theorem toNat_of_isDigit (h : c.isDigit = true) : 0x30 ≤ c.toNat ∧ c.toNat ≤ 0x39 :=
  Char.isDigit_iff_toNat.mp h

theorem toNat_of_isAlpha (h : c.isAlpha = true) : 0x41 ≤ c.toNat ∧ c.toNat ≤ 0x7A := by
  rcases Bool.or_eq_true_iff.mp h with hupper | hlower
  · obtain ⟨hA, hZ⟩ : 'A'.val ≤ c.val ∧ c.val ≤ 'Z'.val := of_decide_eq_true hupper
    have hfrom : 0x41 ≤ c.toNat := UInt32.le_iff_toNat_le.mp hA
    have hto : c.toNat ≤ 0x5A := UInt32.le_iff_toNat_le.mp hZ
    omega
  · obtain ⟨ha, hz⟩ := Bool.and_eq_true_iff.mp hlower
    have hfrom : 0x61 ≤ c.toNat := UInt32.le_iff_toNat_le.mp (of_decide_eq_true ha)
    have hto : c.toNat ≤ 0x7A := UInt32.le_iff_toNat_le.mp (of_decide_eq_true hz)
    omega

/-- Names do not begin like numbers. -/
theorem not_beginsIdent (h : beginsNumeral c = true) : beginsIdent c = false := by
  rw [beginsNumeral, Bool.or_eq_true, beq_iff_eq] at h
  rcases h with h | rfl
  · have hdigit := toNat_of_isDigit h
    rw [beginsIdent, Bool.or_eq_false_iff]
    refine ⟨?_, ?_⟩
    · rw [← Bool.not_eq_true]
      intro halpha
      have := toNat_of_isAlpha halpha
      omega
    · rw [beq_eq_false_iff_ne]
      rintro rfl
      cases h
  · rfl

/-- Marks begin neither numbers nor names. -/
theorem not_begins_of_mem_punctuation (h : (c, t) ∈ punctuation) :
    beginsNumeral c = false ∧ beginsIdent c = false := by
  have hall : ∀ mark ∈ punctuation, beginsNumeral mark.1 = false ∧ beginsIdent mark.1 = false := by
    decide
  exact hall (c, t) h

/-- The marks are the star and the characters that are tokens by themselves. -/
theorem mem_punctuation_iff :
    (c, t) ∈ punctuation ↔ (c = '*' ∧ t = .star) ∨ ofChar? c = some t := by
  constructor
  · intro h
    simp only [punctuation, List.mem_cons, Prod.mk.injEq, List.not_mem_nil, or_false] at h
    rcases h with ⟨rfl, rfl⟩ | ⟨rfl, rfl⟩ | h | ⟨rfl, rfl⟩ | ⟨rfl, rfl⟩ | ⟨rfl, rfl⟩ | ⟨rfl, rfl⟩ |
      ⟨rfl, rfl⟩
    case inr.inr.inl => exact Or.inl h
    all_goals exact Or.inr rfl
  · rintro (⟨rfl, rfl⟩ | h)
    · decide
    · unfold ofChar? at h
      split at h <;> cases h <;> decide

theorem inAlphabet_of_mem_punctuation (h : (c, t) ∈ punctuation) : inAlphabet c = true := by
  rw [inAlphabet, Bool.or_eq_true]
  exact Or.inr (List.any_eq_true.mpr ⟨(c, t), h, beq_self_eq_true c⟩)

theorem inAlphabet_of_isDigit (h : c.isDigit = true) : inAlphabet c = true := by
  rw [inAlphabet, beginsNumeral, h]
  rfl

theorem inAlphabet_of_continuesIdent (h : continuesIdent c = true) : inAlphabet c = true := by
  rw [inAlphabet, h, Bool.or_true, Bool.true_or]

theorem continuesIdent_of_begins (h : beginsIdent c = true) : continuesIdent c = true := by
  rw [beginsIdent, Bool.or_eq_true] at h
  rw [continuesIdent, Char.isAlphanum, Bool.or_eq_true, Bool.or_eq_true]
  exact h.imp_left Or.inl

/-- The alphabet is part of the visible characters of ASCII. -/
theorem toNat_of_inAlphabet (h : inAlphabet c = true) : 0x21 ≤ c.toNat ∧ c.toNat ≤ 0x7E := by
  rw [inAlphabet, Bool.or_eq_true, Bool.or_eq_true, beginsNumeral, continuesIdent, Char.isAlphanum,
    Bool.or_eq_true, Bool.or_eq_true, Bool.or_eq_true, beq_iff_eq, beq_iff_eq] at h
  rcases h with ((hdigit | rfl) | ((halpha | hdigit) | rfl)) | hmark
  · have := toNat_of_isDigit hdigit
    omega
  · decide
  · have := toNat_of_isAlpha halpha
    omega
  · have := toNat_of_isDigit hdigit
    omega
  · decide
  · obtain ⟨⟨d, t⟩, hmem, hd⟩ := List.any_eq_true.mp hmark
    have hall : ∀ mark ∈ punctuation, 0x21 ≤ mark.1.toNat ∧ mark.1.toNat ≤ 0x7E := by decide
    rw [← eq_of_beq hd]
    exact hall _ hmem

theorem not_isBlank_of_inAlphabet (h : inAlphabet c = true) : Text.isBlank c = false := by
  obtain ⟨hlow, hhigh⟩ := toNat_of_inAlphabet h
  simp only [Text.isBlank, Text.blankRanges, List.any_cons, List.any_nil, Bool.or_eq_false_iff,
    Bool.and_eq_false_iff, decide_eq_false_iff_not, and_true]
  omega

theorem utf8Size_of_inAlphabet (h : inAlphabet c = true) : c.utf8Size = 1 := by
  rw [Char.utf8Size_eq_one_iff, UInt32.le_iff_toNat_le, Char.toNat_val]
  have hbound := (toNat_of_inAlphabet h).2
  have h127 : (127 : UInt32).toNat = 127 := rfl
  omega

/-! ## Characters of lexemes -/

end Token

namespace Numeral

/-- The characters of which numerals are made. -/
def isPart (c : Char) : Bool :=
  c.isDigit || ['.', 'e', 'E', '+', '-'].contains c

variable {c : Char}

theorem isPart_of_isDigit (h : c.isDigit = true) : isPart c = true := by
  rw [isPart, h, Bool.true_or]

theorem inAlphabet_of_isPart (h : isPart c = true) : Token.inAlphabet c = true := by
  rcases Bool.or_eq_true_iff.mp h with hdigit | hmark
  · exact Token.inAlphabet_of_isDigit hdigit
  · simp only [List.contains_eq_mem, List.mem_cons, List.not_mem_nil, or_false,
      decide_eq_true_eq] at hmark
    rcases hmark with rfl | rfl | rfl | rfl | rfl <;> decide

end Numeral

namespace Exponent

/-- The characters of a sign. -/
theorem isPart_of_sign {sign : List Char} (h : sign = [] ∨ sign = ['+'] ∨ sign = ['-']) :
    ∀ c ∈ sign, Numeral.isPart c = true := by
  rcases h with rfl | rfl | rfl
  · exact List.forall_mem_nil _
  · exact List.forall_mem_singleton.mpr (by decide)
  · exact List.forall_mem_singleton.mpr (by decide)

theorem inAlphabet_of_sign {sign : List Char} (h : sign = [] ∨ sign = ['+'] ∨ sign = ['-']) :
    ∀ c ∈ sign, Token.inAlphabet c = true :=
  fun c hc => Numeral.inAlphabet_of_isPart (isPart_of_sign h c hc)

/-- The characters of an exponent. -/
theorem WellFormed.isPart {x : Exponent} (h : x.WellFormed) :
    ∀ c ∈ x.text, Numeral.isPart c = true := by
  intro c hc
  rw [text, List.mem_cons, List.mem_append] at hc
  rcases hc with rfl | hc | hc
  · rcases h.marker with hm | hm <;> rw [hm] <;> decide
  · exact isPart_of_sign h.sign c hc
  · exact Numeral.isPart_of_isDigit (h.digits c hc)

end Exponent

namespace Numeral

/-- The characters of a numeral. -/
theorem WellFormed.isPart {n : Numeral} (h : n.WellFormed) :
    ∀ c ∈ n.text, Numeral.isPart c = true := by
  intro c hc
  rw [text, List.mem_append, List.mem_append] at hc
  rcases hc with (hc | hc) | hc
  · exact isPart_of_isDigit (h.whole c hc)
  · split at hc
    · rcases List.mem_cons.mp hc with rfl | hc
      · decide
      · exact isPart_of_isDigit (h.fraction c hc)
    · cases hc
  · cases hx : n.exponent with
    | none =>
      rw [hx] at hc
      cases hc
    | some x =>
      rw [hx] at hc
      exact (h.exponent x hx).isPart c hc

theorem WellFormed.inAlphabet {n : Numeral} (h : n.WellFormed) :
    ∀ c ∈ n.text, Token.inAlphabet c = true :=
  fun c hc => inAlphabet_of_isPart (h.isPart c hc)

/-- A numeral with a point and no digits begins with the point. -/
theorem exists_text_of_digitless {n : Numeral} (hpoint : n.point = true) (hdigit : ¬ n.HasDigit) :
    ∃ ds, n.text = '.' :: ds := by
  obtain ⟨whole, point, fraction, exponent⟩ := n
  obtain rfl : point = true := hpoint
  obtain ⟨rfl, -⟩ : whole = [] ∧ fraction = [] := not_hasDigit_iff.mp hdigit
  exact ⟨_, rfl⟩

/-- A numeral with digits begins with a digit or with the point. -/
theorem WellFormed.exists_head {n : Numeral} (h : n.WellFormed) (hdigit : n.HasDigit) :
    ∃ c cs, n.text = c :: cs ∧ Token.beginsNumeral c = true := by
  obtain ⟨whole, point, fraction, exponent⟩ := n
  cases whole with
  | cons d ds =>
    refine ⟨d, _, rfl, ?_⟩
    rw [Token.beginsNumeral, h.whole d List.mem_cons_self, Bool.true_or]
  | nil =>
    cases point with
    | true => exact ⟨'.', _, rfl, rfl⟩
    | false =>
      obtain rfl : fraction = [] := h.point rfl
      exact absurd rfl hdigit

end Numeral

namespace Token

variable {c : Char} {cs v w w' : List Char} {t t' : Token} {offset : ℕ} {e : ExprError}

namespace Spells

/-- A lexeme has a first character. -/
theorem exists_cons (h : Spells w t) : ∃ c v, w = c :: v := by
  cases h with
  | number hn hdigit hw =>
    obtain ⟨c, cs, htext, -⟩ := hn.exists_head hdigit
    exact ⟨c, cs, hw ▸ htext⟩
  | name => exact ⟨_, _, rfl⟩
  | power => exact ⟨_, _, rfl⟩
  | mark => exact ⟨_, _, rfl⟩

theorem inAlphabet (h : Spells w t) : ∀ c ∈ w, inAlphabet c = true := by
  cases h with
  | number hn _ hw => exact hw ▸ hn.inAlphabet
  | name hc hcs =>
    intro d hd
    rcases List.mem_cons.mp hd with rfl | hd
    · exact inAlphabet_of_continuesIdent (continuesIdent_of_begins hc)
    · exact inAlphabet_of_continuesIdent (hcs d hd)
  | power =>
    have hstar : Token.inAlphabet '*' = true := by decide
    exact List.forall_mem_cons.mpr ⟨hstar, List.forall_mem_singleton.mpr hstar⟩
  | mark hmem =>
    intro d hd
    rw [List.mem_singleton.mp hd]
    exact inAlphabet_of_mem_punctuation hmem

/-- A lexeme holds no blank. -/
theorem not_isBlank (h : Spells w t) : ∀ c ∈ w, Text.isBlank c = false :=
  fun c hc => not_isBlank_of_inAlphabet (h.inAlphabet c hc)

/-! ### One kind for each first character -/

/-- What begins like a number is one. -/
theorem number_of_begins (h : Spells (c :: v) t) (hc : beginsNumeral c = true) :
    ∃ n : Numeral, n.WellFormed ∧ n.HasDigit ∧ n.text = c :: v ∧
      t = .number n.toDecimal.toFloat := by
  cases h with
  | number hn hdigit hw => exact ⟨_, hn, hdigit, hw, rfl⟩
  | name hname => rw [not_beginsIdent hc] at hname; cases hname
  | power => cases hc
  | mark hmem => rw [(not_begins_of_mem_punctuation hmem).1] at hc; cases hc

/-- What begins like a name is one. -/
theorem name_of_begins (h : Spells (c :: v) t) (hc : beginsIdent c = true) :
    (∀ d ∈ v, continuesIdent d = true) ∧ t = .ident (String.ofList (c :: v)) := by
  cases h with
  | number hn hdigit hw =>
    obtain ⟨d, ds, htext, hd⟩ := hn.exists_head hdigit
    rw [hw] at htext
    cases htext
    rw [not_beginsIdent hd] at hc
    cases hc
  | name _ hcs => exact ⟨hcs, rfl⟩
  | power => cases hc
  | mark hmem => rw [(not_begins_of_mem_punctuation hmem).2] at hc; cases hc

/-- All else is a mark or two stars. -/
theorem of_not_begins (h : Spells (c :: v) t) (hnumeral : beginsNumeral c = false)
    (hident : beginsIdent c = false) :
    (v = [] ∧ (c, t) ∈ punctuation) ∨ (c = '*' ∧ v = ['*'] ∧ t = .caret) := by
  cases h with
  | number hn hdigit hw =>
    obtain ⟨d, ds, htext, hd⟩ := hn.exists_head hdigit
    rw [hw] at htext
    cases htext
    rw [hnumeral] at hd
    cases hd
  | name hname => rw [hident] at hname; cases hname
  | power => exact Or.inr ⟨rfl, rfl, rfl⟩
  | mark hmem => exact Or.inl ⟨rfl, hmem⟩

/-- A lexeme is one token only. -/
theorem unique (h : Spells w t) (h' : Spells w t') : t = t' := by
  obtain ⟨c, v, rfl⟩ := h.exists_cons
  cases hnumeral : beginsNumeral c with
  | true =>
    obtain ⟨n, hn, -, htext, rfl⟩ := h.number_of_begins hnumeral
    obtain ⟨m, hm, -, htext', rfl⟩ := h'.number_of_begins hnumeral
    rw [Numeral.eq_of_text_eq hn hm (htext.trans htext'.symm)]
  | false =>
    cases hident : beginsIdent c with
    | true => rw [(h.name_of_begins hident).2, (h'.name_of_begins hident).2]
    | false =>
      have hfunction : ∀ a ∈ punctuation, ∀ b ∈ punctuation, a.1 = b.1 → a.2 = b.2 := by decide
      rcases h.of_not_begins hnumeral hident with ⟨rfl, hmem⟩ | ⟨rfl, rfl, rfl⟩
      · rcases h'.of_not_begins hnumeral hident with ⟨-, hmem'⟩ | ⟨-, hv, -⟩
        · exact hfunction _ hmem _ hmem' rfl
        · cases hv
      · rcases h'.of_not_begins hnumeral hident with ⟨hv, -⟩ | ⟨-, -, rfl⟩
        · cases hv
        · rfl

/-- A lexeme at the front of a text begins with the first character. -/
theorem exists_of_begins (h : Spells w t) (hw : w <+: c :: cs) : ∃ v, w = c :: v ∧ v <+: cs := by
  obtain ⟨d, v, rfl⟩ := h.exists_cons
  obtain ⟨rfl, hv⟩ := List.cons_prefix_cons.mp hw
  exact ⟨v, rfl, hv⟩

end Spells

/-! ## The longest lexeme -/

/-- There is one longest lexeme. -/
theorem IsLongest.unique (h : IsLongest w t cs) (h' : IsLongest w' t' cs) : w = w' ∧ t = t' := by
  have hle := h'.longest w t h.spells h.begins
  have hge := h.longest w' t' h'.spells h'.begins
  have hw : w = w' := (List.prefix_of_prefix_length_le h.begins h'.begins hle).eq_of_length
    (Nat.le_antisymm hle hge)
  subst hw
  exact ⟨rfl, h.spells.unique h'.spells⟩

theorem isLongest_number (hc : beginsNumeral c = true)
    (hdigit : (Numeral.scan (c :: cs)).HasDigit) :
    IsLongest (Numeral.scan (c :: cs)).text
      (.number (Numeral.scan (c :: cs)).toDecimal.toFloat) (c :: cs) where
  spells := .number (Numeral.wellFormed_scan _) hdigit rfl
  begins := Numeral.scan_text_prefixes _
  longest w' t' hspells hw' := by
    obtain ⟨v, rfl, -⟩ := hspells.exists_of_begins hw'
    obtain ⟨n, hn, -, htext, -⟩ := hspells.number_of_begins hc
    obtain ⟨rest, hrest⟩ := hw'
    rw [← hrest, ← htext]
    exact hn.length_text_le rest

theorem isLongest_name (hc : beginsIdent c = true) :
    IsLongest (c :: cs.takeWhile continuesIdent)
      (.ident (String.ofList (c :: cs.takeWhile continuesIdent))) (c :: cs) where
  spells := .name hc (List.all_eq_true.mp List.all_takeWhile)
  begins := List.cons_prefix_cons.mpr ⟨rfl, List.takeWhile_prefix _⟩
  longest w' t' hspells hw' := by
    obtain ⟨v, rfl, rest, rfl⟩ := hspells.exists_of_begins hw'
    obtain ⟨hv, -⟩ := hspells.name_of_begins hc
    rw [List.takeWhile_append_of_pos hv, List.length_cons, List.length_cons, List.length_append]
    omega

theorem isLongest_power : IsLongest ['*', '*'] .caret ('*' :: '*' :: cs) where
  spells := .power
  begins := ⟨cs, rfl⟩
  longest w' t' hspells hw' := by
    obtain ⟨v, rfl, -⟩ := hspells.exists_of_begins hw'
    rcases hspells.of_not_begins rfl rfl with ⟨rfl, -⟩ | ⟨-, rfl, -⟩ <;> decide

theorem isLongest_mark (h : (c, t) ∈ punctuation) (hstar : c = '*' → cs.head? ≠ some '*') :
    IsLongest [c] t (c :: cs) where
  spells := .mark h
  begins := ⟨cs, rfl⟩
  longest w' t' hspells hw' := by
    obtain ⟨v, rfl, hv⟩ := hspells.exists_of_begins hw'
    obtain ⟨hnumeral, hident⟩ := not_begins_of_mem_punctuation h
    rcases hspells.of_not_begins hnumeral hident with ⟨rfl, -⟩ | ⟨rfl, rfl, -⟩
    · exact Nat.le_refl _
    · obtain ⟨rest, rfl⟩ := hv
      exact absurd rfl (hstar rfl)

/-- What is found is the longest lexeme. -/
theorem exists_isLongest_of_lexeme {width : ℕ} (h : lexeme offset c cs = .ok (t, width)) :
    ∃ w, IsLongest w t (c :: cs) ∧ w.length = width := by
  unfold lexeme at h
  split at h
  · next hc =>
    dsimp only at h
    split at h
    · next hdigit =>
      cases h
      exact ⟨_, isLongest_number hc hdigit, rfl⟩
    · cases h
  · split at h
    · next hc =>
      cases h
      exact ⟨_, isLongest_name hc, rfl⟩
    · split at h
      · next hstar =>
        subst hstar
        split at h
        · next hhead =>
          cases h
          obtain ⟨ds, rfl⟩ : ∃ ds, cs = '*' :: ds := List.head?_eq_some_iff.mp hhead
          exact ⟨_, isLongest_power, rfl⟩
        · next hhead =>
          cases h
          exact ⟨_, isLongest_mark (by decide) fun _ => hhead, rfl⟩
      · next hstar =>
        split at h
        · next token htoken =>
          cases h
          exact ⟨_, isLongest_mark (mem_punctuation_iff.mpr (Or.inr htoken))
            fun hc => absurd hc hstar, rfl⟩
        · cases h

/-! ## Places without a lexeme -/

namespace Misfit

/-- A point without digits stands in front. -/
theorem eq_point {n : Numeral} (hpoint : n.point = true) (hdigit : ¬ n.HasDigit)
    (hbegins : n.text <+: c :: cs) : c = '.' := by
  obtain ⟨ds, hds⟩ := Numeral.exists_text_of_digitless hpoint hdigit
  rw [hds] at hbegins
  exact (List.cons_prefix_cons.mp hbegins).1.symm

/-- There is a first character, which is not blank. -/
theorem exists_cons (h : Misfit offset cs e) :
    ∃ c ds, cs = c :: ds ∧ Text.isBlank c = false := by
  cases h with
  | stranger hblank _ => exact ⟨_, _, rfl, hblank⟩
  | digitless _ hpoint hdigit hbegins _ =>
    obtain ⟨ds, hds⟩ := Numeral.exists_text_of_digitless hpoint hdigit
    rw [hds] at hbegins
    obtain ⟨rest, rfl⟩ := hbegins
    exact ⟨'.', ds ++ rest, rfl, by decide⟩

/-- The text begins with no lexeme. -/
theorem not_begins (h : Misfit offset cs e) (hspells : Spells w t) : ¬ w <+: cs := by
  intro hw
  obtain ⟨c, v, rfl⟩ := hspells.exists_cons
  obtain ⟨after, rfl⟩ := hw
  cases h with
  | stranger _ hc =>
    rw [hspells.inAlphabet c List.mem_cons_self] at hc
    cases hc
  | digitless hn hpoint hdigit hbegins hlongest =>
    -- a number would have a digit, and the scan would find it
    obtain rfl := eq_point hpoint hdigit hbegins
    obtain ⟨m, hm, hmdigit, htext, -⟩ := hspells.number_of_begins rfl
    refine hdigit ?_
    rw [Numeral.eq_scan_of_longest hn hbegins hlongest, ← htext]
    exact hm.hasDigit_scan hmdigit after

/-- There is one reason. -/
theorem unique {e' : ExprError} (h : Misfit offset cs e) (h' : Misfit offset cs e') : e = e' := by
  cases h with
  | stranger _ hc =>
    cases h' with
    | stranger => rfl
    | digitless _ hpoint hdigit hbegins _ =>
      rw [eq_point hpoint hdigit hbegins] at hc
      cases hc
  | digitless hn hpoint hdigit hbegins hlongest =>
    cases h' with
    | stranger _ hc =>
      rw [eq_point hpoint hdigit hbegins] at hc
      cases hc
    | digitless hn' _ _ hbegins' hlongest' =>
      rw [Numeral.eq_scan_of_longest hn hbegins hlongest,
        Numeral.eq_scan_of_longest hn' hbegins' hlongest']

end Misfit

/-- What is reported is the reason. -/
theorem misfit_of_lexeme (hblank : Text.isBlank c = false)
    (h : lexeme offset c cs = .error e) : Misfit offset (c :: cs) e := by
  unfold lexeme at h
  split at h
  · next hc =>
    dsimp only at h
    split at h
    · cases h
    · next hdigit =>
      cases h
      have hwhole : (Numeral.scan (c :: cs)).whole = [] :=
        (Numeral.not_hasDigit_iff.mp hdigit).1
      rw [Numeral.whole_scan] at hwhole
      rw [beginsNumeral, Bool.or_eq_true, beq_iff_eq] at hc
      rcases hc with hc | rfl
      · rw [List.takeWhile_cons_of_pos hc] at hwhole
        cases hwhole
      · have hpoint : (Numeral.scan ('.' :: cs)).point = true :=
          congrArg Numeral.point (Numeral.scan_pointed (fun _ h => absurd h List.not_mem_nil) cs)
        refine .digitless (Numeral.wellFormed_scan _) hpoint hdigit
          (Numeral.scan_text_prefixes _) fun m hm hbegins => ?_
        obtain ⟨rest, hrest⟩ := hbegins
        rw [← hrest]
        exact hm.length_text_le rest
  · next hnumeral =>
    split at h
    · cases h
    · next hident =>
      split at h
      · split at h <;> cases h
      · next hstar =>
        split at h
        · cases h
        · next htoken =>
          cases h
          refine .stranger hblank ?_
          rw [Bool.not_eq_true] at hnumeral hident
          rw [inAlphabet, hnumeral, Bool.false_or, Bool.or_eq_false_iff]
          refine ⟨?_, ?_⟩
          · rw [beginsIdent, Bool.or_eq_false_iff] at hident
            rw [beginsNumeral, Bool.or_eq_false_iff] at hnumeral
            rw [continuesIdent, Char.isAlphanum, hident.1, hnumeral.1, hident.2]
            rfl
          · rw [← Bool.not_eq_true, List.any_eq_true]
            rintro ⟨⟨d, t⟩, hmem, hd⟩
            obtain rfl : d = c := eq_of_beq hd
            rcases mem_punctuation_iff.mp hmem with ⟨hd, -⟩ | ht
            · exact hstar hd
            · rw [htoken] at ht
              cases ht

/-! ## What is found, exactly -/

/-- A lexeme is found when it is the longest. -/
theorem lexeme_eq_ok_iff (hblank : Text.isBlank c = false) {width : ℕ} :
    lexeme offset c cs = .ok (t, width) ↔ ∃ w, IsLongest w t (c :: cs) ∧ w.length = width := by
  refine ⟨exists_isLongest_of_lexeme, ?_⟩
  rintro ⟨w, hw, rfl⟩
  cases hfound : lexeme offset c cs with
  | ok found =>
    obtain ⟨t', width⟩ := found
    obtain ⟨w', hw', rfl⟩ := exists_isLongest_of_lexeme hfound
    obtain ⟨rfl, rfl⟩ := hw.unique hw'
    rfl
  | error e => exact absurd hw.begins ((misfit_of_lexeme hblank hfound).not_begins hw.spells)

/-- A lexeme is missed when there is none, for the reason that there is none. -/
theorem lexeme_eq_error_iff (hblank : Text.isBlank c = false) :
    lexeme offset c cs = .error e ↔ Misfit offset (c :: cs) e := by
  refine ⟨misfit_of_lexeme hblank, fun h => ?_⟩
  cases hfound : lexeme offset c cs with
  | ok found =>
    obtain ⟨t, width⟩ := found
    obtain ⟨w, hw, -⟩ := exists_isLongest_of_lexeme hfound
    exact absurd hw.begins (h.not_begins hw.spells)
  | error e' => rw [(misfit_of_lexeme hblank hfound).unique h]

end Token
end Plotting
