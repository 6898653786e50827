import Plotting.Proofs.Json.Numbers
import Plotting.Proofs.Json.Strings

/-!
# One step of the reader

What the reader does at each kind of token: it skips the blanks in front, looks
at the first character, and hands the rest to the reader of what that character
begins.  Digits and the minus come last, so a number is whatever begins with
nothing else.
-/

namespace Plotting
namespace Document

variable {reader : NumberReader} {fuel : ℕ} {cs rest : List Char}

/-! ## Blanks -/

/-- Every character is a blank. -/
def AllBlanks (bs : List Char) : Prop :=
  ∀ b ∈ bs, isBlank b = true

theorem skipBlanks_append {bs : List Char} (h : AllBlanks bs) (cs : List Char) :
    skipBlanks (bs ++ cs) = skipBlanks cs :=
  List.dropWhile_append_of_pos h

theorem skipBlanks_cons {c : Char} (h : isBlank c = false) (cs : List Char) :
    skipBlanks (c :: cs) = c :: cs :=
  List.dropWhile_cons_of_neg (by simp [h])

/-- Blanks do not go on with a number. -/
theorem ends_append {bs : List Char} (h : AllBlanks bs) (hcs : Numeral.Ends cs) :
    Numeral.Ends (bs ++ cs) := by
  cases bs with
  | nil => exact hcs
  | cons b bs =>
    intro c hc
    have hb : isBlank c = true := h c (by rw [← Option.some_inj.mp hc]; exact List.mem_cons_self)
    simp only [isBlank, Bool.or_eq_true, beq_iff_eq] at hb
    rcases hb with ((rfl | rfl) | rfl) | rfl <;> decide

theorem ends_cons {c : Char} (h : c.isDigit = false ∧ c ≠ '.' ∧ c ≠ 'e' ∧ c ≠ 'E')
    (cs : List Char) : Numeral.Ends (c :: cs) := by
  intro d hd
  rw [← Option.some_inj.mp hd]
  exact h

/-! ## One token -/

theorem readValue_quote {body : List Char} {s : String}
    (h : readString body = some (some s, rest)) :
    readValue reader (fuel + 1) ('"' :: body) = some (.str s, rest) := by
  simp [readValue, h]

/-- A digit or a minus can only begin a number. -/
theorem readValue_number {c : Char} (h : c.isDigit = true ∨ c = '-') (cs : List Char) :
    readValue reader (fuel + 1) (c :: cs) = readNumber reader (c :: cs) := by
  have hne : c ≠ 'n' ∧ c ≠ 't' ∧ c ≠ 'f' ∧ c ≠ '"' ∧ c ≠ '[' ∧ c ≠ '{' := by
    rcases h with h | rfl
    · refine ⟨?_, ?_, ?_, ?_, ?_, ?_⟩ <;> rintro rfl <;> cases h
    · decide
  obtain ⟨hn, ht, hf, hquote, hbracket, hbrace⟩ := hne
  rw [readValue.eq_def]
  split
  · next heq => cases heq
  · next heq => cases heq
  · next heq => exact absurd (List.cons.inj heq).1 hn
  · next heq => exact absurd (List.cons.inj heq).1 ht
  · next heq => exact absurd (List.cons.inj heq).1 hf
  · next heq => exact absurd (List.cons.inj heq).1 hquote
  · next heq => exact absurd (List.cons.inj heq).1 hbracket
  · next heq => exact absurd (List.cons.inj heq).1 hbrace
  · rfl

theorem readValue_bracket (h : (skipBlanks cs).head? ≠ some ']') :
    readValue reader (fuel + 1) ('[' :: cs) =
      (readItems reader fuel (skipBlanks cs)).map fun p => (.arr p.1, p.2) := by
  rw [readValue]
  simp only [if_neg h]
  cases readItems reader fuel (skipBlanks cs) <;> rfl

theorem readValue_brace (h : (skipBlanks cs).head? ≠ some '}') :
    readValue reader (fuel + 1) ('{' :: cs) =
      (readMembers reader fuel (skipBlanks cs)).map fun p => (ofReadMembers p.1, p.2) := by
  rw [readValue]
  simp only [if_neg h]
  cases readMembers reader fuel (skipBlanks cs) <;> rfl

/-! ## Items and members -/

section Steps
variable {after more : List Char} {item : Document} {key : Option String}

theorem readItems_comma (h : readValue reader fuel cs = some (item, after))
    (hafter : skipBlanks after = ',' :: more) :
    readItems reader (fuel + 1) cs =
      (readItems reader fuel (skipBlanks more)).map fun p => (item :: p.1, p.2) := by
  rw [readItems, h]
  simp only [Option.bind_eq_bind, Option.bind_some, hafter]
  cases readItems reader fuel (skipBlanks more) <;> rfl

theorem readItems_bracket (h : readValue reader fuel cs = some (item, after))
    (hafter : skipBlanks after = ']' :: more) :
    readItems reader (fuel + 1) cs = some ([item], more) := by
  rw [readItems, h]
  simp only [Option.bind_eq_bind, Option.bind_some, hafter]
  rfl

theorem readMembers_comma {body value : List Char} (hkey : readString body = some (key, cs))
    (hcolon : skipBlanks cs = ':' :: value)
    (h : readValue reader fuel (skipBlanks value) = some (item, after))
    (hafter : skipBlanks after = ',' :: more) :
    readMembers reader (fuel + 1) ('"' :: body) =
      (readMembers reader fuel (skipBlanks more)).map fun p => ((key, item) :: p.1, p.2) := by
  rw [readMembers]
  simp only [List.head?_cons, List.tail_cons, hkey, hcolon, h, hafter, Option.bind_eq_bind,
    Option.bind_some]
  cases readMembers reader fuel (skipBlanks more) <;> rfl

theorem readMembers_brace {body value : List Char} (hkey : readString body = some (key, cs))
    (hcolon : skipBlanks cs = ':' :: value)
    (h : readValue reader fuel (skipBlanks value) = some (item, after))
    (hafter : skipBlanks after = '}' :: more) :
    readMembers reader (fuel + 1) ('"' :: body) = some ([(key, item)], more) := by
  rw [readMembers]
  simp only [List.head?_cons, List.tail_cons, hkey, hcolon, h, hafter, Option.bind_eq_bind,
    Option.bind_some]
  rfl

end Steps

end Document
end Plotting
