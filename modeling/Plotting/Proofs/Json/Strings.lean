import Plotting.Json.Printer
import Plotting.Json.Reader

/-!
# Strings are read back

A string is printed character by character, and each printed character is read
as one code unit.  Characters are never halves of a pair, so the code units are
joined to the characters they came from.
-/

namespace Plotting
namespace Document

open Json (escapeChar printString)

/-! ## One character -/

/-- A control character is spelled by two hexadecimal digits. -/
theorem hexUnit?_control {n : Nat} (h : n < 0x20) :
    hexUnit? '0' '0' (Nat.digitChar (n / 16)) (Nat.digitChar (n % 16)) = some n := by
  have hall : ∀ m < 0x20,
      hexUnit? '0' '0' (Nat.digitChar (m / 16)) (Nat.digitChar (m % 16)) = some m := by decide
  exact hall n h

/-- An ordinary character stands for itself. -/
theorem readUnits_cons {c : Char} (hquote : c ≠ '"') (hslash : c ≠ '\\') (hc : ¬ c.toNat < 0x20)
    (rest : List Char) :
    readUnits (c :: rest) = (readUnits rest).map fun p => (c.toNat :: p.1, p.2) := by
  rw [readUnits.eq_def]
  split
  · next h => cases h
  · next h => exact absurd (List.cons.inj h).1 hquote
  · next h => exact absurd (List.cons.inj h).1 hslash
  · next h => exact absurd (List.cons.inj h).1 hslash
  · next h =>
    obtain ⟨rfl, rfl⟩ := List.cons.inj h
    rw [if_neg hc]
    cases readUnits _ <;> rfl

/-- A letter behind a backslash stands for the character that it escapes. -/
theorem readUnits_escape {letter c : Char} (hu : letter ≠ 'u') (hc : escape? letter = some c)
    (rest : List Char) :
    readUnits ('\\' :: letter :: rest) =
      (readUnits rest).map fun p => (c.toNat :: p.1, p.2) := by
  rw [readUnits.eq_def]
  split
  · next h => cases h
  · next h => exact absurd (List.cons.inj h).1 (by decide)
  · next h => exact absurd (List.cons.inj (List.cons.inj h).2).1 hu
  · next h =>
    obtain ⟨rfl, rfl⟩ := List.cons.inj (List.cons.inj h).2
    rw [hc]
    cases readUnits _ <;> rfl
  · next hne h =>
    obtain ⟨rfl, rfl⟩ := List.cons.inj h
    exact absurd rfl (hne letter rest rfl)

/-- A character of a printed string is read as its code point. -/
theorem readUnits_escapeChar (c : Char) (rest : List Char) :
    readUnits (escapeChar c ++ rest) = (readUnits rest).map fun p => (c.toNat :: p.1, p.2) := by
  unfold escapeChar
  split
  · next h => subst h; exact readUnits_escape (by decide) rfl rest
  split
  · next h => subst h; exact readUnits_escape (by decide) rfl rest
  split
  · next h => subst h; exact readUnits_escape (by decide) rfl rest
  split
  · next h => subst h; exact readUnits_escape (by decide) rfl rest
  split
  · next h => subst h; exact readUnits_escape (by decide) rfl rest
  split
  · next h => subst h; exact readUnits_escape (by decide) rfl rest
  split
  · next h => subst h; exact readUnits_escape (by decide) rfl rest
  split
  · next h =>
    simp only [List.cons_append, List.nil_append, readUnits, hexUnit?_control h]
    cases readUnits rest <;> rfl
  · next hquote hslash _ _ _ _ _ hc => exact readUnits_cons hquote hslash hc rest

/-! ## Whole strings -/

theorem readUnits_flatMap_escapeChar (cs rest : List Char) :
    readUnits (cs.flatMap escapeChar ++ '"' :: rest) = some (cs.map Char.toNat, rest) := by
  induction cs with
  | nil => simp only [List.flatMap_nil, List.nil_append, readUnits, List.map_nil]
  | cons c cs ih =>
    rw [List.flatMap_cons, List.append_assoc, readUnits_escapeChar, ih, Option.map_some,
      List.map_cons]

/-- A character is no half of a pair. -/
theorem halves_toNat (c : Char) : isHighHalf c.toNat = false ∧ isLowHalf c.toNat = false := by
  have hvalid : c.toNat < 0xD800 ∨ 0xDFFF < c.toNat := by
    rcases c.valid with h | h
    · exact Or.inl h
    · exact Or.inr h.1
  simp only [isHighHalf, isLowHalf, Bool.and_eq_false_iff, decide_eq_false_iff_not]
  omega

theorem joinUnits?_map_toNat (cs : List Char) : joinUnits? (cs.map Char.toNat) = some cs := by
  induction cs with
  | nil => rw [List.map_nil, joinUnits?]
  | cons c cs ih =>
    obtain ⟨hhigh, hlow⟩ := halves_toNat c
    rw [List.map_cons, joinUnits?.eq_def]
    simp only [hhigh, hlow, ih, Bool.false_eq_true, if_false, Option.map_some, Char.ofNat_toNat]

/-- What is printed between quotes is read back behind the first of them. -/
theorem readString_printString (s : String) (rest : List Char) :
    ∃ body, printString s ++ rest = '"' :: body ∧ readString body = some (some s, rest) := by
  refine ⟨s.toList.flatMap escapeChar ++ '"' :: rest, ?_, ?_⟩
  · simp only [printString, List.cons_append, List.append_assoc, List.nil_append]
  · simp only [readString, readUnits_flatMap_escapeChar, joinUnits?_map_toNat,
      Option.bind_eq_bind, Option.bind_some, Option.pure_def, Option.map_some, String.ofList_toList]

end Document
end Plotting
